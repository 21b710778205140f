import ObjectFabric.Auth.SigV4

/-!
# Presigned — what the holder of a presigned URL can make the gateway do

`Handler.dispatch` of `api/s3compat/handler.go` chooses the operation from the method, the path, the
query and one header; the operation then reads further parameters and `x-amz-*` headers.  A
presigned URL fixes the canonical request only: of the headers it covers the listed ones, of each
the first value, and of that value what is left without white space at its ends.
-/

namespace ObjectFabric

open Streams

/-! ## 1. Dispatch -/

inductive OperationKind
  | notImplemented (sub : Parameter)
  | uploadPart | putObjectTagging | putBucketVersioning | putObjectLockConfiguration | putBucketCors
  | putBucketLifecycleConfiguration | putBucketNotificationConfiguration | putBucketEncryption
  | putObjectRetention | putObjectLegalHold | putBucket | copy | put
  | createMultipartUpload | completeMultipartUpload
  | getObjectTagging | getObjectLockConfiguration | getBucketCors | getBucketLifecycleConfiguration
  | getBucketNotificationConfiguration | getBucketEncryption | getObjectRetention
  | getObjectLegalHold | listMultipartUploads | getBucketVersioning | listObjectVersions
  | listBucket | get
  | headBucket | head
  | abortMultipartUpload | deleteObjectTagging | deleteBucketCors
  | deleteBucketLifecycleConfiguration | deleteBucketEncryption | delete
  | corsPreflight | methodNotAllowed
  deriving DecidableEq

/-- The `x-amz-*` headers that are read with `Header.Get`. -/
inductive AmzHeader
  | copySource | copySourceIfMatch | copySourceIfNoneMatch | copySourceIfModifiedSince
  | copySourceIfUnmodifiedSince | tagging | taggingDirective | metadataDirective
  | bypassGovernanceRetention | metaZkEncryption
  deriving DecidableEq

def AmzHeader.text : AmzHeader → String
  | .copySource => "x-amz-copy-source"
  | .copySourceIfMatch => "x-amz-copy-source-if-match"
  | .copySourceIfNoneMatch => "x-amz-copy-source-if-none-match"
  | .copySourceIfModifiedSince => "x-amz-copy-source-if-modified-since"
  | .copySourceIfUnmodifiedSince => "x-amz-copy-source-if-unmodified-since"
  | .tagging => "x-amz-tagging"
  | .taggingDirective => "x-amz-tagging-directive"
  | .metadataDirective => "x-amz-metadata-directive"
  | .bypassGovernanceRetention => "x-amz-bypass-governance-retention"
  | .metaZkEncryption => "x-amz-meta-zk-encryption"

def AmzHeader.name (h : AmzHeader) : Bytes := utf8 h.text

/-- `parseBucketKey` -/
def HttpRequest.parseBucketKey (path : Bytes) : Bytes × Bytes :=
  cut slash (if [slash].isPrefixOf path then path.drop 1 else path)

def unsupportedSubresourceKeys : List Parameter :=
  [.accelerate, .acl, .analytics, .intelligentTiering, .inventory, .logging, .metrics,
    .ownershipControls, .policy, .publicAccessBlock, .replication, .requestPayment, .website]

section

variable (q : Parameter → Option Bytes) (key copySource : Bytes)

def putSubresource : Option OperationKind :=
  if (q .uploadId).getD [] ≠ [] ∧ (q .partNumber).getD [] ≠ [] then some .uploadPart
  else if (q .tagging).isSome then some .putObjectTagging
  else if (q .versioning).isSome then some .putBucketVersioning
  else if (q .objectLock).isSome then some .putObjectLockConfiguration
  else if (q .cors).isSome then some .putBucketCors
  else if (q .lifecycle).isSome then some .putBucketLifecycleConfiguration
  else if (q .notification).isSome then some .putBucketNotificationConfiguration
  else if (q .encryption).isSome then some .putBucketEncryption
  else if (q .retention).isSome then some .putObjectRetention
  else if (q .legalHold).isSome then some .putObjectLegalHold
  else none

def dispatchPut : OperationKind :=
  (putSubresource q).getD
    (if key = [] then .putBucket else if copySource ≠ [] then .copy else .put)

def dispatchPost : OperationKind :=
  if (q .uploads).isSome then .createMultipartUpload
  else if (q .uploadId).getD [] ≠ [] then .completeMultipartUpload
  else .methodNotAllowed

def dispatchGet : OperationKind :=
  if (q .tagging).isSome then .getObjectTagging
  else if key = [] ∧ (q .objectLock).isSome then .getObjectLockConfiguration
  else if key = [] ∧ (q .cors).isSome then .getBucketCors
  else if key = [] ∧ (q .lifecycle).isSome then .getBucketLifecycleConfiguration
  else if key = [] ∧ (q .notification).isSome then .getBucketNotificationConfiguration
  else if key = [] ∧ (q .encryption).isSome then .getBucketEncryption
  else if key ≠ [] ∧ (q .retention).isSome then .getObjectRetention
  else if key ≠ [] ∧ (q .legalHold).isSome then .getObjectLegalHold
  else if key = [] ∧ (q .uploads).isSome then .listMultipartUploads
  else if key = [] ∧ (q .versioning).isSome then .getBucketVersioning
  else if key = [] ∧ (q .versions).isSome then .listObjectVersions
  else if key = [] ∨ (q .listType).isSome then .listBucket
  else .get

def dispatchDelete : OperationKind :=
  if (q .uploadId).getD [] ≠ [] then .abortMultipartUpload
  else if (q .tagging).isSome then .deleteObjectTagging
  else if (q .cors).isSome then .deleteBucketCors
  else if (q .lifecycle).isSome then .deleteBucketLifecycleConfiguration
  else if (q .encryption).isSome then .deleteBucketEncryption
  else if key = [] ∧ (q .notification).isSome then .methodNotAllowed
  else .delete

def dispatchMethod (method : Bytes) : OperationKind :=
  if method = utf8 "OPTIONS" then .corsPreflight
  else
    match unsupportedSubresourceKeys.find? fun p => (q p).isSome with
    | some sub => .notImplemented sub
    | none =>
      if method = utf8 "PUT" then dispatchPut q key copySource
      else if method = utf8 "POST" then dispatchPost q
      else if method = utf8 "GET" then dispatchGet q key
      else if method = utf8 "HEAD" then if key = [] then .headBucket else .head
      else if method = utf8 "DELETE" then dispatchDelete q key
      else .methodNotAllowed

end

namespace HttpRequest

variable (r : HttpRequest)

def parameter (p : Parameter) : Option Bytes := queryFirst r.rawQuery p.name

def amz (h : AmzHeader) : Bytes := r.get h.name

def dispatch : OperationKind :=
  dispatchMethod r.parameter (parseBucketKey r.path).2 (r.amz .copySource) r.method

end HttpRequest

/-! ## 2. What an operation reads -/

namespace OperationKind

def parameters : OperationKind → List Parameter
  | uploadPart => [.uploadId, .partNumber]
  | completeMultipartUpload | abortMultipartUpload => [.uploadId]
  | putObjectTagging | getObjectTagging | deleteObjectTagging => [.versionId]
  | putObjectRetention | getObjectRetention | putObjectLegalHold | getObjectLegalHold => [.versionId]
  | listBucket => [.continuationToken, .maxKeys]
  | listObjectVersions => [.keyPrefix]
  | get | head => [.versionId, .responseContentType, .responseContentLanguage, .responseExpires,
      .responseCacheControl, .responseContentDisposition, .responseContentEncoding]
  | delete => [.versionId]
  | _ => []

/-- The `x-amz-*` headers that decide on the operation or that its handler reads. -/
def amzHeaders : OperationKind → List AmzHeader
  | put => [.copySource, .tagging, .metaZkEncryption, .bypassGovernanceRetention]
  | copy => [.copySource, .copySourceIfMatch, .copySourceIfNoneMatch, .copySourceIfModifiedSince,
      .copySourceIfUnmodifiedSince, .tagging, .taggingDirective, .metadataDirective,
      .bypassGovernanceRetention]
  | createMultipartUpload => [.tagging]
  | uploadPart => [.metaZkEncryption]
  | completeMultipartUpload | delete | putObjectRetention => [.bypassGovernanceRetention]
  | _ => []

/-- All values of the `x-amz-meta-*` headers become the object's user metadata. -/
def storesUserMetadata : OperationKind → Bool
  | put | copy | createMultipartUpload => true
  | _ => false

end OperationKind

def userMetadataPrefix : Bytes := utf8 "x-amz-meta-"

structure Operation where
  kind : OperationKind
  bucketKey : Bytes × Bytes
  parameters : List (Option Bytes)
  amzHeaders : List Bytes
  userMetadata : Bytes → List Bytes

def HttpRequest.operation (r : HttpRequest) : Operation where
  kind := r.dispatch
  bucketKey := HttpRequest.parseBucketKey r.path
  parameters := r.dispatch.parameters.map r.parameter
  amzHeaders := r.dispatch.amzHeaders.map r.amz
  userMetadata := fun name =>
    if r.dispatch.storesUserMetadata ∧ userMetadataPrefix.isPrefixOf name then r.header name else []

/-! ## 3. What the canonical request determines -/

theorem newline_not_mem_canonicalURI (path : Bytes) : newline ∉ canonicalURI path := by
  unfold canonicalURI
  split
  · decide
  intro hmem
  rcases mem_intercalate hmem with h | ⟨s, hs, h⟩
  · exact absurd h (by decide)
  · rcases List.mem_map.mp hs with ⟨t, -, rfl⟩
    exact not_mem_sigV4PercentEncode rfl (by decide) t h

theorem newline_not_mem_canonicalQuery (raw : Bytes) : newline ∉ canonicalQuery raw := by
  rw [canonicalQuery_eq]
  intro hmem
  rcases mem_intercalate hmem with h | ⟨s, hs, h⟩
  · exact absurd h (by decide)
  rcases List.mem_map.mp hs with ⟨q, hq, rfl⟩
  rcases List.mem_map.mp ((List.perm_insertionSort _ _).subset hq) with ⟨p, -, rfl⟩
  simp only [joinPair, encodePair, List.mem_append, List.mem_cons] at h
  rcases h with h | h | h
  · exact not_mem_sigV4PercentEncode rfl (by decide) p.1 h
  · exact absurd h (by decide)
  · exact not_mem_sigV4PercentEncode rfl (by decide) p.2 h

def rootedPath (path : Bytes) : Bytes := if path = [] then [slash] else path

theorem canonicalURI_eq (path : Bytes) : canonicalURI path =
    [slash].intercalate (((rootedPath path).splitOn slash).map sigV4PercentEncode) := by
  unfold canonicalURI rootedPath
  split
  · decide
  · rfl

theorem rootedPath_of_canonicalURI {path path' : Bytes}
    (h : canonicalURI path = canonicalURI path') : rootedPath path = rootedPath path' := by
  have hsep : ∀ p : Bytes, ∀ s ∈ ((rootedPath p).splitOn slash).map sigV4PercentEncode,
      slash ∉ s := by
    intro p s hs
    rcases List.mem_map.mp hs with ⟨t, -, rfl⟩
    exact not_mem_sigV4PercentEncode rfl (by decide) t
  have hne : ∀ p : Bytes, ((rootedPath p).splitOn slash).map sigV4PercentEncode ≠ [] := by
    intro p hnil
    exact List.splitOn_ne_nil slash _ (List.map_eq_nil_iff.mp hnil)
  rw [canonicalURI_eq, canonicalURI_eq] at h
  have hsplit := congrArg (List.splitOn slash) h
  rw [List.splitOn_intercalate _ (hsep path) (hne path),
    List.splitOn_intercalate _ (hsep path') (hne path')] at hsplit
  have hparts := List.map_injective_iff.mpr sigV4PercentEncode_injective hsplit
  calc rootedPath path = [slash].intercalate ((rootedPath path).splitOn slash) :=
        (List.intercalate_splitOn slash).symm
    _ = [slash].intercalate ((rootedPath path').splitOn slash) := by rw [hparts]
    _ = rootedPath path' := List.intercalate_splitOn slash

theorem parseBucketKey_rootedPath (path : Bytes) :
    HttpRequest.parseBucketKey (rootedPath path) = HttpRequest.parseBucketKey path := by
  unfold rootedPath
  split
  · rename_i h
    rw [h]
    decide
  · rfl

section

variable {lib : SigV4Library} {r r' : HttpRequest} {p p' : ParsedAuthHeader} {host host' : Bytes}

theorem canonicalRequest_lines
    (h : lib.canonicalRequest r p host = lib.canonicalRequest r' p' host') :
    r.method = r'.method ∧ canonicalURI r.path = canonicalURI r'.path ∧
      canonicalQuery r.rawQuery = canonicalQuery r'.rawQuery := by
  unfold SigV4Library.canonicalRequest at h
  simp only [List.intercalate_cons_cons, List.append_assoc, List.cons_append,
    List.nil_append] at h
  have hmethod := congrArg (cut newline) h
  rw [cut_append r.method_token, cut_append r'.method_token] at hmethod
  have huri := congrArg (cut newline) (Prod.mk.inj hmethod).2
  rw [cut_append (newline_not_mem_canonicalURI _), cut_append (newline_not_mem_canonicalURI _)]
    at huri
  have hquery := congrArg (cut newline) (Prod.mk.inj huri).2
  rw [cut_append (newline_not_mem_canonicalQuery _), cut_append (newline_not_mem_canonicalQuery _)]
    at hquery
  exact ⟨(Prod.mk.inj hmethod).1, (Prod.mk.inj huri).1, (Prod.mk.inj hquery).1⟩

theorem canonicalRequest_of_stringToSign (hsha : Function.Injective lib.sha256Hex)
    (h : lib.stringToSign r p host = lib.stringToSign r' p' host') :
    lib.canonicalRequest r p host = lib.canonicalRequest r' p' host' := by
  unfold SigV4Library.stringToSign at h
  simp only [List.intercalate_cons_cons, List.intercalate_singleton, List.append_assoc,
    List.cons_append, List.nil_append] at h
  simp only [← List.append_assoc, ← List.cons_append] at h
  have hdigest := (append_cons_inj (lib.sha256Hex_line _) (lib.sha256Hex_line _)).mp h
  exact hsha hdigest.2

end

theorem unhex_lowerHex : ∀ n < 16, unhex (lowerHex n) = some n := by decide

theorem hexString_injective : Function.Injective hexString := by
  intro s
  induction s with
  | nil =>
    intro t h
    cases t with
    | nil => rfl
    | cons c t => cases h
  | cons b s ih => ?_
  intro t h
  rcases t with _ | ⟨c, t⟩
  · cases h
  have hb : b.toNat < 256 := UInt8.toNat_lt b
  have hc : c.toNat < 256 := UInt8.toNat_lt c
  simp only [hexString, List.flatMap_cons, List.cons_append, List.nil_append,
    List.cons.injEq] at h
  rcases h with ⟨hhigh, hlow, hrest⟩
  -- each digit tells its half of the byte
  have hdigit : ∀ m < 16, ∀ n < 16, lowerHex m = lowerHex n → m = n := by
    intro m hm n hn hmn
    have hm' := unhex_lowerHex m hm
    rw [hmn, unhex_lowerHex n hn] at hm'
    exact (Option.some.inj hm').symm
  have hdiv := hdigit _ (by omega) _ (by omega) hhigh
  have hmod := hdigit _ (by omega) _ (by omega) hlow
  have hbyte : b = c := UInt8.toNat_inj.mp (by omega)
  rw [hbyte, ih hrest]

/-! ## 4. Accepted requests -/

section

variable {a : Authenticator} {now : Time} {r : HttpRequest}

theorem presignedParameters_ok {raw : Bytes} {p : PresignedParameters}
    (h : a.presignedParameters raw = .ok p) :
    p.auth.signature = queryGet raw signatureParameter ∧
      ∃ rest, (queryGet raw SigningParameter.credential.name).splitOn slash =
        p.auth.accessKey :: rest := by
  unfold Authenticator.presignedParameters at h
  simp only at h
  split at h
  · cases h
  split at h
  · cases h
  split at h
  · rename_i accessKey date region service terminator hsplit
    split at h
    · cases h
    split at h
    · cases h
    split at h
    · cases h
    split at h
    · cases h
    split at h
    · cases h
    split at h
    · cases h
    rw [← Except.ok.inj h]
    exact ⟨rfl, _, hsplit⟩
  · cases h

theorem signRequest_ok {lib : SigV4Library} {p : ParsedAuthHeader} {secretKey expected : Bytes}
    (h : lib.signRequest r p secretKey = .ok expected) :
    ∃ host, expected = hexString (lib.hmacSHA256
      (lib.deriveSigningKey secretKey p.date p.region p.service) (lib.stringToSign r p host)) := by
  unfold SigV4Library.signRequest at h
  generalize (if r.host = [] then r.urlHost else r.host) = host at h
  simp only at h
  split at h
  · cases h
  · exact ⟨host, (Except.ok.inj h).symm⟩

structure AcceptedPresigned (a : Authenticator) (r : HttpRequest) (res : AuthResult) where
  params : PresignedParameters
  params_eq : a.presignedParameters r.rawQuery = .ok params
  binding : TenantBinding
  binding_eq : a.lookupByAccessKey params.auth.accessKey = some binding
  tenantID_eq : res.tenantID = binding.tenantID
  host : Bytes
  signature_eq : queryGet r.rawQuery signatureParameter =
    hexString (a.lib.hmacSHA256 (a.lib.deriveSigningKey binding.secretKey params.auth.date
        params.auth.region params.auth.service)
      (a.lib.stringToSign (Authenticator.presignedSigningRequest r params.dateStr) params.auth host))

theorem authenticatePresigned_ok {res : AuthResult}
    (h : a.authenticatePresigned now r = .ok res) : Nonempty (AcceptedPresigned a r res) := by
  unfold Authenticator.authenticatePresigned at h
  split at h
  · cases h
  rename_i params hparams
  split at h
  · cases h
  rename_i binding hbinding
  split at h
  · cases h
  split at h
  · cases h
  split at h
  · cases h
  rename_i expected hsign
  split at h
  · cases h
  rename_i hmatch
  rw [Classical.not_not, (presignedParameters_ok hparams).1] at hmatch
  rcases signRequest_ok hsign with ⟨host, hhost⟩
  exact ⟨⟨params, hparams, binding, hbinding, by rw [← Except.ok.inj h], host,
    hmatch.symm.trans hhost⟩⟩

end

structure IdealHashes (lib : SigV4Library) : Prop where
  sha256 : Function.Injective lib.sha256Hex
  hmac : Function.Injective2 lib.hmacSHA256

/-! ## 5. One signature, one operation -/

/-- The operation parameters and the credential cannot be rewritten under the signature. -/
structure ParametersFixed (raw : Bytes) : Prop where
  operation : ∀ p : Parameter, Unambiguous (signedQuery raw) p.name
  credential : Unambiguous (signedQuery raw) SigningParameter.credential.name

theorem dispatchMethod_copySource {q : Parameter → Option Bytes} {key source source' method : Bytes}
    (h : (dispatchMethod q key source method).amzHeaders = []) :
    dispatchMethod q key source' method = dispatchMethod q key source method := by
  have hput : (dispatchPut q key source).amzHeaders = [] →
      dispatchPut q key source' = dispatchPut q key source := by
    unfold dispatchPut
    cases putSubresource q with
    | some kind => exact fun _ => rfl
    | none => ?_
    by_cases hkey : key = []
    · rw [if_pos hkey, if_pos hkey]
      exact fun _ => rfl
    rw [if_neg hkey]
    split <;> exact fun hreads => absurd hreads (by decide)
  unfold dispatchMethod at *
  split
  · rfl
  rename_i hmethod
  rw [if_neg hmethod] at h
  split
  · rfl
  rename_i hnone
  simp only [hnone] at h
  split
  · rename_i hisput
    rw [if_pos hisput] at h
    exact hput h
  · rfl

theorem HttpRequest.operation_eq {r r₀ : HttpRequest}
    (hquery : ∀ p, r.parameter p = r₀.parameter p) (hmethod : r.method = r₀.method)
    (hpath : HttpRequest.parseBucketKey r.path = HttpRequest.parseBucketKey r₀.path)
    (hreads : r₀.dispatch.amzHeaders = []) : r.operation = r₀.operation := by
  have hq : r.parameter = r₀.parameter := funext hquery
  have hdispatch : r.dispatch = r₀.dispatch := by
    unfold HttpRequest.dispatch at *
    rw [hq, hmethod, hpath]
    exact dispatchMethod_copySource hreads
  -- an operation that stores user metadata also reads a header
  have hmeta : r₀.dispatch.storesUserMetadata = false := by
    generalize r₀.dispatch = kind at hreads
    cases kind <;> first | rfl | cases hreads
  unfold HttpRequest.operation
  rw [hdispatch, hreads, hmeta, hq, hpath]
  simp

section

variable {a : Authenticator} {now₀ : Time} {r₀ : HttpRequest} {res₀ : AuthResult}

theorem operation_of_signature (hideal : IdealHashes a.lib) (hurl : presigned r₀.rawQuery = true)
    (hparams : ParametersFixed r₀.rawQuery) (hreads : r₀.dispatch.amzHeaders = [])
    (hissued : a.authenticatePresigned now₀ r₀ = .ok res₀) {now : Time} {r : HttpRequest}
    {res : AuthResult}
    (hsig : queryGet r.rawQuery signatureParameter = queryGet r₀.rawQuery signatureParameter)
    (h : a.authenticatePresigned now r = .ok res) :
    res.tenantID = res₀.tenantID ∧ r.operation = r₀.operation := by
  rcases authenticatePresigned_ok hissued with ⟨acc₀⟩
  rcases authenticatePresigned_ok h with ⟨acc⟩
  have hmac := hexString_injective (acc.signature_eq.symm.trans (hsig.trans acc₀.signature_eq))
  have hlines := canonicalRequest_lines
    (canonicalRequest_of_stringToSign hideal.sha256 (hideal.hmac hmac).2)
  have hpresigned : presigned r.rawQuery = true := by
    unfold presigned at *
    rw [hsig]
    exact hurl
  have hcanonical : canonicalQuery (signedQuery r.rawQuery) =
      canonicalQuery (signedQuery r₀.rawQuery) := by
    unfold signedQuery
    rw [if_pos hurl, if_pos hpresigned]
    exact hlines.2.2
  have hlimit := withinLimit_of_presigned hurl
  have hlimit' := withinLimit_of_presigned hpresigned
  have hquery : ∀ p : Parameter, r.parameter p = r₀.parameter p := fun p =>
    queryFirst_of_canonicalQuery (ReadParameter.operation p).plain hcanonical hlimit hlimit'
      (hparams.operation p)
  constructor
  · -- the credential names the access key, and so the tenant
    have hcred : queryGet r.rawQuery SigningParameter.credential.name =
        queryGet r₀.rawQuery SigningParameter.credential.name := by
      unfold queryGet
      rw [queryFirst_of_canonicalQuery (ReadParameter.signing .credential).plain hcanonical
        hlimit hlimit' hparams.credential]
    rcases (presignedParameters_ok acc.params_eq).2 with ⟨rest, hrest⟩
    rcases (presignedParameters_ok acc₀.params_eq).2 with ⟨rest₀, hrest₀⟩
    rw [hcred, hrest₀] at hrest
    have hbinding := acc.binding_eq
    rw [← (List.cons.inj hrest).1, acc₀.binding_eq] at hbinding
    rw [acc.tenantID_eq, acc₀.tenantID_eq, Option.some.inj hbinding]
  · apply HttpRequest.operation_eq hquery hlines.1 _ hreads
    have hrooted : rootedPath r.path = rootedPath r₀.path := rootedPath_of_canonicalURI hlines.2.1
    rw [← parseBucketKey_rootedPath r.path, hrooted, parseBucketKey_rootedPath]

end

/-! ## 6. Headers under the signature -/

theorem AmzHeader.lowerName_name (h : AmzHeader) : lowerName h.name = h.name := by
  cases h <;> decide +kernel

theorem AmzHeader.name_ne_copySource {h : AmzHeader} (hne : h ≠ .copySource) :
    AmzHeader.copySource.name ≠ h.name := by
  cases h with
  | copySource => exact absurd rfl hne
  | _ => decide +kernel

namespace HttpRequest

variable (r : HttpRequest) (h : AmzHeader)

/-- The request with a no-break space in front of the first value of a header. -/
def padded : HttpRequest :=
  { r with header := fun n =>
      if n = h.name then (noBreakSpace ++ r.amz h) :: (r.header n).tail else r.header n }

theorem amz_padded : (r.padded h).amz h = noBreakSpace ++ r.amz h := by
  have hheader : (r.padded h).header h.name = (noBreakSpace ++ r.amz h) :: (r.header h.name).tail :=
    if_pos rfl
  rw [amz, get, h.lowerName_name, hheader, List.headD_cons]

theorem headD_padded (n : Bytes) :
    trimSpaceBytes (((r.padded h).header n).headD []) = trimSpaceBytes ((r.header n).headD []) := by
  unfold padded
  simp only
  split
  · rename_i hn
    rw [List.headD_cons, trimSpaceBytes_noBreakSpace, amz, get, h.lowerName_name, hn]
  · rfl

theorem header_padded_of_ne {n : Bytes} (hn : n ≠ h.name) : (r.padded h).header n = r.header n :=
  if_neg hn

theorem dispatch_padded (hne : h ≠ .copySource) : (r.padded h).dispatch = r.dispatch := by
  have hsource : (r.padded h).amz .copySource = r.amz .copySource := by
    unfold amz get
    rw [AmzHeader.lowerName_name, header_padded_of_ne r h (AmzHeader.name_ne_copySource hne)]
  unfold dispatch
  rw [hsource]
  rfl

end HttpRequest

theorem signRequest_congr (lib : SigV4Library) {r r' : HttpRequest} (p : ParsedAuthHeader)
    (secretKey : Bytes) (hmethod : r'.method = r.method) (hhost : r'.host = r.host)
    (hurlHost : r'.urlHost = r.urlHost) (hpath : r'.path = r.path)
    (hquery : r'.rawQuery = r.rawQuery)
    (hheaders : ∀ name, trimSpaceBytes (r'.get name) = trimSpaceBytes (r.get name))
    (hdate : r'.get dateHeader = r.get dateHeader)
    (hpayload : r'.get payloadHeader = r.get payloadHeader) :
    lib.signRequest r' p secretKey = lib.signRequest r p secretKey := by
  have hcanonical : ∀ host, lib.buildCanonicalHeaders r' p.signedHeaders host =
      lib.buildCanonicalHeaders r p.signedHeaders host := by
    intro host
    apply List.flatMap_congr
    intro name _
    simp only
    split
    · rfl
    · rw [hheaders]
  unfold SigV4Library.signRequest SigV4Library.stringToSign SigV4Library.canonicalRequest
    SigV4Library.payloadHash
  rw [hhost, hurlHost, hmethod, hpath, hquery, hdate, hpayload]
  simp only [hcanonical]

theorem authenticatePresigned_padded (a : Authenticator) (now : Time) (r : HttpRequest)
    (h : AmzHeader) : a.authenticatePresigned now (r.padded h) = a.authenticatePresigned now r := by
  have hsign : ∀ dateStr p secretKey,
      a.lib.signRequest (Authenticator.presignedSigningRequest (r.padded h) dateStr) p secretKey =
        a.lib.signRequest (Authenticator.presignedSigningRequest r dateStr) p secretKey := by
    intro dateStr p secretKey
    have hget : ∀ name,
        trimSpaceBytes ((Authenticator.presignedSigningRequest (r.padded h) dateStr).get name) =
          trimSpaceBytes ((Authenticator.presignedSigningRequest r dateStr).get name) := by
      intro name
      unfold Authenticator.presignedSigningRequest HttpRequest.del HttpRequest.set HttpRequest.get
      simp only
      split
      · rfl
      · split
        · rfl
        · exact r.headD_padded h (lowerName name)
    refine signRequest_congr a.lib p secretKey ?_ ?_ ?_ ?_ ?_ hget ?_ ?_
    iterate 5 rfl
    · -- the signing date and the digest are set apart from the request's headers
      have hdate : lowerName dateHeader ≠ lowerName payloadHeader := by decide +kernel
      unfold Authenticator.presignedSigningRequest HttpRequest.del HttpRequest.set HttpRequest.get
      simp only [if_neg hdate, if_pos]
    · unfold Authenticator.presignedSigningRequest HttpRequest.del HttpRequest.get
      simp only [if_pos]
  unfold Authenticator.authenticatePresigned
  simp only [hsign]
  rfl

theorem OperationKind.exists_amzHeader {kind : OperationKind} (h : kind.amzHeaders ≠ []) :
    ∃ header ∈ kind.amzHeaders, header ≠ .copySource := by
  cases kind with
  | put | copy | createMultipartUpload => exact ⟨.tagging, by decide, by decide⟩
  | uploadPart => exact ⟨.metaZkEncryption, by decide, by decide⟩
  | completeMultipartUpload | delete
  | putObjectRetention => exact ⟨.bypassGovernanceRetention, by decide, by decide⟩
  | _ => exact absurd rfl h

/-! ## 7. The holder of a presigned URL -/

/-- Every accepted request with the signature of the URL does for the same tenant what the URL was
issued for. -/
def OperationFixed (a : Authenticator) (r₀ : HttpRequest) (res₀ : AuthResult) : Prop :=
  ∀ now r res, queryGet r.rawQuery signatureParameter = queryGet r₀.rawQuery signatureParameter →
    a.authenticatePresigned now r = .ok res →
    res.tenantID = res₀.tenantID ∧ r.operation = r₀.operation

/-- A presigned URL fixes its operation if no parameter of it can be rewritten and the operation
reads no `x-amz-*` header; it never does if the operation reads one. -/
theorem presigned_operation_fixed {a : Authenticator} (hideal : IdealHashes a.lib) {now₀ : Time}
    {r₀ : HttpRequest} {res₀ : AuthResult} (hurl : presigned r₀.rawQuery = true)
    (hissued : a.authenticatePresigned now₀ r₀ = .ok res₀) :
    (ParametersFixed r₀.rawQuery ∧ r₀.dispatch.amzHeaders = [] → OperationFixed a r₀ res₀) ∧
      (OperationFixed a r₀ res₀ → r₀.dispatch.amzHeaders = []) := by
  constructor
  · rintro ⟨hparams, hreads⟩ now r res hsig h
    exact operation_of_signature hideal hurl hparams hreads hissued hsig h
  intro hfixed
  by_contra hreads
  rcases OperationKind.exists_amzHeader hreads with ⟨header, hmem, hne⟩
  have haccepted := authenticatePresigned_padded a now₀ r₀ header
  rw [hissued] at haccepted
  have hsame := (hfixed now₀ (r₀.padded header) res₀ rfl haccepted).2
  have hheaders := congrArg Operation.amzHeaders hsame
  unfold HttpRequest.operation at hheaders
  simp only [r₀.dispatch_padded header hne, List.map_inj_left] at hheaders
  have hvalue := hheaders header hmem
  rw [HttpRequest.amz_padded] at hvalue
  have hlength := congrArg List.length hvalue
  rw [List.length_append] at hlength
  have hspace : noBreakSpace.length = 2 := rfl
  omega

/-! ### A URL for an upload, and one for a download -/

def allBut (c : UInt8) (d : UInt8) : Bool := d ≠ c ∧ d ≠ percentSign ∧ d ≠ plusSign

theorem percentEncode_allBut_injective (c : UInt8) :
    Function.Injective (percentEncode (allBut c)) := by
  intro s t h
  have hpercent : allBut c percentSign = false := by simp [allBut]
  have hplus : allBut c plusSign = false := by simp [allBut]
  have hs := queryUnescape_percentEncode hpercent hplus s
  rw [h, queryUnescape_percentEncode hpercent hplus t] at hs
  exact (Option.some.inj hs).symm

/-- A digest that only escapes line ends, and a keyed digest of the key, a zero and the data. -/
def transparentLibrary : SigV4Library where
  sha256Hex := percentEncode (allBut newline)
  sha256Hex_line := not_mem_percentEncode (by decide) rfl (by decide)
  hmacSHA256 key data := percentEncode (allBut 0) key ++ 0 :: data
  toLower := lowerName
  equalFold s t := lowerName s == lowerName t
  parseISO8601 s :=
    if s = utf8 "20240101T000000Z" then .ok (daysFromCivil 2024 1 1 * nanosPerDay)
    else .error "cannot parse"
  parseRFC1123 _ := none
  formatISO8601 _ := utf8 "20240101T000000Z"
  quoted _ := ""
  durationText _ := ""

theorem transparentLibrary_ideal : IdealHashes transparentLibrary := by
  constructor
  · exact percentEncode_allBut_injective newline
  intro k k' d d' h
  have hzero : ∀ s, (0 : UInt8) ∉ percentEncode (allBut 0) s :=
    not_mem_percentEncode (by decide) rfl (by decide)
  have hcut : cut 0 (percentEncode (allBut 0) k ++ 0 :: d) =
      cut 0 (percentEncode (allBut 0) k' ++ 0 :: d') := congrArg (cut 0) h
  rw [cut_append (hzero k), cut_append (hzero k')] at hcut
  exact ⟨percentEncode_allBut_injective 0 (Prod.mk.inj hcut).1, (Prod.mk.inj hcut).2⟩

def sampleAuthenticator : Authenticator where
  lib := transparentLibrary
  lookupByAccessKey key :=
    if key = utf8 "AK" then some { tenantID := "t", secretKey := utf8 "s" } else none
  maxClockSkew := 900 * nanosPerSecond

def sampleNow : Time := daysFromCivil 2024 1 1 * nanosPerDay

def sampleRequest (method : Bytes) (h : newline ∉ method) (signedHeaders : String)
    (header : Bytes → List Bytes) : HttpRequest where
  method
  method_token := h
  host := utf8 "h"
  path := utf8 "/b/k"
  rawQuery := utf8 ("X-Amz-Algorithm=AWS4-HMAC-SHA256" ++
    "&X-Amz-Credential=AK%2F20240101%2Fr%2Fs3%2Faws4_request&X-Amz-Date=20240101T000000Z" ++
    "&X-Amz-Expires=60&X-Amz-SignedHeaders=" ++ signedHeaders)
  header

def HttpRequest.presign (r : HttpRequest) : HttpRequest :=
  let signature :=
    match sampleAuthenticator.presignedParameters r.rawQuery with
    | .error _ => []
    | .ok p =>
      match transparentLibrary.signRequest
        (Authenticator.presignedSigningRequest r p.dateStr) p.auth (utf8 "s") with
      | .error _ => []
      | .ok s => s
  { r with rawQuery := r.rawQuery ++ utf8 "&X-Amz-Signature=" ++ signature }

def userHeader : Bytes := utf8 "x-amz-meta-a"

def uploadURL : HttpRequest :=
  (sampleRequest (utf8 "PUT") put_token "host%3Bx-amz-meta-a"
    fun n => if n = userHeader then [utf8 "1"] else []).presign

def redirectedUpload : HttpRequest := uploadURL.set AmzHeader.copySource.name (utf8 "/b/secret")

def extendedUpload : HttpRequest :=
  { uploadURL with header := fun n => if n = userHeader then [utf8 "1", utf8 "2"] else [] }

def sampleResult : AuthResult where
  tenantID := "t"
  timestamp := utf8 "20240101T000000Z"
  scope := utf8 "20240101/r/s3/aws4_request"

theorem upload_url_redirected :
    sampleAuthenticator.authenticatePresigned sampleNow uploadURL = .ok sampleResult ∧
      uploadURL.dispatch = .put ∧
      sampleAuthenticator.authenticatePresigned sampleNow redirectedUpload = .ok sampleResult ∧
      redirectedUpload.dispatch = .copy ∧
      sampleAuthenticator.authenticatePresigned sampleNow extendedUpload = .ok sampleResult ∧
      extendedUpload.operation.userMetadata userHeader = [utf8 "1", utf8 "2"] ∧
      uploadURL.operation.userMetadata userHeader = [utf8 "1"] := by
  decide +kernel

def downloadURL : HttpRequest :=
  (sampleRequest (utf8 "GET") (by decide +kernel) "host" fun _ => []).presign

def downloadPairs : List (Bytes × Bytes) :=
  [(utf8 "X-Amz-Algorithm", awsAlgorithm),
    (utf8 "X-Amz-Credential", utf8 "AK/20240101/r/s3/aws4_request"),
    (utf8 "X-Amz-Date", utf8 "20240101T000000Z"), (utf8 "X-Amz-Expires", utf8 "60"),
    (utf8 "X-Amz-SignedHeaders", utf8 "host")]

theorem downloadURL_parametersFixed : ParametersFixed downloadURL.rawQuery := by
  have hpairs : signerPairs (signedQuery downloadURL.rawQuery) = downloadPairs := by
    decide +kernel
  constructor
  · intro p v v' hv _
    rw [hpairs] at hv
    have hnone : ∀ q ∈ downloadPairs, q.1 ≠ p.name := by
      cases p <;> decide +kernel
    exact absurd rfl (hnone _ hv)
  · have hone : ∀ q ∈ downloadPairs, q.1 = SigningParameter.credential.name →
        q.2 = utf8 "AK/20240101/r/s3/aws4_request" ∧ ¬ Droppable q.2 := by decide +kernel
    intro v v' hv hv'
    rw [hpairs] at hv hv'
    exact ⟨(hone _ hv rfl).1.trans (hone _ hv' rfl).1.symm, (hone _ hv rfl).2⟩

theorem downloadURL_dispatch : downloadURL.dispatch = .get := by decide +kernel

theorem download_url_fixed : OperationFixed sampleAuthenticator downloadURL sampleResult :=
  (presigned_operation_fixed transparentLibrary_ideal (by decide +kernel)
    (show sampleAuthenticator.authenticatePresigned sampleNow downloadURL = .ok sampleResult by
      decide +kernel)).1 ⟨downloadURL_parametersFixed, by rw [downloadURL_dispatch]; rfl⟩

end ObjectFabric
