import ObjectFabric.Auth.Presigned
import ObjectFabric.Gateway.PutStores
import ObjectFabric.Safety.Register

/-!
# SignedBody — the signature of an upload and the bytes that are stored

`HeaderV4Strategy.Authenticate` verifies a signature over the digest that `x-amz-content-sha256`
states, and for an `aws-chunked` body hands the chunk-signing key on.  Neither `Handler.Put` nor
`Handler.UploadPart` compares the body with the digest or reads the chunks: what they store is the
body as it came.
-/

namespace ObjectFabric

open Interleaving Streams

/-! ## 1. Uploads -/

inductive ObjectUpload
  | put (r : PutRequest)
  | part (r : UploadPartRequest)

namespace ObjectUpload

def body : ObjectUpload → Bytes
  | put r => r.body
  | part r => r.body

def handle (cfg : Config) : ObjectUpload → Handler
  | put r => ObjectFabric.put cfg r
  | part r => uploadPart cfg r

def Stores (cfg : Config) (u : ObjectUpload) (payload : Bytes) (response : Response) (w : World) :
    Prop :=
  match u with
  | put r => PutHolds cfg r payload response w
  | part r => ∃ s n, w.uploads.sessions.lookup r.uploadID = some s ∧ r.partNumber = some n ∧
      PartStored cfg w.pieces s n payload

/-- Every payload that the upload has left behind satisfies `P`. -/
def StoresOnly (cfg : Config) (u : ObjectUpload) (response : Response) (w : World)
    (P : Bytes → Prop) : Prop :=
  ∀ payload, u.Stores cfg payload response w → P payload

end ObjectUpload

/-- An upload as it arrives, and as its handler reads it once the tenant is known. -/
structure UploadRequest where
  http : HttpRequest
  decoded : String → ObjectUpload
  body_eq : ∀ tenantID, (decoded tenantID).body = http.body

def serveUpload (a : Authenticator) (cfg : Config) (now : Time) (u : UploadRequest) : Handler :=
  match a.authenticateHeader now u.http with
  | .error message => writeError 403 "AccessDenied" message
  | .ok res => (u.decoded res.tenantID).handle cfg

/-! ## 2. What the signature says of the body -/

def IsHexDigest (s : Bytes) : Prop := s.length = 64 ∧ ∀ c ∈ s, (unhex c).isSome = true

instance : DecidablePred IsHexDigest := fun s =>
  inferInstanceAs (Decidable (s.length = 64 ∧ ∀ c ∈ s, (unhex c).isSome = true))

structure Chunk where
  data : Bytes
  signature : Bytes

/-- `hex(len);chunk-signature=…`, the data, and a line end behind each. -/
def Chunk.frame (c : Chunk) : Bytes :=
  (Nat.toDigits 16 c.data.length).map (fun d => UInt8.ofNat d.toNat) ++
    utf8 ";chunk-signature=" ++ c.signature ++ [13, 10] ++ c.data ++ [13, 10]

def ChunksSigned (lib : SigV4Library) (res : AuthResult) : Bytes → List Chunk → Prop
  | _, [] => True
  | prevSig, c :: cs => ∃ sig, lib.verifyChunkSignature prevSig c.data res.signingKey res.timestamp
      res.scope c.signature = .ok sig ∧ ChunksSigned lib res sig cs

/-- The chunks of a body, the last one empty, and the payload that they carry. -/
structure ChunkedPayload (lib : SigV4Library) (res : AuthResult) (body payload : Bytes)
    (chunks : List Chunk) : Prop where
  terminated : ∃ last, chunks.getLast? = some last ∧ last.data = []
  framed : body = chunks.flatMap Chunk.frame
  signed : ChunksSigned lib res res.seedSig chunks
  payload_eq : payload = chunks.flatMap Chunk.data

structure PayloadSigned (lib : SigV4Library) (http : HttpRequest) (res : AuthResult)
    (payload : Bytes) : Prop where
  digest : IsHexDigest (http.get payloadHeader) → lib.sha256Hex payload = http.get payloadHeader
  chunks : res.isChunked = true → ∃ chunks, ChunkedPayload lib res http.body payload chunks

theorem Chunk.length_frame (c : Chunk) : c.data.length < c.frame.length := by
  unfold Chunk.frame
  simp only [List.length_append, List.length_cons, List.length_nil]
  omega

theorem ChunkedPayload.ne {lib : SigV4Library} {res : AuthResult} {body payload : Bytes}
    {chunks : List Chunk} (h : ChunkedPayload lib res body payload chunks) : payload ≠ body := by
  have hle : ∀ cs : List Chunk,
      (cs.flatMap Chunk.data).length ≤ (cs.flatMap Chunk.frame).length := by
    intro cs
    induction cs with
    | nil => exact Nat.le_refl _
    | cons c cs ih =>
      have hframe := c.length_frame
      simp only [List.flatMap_cons, List.length_append]
      omega
  intro heq
  have hlength := congrArg List.length heq
  rw [h.payload_eq, h.framed] at hlength
  rcases chunks with _ | ⟨c, cs⟩
  · rcases h.terminated with ⟨last, hlast, -⟩
    cases hlast
  have hframe := c.length_frame
  have hrest := hle cs
  simp only [List.flatMap_cons, List.length_append] at hlength
  omega

/-! ## 3. The payload is the body -/

/-- What the store owes an upload: the rows that it may hit are sound, the sessions stand under
their own IDs, and headers that are refused are refused with an error. -/
structure UploadSetting (cfg : Config) (w : World) (u : ObjectUpload) : Prop where
  opens : OpensBack cfg
  blake3 : Function.Injective cfg.blake3
  hits : ∀ r, u = .put r → HitsSound cfg w r.tenantID ∧ r.RefusesBadHeaders
  sessions : ∀ id s, w.uploads.sessions.lookup id = some s → s.upload.id = id

section

variable {cfg : Config} {w : World} {u : ObjectUpload}

theorem SealedAs.unique (hcfg : OpensBack cfg) {upload : Upload} {body body' bytes : Bytes}
    (h : SealedAs cfg upload body bytes) (h' : SealedAs cfg upload body' bytes) : body = body' := by
  cases hgateway : upload.encMode.isGatewayEncrypted with
  | true =>
    have hopens : ∀ {b}, SealedAs cfg upload b bytes → cfg.decryptWithDEK bytes upload.dekMaterial
        (partsEncryptionConfig upload) (uploadAADIdentity cfg upload) = .ok b :=
      fun hb => hb.opens hcfg hgateway rfl
    exact Except.ok.inj ((hopens h).symm.trans (hopens h'))
  | false =>
    rcases h with ⟨r, rfl, hsealed⟩
    rcases h' with ⟨r', rfl, hsealed'⟩
    exact (sealPart_plain hgateway hsealed).symm.trans (sealPart_plain hgateway hsealed')

theorem ObjectUpload.Stores.unique (hcfg : OpensBack cfg) {payload payload' : Bytes}
    {response : Response} (h : u.Stores cfg payload response w)
    (h' : u.Stores cfg payload' response w) : payload = payload' := by
  cases u with
  | put r =>
    rcases h with ⟨m, hm, hholds⟩
    rcases h' with ⟨m', hm', hholds'⟩
    rw [hm] at hm'
    rw [← Option.some.inj hm'] at hholds'
    exact hholds.unique hholds'
  | part r => ?_
  rcases h with ⟨s, n, hs, hn, hpart⟩
  rcases h' with ⟨s', n', hs', hn', hpart'⟩
  rw [hs] at hs'
  rw [hn] at hn'
  rw [← Option.some.inj hs', ← Option.some.inj hn'] at hpart'
  rcases hpart.sealed with ⟨bytes, hsealed, hfound, -⟩
  rcases hpart'.sealed with ⟨bytes', hsealed', hfound', -⟩
  rw [hfound] at hfound'
  rw [← Option.some.inj hfound'] at hsealed'
  exact hsealed.unique hcfg hsealed'

theorem ObjectUpload.handle_stores (h : UploadSetting cfg w u) :
    (u.handle cfg).Ensures (machine cfg.providers) (fun _ => True) w
      fun response w' => response.status = 200 → u.Stores cfg u.body response w' := by
  cases u with
  | put r => exact put_holds h.opens h.blake3 (h.hits r rfl).2 (h.hits r rfl).1
  | part r => ?_
  by_cases hlive : r.uploadID ∈ w.uploads.live ∧ (w.uploads.sessions.lookup r.uploadID).isSome
  · rcases Option.isSome_iff_exists.mp hlive.2 with ⟨s, hs⟩
    apply (uploadPart_outcome hs hlive.1 (h.sessions _ s hs)).mono
    rintro response w' ⟨s', pieces, hattempt, hstored⟩ hok
    rcases hstored hok with ⟨n, hn, hpart⟩
    rw [hattempt.world]
    exact ⟨s', n, World.lookup_withSession, hn, hpart⟩
  · -- no session: the part is refused
    have hmissing : w.uploads.get r.tenantID r.uploadID = .error .uploadNotFound := by
      unfold MultipartStore.get MultipartStore.session
      by_cases hmem : r.uploadID ∈ w.uploads.live
      · have hnone : w.uploads.sessions.lookup r.uploadID = none := by
          rw [← Option.not_isSome_iff_eq_none]
          exact fun hsome => hlive ⟨hmem, hsome⟩
        rw [if_pos hmem, hnone]
      · rw [if_neg hmem]
    show (uploadPart cfg r).Ensures _ _ w _
    unfold uploadPart
    split
    · exact fun hok => absurd hok (by simp)
    refine ensures_fallible rfl (fun hok => absurd hok (by simp)) fun x _ => ?_
    have hget : World.exec cfg.providers x (.uploadGet r.tenantID r.uploadID) w =
        (.error .uploadNotFound, w) := congrArg (·, w) hmissing
    rw [hget]
    exact fun hok => absurd hok (by simp)

end

/-! ## 4. The signature and the payload -/

theorem authenticateHeader_isChunked {a : Authenticator} {now : Time} {r : HttpRequest}
    {res : AuthResult} (h : a.authenticateHeader now r = .ok res) :
    res.isChunked = a.isChunkedRequest r := by
  unfold Authenticator.authenticateHeader at h
  simp only at h
  split at h
  · cases h
  split at h
  · cases h
  split at h
  · cases h
  split at h
  · cases h
  split at h
  · cases h
  split at h
  · cases h
  split at h
  · cases h
  split at h
  · rename_i hchunked
    rw [← Except.ok.inj h, hchunked]
  · rename_i hplain
    rw [← Except.ok.inj h, Bool.eq_false_iff.mpr hplain]

/-- The payload of an accepted and acknowledged upload is the signed one exactly when the body is
not chunked and has the digest that was signed for it. -/
theorem stored_payload_signed_iff {a : Authenticator} {cfg : Config} {now : Time}
    {u : UploadRequest} {w : World} {res : AuthResult} {env : Nat → Choice}
    (hauth : a.authenticateHeader now u.http = .ok res)
    (hsetting : UploadSetting cfg w (u.decoded res.tenantID))
    (hstored : ((serveUpload a cfg now u).run (machine cfg.providers) env [] w).1.status = 200) :
    (u.decoded res.tenantID).StoresOnly cfg
        ((serveUpload a cfg now u).run (machine cfg.providers) env [] w).1
        ((serveUpload a cfg now u).run (machine cfg.providers) env [] w).2.2
        (PayloadSigned a.lib u.http res) ↔
      a.isChunkedRequest u.http = false ∧
        (IsHexDigest (u.http.get payloadHeader) →
          a.lib.sha256Hex u.http.body = u.http.get payloadHeader) := by
  have hserve : serveUpload a cfg now u = (u.decoded res.tenantID).handle cfg := by
    unfold serveUpload
    rw [hauth]
  rw [hserve] at hstored ⊢
  have hbody := (ObjectUpload.handle_stores hsetting).run (fun _ => trivial) [] hstored
  rw [u.body_eq] at hbody
  have hchunked := authenticateHeader_isChunked hauth
  constructor
  · intro h
    have hsigned := h _ hbody
    refine ⟨?_, hsigned.digest⟩
    by_contra hyes
    rw [Bool.not_eq_false, ← hchunked] at hyes
    rcases hsigned.chunks hyes with ⟨chunks, hpayload⟩
    exact hpayload.ne rfl
  · rintro ⟨hplain, hdigest⟩ payload hpayload
    rw [hpayload.unique hsetting.opens hbody]
    refine ⟨hdigest, fun hyes => ?_⟩
    rw [hchunked, hplain] at hyes
    cases hyes

/-! ### A body that was changed on its way -/

def digestOfA : Bytes := utf8 "ca978112ca1bbdcafac231b39a23dc4da786eff8147c4e72b9807785afee48bb"

def digestOfB : Bytes := utf8 "3e23e8160039594a33894f6564e1b1348bbd7a0088d42c4acb73eeaed59c009d"

def uploadLibrary : SigV4Library :=
  { transparentLibrary with
    sha256Hex := fun m =>
      if m = [97] then digestOfA
      else if m = [98] then digestOfB
      else transparentLibrary.sha256Hex m
    sha256Hex_line := fun m => by
      split
      · decide +kernel
      · split
        · decide +kernel
        · exact transparentLibrary.sha256Hex_line m }

def uploadAuthenticator : Authenticator :=
  { sampleAuthenticator with
    lib := uploadLibrary
    lookupByAccessKey := fun key =>
      if key = utf8 "AK" then some { tenantID := "tenant", secretKey := utf8 "s" } else none }

/-- A PUT that is signed for the body `a`, before its signature is added. -/
def unsignedPut (encoding body : Bytes) : HttpRequest where
  method := utf8 "PUT"
  method_token := put_token
  host := utf8 "h"
  path := utf8 "/bucket/key"
  rawQuery := []
  header := fun n =>
    if n = dateHeader then [utf8 "20240101T000000Z"]
    else if n = payloadHeader then [digestOfA]
    else if n = utf8 "content-encoding" ∧ encoding ≠ [] then [encoding]
    else []
  body

def putSignature : Bytes :=
  let p : ParsedAuthHeader :=
    { accessKey := utf8 "AK", date := utf8 "20240101", region := utf8 "r", service := utf8 "s3",
      signedHeaders := [utf8 "host", payloadHeader, dateHeader] }
  match uploadLibrary.signRequest (unsignedPut [] [97]) p (utf8 "s") with
  | .error _ => []
  | .ok s => s

def signedPut (encoding body : Bytes) : HttpRequest :=
  (unsignedPut encoding body).set (utf8 "Authorization")
    (utf8 ("AWS4-HMAC-SHA256 Credential=AK/20240101/r/s3/aws4_request, " ++
      "SignedHeaders=host;x-amz-content-sha256;x-amz-date, Signature=") ++ putSignature)

def signedUpload (encoding body : Bytes) : UploadRequest where
  http := signedPut encoding body
  decoded tenantID := .put { samplePut with tenantID, body, contentLength := body.length }
  body_eq _ := rfl

def emptyWorld : World := {}

def signedRun (encoding body : Bytes) : Response × History Call × World :=
  (serveUpload uploadAuthenticator registerGateway sampleNow (signedUpload encoding body)).run
    (machine registerGateway.providers) (fun _ => sampleClock 0) [] emptyWorld

def storedBytes (w : World) : Option Bytes :=
  w.pieces.lookup
    ⟨"backend", "496f2c1e6f3c276d2ff1d54b6f98ce9a6db83f762717accce163b4839d93e222"⟩

theorem altered_body_stored :
    (signedRun [] [98]).1.status = 200 ∧ storedBytes (signedRun [] [98]).2.2 = some [98] ∧
      IsHexDigest ((signedPut [] [98]).get payloadHeader) ∧
      uploadLibrary.sha256Hex [98] ≠ (signedPut [] [98]).get payloadHeader ∧
      (signedRun (utf8 "aws-chunked") (utf8 "1;chunk-signature=0\r\na\r\n")).1.status = 200 ∧
      storedBytes (signedRun (utf8 "aws-chunked") (utf8 "1;chunk-signature=0\r\na\r\n")).2.2 =
        some (utf8 "1;chunk-signature=0\r\na\r\n") := by
  decide +kernel

def uploadResult : AuthResult where
  tenantID := "tenant"
  timestamp := utf8 "20240101T000000Z"
  scope := utf8 "20240101/r/s3/aws4_request"

theorem honest_body_signed :
    ((signedUpload [] [97]).decoded uploadResult.tenantID).StoresOnly registerGateway
      (signedRun [] [97]).1 (signedRun [] [97]).2.2
      (PayloadSigned uploadAuthenticator.lib (signedUpload [] [97]).http uploadResult) := by
  have hauth : uploadAuthenticator.authenticateHeader sampleNow (signedUpload [] [97]).http =
      .ok uploadResult := by decide +kernel
  have hsetting : UploadSetting registerGateway emptyWorld
      ((signedUpload [] [97]).decoded uploadResult.tenantID) := by
    refine ⟨registerSetting.opens, registerSetting.blake3, ?_, ?_⟩
    · rintro r ⟨⟩
      exact ⟨fun hash e he => absurd he (by simp [emptyWorld]), by simp [samplePut], by simp [samplePut]⟩
    · exact fun id s hs => absurd hs (by simp [emptyWorld])
  have hstored : ((serveUpload uploadAuthenticator registerGateway sampleNow
      (signedUpload [] [97])).run (machine registerGateway.providers) (fun _ => sampleClock 0) []
        emptyWorld).1.status = 200 := by decide +kernel
  have hplain : uploadAuthenticator.isChunkedRequest (signedUpload [] [97]).http = false := by
    decide +kernel
  have hdigest : uploadAuthenticator.lib.sha256Hex (signedUpload [] [97]).http.body =
      (signedUpload [] [97]).http.get payloadHeader := by decide +kernel
  unfold signedRun
  exact (stored_payload_signed_iff hauth hsetting hstored).mpr ⟨hplain, fun _ => hdigest⟩

end ObjectFabric
