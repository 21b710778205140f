import ObjectFabric.Gateway.Copy
import ObjectFabric.Gateway.ShardFaults

/-!
# CopyContent — what the recorded hash of a copy vouches for

A copy either carries the recorded hash of its source over to the same bytes, or records a hash of
its own.  Parts and shards are checked against their recorded hashes as they are read; the one piece
of any other source is not.
-/

namespace ObjectFabric

open Interleaving

/-! ## 1. What the source vouches for -/

def Integrity.passed : Integrity → Bool
  | .failed _ => false
  | _ => true

/-- The bytes that the backend holds for the piece, when they pass the check of the piece. -/
structure Vouched (cfg : Config) (pieces : FMap PieceAddr Bytes) (p : Piece) (bytes : Bytes) :
    Prop where
  found : pieces.lookup p.addr = some bytes
  passed : (verifyPiece cfg bytes p).passed = true

def VouchedShard (cfg : Config) (pieces : FMap PieceAddr Bytes) (p : Piece) (s : Shard) : Prop :=
  s = p.shard [] ∨ ∃ bytes, Vouched cfg pieces p bytes ∧ s = p.shard bytes

def ObjectManifest.severalPieces (m : ObjectManifest) : Prop :=
  m.isErasureCoded = true ∨ m.isMultipart = true

instance (m : ObjectManifest) : Decidable m.severalPieces := inferInstanceAs (Decidable (_ ∨ _))

/-- A payload that a copy may take from the source: made of bytes that pass the source's own
integrity check, and opened where the ciphertext is bound to the source. -/
inductive Certified (cfg : Config) (pieces : FMap PieceAddr Bytes) (src : ObjectManifest) :
    Bytes → Prop where
  | piece {p : Piece} {ps : List Piece} {bytes : Bytes} (hone : ¬ src.severalPieces)
      (hpieces : src.pieces = p :: ps) (hunbound : src.encryption.aadVersion ≠ .v1)
      (hvouched : Vouched cfg pieces p bytes) : Certified cfg pieces src bytes
  | opened {p : Piece} {ps : List Piece} {bytes plaintext : Bytes} (hone : ¬ src.severalPieces)
      (hpieces : src.pieces = p :: ps) (hbound : src.encryption.aadVersion = .v1)
      (hvouched : Vouched cfg pieces p bytes)
      (hopen : cfg.decryptFromStorage bytes src.encryption src.aadIdentity = .ok plaintext) :
      Certified cfg pieces src plaintext
  | parts {bodies opened : List Bytes} (hcoded : src.isErasureCoded = false)
      (hparts : src.isMultipart = true)
      (hvouched : List.Forall₂ (Vouched cfg pieces)
        (src.pieces.insertionSort fun p q => p.partNumber ≤ q.partNumber) bodies)
      (hopen : unsealParts cfg src bodies = .ok opened) : Certified cfg pieces src opened.flatten
  | shards {lookup : String → Except String ErasureEncoder} {encoder : ErasureEncoder}
      {shards : List Shard} {decoded content : Bytes} (hcoded : src.isErasureCoded = true)
      (hregistry : cfg.erasureCoding = some lookup)
      (hencoder : lookup src.placementPolicy.erasureProfile = .ok encoder)
      (hvouched : List.Forall₂ (VouchedShard cfg pieces) (src.pieces.insertionSort shardBefore)
        shards)
      (hdecode : encoder.decode shards = .ok decoded)
      (hopen : unsealShards cfg src decoded = .ok content) : Certified cfg pieces src content

/-! ## 2. Reading the source -/

/-- A read without effect that is refused or finds something of which `P` holds. -/
def Finds {α : Type} (w : World) (P : α → Prop) (r : Except Response α) (w' : World) : Prop :=
  w' = w ∧ match r with
    | .ok a => P a
    | .error response => response.refused

variable {α : Type} {w' : World} {m : ObjectManifest} {response : Response} {src : ObjectManifest}
  {q : Piece} {backend : String}

section

variable {cfg : Config} {ok : Choice → Prop} {w : World}

theorem reconstructError_finds {P : α → Prop} {status : Nat} (hstatus : 300 ≤ status)
    (code message : String) :
    (reconstructError status code message).Ensures (machine cfg.providers) ok w (Finds w P) :=
  ⟨rfl, hstatus⟩

theorem passed_of_not_failed {i : Integrity} (h : ∀ message, i ≠ .failed message) :
    i.passed = true := by
  cases i with
  | failed message => exact absurd rfl (h message)
  | verified | unrecognized => rfl

theorem fetchShard_vouched (p : Piece) : (fetchShard cfg p).Ensures (machine cfg.providers) ok w
    (Finds w (Vouched cfg w.pieces p)) := by
  unfold fetchShard
  split
  · exact reconstructError_finds (by decide) _ _
  refine ensures_getPiece p.addr (fun e => reconstructError_finds (by decide) _ _) ?_
  intro body hfound
  simp only
  split
  · exact reconstructError_finds (by decide) _ _
  · rename_i hnot
    exact ⟨rfl, hfound, passed_of_not_failed hnot⟩

/-- `rest` is what the pieces `ps` add to what was fetched before. -/
def Extends {α : Type} (R : Piece → α → Prop) (ps : List Piece) (before found : List α) : Prop :=
  ∃ rest, found = before ++ rest ∧ List.Forall₂ R ps rest

theorem Extends.nil {R : Piece → α → Prop} (before : List α) :
    Extends R [] before before :=
  ⟨[], (List.append_nil before).symm, .nil⟩

theorem Extends.cons {R : Piece → α → Prop} {p : Piece} {ps : List Piece} {a : α}
    {before found : List α} (ha : R p a) (h : Extends R ps (before ++ [a]) found) :
    Extends R (p :: ps) before found := by
  rcases h with ⟨rest, hfound, hrest⟩
  refine ⟨a :: rest, ?_, .cons ha hrest⟩
  rw [hfound, List.append_assoc]
  rfl

theorem Finds.mono {P P' : α → Prop} {r : Except Response α}
    (h : Finds w P r w') (hP : ∀ a, P a → P' a) : Finds w P' r w' := by
  refine ⟨h.1, ?_⟩
  cases r with
  | ok a => exact hP a h.2
  | error response => exact h.2

theorem fetchShards_vouched (tolerance : Nat) (ps : List Piece) (losses : Int → Nat)
    (fetched : List Shard) :
    (fetchShards cfg tolerance ps losses fetched).Ensures (machine cfg.providers) ok w
      (Finds w (Extends (VouchedShard cfg w.pieces) ps fetched)) := by
  induction ps generalizing losses fetched with
  | nil => exact ⟨rfl, Extends.nil fetched⟩
  | cons p ps ih => ?_
  apply (fetchShard_vouched p).seq
  rintro r w' ⟨rfl, hr⟩
  cases r with
  | ok body =>
    have hshard : VouchedShard cfg w'.pieces p (p.shard body) := Or.inr ⟨body, hr, rfl⟩
    exact (ih losses _).mono fun _ _ h => h.mono fun _ => Extends.cons hshard
  | error response => ?_
  simp only
  split
  · exact ⟨rfl, hr⟩
  · -- the loss is tolerated, and the shard counts as missing
    have hlost : VouchedShard cfg w'.pieces p (p.shard []) := Or.inl rfl
    exact (ih _ _).mono fun _ _ h => h.mono fun _ => Extends.cons hlost

theorem fetchParts_vouched (ps : List Piece) (bodies : List Bytes) :
    (fetchParts cfg ps bodies).Ensures (machine cfg.providers) ok w
      (Finds w (Extends (Vouched cfg w.pieces) ps bodies)) := by
  induction ps generalizing bodies with
  | nil => exact ⟨rfl, Extends.nil bodies⟩
  | cons p ps ih => ?_
  refine ensures_getPiece p.addr (fun e => reconstructError_finds (by decide) _ _) ?_
  intro body hfound
  simp only
  split
  · exact reconstructError_finds (by decide) _ _
  · rename_i hnot
    have hbody : Vouched cfg w.pieces p body := ⟨hfound, passed_of_not_failed hnot⟩
    exact (ih _).mono fun _ _ h => h.mono fun _ => Extends.cons hbody

theorem unsealShards_refused {bytes : Bytes}
    (h : unsealShards cfg m bytes = .error response) : response.refused := by
  unfold unsealShards at h
  split at h
  · exact absurd h (by simp)
  cases hopen : cfg.decryptFromStorage bytes m.encryption m.aadIdentity with
  | ok plaintext =>
    rw [hopen] at h
    exact absurd h (by simp [Except.mapError])
  | error message =>
    rw [hopen] at h
    rw [← Except.error.inj h]
    simp

theorem unsealParts_refused {bodies : List Bytes}
    (h : unsealParts cfg m bodies = .error response) : response.refused := by
  unfold unsealParts at h
  split at h
  · exact absurd h (by simp)
  split at h
  · rw [← Except.error.inj h]
    simp
  split at h
  · rw [← Except.error.inj h]
    simp
  rename_i dek _
  cases hopen : bodies.mapM (cfg.decryptWithDEK · dek m.encryption m.aadIdentity) with
  | ok opened =>
    rw [hopen] at h
    exact absurd h (by simp [Except.mapError])
  | error message =>
    rw [hopen] at h
    rw [← Except.error.inj h]
    simp

theorem reconstructErasureCoded_certified
    (hcoded : src.isErasureCoded = true) :
    (reconstructErasureCoded cfg src).Ensures (machine cfg.providers) ok w
      (Finds w (Certified cfg w.pieces src)) := by
  unfold reconstructErasureCoded
  split
  · exact reconstructError_finds (by decide) _ _
  rename_i lookup hregistry
  split
  · exact reconstructError_finds (by decide) _ _
  split
  · exact reconstructError_finds (by decide) _ _
  rename_i encoder hencoder
  split
  · exact reconstructError_finds (by decide) _ _
  apply (fetchShards_vouched _ _ _ _).seq
  rintro r w' ⟨rfl, hr⟩
  rcases r with response | shards
  · exact ⟨rfl, hr⟩
  rcases hr with ⟨rest, hshards, hvouched⟩
  rw [List.nil_append] at hshards
  simp only
  rcases hdecode : encoder.decode shards with message | decoded
  · exact reconstructError_finds (by decide) _ _
  refine ⟨rfl, ?_⟩
  cases hopen : unsealShards cfg src decoded with
  | error response => exact unsealShards_refused hopen
  | ok content =>
    rw [← hshards] at hvouched
    exact .shards hcoded hregistry hencoder hvouched hdecode hopen

theorem reconstructMultipart_certified
    (hcoded : src.isErasureCoded = false) (hparts : src.isMultipart = true) :
    (reconstructMultipart cfg src).Ensures (machine cfg.providers) ok w
      (Finds w fun bodies => Certified cfg w.pieces src bodies.flatten) := by
  unfold reconstructMultipart
  split
  · exact reconstructError_finds (by decide) _ _
  simp only
  split
  · exact reconstructError_finds (by decide) _ _
  apply (fetchParts_vouched _ _).seq
  rintro r w' ⟨rfl, hr⟩
  rcases r with response | bodies
  · exact ⟨rfl, hr⟩
  rcases hr with ⟨rest, hbodies, hvouched⟩
  rw [List.nil_append] at hbodies
  rw [← hbodies] at hvouched
  simp only
  rcases hopen : unsealParts cfg src bodies with response | opened
  · exact ⟨rfl, unsealParts_refused hopen⟩
  simp only
  split
  · exact reconstructError_finds (by decide) _ _
  · exact ⟨rfl, .parts hcoded hparts hvouched hopen⟩

theorem reconstructSource_certified (hsrc : src.severalPieces) :
    (reconstructSource cfg src).Ensures (machine cfg.providers) ok w
      (Finds w (Certified cfg w.pieces src)) := by
  unfold reconstructSource
  cases hcoded : src.isErasureCoded with
  | true => exact reconstructErasureCoded_certified hcoded
  | false => ?_
  have hparts : src.isMultipart = true := by
    cases hsrc with
    | inl h => exact absurd (hcoded.symm.trans h) (by simp)
    | inr h => exact h
  apply (reconstructMultipart_certified hcoded hparts).seq
  rintro r w' ⟨rfl, hr⟩
  cases r <;> exact ⟨rfl, hr⟩

/-! ## 3. What the copy vouches for -/

/-- The bytes stored for a payload: the payload itself, or its ciphertext under the key and the
identity that the manifest of the copy records. -/
def StoredAs (cfg : Config) (r : CopyRequest) (m : ObjectManifest) (payload bytes : Bytes) : Prop :=
  bytes = payload ∨ ∃ wrapped, cfg.encryptForStorage r.entropy payload m.aadIdentity =
      .ok (bytes, wrapped) ∧ m.encryption.aadVersion = .v1 ∧ m.encryption.keyID = wrapped.keyID ∧
    m.encryption.wrappedDEK = wrapped.wrappedKey ∧
    m.encryption.wrapAlgorithm = wrapped.wrapAlgorithm

/-- The copy `m` in `w'` says of its bytes what the source in `w` said of the very same bytes, or it
says it of bytes made from what passes the source's check. -/
inductive CertifiedCopy (cfg : Config) (r : CopyRequest) (src : ObjectManifest) (w w' : World)
    (m : ObjectManifest) : Prop where
  | carried {p q : Piece} (hsrc : src.pieces.head? = some p) (hpieces : m.pieces = [q])
      (hhash : q.hash = p.hash) (henc : m.encryption = src.encryption)
      (hbytes : w'.pieces.lookup q.addr = w.pieces.lookup p.addr)
  | certified {q : Piece} {payload bytes : Bytes} (hpayload : Certified cfg w.pieces src payload)
      (hstored : StoredAs cfg r m payload bytes) (hpieces : m.pieces = [q])
      (hbytes : w'.pieces.lookup q.addr = some bytes)
      (hhash : q.hash = "blake3:" ++ cfg.blake3Hex bytes)

def CopyCertified (cfg : Config) (r : CopyRequest) (src : ObjectManifest) (w : World)
    (response : Response) (w' : World) : Prop :=
  ∃ m, w'.manifests.byKey.lookup
      (cfg.manifestKey r.tenantID r.dstBucket r.dstKey response.versionID) = some m ∧
    CertifiedCopy cfg r src w w' m

/-! ## 4. When the gateway hashes the piece of the source anew -/

def defaultMode (cfg : Config) (w : World) (r : CopyRequest) (src : ObjectManifest) :
    EncryptionMode :=
  if src.placementPolicy.encryptionMode ≠ .unset ∨ cfg.hasBucketConfig = false then
    src.placementPolicy.encryptionMode
  else
    match w.buckets.getEncryption r.tenantID r.dstBucket with
    | .ok sse => if sse.algorithm = "" then .unset else .managed
    | .error _ => .unset

/-- The content index has a row for the source, so that the copy shares its piece. -/
def SharesPiece (cfg : Config) (w : World) (r : CopyRequest) (src : ObjectManifest) : Prop :=
  (src.contentHash ≠ "" ∧ cfg.hasContentIndex = true) ∧
    (w.index.rows.lookup ⟨r.tenantID, src.contentHash⟩).isSome = true

/-- The bytes of the source's piece pass through the gateway, which records a hash of its own:
they are sealed anew, or written again because nobody else can copy them. -/
def Rehashes (cfg : Config) (w : World) (r : CopyRequest) (src : ObjectManifest) (p : Piece) :
    Prop :=
  src.encryption.aadVersion = .v1 ∨
  (src.encryption.mode = .unset ∧ (defaultMode cfg w r src).isGatewayEncrypted = true) ∨
  (¬ SharesPiece cfg w r src ∧
    ∀ provider, cfg.providers p.backend = some provider → provider.serverSideCopy = false)

/-- Where the gateway hashes the one piece of the source anew, its bytes pass the check first. -/
def SourcePasses (cfg : Config) (w : World) (r : CopyRequest) (src : ObjectManifest) : Prop :=
  src.severalPieces ∨ ∀ p, src.pieces.head? = some p → Rehashes cfg w r src p →
    ∀ bytes, w.pieces.lookup p.addr = some bytes → (verifyPiece cfg bytes p).passed = true

/-! ## 5. Storing the copy -/

variable {r : CopyRequest} {src : ObjectManifest} {p : Piece} {ps : List Piece}

def CopySettled (cfg : Config) (w : World) (r : CopyRequest) (src : ObjectManifest)
    (response : Response) (w' : World) : Prop :=
  response.status = 200 →
    (CopyCertified cfg r src w response w' ↔ SourcePasses cfg w r src)

def Settles (cfg : Config) (ok : Choice → Prop) (w : World) (r : CopyRequest)
    (src : ObjectManifest) (p : Handler) : Prop :=
  p.Ensures (machine cfg.providers) ok w (CopySettled cfg w r src)

theorem settled_of_refused (h : response.refused) :
    CopySettled cfg w r src response w' := by
  intro hok
  rw [Response.refused_iff, hok] at h
  omega

theorem writeCopyManifest_settled {enc : EncryptionConfig}
    {dedupCopy : Bool}
    (h : ∀ m : ObjectManifest, m.pieces = [q] → m.encryption = enc →
      m.aadIdentity = ⟨r.tenantID, r.dstBucket, cfg.hashObjectKey r.dstKey, q.pieceID⟩ →
      ∀ manifests, (CertifiedCopy cfg r src w { w' with manifests } m ↔
        SourcePasses cfg w r src)) :
    (writeCopyManifest cfg r src q backend enc dedupCopy).Ensures (machine cfg.providers) ok w'
      (CopySettled cfg w r src) := by
  refine ensures_total rfl fun x _ => ?_
  refine persistManifest_ensures (fun response w'' hne hok => absurd hok hne) ?_
  rintro m ⟨ret, hm⟩
  have hpieces : m.pieces = [q] := by rw [hm]; rfl
  have henc : m.encryption = enc := by rw [hm]; rfl
  have hid : m.aadIdentity = ⟨r.tenantID, r.dstBucket, cfg.hashObjectKey r.dstKey, q.pieceID⟩ := by
    rw [hm]
    rfl
  have hkey : m.key = cfg.manifestKey r.tenantID r.dstBucket r.dstKey m.versionID := by
    rw [hm]
    rfl
  have hlookup : (w'.manifests.byKey.insert m.key m).lookup
      (cfg.manifestKey r.tenantID r.dstBucket r.dstKey m.versionID) = some m := by
    rw [hkey, FMap.lookup_insert_ite, if_pos rfl]
  refine ensures_total rfl fun y _ => ?_
  intro _
  rw [← h m hpieces henc hid (w'.manifests.put m.key m)]
  constructor
  · rintro ⟨m', hm', hcopy⟩
    rw [← Option.some.inj (hlookup.symm.trans hm')] at hcopy
    exact hcopy
  · intro hcopy
    exact ⟨m, hlookup, hcopy⟩

theorem sourcePasses_iff (hone : ¬ src.severalPieces) (hpieces : src.pieces = p :: ps)
    (hrehash : Rehashes cfg w r src p) {bytes : Bytes}
    (hfound : w.pieces.lookup p.addr = some bytes) :
    SourcePasses cfg w r src ↔ (verifyPiece cfg bytes p).passed = true := by
  have hhead : src.pieces.head? = some p := by
    rw [hpieces]
    rfl
  constructor
  · rintro (hseveral | hpasses)
    · exact absurd hseveral hone
    · exact hpasses p hhead hrehash bytes hfound
  intro hpassed
  refine Or.inr fun p' hp' _ bytes' hbytes' => ?_
  rw [hhead] at hp'
  rw [← Option.some.inj hp'] at hbytes' ⊢
  rw [hfound] at hbytes'
  rw [← Option.some.inj hbytes']
  exact hpassed

theorem Certified.passed (hone : ¬ src.severalPieces) (hpieces : src.pieces = p :: ps)
    {bytes payload : Bytes} (hfound : w.pieces.lookup p.addr = some bytes)
    (h : Certified cfg w.pieces src payload) : (verifyPiece cfg bytes p).passed = true := by
  have hsame : ∀ {p' ps' bytes'}, src.pieces = p' :: ps' → Vouched cfg w.pieces p' bytes' →
      (verifyPiece cfg bytes p).passed = true := by
    intro p' ps' bytes' hpieces' hvouched
    rw [hpieces] at hpieces'
    rw [← (List.cons.inj hpieces').1] at hvouched
    have hbytes := hvouched.found
    rw [hfound] at hbytes
    rw [Option.some.inj hbytes]
    exact hvouched.passed
  cases h with
  | piece _ hpieces' _ hvouched => exact hsame hpieces' hvouched
  | opened _ hpieces' _ hvouched _ => exact hsame hpieces' hvouched
  | parts _ hparts _ _ => exact absurd (Or.inr hparts) hone
  | shards hcoded _ _ _ _ _ => exact absurd (Or.inl hcoded) hone

theorem certifiedCopy_rehashed_iff (hone : ¬ src.severalPieces) (hpieces : src.pieces = p :: ps)
    (hrehash : Rehashes cfg w r src p) {bytes out payload : Bytes}
    (hfound : w.pieces.lookup p.addr = some bytes)
    (hmpieces : m.pieces = [q]) (hout : w'.pieces.lookup q.addr = some out)
    (hhash : q.hash = "blake3:" ++ cfg.blake3Hex out) (hstored : StoredAs cfg r m payload out)
    (hcertified : Vouched cfg w.pieces p bytes → Certified cfg w.pieces src payload) :
    CertifiedCopy cfg r src w w' m ↔ SourcePasses cfg w r src := by
  rw [sourcePasses_iff hone hpieces hrehash hfound]
  constructor
  · intro h
    cases h with
    | @carried p' q' hsrc hmpieces' hhash' _ hbytes =>
      rw [hmpieces] at hmpieces'
      rw [hpieces] at hsrc
      have hq : q = q' := (List.cons.inj hmpieces').1
      have hp : p = p' := Option.some.inj hsrc
      rw [← hq, ← hp] at hbytes hhash'
      -- the same bytes under the same hash, which is theirs
      rw [hout, hfound] at hbytes
      rw [hhash, Option.some.inj hbytes] at hhash'
      rw [verifyPiece_of_hash hhash'.symm]
      rfl
    | certified hpayload _ _ _ _ => exact hpayload.passed hone hpieces hfound
  · intro hpassed
    exact .certified (hcertified ⟨hfound, hpassed⟩) hstored hmpieces hout hhash

theorem certifiedCopy_carried_iff (hpieces : src.pieces = p :: ps)
    (hrehash : ¬ Rehashes cfg w r src p)
    (hmpieces : m.pieces = [q]) (hhash : q.hash = p.hash) (henc : m.encryption = src.encryption)
    (hbytes : w'.pieces.lookup q.addr = w.pieces.lookup p.addr) :
    CertifiedCopy cfg r src w w' m ↔ SourcePasses cfg w r src := by
  have hhead : src.pieces.head? = some p := by
    rw [hpieces]
    rfl
  have hpasses : SourcePasses cfg w r src := by
    refine Or.inr fun p' hp' hrehash' => ?_
    rw [hhead] at hp'
    rw [← Option.some.inj hp'] at hrehash'
    exact absurd hrehash' hrehash
  exact iff_of_true (.carried hhead hmpieces hhash henc hbytes) hpasses

theorem certifiedCopy_several_iff (hseveral : src.severalPieces) {payload out : Bytes}
    (hpayload : Certified cfg w.pieces src payload)
    (hmpieces : m.pieces = [q]) (hout : w'.pieces.lookup q.addr = some out)
    (hhash : q.hash = "blake3:" ++ cfg.blake3Hex out) (hstored : StoredAs cfg r m payload out) :
    CertifiedCopy cfg r src w w' m ↔ SourcePasses cfg w r src :=
  iff_of_true (.certified hpayload hstored hmpieces hout hhash) (Or.inl hseveral)

def Decides (cfg : Config) (w : World) (r : CopyRequest) (src : ObjectManifest) (payload : Bytes) :
    Prop :=
  ∀ (m : ObjectManifest) (q : Piece) (w' : World) (out : Bytes), m.pieces = [q] →
    w'.pieces.lookup q.addr = some out → q.hash = "blake3:" ++ cfg.blake3Hex out →
    StoredAs cfg r m payload out → (CertifiedCopy cfg r src w w' m ↔ SourcePasses cfg w r src)

theorem storeReencryptedCopy_settled {provider : Provider}
    (hprovider : cfg.providers backend = some provider) {payload : Bytes}
    (hdecides : Decides cfg w r src payload) (mode : EncryptionMode) (manifestEncrypted : Bool) :
    Settles cfg ok w r src (storeReencryptedCopy cfg r src backend payload mode manifestEncrypted) := by
  refine ensures_total rfl fun x _ => ?_
  simp only
  generalize cfg.newPieceID r.tenantID r.dstBucket r.dstKey _ = pieceID
  cases hsealed : cfg.encryptForStorage r.entropy payload
      ⟨r.tenantID, r.dstBucket, cfg.hashObjectKey r.dstKey, pieceID⟩ with
  | error message => exact settled_of_refused (by simp)
  | ok sealed =>
    refine ensures_putPiece hprovider sealed.1 (settled_of_refused (by simp)) ?_
    refine writeCopyManifest_settled fun m hpieces henc hid manifests => ?_
    refine hdecides m _ _ sealed.1 hpieces ?_ rfl ?_
    · show (w.pieces.insert _ _).lookup _ = _
      rw [FMap.lookup_insert_ite]
      exact if_pos rfl
    · refine Or.inr ⟨sealed.2, ?_⟩
      rw [hid, henc]
      exact ⟨hsealed, rfl, rfl, rfl, rfl⟩

theorem storeVerbatimCopy_settled {provider : Provider}
    (hprovider : cfg.providers backend = some provider) {payload : Bytes}
    (hdecides : Decides cfg w r src payload) (enc : EncryptionConfig) :
    Settles cfg ok w r src (storeVerbatimCopy cfg r src backend payload enc) := by
  refine ensures_total rfl fun x _ => ?_
  generalize cfg.newPieceID r.tenantID r.dstBucket r.dstKey _ = pieceID
  refine ensures_putPiece hprovider payload (settled_of_refused (by simp)) ?_
  refine writeCopyManifest_settled fun m hpieces _ _ manifests => ?_
  refine hdecides m _ _ payload hpieces ?_ rfl (Or.inl rfl)
  show (w.pieces.insert _ _).lookup _ = _
  rw [FMap.lookup_insert_ite]
  exact if_pos rfl

/-! ## 6. The copy paths -/

theorem effectiveEncryptionMode_finds :
    (cfg.effectiveEncryptionMode r.tenantID r.dstBucket src.placementPolicy).Ensures
      (machine cfg.providers) ok w fun a w' => w' = w ∧
        ∀ mode, a = .ok mode → mode = defaultMode cfg w r src := by
  unfold Config.effectiveEncryptionMode defaultMode
  split
  · exact ⟨rfl, fun mode h => (Except.ok.inj h).symm⟩
  rename_i hdefault
  have hunset : src.placementPolicy.encryptionMode = .unset := by
    by_contra hset
    exact hdefault (Or.inl hset)
  refine ensures_fallible rfl ⟨rfl, fun mode h => absurd h (by simp)⟩ fun x _ => ?_
  have hexec : World.exec cfg.providers x (.getEncryption r.tenantID r.dstBucket) w =
      (w.buckets.getEncryption r.tenantID r.dstBucket, w) := rfl
  rw [hexec]
  rcases w.buckets.getEncryption r.tenantID r.dstBucket with e | sse
  · exact ⟨rfl, fun mode h => absurd h (by simp)⟩
  simp only
  split
  · exact ⟨rfl, fun mode h => by rw [← Except.ok.inj h, hunset]⟩
  split
  · exact ⟨rfl, fun mode h => absurd h (by simp)⟩
  · exact ⟨rfl, fun mode h => (Except.ok.inj h).symm⟩

section OnePiece

variable {provider : Provider} (hprovider : cfg.providers p.backend = some provider)
  (hone : ¬ src.severalPieces) (hpieces : src.pieces = p :: ps)
include hprovider hone hpieces

theorem copyReencrypt_settled (hbound : src.encryption.aadVersion = .v1) :
    Settles cfg ok w r src (copyReencrypt cfg r src p) := by
  unfold copyReencrypt
  split
  · exact settled_of_refused (by simp)
  split
  · exact settled_of_refused (by simp)
  refine ensures_getPiece p.addr (fun e => settled_of_refused (by simp)) fun bytes hfound => ?_
  simp only
  split
  · exact settled_of_refused (by simp)
  cases hopen : cfg.decryptFromStorage bytes src.encryption src.aadIdentity with
  | error message => exact settled_of_refused (by simp)
  | ok plaintext => ?_
  refine storeReencryptedCopy_settled hprovider ?_ _ _
  intro m q w' out hmpieces hout hhash hstored
  exact certifiedCopy_rehashed_iff hone hpieces (Or.inl hbound) hfound hmpieces hout hhash hstored
    fun hvouched => .opened hone hpieces hbound hvouched hopen

section

variable (hunbound : src.encryption.aadVersion ≠ .v1)
include hunbound

theorem copyEncryptForDefault_settled (hrehash : Rehashes cfg w r src p) (mode : EncryptionMode) :
    Settles cfg ok w r src (copyEncryptForDefault cfg r src p mode) := by
  unfold copyEncryptForDefault
  split
  · exact settled_of_refused (by simp)
  split
  · exact settled_of_refused (by simp)
  refine ensures_getPiece p.addr (fun e => settled_of_refused (by simp)) fun bytes hfound => ?_
  simp only
  split
  · exact settled_of_refused (by simp)
  refine storeReencryptedCopy_settled hprovider ?_ _ _
  intro m q w' out hmpieces hout hhash hstored
  exact certifiedCopy_rehashed_iff hone hpieces hrehash hfound hmpieces hout hhash hstored
    fun hvouched => .piece hone hpieces hunbound hvouched

section

variable (hmode : ¬ (src.encryption.mode = .unset ∧ (defaultMode cfg w r src).isGatewayEncrypted = true))
include hmode

theorem copyVerbatim_settled (hshare : ¬ SharesPiece cfg w r src) :
    Settles cfg ok w r src (copyVerbatim cfg r src p provider.serverSideCopy) := by
  refine ensures_total rfl fun x _ => ?_
  generalize cfg.newPieceID r.tenantID r.dstBucket r.dstKey _ = pieceID
  cases hside : provider.serverSideCopy with
  | true =>
    -- the provider copies the bytes, and the hash of the source goes with them
    have hkeep : ¬ Rehashes cfg w r src p := by
      rintro (hbound | hdefault | ⟨_, hno⟩)
      · exact hunbound hbound
      · exact hmode hdefault
      · exact absurd ((hno provider hprovider).symm.trans hside) (by simp)
    refine ensures_copyPiece hprovider (fun e => settled_of_refused (by simp)) ?_
    intro body res hfound
    change w.pieces.lookup p.addr = some body at hfound
    refine writeCopyManifest_settled fun m hmpieces henc _ manifests => ?_
    refine certifiedCopy_carried_iff hpieces hkeep hmpieces rfl henc ?_
    show (w.pieces.insert _ _).lookup _ = _
    rw [FMap.lookup_insert_ite, hfound]
    exact if_pos rfl
  | false => ?_
  have hrehash : Rehashes cfg w r src p := by
    refine Or.inr (Or.inr ⟨hshare, fun provider' hprovider' => ?_⟩)
    rw [hprovider] at hprovider'
    rw [← Option.some.inj hprovider']
    exact hside
  simp only [copyBytes, copyViaGetPut, Bool.false_eq_true, if_false, Proc.bind_eq,
    Proc.bind_assoc]
  refine ensures_getPiece p.addr (fun e => settled_of_refused (by simp)) fun bytes hfound => ?_
  refine ensures_putPiece hprovider bytes (settled_of_refused (by simp)) ?_
  refine writeCopyManifest_settled fun m hmpieces _ _ manifests => ?_
  refine certifiedCopy_rehashed_iff hone hpieces hrehash hfound hmpieces ?_ rfl (Or.inl rfl)
    fun hvouched => .piece hone hpieces hunbound hvouched
  show (w.pieces.insert _ _).lookup _ = _
  rw [FMap.lookup_insert_ite]
  exact if_pos rfl

theorem copyShared_settled :
    Settles cfg ok w r src (copyShared cfg r src p provider.serverSideCopy) := by
  unfold copyShared
  split
  · rename_i hindex
    refine ensures_incrementRef _ (fun e hmiss => ?_) fun e hrow => ?_
    · cases e with
      | contentNotFound =>
        refine copyVerbatim_settled hprovider hone hpieces hunbound hmode fun hshare => ?_
        rw [SharesPiece, hmiss rfl] at hshare
        exact absurd hshare.2 (by simp)
      | _ => exact settled_of_refused (by simp)
    · have hshare : SharesPiece cfg w r src := ⟨hindex, by rw [hrow]; rfl⟩
      have hkeep : ¬ Rehashes cfg w r src p := by
        rintro (hbound | hdefault | ⟨hno, _⟩)
        · exact hunbound hbound
        · exact hmode hdefault
        · exact hno hshare
      refine writeCopyManifest_settled fun m hmpieces henc _ manifests => ?_
      exact certifiedCopy_carried_iff hpieces hkeep hmpieces rfl henc rfl
  · rename_i hindex
    exact copyVerbatim_settled hprovider hone hpieces hunbound hmode fun hshare => hindex hshare.1

end

end

theorem copySinglePiece_settled :
    Settles cfg ok w r src (copySinglePiece cfg r src p) := by
  unfold copySinglePiece
  rw [hprovider]
  simp only
  split
  · rename_i hbound
    exact copyReencrypt_settled hprovider hone hpieces hbound
  rename_i hunbound
  split
  · rename_i hplain
    apply Proc.Ensures.bind
    apply effectiveEncryptionMode_finds.mono
    rintro a w' ⟨rfl, hdefault⟩
    rcases a with message | mode
    · exact settled_of_refused (by simp)
    rw [hdefault mode rfl]
    simp only
    split
    · rename_i hgateway
      exact copyEncryptForDefault_settled hprovider hone hpieces hunbound
        (Or.inr (Or.inl ⟨hplain, hgateway⟩)) _
    · rename_i hgateway
      exact copyShared_settled hprovider hone hpieces hunbound fun h => hgateway h.2
  · rename_i hsealed
    exact copyShared_settled hprovider hone hpieces hunbound fun h => hsealed h.1

end OnePiece

theorem copyDestinationBackend_registered
    (h : copyDestinationBackend cfg src = some backend) :
    ∃ provider, cfg.providers backend = some provider := by
  have hsome : (cfg.providers backend).isSome = true := by
    unfold copyDestinationBackend at h
    generalize (if src.migrationState.primaryBackend = "" then
      (src.pieces.head?.map Piece.backend).getD "" else src.migrationState.primaryBackend) =
        anchor at h
    simp only at h
    split at h
    · rename_i hanchor
      rw [← Option.some.inj h]
      exact hanchor.2
    rcases Option.map_eq_some_iff.mp h with ⟨q, hq, hbackend⟩
    have hregistered := List.find?_some hq
    rw [← hbackend]
    exact hregistered
  exact Option.isSome_iff_exists.mp hsome

theorem copyReconstructedSource_settled (hseveral : src.severalPieces) :
    Settles cfg ok w r src (copyReconstructedSource cfg r src) := by
  unfold copyReconstructedSource
  split
  · exact settled_of_refused (by simp)
  apply (reconstructSource_certified hseveral).seq
  rintro a w' ⟨rfl, hread⟩
  rcases a with response | content
  · exact settled_of_refused hread
  have hdecides : Decides cfg w' r src content := fun m q w'' out hmpieces hout hhash hstored =>
    certifiedCopy_several_iff hseveral hread hmpieces hout hhash hstored
  rcases hbackend : copyDestinationBackend cfg src with _ | backend
  · exact settled_of_refused (by simp)
  rcases copyDestinationBackend_registered hbackend with ⟨provider, hprovider⟩
  simp only
  split
  · exact storeReencryptedCopy_settled hprovider hdecides _ _
  split
  · apply Proc.Ensures.bind
    apply effectiveEncryptionMode_finds.mono
    rintro mode w'' ⟨rfl, -⟩
    rcases mode with message | mode
    · exact settled_of_refused (by simp)
    simp only
    split
    · exact storeReencryptedCopy_settled hprovider hdecides _ _
    · exact storeVerbatimCopy_settled hprovider hdecides _
  · exact storeVerbatimCopy_settled hprovider hdecides _

/-! ## 7. The handler -/

structure CopyRequest.RefusesBadHeaders (r : CopyRequest) : Prop where
  tagging : ∀ response, r.tagging = .error response → response.refused
  metadata : ∀ response, r.metadataTooLarge = some response → response.refused

theorem copyFrom_settled (hheaders : r.RefusesBadHeaders) (srcVersion : String) :
    Settles cfg ok w r src (copyFrom cfg r srcVersion src) := by
  unfold copyFrom
  split
  · split <;> exact settled_of_refused (by simp)
  split
  · exact settled_of_refused (by simp)
  rename_i p ps hpieces
  split
  · exact settled_of_refused (by simp)
  have htags : ∀ response, r.resolveCopyTags src.tags = .error response → response.refused := by
    intro response h
    unfold CopyRequest.resolveCopyTags at h
    split at h
    · exact absurd h (by simp)
    · exact hheaders.tagging response h
    · rw [← Except.error.inj h]
      simp
  have hmetadata : ∀ response, r.validateCopyMetadataDirective = some response →
      response.refused := by
    intro response h
    unfold CopyRequest.validateCopyMetadataDirective at h
    split at h
    · exact absurd h (by simp)
    · exact hheaders.metadata response h
    · rw [← Option.some.inj h]
      simp
  rcases htag : r.resolveCopyTags src.tags with response | tags
  · exact settled_of_refused (htags response htag)
  cases hdirective : r.validateCopyMetadataDirective with
  | some response => exact settled_of_refused (hmetadata response hdirective)
  | none => ?_
  simp only
  split
  · rename_i hseveral
    exact copyReconstructedSource_settled hseveral
  rename_i hone
  cases hprovider : cfg.providers p.backend with
  | none =>
    unfold copySinglePiece
    rw [hprovider]
    exact settled_of_refused (by simp)
  | some provider => exact copySinglePiece_settled hprovider hone hpieces

def CopiesFrom (cfg : Config) (w : World) (r : CopyRequest) (src : ObjectManifest) : Prop :=
  ∃ bucket key version, r.source = .ok (bucket, key, version) ∧
    w.manifests.get (cfg.manifestKey r.tenantID bucket key version) = .ok src

theorem copyObject_settled (hheaders : r.RefusesBadHeaders) (hsrc : CopiesFrom cfg w r src) :
    Settles cfg ok w r src (copyObject cfg r) := by
  unfold copyObject
  split
  · exact settled_of_refused (by simp)
  rcases hsrc with ⟨bucket, key, version, hsource, hfound⟩
  have hquiet : ∀ {β : Type} (x : Choice) (c : Call β), consults c →
      ((machine cfg.providers).exec x c w).2 = w := fun x c hc => exec_of_consults hc x w
  refine orRefuse_ensures (allowObjectLockOverwrite_ensures hquiet r.destination
    r.bypassGovernance) (fun response h => settled_of_refused h) ?_
  rw [hsource]
  refine ensures_fallible rfl (settled_of_refused (by simp)) fun x _ => ?_
  have hexec : World.exec cfg.providers x
      (.manifestGet (cfg.manifestKey r.tenantID bucket key version)) w = (.ok src, w) := by
    rw [← hfound]
    rfl
  rw [hexec]
  exact copyFrom_settled hheaders version

/-- Whatever the backends hold: a copy that succeeds vouches for no more than its source does
exactly when a piece that the gateway hashes anew passes the check of the source. -/
theorem copy_certified_iff (hheaders : r.RefusesBadHeaders) (hsrc : CopiesFrom cfg w r src)
    (x : Nat → Choice)
    (hok : ((copyObject cfg r).run (machine cfg.providers) x [] w).1.status = 200) :
    CopyCertified cfg r src w ((copyObject cfg r).run (machine cfg.providers) x [] w).1
        ((copyObject cfg r).run (machine cfg.providers) x [] w).2.2 ↔
      SourcePasses cfg w r src := by
  have hsettled : (copyObject cfg r).Ensures (machine cfg.providers) (fun _ => True) w
      (CopySettled cfg w r src) := copyObject_settled hheaders hsrc
  exact hsettled.run (fun _ => trivial) [] hok

end

/-! ## 8. A copy of an altered piece -/

/-- BLAKE3 on the bodies `a` and `b`. -/
def copyBlake3 : Bytes → Bytes
  | [98] =>
    [0x10, 0xe5, 0xcf, 0x3d, 0x3c, 0x8a, 0x4f, 0x9f, 0x34, 0x68, 0xc8, 0xcc, 0x58, 0xee,
      0xa8, 0x48, 0x92, 0xa2, 0x2f, 0xda, 0xdb, 0xc1, 0xac, 0xb2, 0x24, 0x10, 0x19, 0x00,
      0x44, 0xc1, 0xd5, 0x53]
  | b => sampleBlake3 b

def copyGateway : Config := { sampleGateway with blake3 := copyBlake3 }

/-- The body `a` as it was stored. -/
def copiedSource : ObjectManifest :=
  { sampleManifest "v1" with
    objectSize := 1
    pieces := [{ pieceID := "piece", backend := "backend", sizeBytes := 1,
                 hash := "blake3:" ++ copyGateway.blake3Hex [97] }] }

def copyWorld (bytes : Bytes) : World :=
  { sampleWorld with
    manifests := ({} : ManifestStore).put (sampleKey "v1") copiedSource
    pieces := (∅ : FMap PieceAddr Bytes).insert ⟨"backend", "piece"⟩ bytes }

def sampleCopy : CopyRequest :=
  { tenantID := "tenant", dstBucket := "bucket", dstKey := "key",
    source := .ok ("bucket", "key", "v1") }

def copyRun (bytes : Bytes) : Response × History Call × World :=
  (copyObject copyGateway sampleCopy).run (machine copyGateway.providers) (fun _ => sampleClock 1) []
    (copyWorld bytes)

theorem sampleCopy_headers : sampleCopy.RefusesBadHeaders :=
  ⟨fun _ h => absurd h (by simp [sampleCopy]), fun _ h => absurd h (by simp [sampleCopy])⟩

theorem sampleCopy_source (bytes : Bytes) :
    CopiesFrom copyGateway (copyWorld bytes) sampleCopy copiedSource := by
  refine ⟨"bucket", "key", "v1", rfl, ?_⟩
  show (copyWorld [97]).manifests.get _ = _
  decide +kernel

/-- The backend has altered the byte; the copy succeeds and records the hash of what it found. -/
theorem altered_piece_copied : (copyRun [98]).1.status = 200 ∧
    ¬ CopyCertified copyGateway sampleCopy copiedSource (copyWorld [98]) (copyRun [98]).1
      (copyRun [98]).2.2 := by
  have hok : (copyRun [98]).1.status = 200 := by decide +kernel
  refine ⟨hok, fun hcertified => ?_⟩
  have hsettled : (copyObject copyGateway sampleCopy).Ensures (machine copyGateway.providers)
      (fun _ => True) (copyWorld [98]) (CopySettled copyGateway (copyWorld [98]) sampleCopy copiedSource) :=
    copyObject_settled sampleCopy_headers (sampleCopy_source [98])
  rcases (hsettled.run (fun _ => trivial) [] hok).mp hcertified with hseveral | hpasses
  · exact absurd hseveral (by decide +kernel)
  have hrehash : Rehashes copyGateway (copyWorld [98]) sampleCopy copiedSource
      { pieceID := "piece", backend := "backend", sizeBytes := 1,
        hash := "blake3:" ++ copyGateway.blake3Hex [97] } := by
    refine Or.inr (Or.inr ⟨fun hshare => ?_, fun provider hprovider => ?_⟩)
    · exact absurd hshare.1.1 (by decide)
    · rw [← Option.some.inj hprovider]
  exact absurd (hpasses _ rfl hrehash [98] (by decide +kernel)) (by decide +kernel)

/-- The backend has kept the byte. -/
theorem intact_piece_copied : CopyCertified copyGateway sampleCopy copiedSource (copyWorld [97])
    (copyRun [97]).1 (copyRun [97]).2.2 := by
  refine (copy_certified_iff sampleCopy_headers (sampleCopy_source [97]) (fun _ => sampleClock 1)
    (by decide +kernel)).mpr (Or.inr fun p hp _ bytes hbytes => ?_)
  rw [← Option.some.inj hp] at hbytes ⊢
  have hstored : (copyWorld [97]).pieces.lookup ⟨"backend", "piece"⟩ = some [97] := by
    decide +kernel
  rw [← Option.some.inj (hstored.symm.trans hbytes)]
  decide +kernel

end ObjectFabric
