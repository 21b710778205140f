import ObjectFabric.Gateway.Write

/-!
# Reconstruct — reading an object of several pieces back into one body

`reconstructErasureCoded` and `reconstructMultipart` of `api/s3compat/erasure_coding.go`, with the
integrity check of `metadata/pieceintegrity`.  They only read.
-/

namespace ObjectFabric

open Interleaving

/-- The outcome of `pieceintegrity.Verify`: a claim in a format that is not recognised proves
nothing. -/
inductive Integrity where
  | verified
  | unrecognized
  | failed (message : String)
  deriving DecidableEq, Repr

def isSHA256Hex (s : String) : Bool :=
  s.toList.length = 64 && s.toList.all fun c => ('0' ≤ c && c ≤ '9') || ('a' ≤ c && c ≤ 'f')

def mismatchText (p : Piece) (algorithm expected got : String) : String :=
  "pieceintegrity: piece content hash mismatch: piece " ++ p.pieceID ++ " " ++ algorithm ++
    " mismatch: expected \"" ++ expected ++ "\" got \"" ++ got ++ "\""

def verifyPiece (cfg : Config) (body : Bytes) (p : Piece) : Integrity :=
  if p.hash = "" then
    .verified
  else if beginsWith p.hash "blake3:" then
    let expected := String.ofList (p.hash.toList.drop 7)
    let got := cfg.blake3Hex body
    if got = expected then .verified else .failed (mismatchText p "blake3" expected got)
  else
    let expected := stripQuotes p.hash
    let got := cfg.sha256BodyHex body
    if !isSHA256Hex expected then .unrecognized
    else if got = expected then .verified
    else .failed (mismatchText p "sha256" expected got)

/-- `reconstructError` of the source: a failure with its response. -/
def reconstructError {α : Type} (status : Nat) (code message : String) :
    Proc Call (Except Response α) :=
  .ret (.error { status, code, message })

def ObjectManifest.aadIdentity (m : ObjectManifest) : AadIdentity :=
  ⟨m.tenantID, m.bucket, m.objectKeyHash, m.versionID⟩

/-! ## 1. Erasure-coded objects -/

def ShardKind.ofManifest : ShardKind → ErasureShardKind
  | .parity => .parity
  | _ => .data

def Piece.shard (p : Piece) (bytes : Bytes) : Shard :=
  ⟨p.stripeIndex.toNat, p.shardIndex.toNat, p.shardKind.ofManifest, bytes⟩

/-- The bytes of one shard, or the refusal when its loss is one too many for the stripe. -/
def fetchShard (cfg : Config) (p : Piece) : Proc Call (Except Response Bytes) :=
  let exceeded := "stripe " ++ toString p.stripeIndex ++ " exceeded parity tolerance"
  if (cfg.providers p.backend).isNone then
    reconstructError 502 "DataLoss"
      (exceeded ++ ": backend \"" ++ p.backend ++ "\" not registered")
  else do
    match ← ask (.getPiece p.addr) with
    | .error e => reconstructError 502 "DataLoss" (exceeded ++ ": " ++ e.text)
    | .ok body =>
      match verifyPiece cfg body p with
      | .failed message =>
        reconstructError 502 "IntegrityCheckFailed"
          (exceeded ++ " after shard integrity failure: " ++ message)
      | _ => return .ok body

def fetchShards (cfg : Config) (tolerance : Nat) :
    List Piece → (Int → Nat) → List Shard → Proc Call (Except Response (List Shard))
  | [], _, shards => return .ok shards
  | p :: ps, losses, shards => do
    match ← fetchShard cfg p with
    | .ok body => fetchShards cfg tolerance ps losses (shards ++ [p.shard body])
    | .error response =>
      let lost := losses p.stripeIndex + 1
      if tolerance < lost then
        return .error response
      else
        fetchShards cfg tolerance ps (Function.update losses p.stripeIndex lost)
          (shards ++ [p.shard []])

def shardBefore (p q : Piece) : Prop :=
  p.stripeIndex < q.stripeIndex ∨ p.stripeIndex = q.stripeIndex ∧ p.shardIndex ≤ q.shardIndex

instance : DecidableRel shardBefore := fun p q =>
  inferInstanceAs (Decidable (p.stripeIndex < q.stripeIndex ∨
    p.stripeIndex = q.stripeIndex ∧ p.shardIndex ≤ q.shardIndex))

def unsealShards (cfg : Config) (m : ObjectManifest) (decoded : Bytes) : Except Response Bytes :=
  if !m.encryption.mode.isGatewayEncrypted then
    .ok decoded
  else
    (cfg.decryptFromStorage decoded m.encryption m.aadIdentity).mapError fun message =>
      { status := 500, code := "DEKUnwrapFailed", message }

def reconstructErasureCoded (cfg : Config) (m : ObjectManifest) :
    Proc Call (Except Response Bytes) :=
  match cfg.erasureCoding with
  | none => reconstructError 500 "ErasureCodingNotConfigured"
      "object is erasure-coded but no registry is configured"
  | some lookup =>
    if m.placementPolicy.erasureProfile = "" then
      reconstructError 500 "ErasureProfileMissing"
        "erasure-coded manifest is missing ErasureProfile"
    else
      match lookup m.placementPolicy.erasureProfile with
      | .error message => reconstructError 500 "ErasureProfileNotRegistered" message
      | .ok encoder =>
        if m.pieces.all fun p => p.stripeIndex + 1 ≤ 0 then
          reconstructError 500 "EmptyManifest" "erasure-coded manifest has no stripes"
        else do
          match ← fetchShards cfg encoder.parityShards (m.pieces.insertionSort shardBefore)
            (fun _ => 0) [] with
          | .error response => return .error response
          | .ok shards =>
            match encoder.decode shards with
            | .error message => reconstructError 502 "ErasureDecodeFailed" message
            | .ok decoded => return unsealShards cfg m decoded

/-! ## 2. Multipart objects -/

def maxMultipartInMemoryBytes : Int := 256 * 1024 * 1024

def fetchParts (cfg : Config) : List Piece → List Bytes → Proc Call (Except Response (List Bytes))
  | [], bodies => return .ok bodies
  | p :: ps, bodies => do
    let part := "part " ++ toString p.partNumber ++ " piece \"" ++ p.pieceID ++ "\": "
    match ← ask (.getPiece p.addr) with
    | .error e => reconstructError 502 "BackendGetFailed" (part ++ e.text)
    | .ok body =>
      match verifyPiece cfg body p with
      | .failed message => reconstructError 502 "IntegrityCheckFailed" (part ++ message)
      | _ => fetchParts cfg ps (bodies ++ [body])

def unsealParts (cfg : Config) (m : ObjectManifest) (bodies : List Bytes) :
    Except Response (List Bytes) :=
  if !m.encryption.mode.isGatewayEncrypted then
    .ok bodies
  else
    match cfg.encryption with
    | none => .error { status := 500, code := "EncryptionNotConfigured",
                       message := "object is encrypted but no gateway encryption is configured" }
    | some enc =>
      match enc.unwrapDEK m.encryption with
      | .error message => .error { status := 500, code := "DEKUnwrapFailed", message }
      | .ok dek =>
        (bodies.mapM (cfg.decryptWithDEK · dek m.encryption m.aadIdentity)).mapError fun message =>
          { status := 500, code := "DecryptionFailed", message }

def reconstructMultipart (cfg : Config) (m : ObjectManifest) :
    Proc Call (Except Response (List Bytes)) :=
  if maxMultipartInMemoryBytes < m.objectSize then
    reconstructError 507 "MultipartTooLarge"
      ("multipart object of " ++ toString m.objectSize ++
        " bytes exceeds in-memory pre-fetch ceiling of " ++
        toString maxMultipartInMemoryBytes ++ " bytes")
  else
    let pieces := m.pieces.insertionSort fun p q => p.partNumber ≤ q.partNumber
    match pieces.find? fun p => (cfg.providers p.backend).isNone with
    | some p => reconstructError 502 "BackendNotRegistered"
        ("part " ++ toString p.partNumber ++ " references unregistered backend \"" ++
          p.backend ++ "\"")
    | none => do
      match ← fetchParts cfg pieces [] with
      | .error response => return .error response
      | .ok bodies =>
        match unsealParts cfg m bodies with
        | .error response => return .error response
        | .ok bodies =>
          let total : Int := (bodies.map List.length).sum
          if m.objectSize ≠ 0 ∧ total ≠ m.objectSize then
            reconstructError 502 "ManifestIntegrityMismatch"
              ("assembled " ++ toString total ++ " bytes but manifest records " ++
                toString m.objectSize)
          else
            return .ok bodies

/-! ## 3. They only read the object's own pieces -/

section

variable (cfg : Config)
include cfg

theorem fetchShards_reads (tolerance : Nat) {ps qs : List Piece}
    (hps : ∀ p ∈ ps, p ∈ qs) (losses : Int → Nat) (shards : List Shard) :
    (fetchShards cfg tolerance ps losses shards).Only (readsPieces qs) := by
  induction ps generalizing losses shards with
  | nil => trivial
  | cons p ps ih => ?_
  have hrest : ∀ p ∈ ps, p ∈ qs := fun q hq => hps q (List.mem_cons_of_mem p hq)
  have hfetch : (fetchShard cfg p).Only (readsPieces qs) := by
    unfold fetchShard
    split
    · trivial
    refine ⟨⟨p, hps p List.mem_cons_self, rfl⟩, fun b => ?_⟩
    cases b with
    | error e => trivial
    | ok body =>
      simp only [Proc.ret_bind]
      split <;> trivial
  apply hfetch.bind
  intro r
  cases r with
  | ok body => exact ih hrest _ _
  | error response => ?_
  simp only
  split
  · trivial
  · exact ih hrest _ _

theorem reconstructErasureCoded_reads (m : ObjectManifest) :
    (reconstructErasureCoded cfg m).Only (readsPieces m.pieces) := by
  unfold reconstructErasureCoded
  split
  · trivial
  split
  · trivial
  split
  · trivial
  split
  · trivial
  apply (fetchShards_reads _ _ (fun p hp => (List.mem_insertionSort _).mp hp) _ _).bind
  intro r
  cases r with
  | error response => trivial
  | ok shards =>
    simp only
    split <;> trivial

theorem reconstructErasureCoded_only (m : ObjectManifest) :
    (reconstructErasureCoded cfg m).Only inspects :=
  (reconstructErasureCoded_reads cfg m).mono fun _ h => inspects_of_readsPieces h

theorem fetchParts_reads {ps qs : List Piece} (hps : ∀ p ∈ ps, p ∈ qs)
    (bodies : List Bytes) : (fetchParts cfg ps bodies).Only (readsPieces qs) := by
  induction ps generalizing bodies with
  | nil => trivial
  | cons p ps ih => ?_
  refine ⟨⟨p, hps p List.mem_cons_self, rfl⟩, fun b => ?_⟩
  rcases b with e | body
  · trivial
  simp only [Proc.ret_bind]
  split
  · trivial
  · exact ih (fun q hq => hps q (List.mem_cons_of_mem p hq)) _

theorem reconstructMultipart_reads (m : ObjectManifest) :
    (reconstructMultipart cfg m).Only (readsPieces m.pieces) := by
  unfold reconstructMultipart
  split
  · trivial
  simp only
  split
  · trivial
  apply (fetchParts_reads _ (fun p hp => (List.mem_insertionSort _).mp hp) _).bind
  intro r
  rcases r with response | bodies
  · trivial
  simp only
  split
  · trivial
  · split <;> trivial

theorem reconstructMultipart_only (m : ObjectManifest) :
    (reconstructMultipart cfg m).Only inspects :=
  (reconstructMultipart_reads cfg m).mono fun _ h => inspects_of_readsPieces h

end

end ObjectFabric
