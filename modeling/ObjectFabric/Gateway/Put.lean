import ObjectFabric.ClientSdk.Sdk
import ObjectFabric.Gateway.Dedup

/-!
# Put — PUT of an object

`Handler.Put` of `api/s3compat/handler.go`.  The placement policy decides between one piece, the
shards of an erasure profile and the deduplicated path.  In the first two the version ID is minted
from the clock before anything is written, because the encryption binds it into every chunk; the
pieces are named after it.
-/

namespace ObjectFabric

open Interleaving

/-! ## 1. Sealing -/

section

variable (cfg : Config)

def refuse {α : Type} (status : Nat) (code message : String) : Except Response α :=
  .error { status, code, message }

def sealBody (r : PutRequest) (mode : EncryptionMode) (id : AadIdentity) :
    Except Response (EncryptionConfig × Bytes) :=
  match cfg.encryptForStorage r.entropy r.body id with
  | .error message => refuse 500 "EncryptionFailed" message
  | .ok (ciphertext, wrapped) => .ok
    ({ mode, algorithm := contentAlgorithm, keyID := wrapped.keyID,
       wrappedDEK := wrapped.wrappedKey, wrapAlgorithm := wrapped.wrapAlgorithm,
       aadVersion := .v1 }, ciphertext)

/-- The modes in which the gateway does not seal: the client's own ciphertext, or none. -/
def passThrough (r : PutRequest) : EncryptionMode → Except Response (EncryptionConfig × Bytes)
  | .clientSide =>
    if r.zkEncryption = "" then
      refuse 403 "EncryptionRequired"
        "tenant policy requires client_side encryption; set X-Amz-Meta-Zk-Encryption header"
    else
      .ok ({ mode := .clientSide, algorithm := r.zkEncryption }, r.body)
  | _ => .ok ({}, r.body)

def encryptionMissing {α : Type} : Except Response α :=
  refuse 500 "EncryptionNotConfigured"
    "tenant policy requires managed encryption but no gateway encryption is configured"

/-- A body of declared length is sealed as a stream, so its sealed size has to be known first. -/
def prepareSinglePieceEncryption (r : PutRequest) (mode : EncryptionMode) (id : AadIdentity) :
    Except Response (EncryptionConfig × Bytes) :=
  if mode.isGatewayEncrypted then
    if cfg.encryption.isNone then
      encryptionMissing
    else if 0 ≤ r.contentLength then
      match encryptedSize r.contentLength {} with
      | .error .overflow => refuse 400 "InvalidContentLength" ("Content-Length too large for " ++
          "encrypted streaming upload (ciphertext size overflows int64)")
      | .error .negativePlaintext =>
        refuse 400 "InvalidContentLength" "Content-Length must not be negative"
      | .ok _ => sealBody cfg r mode id
    else
      sealBody cfg r mode id
  else
    passThrough r mode

def prepareErasureCodedEncryption (r : PutRequest) (mode : EncryptionMode) (id : AadIdentity) :
    Except Response (EncryptionConfig × Bytes) :=
  if mode.isGatewayEncrypted then
    if cfg.encryption.isNone then encryptionMissing else sealBody cfg r mode id
  else
    passThrough r mode

def PutRequest.aadIdentity (r : PutRequest) (versionID : String) : AadIdentity :=
  ⟨r.tenantID, r.bucket, cfg.hashObjectKey r.key, versionID⟩

/-! ## 2. One piece -/

def singlePieceManifest (r : PutRequest) (backend : String) (policy : PlacementPolicy)
    (encCfg : EncryptionConfig) (body : Bytes) (versionID : String) (res : PutResult)
    (createdAt : Time) : ObjectManifest :=
  { tenantID := r.tenantID, bucket := r.bucket, objectKey := r.key,
    objectKeyHash := cfg.hashObjectKey r.key, versionID,
    objectSize :=
      if policy.encryptionMode.isGatewayEncrypted then r.body.length else res.sizeBytes
    chunkSize := res.sizeBytes, encryption := encCfg, placementPolicy := policy,
    pieces := [{ pieceID := res.pieceID, backend, locator := res.locator,
                 hash := "blake3:" ++ cfg.blake3Hex body, providerETag := res.etag,
                 sizeBytes := res.sizeBytes, state := "active" }],
    tags := r.requestObjectTags,
    migrationState := { generation := 1, primaryBackend := backend },
    createdAt, metadata := r.metadata }

def putSinglePiece (r : PutRequest) (backend : String) (policy : PlacementPolicy) : Handler := do
  let mode := policy.encryptionMode
  let pieceID := cfg.newPieceID r.tenantID r.bucket r.key (← ask .now)
  match prepareSinglePieceEncryption cfg r mode (r.aadIdentity cfg pieceID) with
  | .error response => return response
  | .ok (encCfg, body) =>
    match ← ask (.putPiece ⟨backend, pieceID⟩ body) with
    | .error e => writeError 502 "BackendPutFailed" e.text
    | .ok res =>
      if mode.isGatewayEncrypted ∧ 0 ≤ r.contentLength ∧ r.body.length ≠ r.contentLength then
        let _ ← ask (.deletePiece ⟨backend, pieceID⟩)
        writeError 400 "IncompleteBody"
          "Content-Length declared by client does not match plaintext bytes received"
      else
        let createdAt ← ask .now
        persistManifest cfg (singlePieceManifest cfg r backend policy encCfg body pieceID res createdAt)
          (do let _ ← ask (.deletePiece ⟨backend, pieceID⟩))
          fun m => return { status := 200, versionID := m.versionID, etag := quote res.etag }

/-! ## 3. Shards -/

/-- `%0wd` of a natural number. -/
def zeroPad (width n : Nat) : String :=
  let digits := (toString n).toList
  String.ofList (List.replicate (width - digits.length) '0' ++ digits)

def shardPieceID (versionID : String) (s : Shard) : String :=
  versionID ++ "-s" ++ zeroPad 4 s.stripeIndex ++ "-p" ++ zeroPad 3 s.shardIndex

def ErasureShardKind.ofShard : ErasureShardKind → ShardKind
  | .data => .data
  | .parity => .parity

def shardPiece (backend : String) (s : Shard) (res : PutResult) : Piece :=
  { pieceID := res.pieceID, hash := "blake3:" ++ cfg.blake3Hex s.bytes, providerETag := res.etag,
    backend, locator := res.locator, state := "active", sizeBytes := s.bytes.length,
    stripeIndex := s.stripeIndex, shardIndex := s.shardIndex, shardKind := s.kind.ofShard }

def rollbackEC (backend : String) : List Piece → Proc Call Unit
  | [] => return ()
  | p :: ps => do
    let _ ← ask (.deletePiece ⟨backend, p.pieceID⟩)
    rollbackEC backend ps

/-- Write the shards in order; `written` are the pieces so far.  A failure undoes them. -/
def putShards (backend versionID : String) :
    List Shard → List Piece → Proc Call (Except StoreError (List Piece))
  | [], written => return .ok written
  | s :: ss, written => do
    match ← ask (.putPiece ⟨backend, shardPieceID versionID s⟩ s.bytes) with
    | .error e =>
      rollbackEC backend written
      return .error e
    | .ok res => putShards backend versionID ss (written ++ [shardPiece cfg backend s res])

def erasureCodedManifest (r : PutRequest) (backend : String) (policy : PlacementPolicy)
    (encCfg : EncryptionConfig) (encoder : ErasureEncoder) (versionID : String)
    (pieces : List Piece) (createdAt : Time) : ObjectManifest :=
  { tenantID := r.tenantID, bucket := r.bucket, objectKey := r.key,
    objectKeyHash := cfg.hashObjectKey r.key, versionID, objectSize := r.body.length,
    chunkSize := encoder.shardSize, encryption := encCfg, placementPolicy := policy, pieces,
    tags := r.requestObjectTags,
    migrationState := { generation := 1, primaryBackend := backend },
    createdAt, metadata := r.metadata }

def putEncodedBody (r : PutRequest) (backend : String) (policy : PlacementPolicy)
    (encoder : ErasureEncoder) : Handler := do
  let versionID := cfg.newPieceID r.tenantID r.bucket r.key (← ask .now)
  match prepareErasureCodedEncryption cfg r policy.encryptionMode (r.aadIdentity cfg versionID) with
  | .error response => return response
  | .ok (encCfg, body) =>
    match encoder.encode body with
    | .error message => writeError 500 "ErasureEncodeFailed" message
    | .ok shards =>
      match ← putShards cfg backend versionID shards [] with
      | .error e => writeError 502 "BackendPutFailed" e.text
      | .ok pieces =>
        let createdAt ← ask .now
        persistManifest cfg
          (erasureCodedManifest cfg r backend policy encCfg encoder versionID pieces createdAt)
          (rollbackEC backend pieces)
          fun m => return { status := 200, versionID := m.versionID }

def putErasureCoded (r : PutRequest) (backend : String) (policy : PlacementPolicy) : Handler :=
  match cfg.erasureCoding with
  | none => writeError 500 "InvalidPlacement" ("placement policy specifies erasure profile " ++
      policy.erasureProfile ++ " but no registry is configured")
  | some lookup =>
    match lookup policy.erasureProfile with
    | .error message => writeError 400 "InvalidPlacement" message
    | .ok encoder =>
      if maxInMemoryObjectBytes < r.contentLength then
        writeError 413 "ECObjectTooLarge"
          ("erasure-coded object of " ++ toString r.contentLength ++
            " bytes exceeds in-memory encode ceiling of " ++ toString maxInMemoryObjectBytes ++
            " bytes; streaming EC is not yet implemented")
      else if maxInMemoryObjectBytes < r.body.length then
        writeError 413 "ECObjectTooLarge"
          ("erasure-coded object exceeds in-memory encode ceiling of " ++
            toString maxInMemoryObjectBytes ++ " bytes; streaming EC is not yet implemented")
      else
        putEncodedBody cfg r backend policy encoder

/-! ## 4. The handler -/

/-- The checks between placement and the first write, which `CreateMultipartUpload` shares: the
backend is registered and its country allowed, and the bucket's default encryption applies. -/
def placed (tenantID bucket key : String)
    (go : String → PlacementPolicy → Handler) : Handler :=
  match cfg.resolveBackend tenantID bucket key with
  | .error message => writeError 400 "InvalidPlacement" message
  | .ok (backend, policy) =>
    match cfg.providers backend with
    | none => writeError 500 "BackendNotRegistered"
        ("backend " ++ backend ++ " is not in the provider registry")
    | some provider =>
      match (cfg.residency.elim (.ok ()) fun check =>
        check tenantID provider.country policy.residency : Except String Unit) with
      | .error message => writeError 403 "DataResidencyViolation" message
      | .ok () => do
        match ← cfg.effectiveEncryptionMode tenantID bucket policy with
        | .error message => writeError 500 "EncryptionNotConfigured" message
        | .ok mode => go backend { policy with encryptionMode := mode }

def putPlaced (r : PutRequest) (backend : String) (policy : PlacementPolicy) : Handler :=
  let mode := policy.encryptionMode
  if policy.erasureProfile ≠ "" then
    putErasureCoded cfg r backend policy
  else if cfg.dedupEnabled policy ∧ (mode.isGatewayEncrypted ∨ mode = .clientSide) then
    putDeduped cfg r backend policy
  else
    putSinglePiece cfg r backend policy

def putObject (r : PutRequest) : Handler :=
  if r.bucket = "" ∨ r.key = "" then
    writeError 400 "InvalidArgument" "path must be /\x7bbucket\x7d/\x7bkey...\x7d"
  else
    match r.tagging, r.metadataTooLarge with
    | .error response, _ => return response
    | .ok _, some response => return response
    | .ok _, none =>
      orRefuse (allowObjectLockOverwrite cfg r.object r.bypassGovernance)
        (placed cfg r.tenantID r.bucket r.key (putPlaced cfg r))

def unverified (tenantID : String) : Bool :=
  match cfg.verifiedCheck with
  | none => false
  | some check => (check tenantID).2 && !(check tenantID).1

/-- `Handler.Put`: the gate on e-mail verification stands in front of everything else. -/
def put (r : PutRequest) : Handler :=
  if unverified cfg r.tenantID then
    writeError 403 "EmailNotVerified" ("verify your email address before uploading; check your " ++
      "inbox or POST /api/v1/auth/verify with your tenantId")
  else
    putObject cfg r

end

end ObjectFabric
