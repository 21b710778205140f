import ObjectFabric.Gateway.Write

/-!
# Dedup — PUT with intra-tenant deduplication

`api/s3compat/dedup.go`.  The content hash of the stored bytes is looked up in the index.  On a hit
the row's reference count goes up and the new manifest names the row's piece; on a miss the bytes
are written under a fresh piece ID and a row is registered for them.  A PUT that loses the race to
register drops its own piece and uses the winner's.
-/

namespace ObjectFabric

open Interleaving

/-- What a deduplicated PUT stores and records; the content hash is its index key. -/
structure DedupContent where
  contentHash : String
  bytes : Bytes
  plaintextSize : Int
  encryption : EncryptionConfig
  plaintextHash : String := ""

structure DedupPiece where
  pieceID : String
  backend : String
  etag : String
  locator : String := ""
  sizeOnWire : Int

def ContentIndexEntry.dedupPiece (e : ContentIndexEntry) : DedupPiece :=
  { pieceID := e.pieceID, backend := e.backend, etag := e.etag, sizeOnWire := e.sizeBytes }

section

variable (cfg : Config)

def patternBContent (r : PutRequest) (mode : EncryptionMode) : Except String DedupContent :=
  match cfg.encryption with
  | none => .error "s3compat: gateway encryption is not configured"
  | some enc => do
    let plaintextHash := cfg.blake3 r.body
    let dek ← (cfg.deriveConvergentDEK plaintextHash r.tenantID).mapError
      ("s3compat: derive convergent dek: " ++ ·)
    let ciphertext ← (cfg.encryptConvergent dek r.body).mapError ("s3compat: encrypt object: " ++ ·)
    let wrapped ← (enc.wrapDEK r.entropy dek).mapError ("s3compat: wrap dek: " ++ ·)
    return {
      contentHash := Config.formatContentHash (cfg.blake3Hex ciphertext)
      bytes := ciphertext
      plaintextSize := r.body.length
      encryption :=
        { mode, algorithm := contentAlgorithm, keyID := wrapped.keyID,
          wrappedDEK := wrapped.wrappedKey, wrapAlgorithm := wrapped.wrapAlgorithm }
      plaintextHash := Config.formatContentHash (hexEncode plaintextHash) }

def patternCContent (r : PutRequest) : DedupContent :=
  { contentHash := Config.formatContentHash (cfg.blake3Hex r.body)
    bytes := r.body
    plaintextSize := r.body.length
    encryption := { mode := .clientSide, algorithm := contentAlgorithm } }

def dedupContent (r : PutRequest) (mode : EncryptionMode) : Except String DedupContent :=
  match mode with
  | .managed | .publicDistribution => patternBContent cfg r mode
  | .clientSide => .ok (patternCContent cfg r)
  | .unset => .error "s3compat: dedup not supported for encryption mode \"\""
  | .other s => .error ("s3compat: dedup not supported for encryption mode \"" ++ s ++ "\"")

/-- The lookup half of `prepareDedupedPut`: on a hit the reference is taken. -/
def prepareDedupedPut (tenantID : String) (c : DedupContent) :
    Proc Call (Except String (Option ContentIndexEntry)) := do
  match ← ask (.indexLookup ⟨tenantID, c.contentHash⟩) with
  | .error .contentNotFound => return .ok none
  | .error e => return .error ("s3compat: content_index lookup: " ++ e.text)
  | .ok existing =>
    match ← ask (.indexIncrementRef ⟨tenantID, c.contentHash⟩) with
    | .error e => return .error ("s3compat: content_index increment: " ++ e.text)
    | .ok () => return .ok (some existing)

/-- Publish a piece just written.  `true` means that another uploader had registered the content
first and that a reference on its row was taken. -/
def registerDedupedPiece (entry : ContentIndexEntry) : Proc Call (Except String Bool) := do
  match ← ask (.indexRegister entry) with
  | .ok () => return .ok false
  | .error .alreadyExists =>
    match ← ask (.indexIncrementRef entry.key) with
    | .error e => return .error ("s3compat: content_index race recovery: " ++ e.text)
    | .ok () => return .ok true
  | .error e => return .error e.text

def dedupedManifest (r : PutRequest) (policy : PlacementPolicy) (c : DedupContent) (p : DedupPiece)
    (versionID : String) (createdAt : Time) : ObjectManifest :=
  { tenantID := r.tenantID, bucket := r.bucket, objectKey := r.key,
    objectKeyHash := cfg.hashObjectKey r.key, versionID
    objectSize :=
      if policy.encryptionMode.isGatewayEncrypted then c.plaintextSize else p.sizeOnWire
    chunkSize := p.sizeOnWire, contentHash := c.contentHash, encryption := c.encryption,
    placementPolicy := policy
    pieces := [{ pieceID := p.pieceID, backend := p.backend, locator := p.locator,
                 hash := c.contentHash, providerETag := p.etag, sizeBytes := p.sizeOnWire,
                 state := "active" }]
    tags := r.requestObjectTags
    migrationState := { generation := 1, primaryBackend := p.backend }
    createdAt, metadata := r.metadata }

def putDedupedManifest (r : PutRequest) (policy : PlacementPolicy) (c : DedupContent)
    (p : DedupPiece) : Handler := do
  let versionID := cfg.newPieceID r.tenantID r.bucket r.key (← ask .now)
  let createdAt ← ask .now
  persistManifest cfg (dedupedManifest cfg r policy c p versionID createdAt)
    (do let _ ← ask (.indexDecrementRef ⟨r.tenantID, c.contentHash⟩))
    fun m => return { status := 200, versionID := m.versionID, etag := quote p.etag }

/-- The miss: write the bytes, register them, and on a lost race use the canonical piece. -/
def putDedupedMiss (r : PutRequest) (backend : String) (policy : PlacementPolicy)
    (c : DedupContent) : Handler := do
  let pieceID := cfg.newPieceID r.tenantID r.bucket r.key (← ask .now)
  match ← ask (.putPiece ⟨backend, pieceID⟩ c.bytes) with
  | .error e => writeError 502 "BackendPutFailed" e.text
  | .ok res =>
    let entry : ContentIndexEntry :=
      { tenantID := r.tenantID, contentHash := c.contentHash, pieceID := res.pieceID, backend,
        sizeBytes := res.sizeBytes, etag := res.etag, plaintextHash := c.plaintextHash }
    match ← registerDedupedPiece entry with
    | .error message =>
      let _ ← ask (.deletePiece ⟨backend, res.pieceID⟩)
      writeError 500 "ContentIndexRegisterFailed" message
    | .ok false =>
      putDedupedManifest cfg r policy c
        { pieceID := res.pieceID, backend, etag := res.etag, locator := res.locator,
          sizeOnWire := res.sizeBytes }
    | .ok true =>
      let _ ← ask (.deletePiece ⟨backend, res.pieceID⟩)
      match ← ask (.indexLookup ⟨r.tenantID, c.contentHash⟩) with
      | .error e =>
        let _ ← ask (.indexDecrementRef ⟨r.tenantID, c.contentHash⟩)
        writeError 500 "ContentIndexLookupFailed" e.text
      | .ok canonical => putDedupedManifest cfg r policy c canonical.dedupPiece

def putDeduped (r : PutRequest) (backend : String) (policy : PlacementPolicy) : Handler :=
  let mode := policy.encryptionMode
  if mode = .clientSide ∧ r.zkEncryption = "" then
    writeError 403 "EncryptionRequired"
      "tenant policy requires client_side encryption; set X-Amz-Meta-Zk-Encryption header"
  else
    match dedupContent cfg r mode with
    | .error message => writeError 500 "DedupFailed" message
    | .ok c => do
      match ← prepareDedupedPut r.tenantID c with
      | .error message => writeError 500 "DedupFailed" message
      | .ok (some existing) => putDedupedManifest cfg r policy c existing.dedupPiece
      | .ok none => putDedupedMiss cfg r backend policy c

end

end ObjectFabric
