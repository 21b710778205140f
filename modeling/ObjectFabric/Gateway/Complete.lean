import ObjectFabric.Gateway.Multipart

/-!
# Complete — completing a multipart upload

`CompleteMultipartUpload` and its helpers in `api/s3compat/multipart_handler.go`.  The session is
consumed first and the manifest is written last.  In between an upload that the gateway did not seal
is looked up in the content index by the hash of its parts' hashes; an upload that it did seal is
looked up by the hash of its plaintext parts' hashes, and on a miss it is opened, joined and sealed
again under the key derived from that hash.
-/

namespace ObjectFabric

open Interleaving

/-! ## 1. ETags -/

def hexValue (c : Char) : Option Nat :=
  if '0' ≤ c ∧ c ≤ '9' then some (c.toNat - '0'.toNat)
  else if 'a' ≤ c ∧ c ≤ 'f' then some (c.toNat - 'a'.toNat + 10)
  else if 'A' ≤ c ∧ c ≤ 'F' then some (c.toNat - 'A'.toNat + 10)
  else none

/-- `hex.DecodeString` -/
def hexDecode : List Char → Option Bytes
  | [] => some []
  | [_] => none
  | a :: b :: rest => do
    let high ← hexValue a
    let low ← hexValue b
    let bytes ← hexDecode rest
    return UInt8.ofNat (16 * high + low) :: bytes

def Part.etagBytes (p : Part) : Bytes :=
  let etag := ((p.etag.toList.dropWhile (· = '"')).reverse.dropWhile (· = '"')).reverse
  match (hexDecode etag).filter fun b => b.length = 16 with
  | some b => b
  | none => utf8 (String.ofList etag)

def computeMultipartETag (cfg : Config) (parts : List Part) : String :=
  cfg.md5Hex (parts.flatMap Part.etagBytes) ++ "-" ++ toString parts.length

/-! ## 2. The manifest -/

structure CompleteRequest where
  tenantID : String
  bucket : String
  key : String
  uploadID : String
  /-- The parts of the XML body, or why it does not parse. -/
  parts : Except String (List PartReference)
  bypassGovernance : Bool := false
  entropy : Nat := 0

def CompleteRequest.object (r : CompleteRequest) : ObjectRef := ⟨r.tenantID, r.bucket, r.key, ""⟩

def Part.piece (p : Part) (hash : Option Bytes) : Piece :=
  { pieceID := p.pieceID
    hash := match hash.filter fun raw => raw ≠ [] with
      | none => ""
      | some raw => "blake3:" ++ hexEncode raw
    providerETag := p.etag, backend := p.backend, state := "active", partNumber := p.partNumber,
    sizeBytes := p.sizeBytes }

def assemblePieces (uploadID : String) : List Part → Proc Call (List Piece)
  | [] => return []
  | p :: ps => do
    let hash ← ask (.uploadPartHash uploadID p.partNumber)
    let pieces ← assemblePieces uploadID ps
    return p.piece hash :: pieces

def totalSize (parts : List Part) : Int := (parts.map Part.sizeBytes).sum

def sessionEncryption (u : Upload) : EncryptionConfig :=
  match u.encMode with
  | .managed | .publicDistribution =>
    { mode := u.encMode, algorithm := u.contentAlgorithm, keyID := u.wrappedKeyID,
      wrappedDEK := u.wrappedDEK, wrapAlgorithm := u.wrapAlgorithm,
      aadVersion := if u.versionID = "" then .legacy else .v1 }
  | .clientSide => { mode := .clientSide, algorithm := contentAlgorithm }
  | mode => { mode }

section

variable (cfg : Config)

def multipartManifest (r : CompleteRequest) (u : Upload) (parts : List Part) (pieces : List Piece)
    (versionID : String) (createdAt : Time) : ObjectManifest :=
  { tenantID := r.tenantID, bucket := r.bucket, objectKey := r.key,
    objectKeyHash := cfg.hashObjectKey r.key, versionID, objectSize := totalSize parts,
    chunkSize := (parts.head?.map Part.sizeBytes).getD 0, encryption := sessionEncryption u,
    placementPolicy := u.policy, pieces,
    migrationState := { generation := 1, primaryBackend := u.backend },
    createdAt, tags := u.tags, metadata := u.metadata }

/-- The version fixed when the upload was created; a session without one gets a new one. -/
def uploadVersion (r : CompleteRequest) (u : Upload) : Proc Call String :=
  if u.versionID ≠ "" then
    return u.versionID
  else do
    return cfg.newPieceID r.tenantID r.bucket r.key (← ask .now)

/-! ## 3. Uploads the gateway did not seal -/

def multipartDedupEligible (u : Upload) : Bool :=
  cfg.dedupEnabled u.policy && (u.encMode = .clientSide || u.encMode = .unset)

/-- The digests that the session holds for the parts, if it holds all of them. -/
def recordedDigests (digest : Int → Call (Option Bytes)) :
    List Part → Proc Call (Option (List Bytes))
  | [] => return some []
  | p :: ps => do
    match ← ask (digest p.partNumber) with
    | none => return none
    | some d =>
      match ← recordedDigests digest ps with
      | none => return none
      | some ds => return some (d :: ds)

/-- Read the pieces back and hash them as one body; `read` are the bytes so far. -/
def hashAssembledPieces : List Piece → Bytes → Proc Call (Except String String)
  | [], read => return .ok (Config.formatContentHash (cfg.blake3Hex read))
  | p :: ps, read =>
    if (cfg.providers p.backend).isNone then
      return .error ("s3compat: hash assembled pieces: backend \"" ++ p.backend ++
        "\" not registered")
    else do
      match ← ask (.getPiece p.addr) with
      | .error e =>
        return .error ("s3compat: hash assembled pieces: get piece " ++ p.pieceID ++ ": " ++ e.text)
      | .ok body => hashAssembledPieces ps (read ++ body)

def digestsContentHash : List Bytes → String
  | [d] => Config.formatContentHash (hexEncode d)
  | ds => Config.formatContentHash (cfg.blake3Hex ds.flatten)

def computeMultipartContentHash (u : Upload) (pieces : List Piece) (parts : List Part) :
    Proc Call (Except String String) :=
  if pieces = [] then
    return .error "s3compat: multipart content hash: no pieces"
  else do
    match ← recordedDigests (.uploadPartHash u.id ·) parts with
    | none => hashAssembledPieces cfg pieces []
    | some ds => return .ok (digestsContentHash cfg ds)

def pieceRefsFromParts (parts : List Part) : List PieceRef :=
  parts.map fun p => ⟨p.pieceID, p.backend, p.partNumber, p.sizeBytes⟩

def multipartEntry (r : CompleteRequest) (contentHash : String) (parts : List Part) :
    ContentIndexEntry :=
  let anchor : Part := parts.headD { partNumber := 0, pieceID := "", backend := "" }
  { tenantID := r.tenantID, contentHash, pieceID := anchor.pieceID, backend := anchor.backend,
    sizeBytes := if 1 < parts.length then totalSize parts else anchor.sizeBytes
    etag := anchor.etag
    pieceIDs := if 1 < parts.length then pieceRefsFromParts parts else [] }

/-- The canonical piece of a part; of two with the same number the later one counts. -/
def redirectPiece (refs : List PieceRef) (p : Piece) : Except String Piece :=
  match refs.reverse.find? fun ref => ref.partNumber = p.partNumber with
  | none => .error ("s3compat: dedup redirect: canonical missing part " ++ toString p.partNumber)
  | some ref =>
    .ok { p with pieceID := ref.pieceID, backend := ref.backend, sizeBytes := ref.sizeBytes }

def redirectManifestToCanonical (m : ObjectManifest) (e : ContentIndexEntry) :
    Except String ObjectManifest :=
  if e.pieceIDs = [] then
    match m.pieces with
    | [p] => .ok
      { m with
        pieces := [{ p with
          pieceID := e.pieceID, backend := e.backend, hash := "", providerETag := e.etag,
          sizeBytes := e.sizeBytes }]
        migrationState := { m.migrationState with primaryBackend := e.backend } }
    | ps => .error ("s3compat: dedup redirect: manifest has " ++ toString ps.length ++
        " pieces, canonical is single-piece")
  else
    match m.pieces.mapM (redirectPiece e.pieceIDs) with
    | .error message => .error message
    | .ok pieces => .ok
      { m with
        pieces
        migrationState :=
          match pieces with
          | [] => m.migrationState
          | p :: _ => { m.migrationState with primaryBackend := p.backend } }

def dropParts {α : Type} (parts : List Part) (code message : String) :
    Proc Call (Except Response α) := do
  deleteUploadedParts cfg parts
  return .error { status := 500, code, message }

/-- Point the manifest at the canonical pieces; a failure gives the reference back. -/
def redirectOrRelease (r : CompleteRequest) (m : ObjectManifest) (e : ContentIndexEntry)
    (contentHash : String) : Proc Call (Except Response ObjectManifest) :=
  match redirectManifestToCanonical m e with
  | .ok m => return .ok m
  | .error message => do
    let _ ← ask (.indexDecrementRef ⟨r.tenantID, contentHash⟩)
    return .error { status := 500, code := "DedupRedirectFailed", message }

/-- A miss: register the parts as they are, and on a lost race use the canonical pieces. -/
def registerParts (r : CompleteRequest) (parts : List Part) (m : ObjectManifest) :
    Proc Call (Except Response ObjectManifest) := do
  match ← registerDedupedPiece (multipartEntry r m.contentHash parts) with
  | .error message => dropParts cfg parts "ContentIndexRegisterFailed" message
  | .ok false => return .ok m
  | .ok true =>
    deleteUploadedParts cfg parts
    match ← ask (.indexLookup ⟨r.tenantID, m.contentHash⟩) with
    | .error e =>
      let _ ← ask (.indexDecrementRef ⟨r.tenantID, m.contentHash⟩)
      return .error { status := 500, code := "ContentIndexLookupFailed", message := e.text }
    | .ok canonical => redirectOrRelease r m canonical m.contentHash

def dedupParts (r : CompleteRequest) (u : Upload) (parts : List Part) (manifest : ObjectManifest) :
    Proc Call (Except Response ObjectManifest) := do
  match ← computeMultipartContentHash cfg u manifest.pieces parts with
  | .error message => dropParts cfg parts "DedupHashFailed" message
  | .ok contentHash =>
    let m := { manifest with contentHash }
    match ← ask (.indexLookup ⟨r.tenantID, contentHash⟩) with
    | .error .contentNotFound => registerParts cfg r parts m
    | .error e => dropParts cfg parts "ContentIndexLookupFailed" e.text
    | .ok existing =>
      match ← ask (.indexIncrementRef ⟨r.tenantID, contentHash⟩) with
      | .error e => dropParts cfg parts "ContentIndexIncrementFailed" e.text
      | .ok () =>
        deleteUploadedParts cfg parts
        redirectOrRelease r m existing contentHash

/-! ## 4. Uploads the gateway sealed -/

def deriveConvergentEncryptionConfig (entropy : Nat) (digest : Bytes) (tenantID : String)
    (mode : EncryptionMode) : Except String EncryptionConfig :=
  match cfg.encryption with
  | none => .error "s3compat: gateway encryption is not configured"
  | some enc => do
    let dek ← (cfg.deriveConvergentDEK digest tenantID).mapError
      ("s3compat: derive convergent dek: " ++ ·)
    let wrapped ← (enc.wrapDEK entropy dek).mapError ("s3compat: wrap convergent dek: " ++ ·)
    return { mode, algorithm := contentAlgorithm, keyID := wrapped.keyID,
             wrappedDEK := wrapped.wrappedKey, wrapAlgorithm := wrapped.wrapAlgorithm }

def ObjectManifest.consolidated (m : ObjectManifest) (e : ContentIndexEntry) (hash : String)
    (enc : EncryptionConfig) : ObjectManifest :=
  { m with
    pieces := [{ pieceID := e.pieceID, backend := e.backend, hash, providerETag := e.etag,
                 sizeBytes := e.sizeBytes, state := "active" }]
    contentHash := e.contentHash, chunkSize := e.sizeBytes,
    migrationState := { m.migrationState with primaryBackend := e.backend },
    encryption := enc }

/-- Read the parts back and open them; `out` is the plaintext so far. -/
def assembleManagedMultipartPlaintext (u : Upload) :
    List Part → Bytes → Proc Call (Except String Bytes)
  | [], out => return .ok out
  | p :: ps, out =>
    if (cfg.providers p.backend).isNone then
      return .error ("s3compat: consolidate: backend \"" ++ p.backend ++ "\" not registered")
    else do
      match ← ask (.getPiece p.addr) with
      | .error e =>
        return .error ("s3compat: consolidate get piece " ++ p.pieceID ++ ": " ++ e.text)
      | .ok ciphertext =>
        match cfg.decryptWithDEK ciphertext u.dekMaterial (partsEncryptionConfig u)
          (uploadAADIdentity cfg u) with
        | .error message =>
          return .error ("s3compat: consolidate decrypt piece " ++ p.pieceID ++ ": " ++ message)
        | .ok plaintext => assembleManagedMultipartPlaintext u ps (out ++ plaintext)

def dedupManagedMultipartHit (r : CompleteRequest) (u : Upload) (parts : List Part)
    (digest : Bytes) (existing : ContentIndexEntry) (m : ObjectManifest) :
    Proc Call (Except Response ObjectManifest) := do
  match ← ask (.indexIncrementRef ⟨r.tenantID, existing.contentHash⟩) with
  | .error e => dropParts cfg parts "ContentIndexIncrementFailed" e.text
  | .ok () =>
    match deriveConvergentEncryptionConfig cfg r.entropy digest r.tenantID u.encMode with
    | .error message =>
      let _ ← ask (.indexDecrementRef ⟨r.tenantID, existing.contentHash⟩)
      dropParts cfg parts "DedupConvergentDEKFailed" message
    | .ok enc =>
      deleteUploadedParts cfg parts
      return .ok (m.consolidated existing "" enc)

/-- Publish the consolidated piece, which lies on the backend as `res`. -/
def registerConsolidated (r : CompleteRequest) (u : Upload) (parts : List Part)
    (plaintextHash : String) (ciphertext : Bytes) (enc : EncryptionConfig) (res : PutResult)
    (m : ObjectManifest) : Proc Call (Except Response ObjectManifest) := do
  let contentHash := Config.formatContentHash (cfg.blake3Hex ciphertext)
  let entry : ContentIndexEntry :=
    { tenantID := r.tenantID, contentHash, plaintextHash, pieceID := res.pieceID,
      backend := u.backend, sizeBytes := res.sizeBytes, etag := res.etag }
  match ← registerDedupedPiece entry with
  | .error message =>
    let _ ← ask (.deletePiece ⟨u.backend, res.pieceID⟩)
    dropParts cfg parts "ContentIndexRegisterFailed" message
  | .ok false =>
    deleteUploadedParts cfg parts
    return .ok (m.consolidated entry contentHash enc)
  | .ok true =>
    deleteUploadedParts cfg parts
    let _ ← ask (.deletePiece ⟨u.backend, res.pieceID⟩)
    match ← ask (.indexLookup ⟨r.tenantID, contentHash⟩) with
    | .error e =>
      let _ ← ask (.indexDecrementRef ⟨r.tenantID, contentHash⟩)
      return .error { status := 500, code := "ContentIndexLookupFailed", message := e.text }
    | .ok canonical => return .ok (m.consolidated canonical "" enc)

/-- Store the consolidated ciphertext under a fresh piece ID and wrap its key. -/
def storeConsolidated (r : CompleteRequest) (u : Upload) (parts : List Part) (plaintextHash : String)
    (dek ciphertext : Bytes) (m : ObjectManifest) : Proc Call (Except Response ObjectManifest) := do
  if (cfg.providers u.backend).isNone then
    dropParts cfg parts "BackendNotRegistered"
      ("backend " ++ u.backend ++ " is not in the provider registry")
  else
    let pieceID := cfg.newPieceID r.tenantID u.bucket u.objectKey (← ask .now)
    match ← ask (.putPiece ⟨u.backend, pieceID⟩ ciphertext) with
    | .error e =>
      deleteUploadedParts cfg parts
      return .error { status := 502, code := "BackendPutFailed", message := e.text }
    | .ok res =>
      match cfg.encryption with
      -- the source follows a nil pointer here, and the request dies
      | none => return .error { status := 500, message := "runtime error: nil pointer dereference" }
      | some enc =>
        match enc.wrapDEK r.entropy dek with
        | .error message =>
          let _ ← ask (.deletePiece ⟨u.backend, res.pieceID⟩)
          dropParts cfg parts "DedupWrapDEKFailed" message
        | .ok wrapped =>
          registerConsolidated cfg r u parts plaintextHash ciphertext
            { mode := u.encMode, algorithm := contentAlgorithm, keyID := wrapped.keyID,
              wrappedDEK := wrapped.wrappedKey, wrapAlgorithm := wrapped.wrapAlgorithm } res m

def dedupManagedMultipartMiss (r : CompleteRequest) (u : Upload) (parts : List Part)
    (digest : Bytes) (plaintextHash : String) (m : ObjectManifest) :
    Proc Call (Except Response ObjectManifest) := do
  match ← assembleManagedMultipartPlaintext cfg u parts [] with
  | .error message => dropParts cfg parts "DedupConsolidateFailed" message
  | .ok plaintext =>
    match cfg.deriveConvergentDEK digest r.tenantID with
    | .error message => dropParts cfg parts "DedupConvergentDEKFailed" message
    | .ok dek =>
      match cfg.encryptConvergent dek plaintext with
      | .error message => dropParts cfg parts "DedupEncryptFailed" message
      | .ok ciphertext => storeConsolidated cfg r u parts plaintextHash dek ciphertext m

def dedupManagedMultipart (r : CompleteRequest) (u : Upload) (parts : List Part)
    (m : ObjectManifest) : Proc Call (Except Response ObjectManifest) := do
  match ← recordedDigests (.uploadPlaintextPartHash u.id ·) parts with
  | none => return .ok m
  | some ds =>
    let digest := cfg.blake3 ds.flatten
    let plaintextHash := Config.formatContentHash (hexEncode digest)
    match ← ask (.indexLookupByPlaintextHash r.tenantID plaintextHash) with
    | .error .contentNotFound => dedupManagedMultipartMiss cfg r u parts digest plaintextHash m
    | .error e => dropParts cfg parts "ContentIndexLookupFailed" e.text
    | .ok existing => dedupManagedMultipartHit cfg r u parts digest existing m

/-! ## 5. The handler -/

def dedupUpload (r : CompleteRequest) (u : Upload) (parts : List Part) (m : ObjectManifest) :
    Proc Call (Except Response ObjectManifest) :=
  if multipartDedupEligible cfg u then
    dedupParts cfg r u parts m
  else if cfg.dedupEnabled u.policy ∧ u.encMode.isGatewayEncrypted = true then do
    if (← ask (.uploadPlaintextPartHashCount u.id)) = parts.length then
      dedupManagedMultipart cfg r u parts m
    else
      return .ok m
  else
    return .ok m

def releaseContent (m : ObjectManifest) : Proc Call Unit :=
  if m.contentHash ≠ "" ∧ cfg.hasContentIndex = true then do
    let _ ← ask (.indexDecrementRef ⟨m.tenantID, m.contentHash⟩)
  else
    return ()

/-- The parts to delete when the manifest could not be stored: not those the index refers to. -/
def unkeptParts (m : ObjectManifest) (parts : List Part) : List Part :=
  parts.filter fun p => m.contentHash = "" ∨ p.pieceID ∉ m.pieces.map Piece.pieceID

/-- Stamp the retention and store the manifest.  Unlike the other writers, a failure to read the
bucket's lock leaves the parts to the garbage collector. -/
def publishUpload (parts : List Part) (m : ObjectManifest) : Handler := do
  match ← applyDefaultObjectLockRetention cfg m.tenantID m.bucket m with
  | .error e =>
    releaseContent cfg m
    writeError 500 "ObjectLockGetFailed" e.text
  | .ok manifest =>
    match ← ask (.manifestPut manifest.key manifest) with
    | .error e =>
      releaseContent cfg manifest
      deleteUploadedParts cfg (unkeptParts manifest parts)
      writeError 500 "ManifestPutFailed" e.text
    | .ok () =>
      return { status := 200, versionID := manifest.versionID,
               etag := quote (computeMultipartETag cfg parts) }

def completeWith (r : CompleteRequest) (u : Upload) (parts : List Part) : Handler := do
  let pieces ← assemblePieces u.id parts
  let versionID ← uploadVersion cfg r u
  let createdAt ← ask .now
  match ← dedupUpload cfg r u parts (multipartManifest cfg r u parts pieces versionID createdAt) with
  | .error response => return response
  | .ok m => publishUpload cfg parts m

def completeError (uploadID : String) : StoreError → Handler
  | .uploadNotFound => noSuchUpload uploadID
  | .tenantMismatch => writeError 403 "AccessDenied" "tenant mismatch"
  | .uploadMismatch => writeError 403 "AccessDenied" "upload does not match bucket/key"
  | .partNotFound => writeError 400 "InvalidPart" "one or more parts are missing"
  | .partETagMismatch => writeError 400 "InvalidPart" "part etag does not match uploaded part"
  | e => writeError 500 "MultipartCompleteFailed" e.text

def completeParts (r : CompleteRequest) (refs : List PartReference) : Handler := do
  match ← ask (.uploadTakeForComplete r.uploadID r.tenantID r.bucket r.key) with
  | .error e => completeError r.uploadID e
  | .ok u =>
    match ← ask (.uploadCollect r.uploadID refs) with
    | .error e => completeError r.uploadID e
    | .ok parts => completeWith cfg r u parts

def completeMultipartUpload (r : CompleteRequest) : Handler :=
  if r.bucket = "" ∨ r.key = "" then
    writeError 400 "InvalidArgument" "path must be /\x7bbucket\x7d/\x7bkey...\x7d"
  else
    orRefuse (allowObjectLockOverwrite cfg r.object r.bypassGovernance) <|
      match r.parts with
      | .error message => writeError 400 "MalformedXML" ("complete body is not valid XML: " ++ message)
      | .ok [] =>
        writeError 400 "InvalidArgument" "CompleteMultipartUpload must list at least one part"
      | .ok refs => completeParts cfg r refs

end

end ObjectFabric
