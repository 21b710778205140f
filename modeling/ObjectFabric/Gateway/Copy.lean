import ObjectFabric.Gateway.Reconstruct

/-!
# Copy — CopyObject

`api/s3compat/copy.go`.  A source with a content hash is copied by taking one more reference on its
piece; every other source is written again under a fresh piece ID, sealed anew where its encryption
is bound to the source's identity.  In all cases the version ID of the destination is the piece ID
that its manifest names.
-/

namespace ObjectFabric

open Interleaving

/-- `x-amz-tagging-directive` and `x-amz-metadata-directive`. -/
inductive Directive where
  | copy
  | replace
  | invalid
  deriving DecidableEq, Repr

inductive DateHeader where
  | absent
  | malformed
  | at (t : Time)
  deriving DecidableEq, Repr

structure CopyConditions where
  ifMatch : String := ""
  ifNoneMatch : String := ""
  ifUnmodifiedSince : DateHeader := .absent
  ifModifiedSince : DateHeader := .absent

/-- A PUT with `x-amz-copy-source`; `source` is what `parseCopySource` makes of that header. -/
structure CopyRequest where
  tenantID : String
  dstBucket : String
  dstKey : String
  source : Except String (String × String × String)
  conditions : CopyConditions := {}
  taggingDirective : Directive := .copy
  tagging : Except Response (Option StringMap) := .ok none
  metadataDirective : Directive := .copy
  metadata : ObjectMetadata := {}
  metadataTooLarge : Option Response := none
  bypassGovernance : Bool := false
  entropy : Nat := 0

/-! ## 1. Preconditions -/

def trimSpace (s : List Char) : List Char :=
  ((s.dropWhile Char.isWhitespace).reverse.dropWhile Char.isWhitespace).reverse

/-- Does one of the listed entity tags name `etag`?  A weak tag never matches strongly. -/
def etagListMatch (headerValue etag : String) (strong : Bool) : Bool :=
  let weak (s : List Char) : Bool := ['W', '/'].isPrefixOf s
  let strip (s : List Char) : List Char := if weak s then s.drop 2 else s
  etag ≠ "" && ((headerValue.toList.splitOn ',').map trimSpace).any fun tok =>
    !(strong && (weak tok || weak etag.toList)) && strip tok = strip etag.toList

/-- `true` when a precondition on the source fails. -/
def evaluateCopySourceConditionals (c : CopyConditions) (etag : String) (lastModified : Time) :
    Bool :=
  let modifiedAfter (t : Time) : Bool := t < lastModified - lastModified % 1000000000
  let star (s : String) : Bool := trimSpace s.toList = ['*']
  let positive :=
    if c.ifMatch ≠ "" then !star c.ifMatch && !etagListMatch c.ifMatch etag true
    else match c.ifUnmodifiedSince with
      | .at t => modifiedAfter t
      | _ => false
  let negative :=
    if c.ifNoneMatch ≠ "" then star c.ifNoneMatch || etagListMatch c.ifNoneMatch etag false
    else match c.ifModifiedSince with
      | .at t => !modifiedAfter t
      | _ => false
  positive || negative

def condETagForRead (m : ObjectManifest) (p : Piece) : String :=
  if m.isErasureCoded || m.isMultipart then "" else quote p.etag

namespace CopyRequest

def destination (r : CopyRequest) : ObjectRef := ⟨r.tenantID, r.dstBucket, r.dstKey, ""⟩

def resolveCopyTags (r : CopyRequest) (srcTags : Option StringMap) :
    Except Response (Option StringMap) :=
  match r.taggingDirective with
  | .copy => .ok (srcTags.filter fun tags => tags ≠ ∅)
  | .replace => r.tagging
  | .invalid => .error
    { status := 400, code := "InvalidArgument",
      message := "The x-amz-tagging-directive you provided is invalid" }

def copyDestinationTags (r : CopyRequest) (srcTags : Option StringMap) : Option StringMap :=
  match r.resolveCopyTags srcTags with
  | .error _ => none
  | .ok tags => tags

def validateCopyMetadataDirective (r : CopyRequest) : Option Response :=
  match r.metadataDirective with
  | .copy => none
  | .replace => r.metadataTooLarge
  | .invalid => some
    { status := 400, code := "InvalidArgument",
      message := "The x-amz-metadata-directive you provided is invalid" }

def copyObjectMetadata (r : CopyRequest) (src : ObjectManifest) : ObjectMetadata :=
  if r.metadataDirective = .replace then r.metadata else src.metadata

end CopyRequest

/-! ## 2. Storing the copy -/

section

variable (cfg : Config)

/-- The destination manifest; `dedupCopy` says that the piece is the source's own. -/
def copyManifest (r : CopyRequest) (src : ObjectManifest) (p : Piece) (backend : String)
    (enc : EncryptionConfig) (dedupCopy : Bool) (createdAt : Time) : ObjectManifest :=
  { tenantID := r.tenantID, bucket := r.dstBucket, objectKey := r.dstKey,
    objectKeyHash := cfg.hashObjectKey r.dstKey, versionID := p.pieceID,
    objectSize := src.objectSize,
    chunkSize := if p.sizeBytes = 0 then src.chunkSize else p.sizeBytes
    contentHash := if dedupCopy then src.contentHash else ""
    encryption := enc, placementPolicy := { src.placementPolicy with erasureProfile := "" },
    pieces := [p], tags := r.copyDestinationTags src.tags,
    migrationState := { generation := 1, primaryBackend := backend },
    metadata := r.copyObjectMetadata src, createdAt }

def rollbackCopyPiece (r : CopyRequest) (src : ObjectManifest) (p : Piece) (backend : String)
    (dedupCopy : Bool) : Proc Call Unit :=
  if !dedupCopy then
    if (cfg.providers backend).isSome then do
      let _ ← ask (.deletePiece ⟨backend, p.pieceID⟩)
    else
      return ()
  else if cfg.hasContentIndex ∧ src.contentHash ≠ "" then do
    let _ ← ask (.indexDecrementRef ⟨r.tenantID, src.contentHash⟩)
  else
    return ()

def writeCopyManifest (r : CopyRequest) (src : ObjectManifest) (p : Piece) (backend : String)
    (enc : EncryptionConfig) (dedupCopy : Bool) : Handler := do
  let createdAt ← ask .now
  persistManifest cfg (copyManifest cfg r src p backend enc dedupCopy createdAt)
    (rollbackCopyPiece cfg r src p backend dedupCopy)
    fun m => do
      let lastModified ← ask .now
      return { status := 200, versionID := m.versionID, etag := quote p.etag, lastModified }

def copiedPiece (pieceID backend hash locator etag : String) (sizeBytes : Int) : Piece :=
  { pieceID, hash, providerETag := etag, backend, locator, state := "active", sizeBytes }

/-- Seal `plaintext` under a fresh DEK bound to the destination, and store it. -/
def storeReencryptedCopy (r : CopyRequest) (src : ObjectManifest) (backend : String)
    (plaintext : Bytes) (mode : EncryptionMode) (manifestEncrypted : Bool) : Handler := do
  let pieceID := cfg.newPieceID r.tenantID r.dstBucket r.dstKey (← ask .now)
  let id : AadIdentity := ⟨r.tenantID, r.dstBucket, cfg.hashObjectKey r.dstKey, pieceID⟩
  match cfg.encryptForStorage r.entropy plaintext id with
  | .error message => writeError 500 "EncryptionFailed" message
  | .ok (ciphertext, wrapped) =>
    match ← ask (.putPiece ⟨backend, pieceID⟩ ciphertext) with
    | .error e => writeError 502 "BackendPutFailed" e.text
    | .ok res =>
      let piece := copiedPiece pieceID backend ("blake3:" ++ cfg.blake3Hex ciphertext) res.locator
        res.etag res.sizeBytes
      writeCopyManifest cfg r src piece backend
        { mode, algorithm := contentAlgorithm, keyID := wrapped.keyID,
          wrappedDEK := wrapped.wrappedKey, wrapAlgorithm := wrapped.wrapAlgorithm,
          manifestEncrypted, aadVersion := .v1 } false

def storeVerbatimCopy (r : CopyRequest) (src : ObjectManifest) (backend : String)
    (content : Bytes) (enc : EncryptionConfig) : Handler := do
  let pieceID := cfg.newPieceID r.tenantID r.dstBucket r.dstKey (← ask .now)
  match ← ask (.putPiece ⟨backend, pieceID⟩ content) with
  | .error e => writeError 502 "BackendPutFailed" e.text
  | .ok res =>
    let piece := copiedPiece pieceID backend ("blake3:" ++ cfg.blake3Hex content) res.locator
      res.etag res.sizeBytes
    writeCopyManifest cfg r src piece backend enc false

/-! ## 3. The copy paths -/

/-- A v1 source is sealed to its own identity: open it and seal it to the destination's. -/
def copyReencrypt (r : CopyRequest) (src : ObjectManifest) (p : Piece) : Handler :=
  if cfg.encryption.isNone then
    writeError 500 "EncryptionNotConfigured"
      "source object is gateway-encrypted but no gateway encryption is configured"
  else if maxInMemoryObjectBytes < src.objectSize then
    writeError 413 "CopyReencryptObjectTooLarge"
      ("server-side copy of AAD v1 object of " ++ toString src.objectSize ++
        " bytes exceeds in-memory re-encrypt ceiling of " ++ toString maxInMemoryObjectBytes ++
        " bytes; streaming re-encryption is not yet implemented")
  else do
    match ← ask (.getPiece p.addr) with
    | .error e => writeError 502 "BackendGetFailed" e.text
    | .ok ciphertext =>
      if maxInMemoryObjectBytes < ciphertext.length then
        writeError 413 "CopyReencryptObjectTooLarge"
          ("server-side copy source ciphertext exceeds in-memory re-encrypt ceiling of " ++
            toString maxInMemoryObjectBytes ++ " bytes")
      else
        match cfg.decryptFromStorage ciphertext src.encryption src.aadIdentity with
        | .error message => writeError 500 "DEKUnwrapFailed" message
        | .ok plaintext =>
          storeReencryptedCopy cfg r src p.backend plaintext src.encryption.mode
            src.encryption.manifestEncrypted

/-- A plaintext source that the destination bucket's default encryption seals. -/
def copyEncryptForDefault (r : CopyRequest) (src : ObjectManifest) (p : Piece)
    (mode : EncryptionMode) : Handler :=
  if cfg.encryption.isNone then
    writeError 500 "EncryptionNotConfigured" ("destination bucket has a default-encryption " ++
      "configuration but no gateway encryption is configured")
  else if maxInMemoryObjectBytes < src.objectSize then
    writeError 413 "CopyEncryptObjectTooLarge"
      ("server-side copy that must apply the destination bucket default encryption requires " ++
        "buffering the " ++ toString src.objectSize ++ "-byte object, which exceeds the " ++
        "in-memory ceiling of " ++ toString maxInMemoryObjectBytes ++
        " bytes; streaming encryption on copy is not yet implemented")
  else do
    match ← ask (.getPiece p.addr) with
    | .error e => writeError 502 "BackendGetFailed" e.text
    | .ok plaintext =>
      if maxInMemoryObjectBytes < plaintext.length then
        writeError 413 "CopyEncryptObjectTooLarge"
          ("server-side copy source exceeds in-memory encrypt ceiling of " ++
            toString maxInMemoryObjectBytes ++ " bytes")
      else
        storeReencryptedCopy cfg r src p.backend plaintext mode false

/-- The source's own backend when it is registered, else the first registered one of its pieces. -/
def copyDestinationBackend (m : ObjectManifest) : Option String :=
  let anchor :=
    if m.migrationState.primaryBackend = "" then (m.pieces.head?.map Piece.backend).getD ""
    else m.migrationState.primaryBackend
  if anchor ≠ "" ∧ (cfg.providers anchor).isSome then some anchor
  else (m.pieces.find? fun p => (cfg.providers p.backend).isSome).map Piece.backend

def reconstructSource (src : ObjectManifest) : Proc Call (Except Response Bytes) :=
  if src.isErasureCoded then
    reconstructErasureCoded cfg src
  else do
    match ← reconstructMultipart cfg src with
    | .error response => return .error response
    | .ok bodies => return .ok bodies.flatten

theorem reconstructSource_only (src : ObjectManifest) :
    (reconstructSource cfg src).Only inspects := by
  unfold reconstructSource
  split
  · exact reconstructErasureCoded_only cfg src
  · apply (reconstructMultipart_only cfg src).bind
    intro r
    cases r <;> trivial

def copyReconstructedSource (r : CopyRequest) (src : ObjectManifest) : Handler :=
  if src.encryption.mode.isGatewayEncrypted ∧ cfg.encryption.isNone then
    writeError 500 "EncryptionNotConfigured"
      "source object is gateway-encrypted but no gateway encryption is configured"
  else do
    match ← reconstructSource cfg src with
    | .error response => return response
    | .ok content =>
      match copyDestinationBackend cfg src with
      | none =>
        writeError 500 "BackendNotRegistered"
          "no registered backend available for the copy destination"
      | some backend =>
        if src.encryption.mode.isGatewayEncrypted then
          storeReencryptedCopy cfg r src backend content src.encryption.mode
            src.encryption.manifestEncrypted
        else if src.encryption.mode = .unset then
          match ← cfg.effectiveEncryptionMode r.tenantID r.dstBucket src.placementPolicy with
          | .error message => writeError 500 "EncryptionNotConfigured" message
          | .ok mode =>
            if mode.isGatewayEncrypted then
              storeReencryptedCopy cfg r src backend content mode false
            else
              storeVerbatimCopy cfg r src backend content {}
        else
          storeVerbatimCopy cfg r src backend content src.encryption

/-- Read the piece and write it again, with the size, hash and ETag of what was written. -/
def copyViaGetPut (p : Piece) (dstPieceID : String) :
    Proc Call (Except String (Int × String × String)) := do
  match ← ask (.getPiece p.addr) with
  | .error e => return .error ("get source piece: " ++ e.text)
  | .ok body =>
    match ← ask (.putPiece ⟨p.backend, dstPieceID⟩ body) with
    | .error e => return .error ("put dest piece: " ++ e.text)
    | .ok res => return .ok (res.sizeBytes, "blake3:" ++ cfg.blake3Hex body, res.etag)

def copyBytes (serverSideCopy : Bool) (p : Piece) (dstPieceID : String) :
    Proc Call (Except String (Int × String × String)) :=
  if serverSideCopy then do
    match ← ask (.copyPiece p.addr ⟨p.backend, dstPieceID⟩) with
    | .error e => return .error e.text
    | .ok res => return .ok (res.sizeBytes, p.hash, res.etag)
  else
    copyViaGetPut cfg p dstPieceID

def copyVerbatim (r : CopyRequest) (src : ObjectManifest) (p : Piece) (serverSideCopy : Bool) :
    Handler := do
  let dstPieceID := cfg.newPieceID r.tenantID r.dstBucket r.dstKey (← ask .now)
  match ← copyBytes cfg serverSideCopy p dstPieceID with
  | .error message => writeError 502 "BackendCopyFailed" message
  | .ok (size, hash, etag) =>
    writeCopyManifest cfg r src (copiedPiece dstPieceID p.backend hash p.locator etag size)
      p.backend src.encryption false

/-- A deduplicated source gets one more reference; when its row has vanished the bytes are
copied. -/
def copyShared (r : CopyRequest) (src : ObjectManifest) (p : Piece) (serverSideCopy : Bool) :
    Handler :=
  if src.contentHash ≠ "" ∧ cfg.hasContentIndex = true then do
    match ← ask (.indexIncrementRef ⟨r.tenantID, src.contentHash⟩) with
    | .ok () => writeCopyManifest cfg r src p p.backend src.encryption true
    | .error .contentNotFound => copyVerbatim cfg r src p serverSideCopy
    | .error e => writeError 500 "ContentIndexIncrementFailed" e.text
  else
    copyVerbatim cfg r src p serverSideCopy

def copySinglePiece (r : CopyRequest) (src : ObjectManifest) (p : Piece) : Handler :=
  match cfg.providers p.backend with
  | none => writeError 500 "BackendNotRegistered"
      ("source backend " ++ p.backend ++ " not registered")
  | some provider =>
    if src.encryption.aadVersion = .v1 then
      copyReencrypt cfg r src p
    else if src.encryption.mode = .unset then do
      match ← cfg.effectiveEncryptionMode r.tenantID r.dstBucket src.placementPolicy with
      | .error message => writeError 500 "EncryptionNotConfigured" message
      | .ok mode =>
        if mode.isGatewayEncrypted then
          copyEncryptForDefault cfg r src p mode
        else
          copyShared cfg r src p provider.serverSideCopy
    else
      copyShared cfg r src p provider.serverSideCopy

def copyFrom (r : CopyRequest) (srcVersion : String) (src : ObjectManifest) : Handler :=
  if src.deleteMarker then
    if srcVersion ≠ "" then
      writeError 405 "MethodNotAllowed" "copy source version is a delete marker"
    else
      writeError 404 "NoSuchKey" "copy source not found"
  else
    match src.pieces with
    | [] => writeError 500 "EmptyManifest" "source manifest has no pieces"
    | p :: _ =>
      if evaluateCopySourceConditionals r.conditions (condETagForRead src p) src.createdAt then
        writeError 412 "PreconditionFailed"
          "the copy source conditional request precondition failed"
      else
        match r.resolveCopyTags src.tags, r.validateCopyMetadataDirective with
        | .error response, _ => return response
        | .ok _, some response => return response
        | .ok _, none =>
          if src.isErasureCoded ∨ src.isMultipart then
            copyReconstructedSource cfg r src
          else
            copySinglePiece cfg r src p

def copyObject (r : CopyRequest) : Handler :=
  if r.dstBucket = "" ∨ r.dstKey = "" then
    writeError 400 "InvalidArgument" "destination path must be /\x7bbucket\x7d/\x7bkey...\x7d"
  else
    orRefuse (allowObjectLockOverwrite cfg r.destination r.bypassGovernance) <|
      match r.source with
      | .error message => writeError 400 "InvalidArgument" message
      | .ok (srcBucket, srcKey, srcVersion) => do
        match ← ask (.manifestGet (cfg.manifestKey r.tenantID srcBucket srcKey srcVersion)) with
        | .error .manifestNotFound => writeError 404 "NoSuchKey" "copy source not found"
        | .error e => writeError 500 "ManifestGetFailed" e.text
        | .ok src => copyFrom cfg r srcVersion src

end

end ObjectFabric
