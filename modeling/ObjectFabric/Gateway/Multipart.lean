import ObjectFabric.Gateway.Put

/-!
# Multipart — opening a multipart upload, uploading its parts, aborting it

`api/s3compat/multipart_handler.go`.  The version ID and the DEK of a gateway-encrypted upload are
fixed when it is created; each part is sealed under them.  The piece of a part is named after the
upload and the part number, so uploading a part again overwrites its piece.  A part reaches the
backend before the session: its hash is recorded first and the part itself last.
-/

namespace ObjectFabric

open Interleaving

/-! ## 1. Create -/

structure CreateUploadRequest where
  tenantID : String
  bucket : String
  key : String
  tagging : Except Response (Option StringMap) := .ok none
  metadata : ObjectMetadata := {}
  metadataTooLarge : Option Response := none
  /-- What `newUploadID` mints. -/
  uploadID : Except String String
  entropy : Nat := 0

section

variable (cfg : Config)

def newUpload (r : CreateUploadRequest) (uploadID backend : String) (policy : PlacementPolicy)
    (now : Time) : Upload :=
  { id := uploadID, tenantID := r.tenantID, bucket := r.bucket, objectKey := r.key, backend, policy,
    createdAt := now, versionID := cfg.newPieceID r.tenantID r.bucket r.key now,
    encMode := policy.encryptionMode,
    tags := match r.tagging with
      | .error _ => none
      | .ok tags => tags
    metadata := r.metadata }

def keyedUpload (r : CreateUploadRequest) (u : Upload) : Except Response Upload :=
  if !u.encMode.isGatewayEncrypted then
    .ok u
  else
    match cfg.encryption with
    | none => encryptionMissing
    | some enc =>
      match cfg.generateDEK r.entropy with
      | .error message => refuse 500 "DEKGenerationFailed" message
      | .ok dek =>
        match enc.wrapDEK r.entropy dek with
        | .error message => refuse 500 "DEKWrapFailed" message
        | .ok wrapped => .ok
          { u with
            dekMaterial := dek, wrappedDEK := wrapped.wrappedKey, wrappedKeyID := wrapped.keyID,
            wrapAlgorithm := wrapped.wrapAlgorithm, contentAlgorithm }

def createPlaced (r : CreateUploadRequest) (backend : String) (policy : PlacementPolicy) : Handler :=
  match r.uploadID with
  | .error message => writeError 500 "InternalError" message
  | .ok uploadID => do
    match keyedUpload cfg r (newUpload cfg r uploadID backend policy (← ask .now)) with
    | .error response => return response
    | .ok upload =>
      match ← ask (.uploadCreate upload) with
      | .error e => writeError 500 "MultipartCreateFailed" e.text
      | .ok () => return { status := 200, body := [utf8 uploadID] }

def createMultipartUpload (r : CreateUploadRequest) : Handler :=
  if r.bucket = "" ∨ r.key = "" then
    writeError 400 "InvalidArgument" "path must be /\x7bbucket\x7d/\x7bkey...\x7d"
  else
    match r.tagging, r.metadataTooLarge with
    | .error response, _ => return response
    | .ok _, some response => return response
    | .ok _, none => placed cfg r.tenantID r.bucket r.key (createPlaced cfg r)

/-! ## 2. Upload a part -/

/-- A PUT with `partNumber` and `uploadId`; the part number is absent when it is not an integer. -/
structure UploadPartRequest where
  tenantID : String
  uploadID : String
  partNumber : Option Int
  body : Bytes
  zkEncryption : String := ""
  entropy : Nat := 0

def partPieceID (uploadID : String) (partNumber : Int) : String :=
  uploadID ++ "-p" ++ zeroPad 5 partNumber.toNat

/-- Only its AAD version is read: the parts of a session without a version are not bound. -/
def partsEncryptionConfig (u : Upload) : EncryptionConfig :=
  if u.versionID = "" then {} else { aadVersion := .v1 }

def uploadAADIdentity (u : Upload) : AadIdentity :=
  ⟨u.tenantID, u.bucket, cfg.hashObjectKey u.objectKey, u.versionID⟩

def noSuchUpload (uploadID : String) : Handler :=
  writeError 404 "NoSuchUpload" ("upload " ++ uploadID ++ " not found")

def sealPart (r : UploadPartRequest) (u : Upload) : Except Response Bytes :=
  match u.encMode with
  | .managed | .publicDistribution =>
    (cfg.encryptWithDEK r.entropy r.body u.dekMaterial (partsEncryptionConfig u)
      (uploadAADIdentity cfg u)).mapError fun message =>
        { status := 500, code := "EncryptionFailed", message }
  | .clientSide =>
    if r.zkEncryption = "" then
      refuse 403 "EncryptionRequired"
        "tenant policy requires client_side encryption; set X-Amz-Meta-Zk-Encryption header"
    else
      .ok r.body
  | _ => .ok r.body

/-- The plaintext's hash goes into the session before anything else has happened to the part. -/
def recordPlaintextHash (r : UploadPartRequest) (u : Upload) (partNumber : Int) : Proc Call Unit :=
  if u.encMode.isGatewayEncrypted ∧ cfg.dedupEnabled u.policy = true then
    ask (.uploadSetPlaintextPartHash u.id partNumber (cfg.blake3 r.body))
  else
    return ()

/-- The part as the session records it: of a sealed part the plaintext's size. -/
def uploadedPart (r : UploadPartRequest) (u : Upload) (partNumber : Int) (res : PutResult)
    (uploadedAt : Time) : Part :=
  { partNumber, pieceID := res.pieceID, backend := u.backend, etag := res.etag,
    sizeBytes := if u.encMode.isGatewayEncrypted then r.body.length else res.sizeBytes
    uploadedAt }

/-- `PutPart` of the store. -/
def putPart (tenantID uploadID : String) (part : Part) : Proc Call (Except StoreError Unit) := do
  match ← ask (.uploadGet tenantID uploadID) with
  | .error e => return .error e
  | .ok _ =>
    ask (.uploadRecordPart uploadID part)
    return .ok ()

/-- Store the sealed bytes and record the part; the last failure takes the piece back. -/
def storePart (r : UploadPartRequest) (u : Upload) (partNumber : Int) (bytes : Bytes) : Handler := do
  let a : PieceAddr := ⟨u.backend, partPieceID r.uploadID partNumber⟩
  match ← ask (.putPiece a bytes) with
  | .error e => writeError 502 "BackendPutFailed" e.text
  | .ok res =>
    ask (.uploadSetPartHash u.id partNumber (cfg.blake3 bytes))
    let uploadedAt ← ask .now
    match ← putPart r.tenantID r.uploadID (uploadedPart r u partNumber res uploadedAt) with
    | .error e =>
      let _ ← ask (.deletePiece a)
      writeError 500 "MultipartPutPartFailed" e.text
    | .ok () => return { status := 200, etag := quote res.etag }

def uploadPartTo (r : UploadPartRequest) (u : Upload) (partNumber : Int) : Handler :=
  if u.tenantID ≠ r.tenantID then
    noSuchUpload r.uploadID
  else if (cfg.providers u.backend).isNone then
    writeError 500 "BackendNotRegistered"
      ("backend " ++ u.backend ++ " is not in the provider registry")
  else do
    recordPlaintextHash cfg r u partNumber
    match sealPart cfg r u with
    | .error response => return response
    | .ok bytes => storePart cfg r u partNumber bytes

def uploadPart (r : UploadPartRequest) : Handler :=
  match r.partNumber.filter fun n => 1 ≤ n ∧ n ≤ 10000 with
  | none => writeError 400 "InvalidArgument" "partNumber must be between 1 and 10000"
  | some partNumber => do
    match ← ask (.uploadGet r.tenantID r.uploadID) with
    | .error .uploadNotFound => noSuchUpload r.uploadID
    | .error e => writeError 500 "MultipartGetFailed" e.text
    | .ok u => uploadPartTo cfg r u partNumber

/-! ## 3. Abort -/

/-- Best effort: failures are swallowed, and parts on unknown backends are left. -/
def deleteUploadedParts : List Part → Proc Call Unit
  | [] => return ()
  | p :: ps =>
    if (cfg.providers p.backend).isSome then do
      let _ ← ask (.deletePiece p.addr)
      deleteUploadedParts ps
    else
      deleteUploadedParts ps

def abortMultipartUpload (tenantID uploadID : String) : Handler := do
  match ← ask (.uploadTakeForAbort uploadID tenantID) with
  | .error .uploadNotFound => return { status := 204 }
  | .error .tenantMismatch => writeError 403 "AccessDenied" "tenant mismatch"
  | .error e => writeError 500 "MultipartAbortFailed" e.text
  | .ok _ =>
    deleteUploadedParts cfg (← ask (.uploadParts uploadID))
    return { status := 204 }

theorem deleteUploadedParts_only {ok : ∀ {β : Type}, Call β → Prop}
    (h : ∀ addr, ok (.deletePiece addr)) (parts : List Part) :
    (deleteUploadedParts cfg parts).Only ok := by
  induction parts with
  | nil => trivial
  | cons p ps ih => ?_
  unfold deleteUploadedParts
  split
  · exact ⟨h _, fun _ => ih⟩
  · exact ih

end

end ObjectFabric
