import ObjectFabric.Workers.ReadRepair

/-!
# Get — GET of an object

`Handler.Get` of `api/s3compat/handler.go`.  A read of a single piece that fails on its backend may
be answered by a read repair, which writes to the stores; everything else only reads.  The handlers
take the reads of a piece as a parameter; here they go to the backends without a hot-object cache.
-/

namespace ObjectFabric

open Interleaving

/-- `providers.ByteRange`: a negative end means the last byte. -/
structure ByteRange where
  first : Int
  last : Int
  deriving DecidableEq, Repr

/-- What `parseObjectRanges` makes of the `Range` header. -/
inductive Ranges where
  | whole
  | single (range : ByteRange)
  | multi (head : ByteRange) (tail : List ByteRange)
  deriving DecidableEq, Repr

structure GetRequest where
  object : ObjectRef
  /-- The answer of `applyReadConditionals` when a precondition diverts the read. -/
  diverted : ObjectManifest → Option Response := fun _ => none
  /-- The ranges asked for of an object of the given size. -/
  ranges : Int → Except String Ranges := fun _ => .ok .whole
  /-- The memory budget admits the piece for buffering and checking. -/
  admitted : Bool := true

def ByteRange.slice (r : ByteRange) (buf : Bytes) : Option Bytes :=
  let last := if r.last < 0 ∨ (buf.length : Int) ≤ r.last then (buf.length : Int) - 1 else r.last
  if r.first < 0 ∨ last + 1 < r.first then
    none
  else
    some ((buf.drop r.first.toNat).take (last + 1 - r.first).toNat)

def ByteRange.within (r : ByteRange) (buf : Bytes) : Prop :=
  0 ≤ r.first ∧ r.first ≤ r.last ∧ r.last < buf.length

instance (r : ByteRange) (buf : Bytes) : Decidable (r.within buf) :=
  inferInstanceAs (Decidable (_ ∧ _ ∧ _))

inductive FetchError where
  | integrity (message : String)
  | backend (message : String)
  deriving DecidableEq, Repr

def FetchError.respond : FetchError → Response
  | .integrity _ => { status := 502, code := "IntegrityCheckFailed", message :=
      "backend returned a piece whose content hash did not match the manifest; refusing to serve" }
  | .backend message => { status := 502, code := "BackendGetFailed", message }

section

variable (cfg : Config)

/-! ## 1. Fetching a piece -/

/-- A repaired body, when there is one; the manifest in hand may have been updated. -/
def tryReadRepair (key : ManifestKey) (m : ObjectManifest) (range : Option ByteRange) :
    Proc Call (Option Bytes × ObjectManifest) :=
  if cfg.hasReadRepair = false ∨ m.migrationState.generation ≤ 1 ∨ m.pieces = [] then
    return (none, m)
  else do
    match ← repair cfg key m 0 with
    | (.error _, m) => return (none, m)
    | (.ok res, m) =>
      match range with
      | none => return (some res.body, m)
      | some r => return (r.slice res.body, m)

/-- `GetPiece` of a backend, with a range. -/
def getRange (a : PieceAddr) (range : Option ByteRange) : Proc Call (Except StoreError Bytes) := do
  match ← ask (.getPiece a) with
  | .error e => return .error e
  | .ok body =>
    match range with
    | none => return .ok body
    | some r => return (r.slice body).elim (.error (.other "range out of bounds")) .ok

/-- Read the piece or repair it; the flag says that the body has been checked already. -/
def getOrRepair (key : ManifestKey) (m : ObjectManifest) (p : Piece) (range : Option ByteRange) :
    Proc Call (Except FetchError (Bytes × Bool) × ObjectManifest) := do
  match ← getRange p.addr range with
  | .ok body => return (.ok (body, false), m)
  | .error e =>
    match ← tryReadRepair cfg key m range with
    | (none, m) => return (.error (.backend e.text), m)
    | (some body, m) => return (.ok (body, true), m)

def rangeOutOfBounds (r : ByteRange) (p : Piece) (buf : Bytes) : FetchError :=
  .backend ("s3compat: range " ++ toString r.first ++ "-" ++ toString r.last ++
    " out of bounds for piece " ++ p.pieceID ++ " (" ++ toString buf.length ++ " bytes)")

def sliceOr (range : Option ByteRange) (p : Piece) (buf : Bytes) : Except FetchError Bytes :=
  match range with
  | none => .ok buf
  | some r => (r.slice buf).elim (.error (rangeOutOfBounds r p buf)) .ok

def serveBuffered (req : GetRequest) (p : Piece) (range : Option ByteRange) (buf : Bytes)
    (preVerified : Bool) : Proc Call (Except FetchError Bytes) :=
  if req.admitted then
    match preVerified, verifyPiece cfg buf p with
    | false, .failed message => return .error (.integrity message)
    | _, _ => return sliceOr range p buf
  else
    match range, preVerified with
    | some r, false => do
      match ← getRange p.addr (some r) with
      | .error e => return .error (.backend e.text)
      | .ok body => return .ok body
    | _, _ => return sliceOr range p buf

/-- `fetchPiece`: `p` is the piece as it was when the request resolved the manifest. -/
def fetchPiece (req : GetRequest) (key : ManifestKey) (m : ObjectManifest) (p : Piece)
    (range : Option ByteRange) : Proc Call (Except FetchError Bytes × ObjectManifest) := do
  let pieceSize := if p.sizeBytes ≤ 0 then m.objectSize else p.sizeBytes
  let wantFull := range.isNone ∨ (p.hash ≠ "" ∧ pieceSize ≤ maxInMemoryObjectBytes)
  match ← getOrRepair cfg key m p (if wantFull then none else range) with
  | (.error e, m) => return (.error e, m)
  | (.ok (body, preVerified), m) =>
    if ¬ wantFull ∨ maxInMemoryObjectBytes < pieceSize then
      return (.ok body, m)
    else
      return (← serveBuffered cfg req p range body preVerified, m)

/-! ## 2. Answers -/

def ObjectManifest.served (m : ObjectManifest) (status : Nat) (body : List Bytes) : Response :=
  { status, versionID := m.versionID, body }

def invalidRange (message : String) : Response := { status := 416, code := "InvalidRange", message }

def serveBody (m : ObjectManifest) (ranges : Ranges) (body : Bytes) : Response :=
  match ranges with
  | .whole => m.served 200 [body]
  | .single r =>
    match r.slice body with
    | none => invalidRange "range out of bounds"
    | some part => m.served 206 [part]
  | .multi r rs =>
    match (r :: rs).find? fun r => ¬ r.within body with
    | some r => { status := 502, code := "BackendGetFailed", message :=
        "range " ++ toString r.first ++ "-" ++ toString r.last ++ " out of bounds for " ++
          toString body.length ++ "-byte buffer" }
    | none => m.served 206 ((r :: rs).map fun r => (r.slice body).getD [])

/-- How a GET reads a piece, or a range of it, and the ciphertext that it decrypts as it streams.  A
read returns the manifest too, which a repair may have updated. -/
structure PieceReads (C : Type → Type) where
  onStores : {α : Type} → Proc Call α → Proc C α
  fetchPiece : ManifestKey → ObjectManifest → Piece → Option ByteRange →
    Proc C (Except FetchError Bytes × ObjectManifest)
  openCiphertextStream : ManifestKey → ObjectManifest → Piece →
    Proc C (Except FetchError Bytes × ObjectManifest)

def directReads (req : GetRequest) : PieceReads Call where
  onStores q := q
  fetchPiece := fetchPiece cfg req
  openCiphertextStream key m p := do
    let (opened, m) ← getOrRepair cfg key m p none
    return (opened.map Prod.fst, m)

@[simp] theorem directReads_onStores (req : GetRequest) {α : Type} (q : Proc Call α) :
    (directReads cfg req).onStores q = q := rfl

variable {C : Type → Type} (reads : PieceReads C)

/-- A gateway-encrypted object without ranges: the status goes out before the body is opened. -/
def streamGatewayDecryptedGet (key : ManifestKey) (m : ObjectManifest) (p : Piece) :
    Proc C Response := do
  match ← reads.openCiphertextStream key m p with
  | (.error e, _) => return e.respond
  | (.ok ciphertext, m) =>
    match cfg.encryption with
    | none =>
      return { status := 500, code := "DEKUnwrapFailed",
               message := "s3compat: gateway encryption is not configured" }
    | some enc =>
      match enc.unwrapDEK m.encryption with
      | .error message =>
        return { status := 500, code := "DEKUnwrapFailed",
                 message := "s3compat: unwrap dek: " ++ message }
      | .ok dek =>
        match cfg.decryptWithDEK ciphertext dek m.encryption m.aadIdentity with
        | .error _ => return { m.served 200 [] with truncated := true }
        | .ok plaintext => return m.served 200 [plaintext]

def bufferedGatewayDecryptedGet (key : ManifestKey) (m : ObjectManifest) (p : Piece)
    (ranges : Ranges) : Proc C Response :=
  if maxInMemoryObjectBytes < m.objectSize then
    return { status := 507, code := "RangeRequestTooLargeForBufferedDecrypt", message :=
      "range GET on gateway-encrypted object of " ++ toString m.objectSize ++
        " bytes exceeds in-memory decrypt ceiling of " ++ toString maxInMemoryObjectBytes ++
        " bytes; full-object GETs stream without this ceiling" }
  else do
    match ← reads.fetchPiece key m p none with
    | (.error e, _) => return e.respond
    | (.ok ciphertext, m) =>
      match cfg.decryptFromStorage ciphertext m.encryption m.aadIdentity with
      | .error message => return { status := 500, code := "DEKUnwrapFailed", message }
      | .ok plaintext => return serveBody m ranges plaintext

def fetchRanges (key : ManifestKey) (p : Piece) :
    ObjectManifest → List ByteRange → List Bytes → Proc C (List Bytes × Bool)
  | _, [], parts => return (parts, false)
  | m, r :: rs, parts => do
    match ← reads.fetchPiece key m p (some r) with
    | (.error _, _) => return (parts, true)
    | (.ok part, m) => fetchRanges key p m rs (parts ++ [part])

def serveMultipartSinglePiece (key : ManifestKey) (m : ObjectManifest) (p : Piece) (r : ByteRange)
    (rs : List ByteRange) : Proc C Response := do
  match ← reads.fetchPiece key m p (some r) with
  | (.error e, _) => return e.respond
  | (.ok part, m') =>
    let (parts, truncated) ← fetchRanges reads key p m' rs [part]
    return { m.served 206 parts with truncated }

def getSinglePiece (req : GetRequest) (key : ManifestKey) (m : ObjectManifest) (p : Piece) :
    Proc C Response :=
  match req.ranges m.objectSize with
  | .error message => return invalidRange message
  | .ok ranges =>
    if m.encryption.mode.isGatewayEncrypted then
      match ranges with
      | .whole => streamGatewayDecryptedGet cfg reads key m p
      | ranges => bufferedGatewayDecryptedGet cfg reads key m p ranges
    else
      match ranges with
      | .multi r rs => serveMultipartSinglePiece reads key m p r rs
      | .single r => do
        match ← reads.fetchPiece key m p (some r) with
        | (.error e, _) => return e.respond
        | (.ok part, _) => return m.served 206 [part]
      | .whole => do
        match ← reads.fetchPiece key m p none with
        | (.error e, _) => return e.respond
        | (.ok body, _) => return m.served 200 [body]

def getReconstructed (req : GetRequest) (m : ObjectManifest)
    (reconstruct : Proc Call (Except Response Bytes)) : Handler :=
  match req.ranges m.objectSize with
  | .error message => return invalidRange message
  | .ok ranges => do
    match ← reconstruct with
    | .error response => return response
    | .ok body => return serveBody m ranges body

/-! ## 3. The handler -/

/-- `resolve`: the manifest and its first piece, or the refusal. -/
def resolve (o : ObjectRef) : Proc Call (Except Response (ObjectManifest × Piece)) :=
  let fail (status : Nat) (code message : String) : Except Response (ObjectManifest × Piece) :=
    .error { status, code, message }
  if o.bucket = "" ∨ o.key = "" then
    return fail 400 "InvalidArgument" "path must be /\x7bbucket\x7d/\x7bkey...\x7d"
  else do
    match ← ask (.manifestGet (o.manifestKey cfg)) with
    | .error .manifestNotFound => return fail 404 "NoSuchKey" "no such key"
    | .error e => return fail 500 "ManifestGetFailed" e.text
    | .ok m =>
      if m.deleteMarker then
        if o.versionID ≠ "" then
          return .error
            { status := 405, code := "MethodNotAllowed", versionID := m.versionID,
              message := "the specified version is a delete marker and cannot be downloaded" }
        else
          return .error { status := 404, code := "NoSuchKey", message := "no such key",
                          versionID := m.versionID }
      else
        match m.pieces with
        | [] => return fail 500 "EmptyManifest" "manifest has no pieces"
        | p :: _ =>
          if (cfg.providers p.backend).isNone then
            return fail 500 "BackendNotRegistered"
              ("backend " ++ p.backend ++ " is not in the provider registry")
          else
            return .ok (m, p)

def getObjectWith (req : GetRequest) : Proc C Response := do
  match ← reads.onStores (resolve cfg req.object) with
  | .error response => return response
  | .ok (m, p) =>
    match req.diverted m with
    | some response => return response
    | none =>
      let key := { req.object.manifestKey cfg with
        objectKeyHash := m.objectKeyHash, versionID := m.versionID }
      if m.isErasureCoded then
        reads.onStores (getReconstructed req m (reconstructErasureCoded cfg m))
      else if m.isMultipart then
        reads.onStores (getReconstructed req m (do
          match ← reconstructMultipart cfg m with
          | .error response => return .error response
          | .ok bodies => return .ok bodies.flatten))
      else
        getSinglePiece cfg reads req key m p

def getObject (req : GetRequest) : Handler := getObjectWith cfg (directReads cfg req) req

end

end ObjectFabric
