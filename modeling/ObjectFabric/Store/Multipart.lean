import ObjectFabric.Store.ContentIndex

/-!
# Multipart — the in-memory store of multipart sessions

`api/s3compat/multipart/store.go`.  The store maps upload IDs to session objects that requests hold
by pointer: a request that obtained a session keeps writing to it after `Complete` or `Abort` took
it out of the map.  So the objects and the map's key set are kept apart.
-/

namespace ObjectFabric

structure Part where
  partNumber : Int
  pieceID : String
  backend : String
  etag : String := ""
  sizeBytes : Int := 0
  uploadedAt : Time := 0
  deriving DecidableEq, Repr

def Part.addr (p : Part) : PieceAddr := ⟨p.backend, p.pieceID⟩

structure PartReference where
  partNumber : Int
  etag : String := ""
  deriving DecidableEq, Repr

structure Upload where
  id : String
  tenantID : String
  bucket : String
  objectKey : String
  backend : String
  policy : PlacementPolicy := {}
  createdAt : Time := 0
  versionID : String := ""
  encMode : EncryptionMode := .unset
  dekMaterial : Bytes := []
  wrappedDEK : Bytes := []
  wrappedKeyID : String := ""
  wrapAlgorithm : String := ""
  contentAlgorithm : String := ""
  tags : Option StringMap := none
  metadata : ObjectMetadata := {}
  deriving DecidableEq

/-- A session object: the fixed fields and what `UploadPart` records.  `parts` is kept in ascending
order of the part number, with one entry for each number. -/
structure Session where
  upload : Upload
  partHashes : FMap Int Bytes := ∅
  plaintextPartHashes : FMap Int Bytes := ∅
  parts : List Part := []

/-- `u.parts[part.PartNumber] = part` on the ordered list. -/
def setPart (part : Part) : List Part → List Part
  | [] => [part]
  | p :: ps =>
    if part.partNumber < p.partNumber then part :: p :: ps
    else if part.partNumber = p.partNumber then part :: ps
    else p :: setPart part ps

def Session.part? (s : Session) (n : Int) : Option Part := s.parts.find? fun p => p.partNumber = n

theorem find_setPart (part : Part) (ps : List Part) (n : Int) :
    (setPart part ps).find? (fun p => p.partNumber = n) =
      if part.partNumber = n then some part else ps.find? fun p => p.partNumber = n := by
  induction ps with
  | nil =>
    unfold setPart
    by_cases hn : part.partNumber = n <;> simp [hn]
  | cons p ps ih => ?_
  unfold setPart
  by_cases hlt : part.partNumber < p.partNumber
  · rw [if_pos hlt, List.find?_cons]
    by_cases hn : part.partNumber = n <;> simp [hn]
  rw [if_neg hlt]
  by_cases heq : part.partNumber = p.partNumber
  · rw [if_pos heq, List.find?_cons, List.find?_cons, ← heq]
    by_cases hn : part.partNumber = n <;> simp [hn]
  rw [if_neg heq, List.find?_cons, List.find?_cons, ih]
  by_cases hp : p.partNumber = n
  · have hn : part.partNumber ≠ n := fun h => heq (h.trans hp.symm)
    simp [hp, hn]
  · simp [hp]

/-- `stripQuotes` -/
def stripQuotes (s : String) : String :=
  match s.toList with
  | '"' :: rest => if rest.getLast? = some '"' then String.ofList rest.dropLast else s
  | _ => s

/-- The part that a reference of the `Complete` request names. -/
def findPart (parts : List Part) (ref : PartReference) : Except StoreError Part :=
  match parts.find? fun p => p.partNumber = ref.partNumber with
  | none => .error .partNotFound
  | some part =>
    if ref.etag ≠ "" ∧ part.etag ≠ "" ∧ stripQuotes ref.etag ≠ stripQuotes part.etag then
      .error .partETagMismatch
    else
      .ok part

structure MultipartStore where
  /-- Every session object that was ever created. -/
  sessions : FMap String Session := ∅
  /-- The IDs the store's map currently holds. -/
  live : List String := []

namespace MultipartStore

def session (s : MultipartStore) (id : String) : Option Session :=
  if id ∈ s.live then s.sessions.lookup id else none

def create (s : MultipartStore) (u : Upload) : Except StoreError Unit × MultipartStore :=
  if u.id = "" then
    (.error (.other "multipart: upload id is required"), s)
  else if u.id ∈ s.live then
    (.error (.other "multipart: upload id already exists"), s)
  else
    (.ok (), ⟨s.sessions.insert u.id { upload := u }, u.id :: s.live⟩)

def get (s : MultipartStore) (tenantID id : String) : Except StoreError Upload :=
  match s.session id with
  | none => .error .uploadNotFound
  | some ses => if ses.upload.tenantID = tenantID then .ok ses.upload else .error .uploadNotFound

def modify (s : MultipartStore) (id : String) (f : Session → Session) : MultipartStore :=
  match s.sessions.lookup id with
  | none => s
  | some ses => { s with sessions := s.sessions.insert id (f ses) }

/-- The first half of `Complete`: take the session out of the map. -/
def takeForComplete (s : MultipartStore) (id tenantID bucket objectKey : String) :
    Except StoreError Upload × MultipartStore :=
  match s.session id with
  | none => (.error .uploadNotFound, s)
  | some ses =>
    if ses.upload.tenantID ≠ tenantID then
      (.error .tenantMismatch, s)
    else if ses.upload.bucket ≠ bucket ∨ ses.upload.objectKey ≠ objectKey then
      (.error .uploadMismatch, s)
    else
      (.ok ses.upload, { s with live := s.live.filter (· ≠ id) })

/-- The second half of `Complete`, under the session's own mutex: collect the referenced parts in
ascending order, or put the session back into the map. -/
def collect (s : MultipartStore) (id : String) (expected : List PartReference) :
    Except StoreError (List Part) × MultipartStore :=
  let parts := (s.sessions.lookup id).elim [] Session.parts
  match expected.mapM (findPart parts) with
  | .error e => (.error e, { s with live := id :: s.live })
  | .ok result => (.ok (result.insertionSort fun a b => a.partNumber ≤ b.partNumber), s)

/-- The first half of `Abort`. -/
def takeForAbort (s : MultipartStore) (id tenantID : String) :
    Except StoreError Upload × MultipartStore :=
  match s.session id with
  | none => (.error .uploadNotFound, s)
  | some ses =>
    if ses.upload.tenantID ≠ tenantID then
      (.error .tenantMismatch, s)
    else
      (.ok ses.upload, { s with live := s.live.filter (· ≠ id) })

end MultipartStore

end ObjectFabric
