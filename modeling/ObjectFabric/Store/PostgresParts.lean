import ObjectFabric.Store.PostgresMultipart

/-!
# PostgresParts — parts routed to nodes with sessions of their own

`PutPart` of `api/s3compat/multipart/postgres_store.go`, and `UploadPart` of the handler as far as it
concerns the session, one call after the other.  The digest of a part is recorded in the session that
the node has in its cache; `PutPart` writes it to the row together with the part, and then the part to
the session.  No node ever reloads a session.
-/

namespace ObjectFabric

open Interleaving Interleaving.Proc

/-- `nullableBytes`: an empty digest is written as NULL. -/
def nullableBytes (h : Option Bytes) : Option Bytes := h.filter (· ≠ [])

theorem nullableBytes_ne (h : Option Bytes) : nullableBytes h ≠ some [] := by
  intro heq
  have hne : decide (([] : Bytes) ≠ []) = true := (Option.filter_eq_some_iff.mp heq).2
  exact absurd hne (by decide)

theorem nullableBytes_of_ne {h : Option Bytes} (hne : h ≠ some []) : nullableBytes h = h := by
  cases h with
  | none => rfl
  | some b =>
    have hb : b ≠ [] := fun heq => hne (by rw [heq])
    simp [nullableBytes, hb]

/-- What an acknowledged `PutPart` has written. -/
structure AckedPart where
  part : Part
  partHash : Option Bytes := none
  plaintextPartHash : Option Bytes := none
  partHash_ne : partHash ≠ some [] := by simp
  plaintextPartHash_ne : plaintextPartHash ≠ some [] := by simp
  deriving DecidableEq

def Part.untimed (p : Part) : Part := { p with uploadedAt := 0 }

def setHash (hashes : FMap Int Bytes) (n : Int) : Option Bytes → FMap Int Bytes
  | some h => hashes.insert n h
  | none => hashes.erase n

theorem lookup_setHash (hashes : FMap Int Bytes) (n n' : Int) (h : Option Bytes) :
    (setHash hashes n h).lookup n' = if n' = n then h else hashes.lookup n' := by
  cases h with
  | some h => exact FMap.lookup_insert_ite hashes n n' h
  | none => exact FMap.lookup_erase_ite hashes n n'

/-- `INSERT … ON CONFLICT DO UPDATE` of a part row; `keepTime` is what a timestamp column keeps of an
instant. -/
def Session.upsert (keepTime : Time → Time) (a : AckedPart) (row : Session) : Session :=
  { row with
    parts := setPart { a.part with uploadedAt := keepTime a.part.uploadedAt } row.parts
    partHashes := setHash row.partHashes a.part.partNumber a.partHash
    plaintextPartHashes :=
      setHash row.plaintextPartHashes a.part.partNumber a.plaintextPartHash }

namespace PgFleet

/-- `Get` on a node, without other calls in between; `faults` says which statements fail. -/
def get (s : PgFleet) (faults : Nat → Bool) (node : Nat) (tenantID id : String) :
    Except StoreError Session × PgFleet :=
  let r := (PostgresStore.get node tenantID id).run pgMachine faults [] s
  (r.1, r.2.2)

def modifyCached (s : PgFleet) (node : Nat) (id : String) (f : Session → Session) : PgFleet :=
  match s.caches.lookup (node, id) with
  | none => s
  | some session => { s with caches := s.caches.insert (node, id) (f session) }

@[simp] theorem rows_modifyCached (s : PgFleet) (node : Nat) (id : String)
    (f : Session → Session) : (s.modifyCached node id f).rows = s.rows := by
  unfold modifyCached
  split <;> rfl

def setPartHash (s : PgFleet) (node : Nat) (id : String) (n : Int) (digest : Bytes) : PgFleet :=
  s.modifyCached node id fun session =>
    { session with partHashes := session.partHashes.insert n digest }

def setPlaintextPartHash (s : PgFleet) (node : Nat) (id : String) (n : Int) :
    Option Bytes → PgFleet
  | none => s
  | some digest => s.modifyCached node id fun session =>
      { session with plaintextPartHashes := session.plaintextPartHashes.insert n digest }

@[simp] theorem rows_setPartHash (s : PgFleet) (node : Nat) (id : String) (n : Int)
    (digest : Bytes) : (s.setPartHash node id n digest).rows = s.rows :=
  s.rows_modifyCached node id _

@[simp] theorem rows_setPlaintextPartHash (s : PgFleet) (node : Nat) (id : String) (n : Int)
    (digest : Option Bytes) : (s.setPlaintextPartHash node id n digest).rows = s.rows := by
  cases digest with
  | none => rfl
  | some digest => exact s.rows_modifyCached node id _

def putPart (s : PgFleet) (keepTime : Time → Time) (faults : Nat → Bool) (writeFault : Bool)
    (node : Nat) (tenantID id : String) (part : Part) : Except StoreError AckedPart × PgFleet :=
  if part.partNumber ≤ 0 then
    (.error (.other "multipart: part_number must be positive"), s)
  else
    match s.get faults node tenantID id with
    | (.error e, s) => (.error e, s)
    | (.ok session, s) =>
      let acked : AckedPart :=
        ⟨part, nullableBytes (session.partHashes.lookup part.partNumber),
          nullableBytes (session.plaintextPartHashes.lookup part.partNumber),
          nullableBytes_ne _, nullableBytes_ne _⟩
      if writeFault then
        (.error (.other "multipart: upsert part"), s)
      else
        match s.rows.lookup id with
        -- the part row refers to the upload row
        | none => (.error (.other "multipart: upsert part"), s)
        | some row =>
          (.ok acked,
            { s with rows := s.rows.insert id (row.upsert keepTime acked) }.modifyCached node id
              fun session => { session with parts := setPart part session.parts })

end PgFleet

/-- A part as `UploadPart` has it after the body is stored: `digest` is that of the stored bytes,
`plaintextDigest` is taken of managed uploads with deduplication. -/
structure RoutedPart where
  node : Nat
  tenantID : String
  id : String
  part : Part
  digest : Bytes
  plaintextDigest : Option Bytes := none
  /-- The request is refused before anything is recorded, or the piece cannot be stored. -/
  refused : Bool := false
  pieceStored : Bool := true
  faults : Nat → Bool := fun _ => false
  writeFault : Bool := false

structure RoutedCompletion where
  node : Nat
  tenantID : String
  id : String
  bucket : String
  objectKey : String
  expected : List PartReference
  faults : Nat → Bool := fun _ => false

namespace PgFleet

def uploadPart (keepTime : Time → Time) (s : PgFleet) (r : RoutedPart) :
    Except StoreError AckedPart × PgFleet :=
  if r.part.partNumber < 1 ∨ 10000 < r.part.partNumber then
    (.error (.other "partNumber must be between 1 and 10000"), s)
  else
    match s.get r.faults r.node r.tenantID r.id with
    | (.error e, s) => (.error e, s)
    | (.ok _, s) =>
      if r.refused then
        (.error (.other "refused"), s)
      else
        let n := r.part.partNumber
        let s := s.setPlaintextPartHash r.node r.id n r.plaintextDigest
        if !r.pieceStored then
          (.error (.other "put piece"), s)
        else
          (s.setPartHash r.node r.id n r.digest).putPart keepTime r.faults r.writeFault r.node
            r.tenantID r.id r.part

def complete (s : PgFleet) (r : RoutedCompletion) :
    Except StoreError (List Part × Session) × PgFleet :=
  let a := (PostgresStore.complete r.node r.id r.tenantID r.bucket r.objectKey
    r.expected).run pgMachine r.faults [] s
  (a.1, a.2.2)

end PgFleet

inductive RoutedCall where
  | uploadPart (r : RoutedPart)
  | complete (r : RoutedCompletion)

/-- The fleet, and for each part of an upload what its last acknowledged `PutPart` wrote. -/
structure RoutedFleet where
  fleet : PgFleet := {}
  acked : FMap (String × Int) AckedPart := ∅

namespace RoutedFleet

def step (keepTime : Time → Time) (S : RoutedFleet) : RoutedCall → RoutedFleet
  | .uploadPart r =>
    match S.fleet.uploadPart keepTime r with
    | (.ok a, s) => ⟨s, S.acked.insert (r.id, a.part.partNumber) a⟩
    | (.error _, s) => { S with fleet := s }
  | .complete r => { S with fleet := (S.fleet.complete r).2 }

def run (keepTime : Time → Time) (S : RoutedFleet) (calls : List RoutedCall) : RoutedFleet :=
  calls.foldl (step keepTime) S

end RoutedFleet

end ObjectFabric
