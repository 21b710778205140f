import ObjectFabric.Interleaving.Pool
import ObjectFabric.Store.Multipart

/-!
# PostgresMultipart — gateway nodes sharing one multipart store

`api/s3compat/multipart/postgres_store.go`.  The uploads and their parts are rows of one database;
each node also keeps the sessions it has loaded in a cache of its own, and answers from it.  Every
statement is one step, and the database may refuse it without effect.  `cleanup` stands for the
deletion of the backend pieces of the parts it is given.
-/

namespace ObjectFabric

open Interleaving Interleaving.Proc

structure PgFleet where
  /-- An upload row with its part rows, which are deleted together. -/
  rows : FMap String Session := ∅
  caches : FMap (Nat × String) Session := ∅
  /-- What has been handed to the piece-deleting cleanup. -/
  handed : List (String × List Part) := []

def PgFleet.row (s : PgFleet) (tenantID id : String) : Option Session :=
  (s.rows.lookup id).filter fun r => r.upload.tenantID = tenantID

inductive PgCall : Type → Type where
  | cacheLoad (node : Nat) (id : String) : PgCall (Option Session)
  | cacheStore (node : Nat) (id : String) (session : Session) : PgCall Unit
  | cacheDelete (node : Nat) (id : String) : PgCall Unit
  | loadUpload (tenantID id : String) : PgCall (Except StoreError Upload)
  | loadParts (tenantID id : String) (upload : Upload) : PgCall (Except StoreError Session)
  | deleteUpload (tenantID id : String) : PgCall (Except StoreError Unit)
  | cleanup (id : String) (parts : List Part) : PgCall Unit

namespace PgFleet

def exec {β : Type} (fault : Bool) (c : PgCall β) (s : PgFleet) : β × PgFleet :=
  match c with
  | .cacheLoad node id => (s.caches.lookup (node, id), s)
  | .cacheStore node id session => ((), { s with caches := s.caches.insert (node, id) session })
  | .cacheDelete node id => ((), { s with caches := s.caches.erase (node, id) })
  | .loadUpload t id =>
    if fault then
      (.error (.other "unavailable"), s)
    else
      match s.row t id with
      | none => (.error .uploadNotFound, s)
      | some r => (.ok r.upload, s)
  | .loadParts t id upload =>
    if fault then
      (.error (.other "unavailable"), s)
    else
      match s.row t id with
      | none => (.ok { upload }, s)
      | some r => (.ok { r with upload }, s)
  | .deleteUpload t id =>
    if fault then
      (.error (.other "unavailable"), s)
    else if (s.row t id).isSome then
      (.ok (), { s with rows := s.rows.erase id })
    else
      (.ok (), s)
  | .cleanup id parts => ((), { s with handed := (id, parts) :: s.handed })

theorem exec_loadUpload (s : PgFleet) (fault : Bool) (t id : String) :
    (s.exec fault (.loadUpload t id)).2 = s := by
  simp only [exec]
  split
  · rfl
  · split <;> rfl

theorem exec_loadParts (s : PgFleet) (fault : Bool) (t id : String) (upload : Upload) :
    (s.exec fault (.loadParts t id upload)).2 = s := by
  simp only [exec]
  split
  · rfl
  · split <;> rfl

theorem exec_deleteUpload {s : PgFleet} {t id : String} (h : (s.row t id).isSome = true) :
    s.exec false (.deleteUpload t id) = (.ok (), { s with rows := s.rows.erase id }) := by
  simp only [exec, Bool.false_eq_true, if_false, if_pos h]

theorem lookup_of_row {s : PgFleet} {t id : String} (h : (s.row t id).isSome = true) :
    (s.rows.lookup id).isSome = true := by
  unfold row at h
  cases hrow : s.rows.lookup id with
  | none => simp [hrow] at h
  | some r => rfl

end PgFleet

/-- `fault` makes a database statement fail. -/
def pgMachine : Machine PgCall PgFleet Bool where
  exec fault c s := s.exec fault c

namespace PostgresStore

def get (node : Nat) (tenantID id : String) : Proc PgCall (Except StoreError Session) := do
  match ← ask (.cacheLoad node id) with
  | some cached =>
    if cached.upload.tenantID ≠ tenantID then
      return .error .uploadNotFound
    else
      return .ok cached
  | none =>
    match ← ask (.loadUpload tenantID id) with
    | .error e => return .error e
    | .ok upload =>
      if upload.tenantID ≠ tenantID then
        return .error .uploadNotFound
      else
        match ← ask (.loadParts tenantID id upload) with
        | .error e => return .error e
        | .ok session =>
          ask (.cacheStore node id session)
          return .ok session

def remove (node : Nat) (tenantID id : String) : Proc PgCall (Except StoreError Unit) := do
  match ← ask (.deleteUpload tenantID id) with
  | .error e => return .error e
  | .ok () =>
    ask (.cacheDelete node id)
    return .ok ()

/-- `Complete`; its caller reads the digests from the session that it returns. -/
def complete (node : Nat) (id tenantID bucket objectKey : String)
    (expected : List PartReference) : Proc PgCall (Except StoreError (List Part × Session)) := do
  match ← get node tenantID id with
  | .error e => return .error e
  | .ok session =>
    if session.upload.bucket ≠ bucket ∨ session.upload.objectKey ≠ objectKey then
      return .error .uploadMismatch
    else
      match expected.mapM (findPart session.parts) with
      | .error e => return .error e
      | .ok result =>
        match ← remove node tenantID id with
        | .error e => return .error e
        | .ok () =>
          return .ok (result.insertionSort fun a b => a.partNumber ≤ b.partNumber, session)

def abort (node : Nat) (id tenantID : String) :
    Proc PgCall (Except StoreError (Upload × List Part)) := do
  match ← get node tenantID id with
  | .error e => return .error e
  | .ok session =>
    match ← remove node tenantID id with
    | .error e => return .error e
    | .ok () => return .ok (session.upload, session.parts)

/-- The sweep of one expired upload runs its cleanup before it deletes the row; it never looks at
the cache.  `true` when it got to its end. -/
def expireOne (hasCleanup : Bool) (node : Nat) (tenantID id : String) : Proc PgCall Bool := do
  match ← ask (.loadUpload tenantID id) with
  | .error _ => return false
  | .ok upload =>
    match ← ask (.loadParts tenantID id upload) with
    | .error _ => return false
    | .ok session =>
      if upload.tenantID ≠ tenantID then
        return false
      else
        if hasCleanup then
          ask (.cleanup id session.parts)
        match ← remove node tenantID id with
        | .error _ => return false
        | .ok () => return true

end PostgresStore

end ObjectFabric
