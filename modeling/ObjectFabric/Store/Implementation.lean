import ObjectFabric.Store.PostgresManifests

/-!
# Implementation — manifest stores behind one interface

The methods of the interface `ManifestStore` that requests use, the stores that implement it, and
sequences of calls on one of them.  Page cursors are opaque to the caller: a call passes on a cursor
that the store gave out before.
-/

namespace ObjectFabric

variable {M : Type}

/-- An implementation of the interface, on states of type `σ`. -/
structure StoreImpl (σ : Type) (M : Type := ObjectManifest) where
  empty : σ
  put : σ → ManifestKey → M → Except StoreError Unit × σ
  updateManifest : σ → ManifestKey → M → Except StoreError Unit × σ
  get : σ → ManifestKey → Except StoreError M
  delete : σ → ManifestKey → Except StoreError Unit × σ
  list : σ → String → String → String → Int → Except StoreError (List M × String)
  listVersions : σ → String → String → String → Except StoreError (List M)

/-- `clone` is `cloneManifest`, which leaves its copies as they are. -/
def memoryStore (clone : M → M) : StoreImpl (ManifestStore M) M where
  empty := {}
  put s k m := (.ok (), s.put k (clone m))
  updateManifest s k m := s.updateManifest k (clone m)
  get := ManifestStore.get
  delete := ManifestStore.delete
  list := ManifestStore.list
  listVersions s tenantID bucket hash := .ok (s.listVersions tenantID bucket hash)

def sqliteStore (json : M → Except String M) : StoreImpl (SqliteStore M) M where
  empty := {}
  put := SqliteStore.put json
  updateManifest := SqliteStore.updateManifest json
  get := SqliteStore.get
  delete := SqliteStore.delete
  list := SqliteStore.list
  listVersions := SqliteStore.listVersions

/-- `now` are the readings of the database's clock, `tie` its choice among rows of one time. -/
def postgresStore (now : Nat → Time) (tie : ManifestKey → Nat) :
    StoreImpl PostgresManifestStore where
  empty := {}
  put := PostgresManifestStore.put now
  updateManifest := PostgresManifestStore.updateManifest
  get := PostgresManifestStore.get tie
  delete := PostgresManifestStore.delete
  list := PostgresManifestStore.list tie
  listVersions := PostgresManifestStore.listVersions tie

/-! ## Sequences of calls -/

inductive StoreCall (M : Type := ObjectManifest) where
  | put (k : ManifestKey) (m : M)
  | updateManifest (k : ManifestKey) (m : M)
  | get (k : ManifestKey)
  | delete (k : ManifestKey)
  /-- The first page, or the page after the one that the `n`-th `list` gave. -/
  | list (tenantID bucket : String) (page : Option Nat) (limit : Int)
  | listVersions (tenantID bucket objectKeyHash : String)

inductive StoreAnswer (M : Type := ObjectManifest) where
  | done (result : Except StoreError Unit)
  | manifest (result : Except StoreError M)
  | page (result : Except StoreError (List M × Bool))
  | manifests (result : Except StoreError (List M))
  deriving DecidableEq

structure StoreSession (σ : Type) where
  store : σ
  cursors : List String := []

namespace StoreSession

variable {σ : Type}

def cursor (s : StoreSession σ) (page : Option Nat) : String :=
  page.elim "" fun n => s.cursors.getD n ""

def issue (s : StoreSession σ) (next : String) : StoreSession σ :=
  { s with cursors := s.cursors ++ [next] }

end StoreSession

def StoreImpl.step {σ : Type} (impl : StoreImpl σ M) (s : StoreSession σ) :
    StoreCall M → StoreAnswer M × StoreSession σ
  | .put k m =>
    let r := impl.put s.store k m
    (.done r.1, { s with store := r.2 })
  | .updateManifest k m =>
    let r := impl.updateManifest s.store k m
    (.done r.1, { s with store := r.2 })
  | .get k => (.manifest (impl.get s.store k), s)
  | .delete k =>
    let r := impl.delete s.store k
    (.done r.1, { s with store := r.2 })
  | .list tenantID bucket page limit =>
    match impl.list s.store tenantID bucket (s.cursor page) limit with
    | .error e => (.page (.error e), s.issue "")
    | .ok (manifests, next) => (.page (.ok (manifests, next ≠ "")), s.issue next)
  | .listVersions tenantID bucket hash =>
    (.manifests (impl.listVersions s.store tenantID bucket hash), s)

def StoreImpl.answers {σ : Type} (impl : StoreImpl σ M) :
    StoreSession σ → List (StoreCall M) → List (StoreAnswer M)
  | _, [] => []
  | s, c :: cs => (impl.step s c).1 :: impl.answers (impl.step s c).2 cs

end ObjectFabric
