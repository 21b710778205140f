import ObjectFabric.Store.ManifestStore

/-!
# ContentIndex — the reference-counted index of deduplicated pieces

`metadata/content_index/memory_store.go`.  A row is keyed by tenant and content hash; the index
carries the invariant that a row lies under the key its own fields give.  Go lists a map in no
fixed order, so the listings take the order as an argument.
-/

namespace ObjectFabric

structure PieceRef where
  pieceID : String
  backend : String
  partNumber : Int
  sizeBytes : Int := 0
  deriving DecidableEq, Repr

def PieceRef.addr (r : PieceRef) : PieceAddr := ⟨r.backend, r.pieceID⟩

/-- The key of a row: `memoryKey` of the source. -/
structure IndexKey where
  tenantID : String
  contentHash : String
  deriving DecidableEq, Repr

structure ContentIndexEntry where
  tenantID : String
  contentHash : String
  pieceID : String
  backend : String
  refCount : Int := 0
  sizeBytes : Int := 0
  etag : String := ""
  /-- Empty for single-piece rows. -/
  pieceIDs : List PieceRef := []
  plaintextHash : String := ""
  deriving DecidableEq, Repr

namespace ContentIndexEntry

def key (e : ContentIndexEntry) : IndexKey := ⟨e.tenantID, e.contentHash⟩

/-- The piece that `PieceID` and `Backend` name. -/
def addr (e : ContentIndexEntry) : PieceAddr := ⟨e.backend, e.pieceID⟩

def addrs (e : ContentIndexEntry) : List PieceAddr := e.addr :: e.pieceIDs.map PieceRef.addr

end ContentIndexEntry

theorem ContentIndex.keyed_empty : ∀ k e,
    (∅ : FMap IndexKey ContentIndexEntry).lookup k = some e → e.key = k := by
  simp

structure ContentIndex where
  rows : FMap IndexKey ContentIndexEntry := ∅
  keyed : ∀ k e, rows.lookup k = some e → e.key = k := by exact ContentIndex.keyed_empty

namespace ContentIndex

def lookup (s : ContentIndex) (k : IndexKey) : Except StoreError ContentIndexEntry :=
  match s.rows.lookup k with
  | none => .error .contentNotFound
  | some e => .ok e

/-- Store `e` under its own key. -/
def set (s : ContentIndex) (e : ContentIndexEntry) : ContentIndex where
  rows := s.rows.insert e.key e
  keyed := by
    intro k e' hk
    rw [FMap.lookup_insert_ite] at hk
    by_cases hke : k = e.key
    · rw [if_pos hke] at hk
      obtain rfl := Option.some.inj hk
      exact hke.symm
    · rw [if_neg hke] at hk
      exact s.keyed k e' hk

def register (s : ContentIndex) (e : ContentIndexEntry) : Except StoreError Unit × ContentIndex :=
  match s.rows.lookup e.key with
  | some _ => (.error .alreadyExists, s)
  | none => (.ok (), s.set { e with refCount := if e.refCount ≤ 0 then 1 else e.refCount })

def incrementRef (s : ContentIndex) (k : IndexKey) : Except StoreError Unit × ContentIndex :=
  match s.rows.lookup k with
  | none => (.error .contentNotFound, s)
  | some e => (.ok (), s.set { e with refCount := e.refCount + 1 })

def decrementRef (s : ContentIndex) (k : IndexKey) : Except StoreError Int × ContentIndex :=
  match s.rows.lookup k with
  | none => (.error .contentNotFound, s)
  | some e =>
    if e.refCount ≤ 0 then
      (.error .invalidRefCount, s)
    else
      (.ok (e.refCount - 1), s.set { e with refCount := e.refCount - 1 })

/-- Remove the row at `k`, whatever its count. -/
def erase (s : ContentIndex) (k : IndexKey) : ContentIndex where
  rows := s.rows.erase k
  keyed := by
    intro k' e hk
    rw [FMap.lookup_erase_ite] at hk
    by_cases hkk : k' = k
    · simp [hkk] at hk
    · rw [if_neg hkk] at hk
      exact s.keyed k' e hk

def delete (s : ContentIndex) (k : IndexKey) : Except StoreError Unit × ContentIndex :=
  match s.rows.lookup k with
  | none => (.error .contentNotFound, s)
  | some e => if 0 < e.refCount then (.error .refCountNonZero, s) else (.ok (), s.erase k)

/-- The tenant's rows, in the order in which `order` lists the keys. -/
def scanAll (s : ContentIndex) (order : List IndexKey) (tenantID : String) :
    List ContentIndexEntry :=
  (order.filter fun k => k.tenantID = tenantID).filterMap s.rows.lookup

def listTenants (s : ContentIndex) (order : List IndexKey) : List String :=
  ((order.filterMap s.rows.lookup).map ContentIndexEntry.tenantID).dedup

/-- `order` lists every row once. -/
def Lists (s : ContentIndex) (order : List IndexKey) : Prop :=
  order.Nodup ∧ ∀ k, k ∈ order ↔ (s.rows.lookup k).isSome = true

section

variable (s : ContentIndex)
include s

theorem keys_of_listed (order : List IndexKey) :
    ((order.filterMap s.rows.lookup).map ContentIndexEntry.key).Sublist order := by
  induction order with
  | nil => exact List.Sublist.slnil
  | cons k ks ih => ?_
  rw [List.filterMap_cons]
  cases hk : s.rows.lookup k with
  | none => exact ih.cons k
  | some e =>
    have hkey := s.keyed k e hk
    simp only [List.map_cons, hkey]
    exact ih.cons_cons k

/-! ## What the operations do to the rows -/

omit s in
theorem lookup_eq_ok {s : ContentIndex} {k : IndexKey} {e : ContentIndexEntry} :
    s.lookup k = .ok e ↔ s.rows.lookup k = some e := by
  unfold lookup
  cases s.rows.lookup k with
  | none => simp
  | some e' => simp

theorem lookup_set (e : ContentIndexEntry) (k : IndexKey) :
    (s.set e).rows.lookup k = if k = e.key then some e else s.rows.lookup k :=
  FMap.lookup_insert_ite s.rows e.key k e

theorem lookup_erase (k k' : IndexKey) :
    (s.erase k).rows.lookup k' = if k' = k then none else s.rows.lookup k' :=
  FMap.lookup_erase_ite s.rows k k'

theorem register_cases (e : ContentIndexEntry) :
    ((s.rows.lookup e.key).isSome = true ∧ s.register e = (.error .alreadyExists, s)) ∨
    (s.rows.lookup e.key = none ∧ s.register e =
      (.ok (), s.set { e with refCount := if e.refCount ≤ 0 then 1 else e.refCount })) := by
  unfold register
  cases h : s.rows.lookup e.key with
  | some e' => exact Or.inl ⟨rfl, rfl⟩
  | none => exact Or.inr ⟨rfl, rfl⟩

theorem incrementRef_cases (k : IndexKey) :
    (s.rows.lookup k = none ∧ s.incrementRef k = (.error .contentNotFound, s)) ∨
    ∃ e, s.rows.lookup k = some e ∧
      s.incrementRef k = (.ok (), s.set { e with refCount := e.refCount + 1 }) := by
  unfold incrementRef
  cases h : s.rows.lookup k with
  | none => exact Or.inl ⟨rfl, rfl⟩
  | some e => exact Or.inr ⟨e, rfl, rfl⟩

theorem decrementRef_cases (k : IndexKey) :
    (s.rows.lookup k = none ∧ s.decrementRef k = (.error .contentNotFound, s)) ∨
    (∃ e, s.rows.lookup k = some e ∧ e.refCount ≤ 0 ∧
      s.decrementRef k = (.error .invalidRefCount, s)) ∨
    ∃ e, s.rows.lookup k = some e ∧ 0 < e.refCount ∧ s.decrementRef k =
      (.ok (e.refCount - 1), s.set { e with refCount := e.refCount - 1 }) := by
  unfold decrementRef
  cases h : s.rows.lookup k with
  | none => exact Or.inl ⟨rfl, rfl⟩
  | some e =>
    by_cases hc : e.refCount ≤ 0
    · exact Or.inr (Or.inl ⟨e, rfl, hc, if_pos hc⟩)
    · exact Or.inr (Or.inr ⟨e, rfl, by omega, if_neg hc⟩)

theorem delete_cases (k : IndexKey) :
    (s.rows.lookup k = none ∧ s.delete k = (.error .contentNotFound, s)) ∨
    (∃ e, s.rows.lookup k = some e ∧ 0 < e.refCount ∧
      s.delete k = (.error .refCountNonZero, s)) ∨
    ∃ e, s.rows.lookup k = some e ∧ e.refCount ≤ 0 ∧ s.delete k = (.ok (), s.erase k) := by
  unfold delete
  cases h : s.rows.lookup k with
  | none => exact Or.inl ⟨rfl, rfl⟩
  | some e =>
    by_cases hc : 0 < e.refCount
    · exact Or.inr (Or.inl ⟨e, rfl, hc, if_pos hc⟩)
    · exact Or.inr (Or.inr ⟨e, rfl, by omega, if_neg hc⟩)

end

end ContentIndex

end ObjectFabric
