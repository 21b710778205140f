import Mathlib

/-!
# ReadCommitted — a table of rows under READ COMMITTED

Every row has its committed version and, while a transaction has it locked, the version that this
transaction would commit (none for a deletion).  A statement sees the committed versions and its own
transaction's changes.  A statement that needs a row which another transaction has locked is not
executed: to wait is not to be scheduled.

A `DELETE … WHERE` is a scan, which fixes the rows that it visits and their order, and then one step
per row; a row is looked at again when it is its turn.  What is inserted after the scan is not
visited.
-/

namespace Interleaving

structure Versioned (V : Type) where
  committed : Option V := none
  pending : Option (Nat × Option V) := none
  deriving DecidableEq

/-- A table, with a list of keys that has every row, and the number of the next transaction. -/
structure Table (K V : Type) where
  row : K → Versioned V
  keys : List K
  nextTx : Nat
  complete : ∀ k, row k ≠ {} → k ∈ keys

namespace Table

variable {K V : Type} (t : Table K V) (tx : Nat)

def ofRows [DecidableEq K] (keys : List K) (v : K → Option V) : Table K V where
  row k := ⟨if k ∈ keys then v k else none, none⟩
  keys := keys
  nextTx := 0
  complete k hk := by
    by_contra hnot
    rw [if_neg hnot] at hk
    exact hk rfl

def sees (k : K) : Option V :=
  match (t.row k).pending with
  | some (owner, v) => if owner = tx then v else (t.row k).committed
  | none => (t.row k).committed

def lockedFor (k : K) : Bool :=
  match (t.row k).pending with
  | some (owner, _) => owner ≠ tx
  | none => false

def write [DecidableEq K] (k : K) (v : Option V) : Table K V where
  row := Function.update t.row k { t.row k with pending := some (tx, v) }
  keys := k :: t.keys
  nextTx := t.nextTx
  complete k' hk' := by
    by_cases h : k' = k
    · exact h ▸ List.mem_cons_self
    · rw [Function.update_of_ne h] at hk'
      exact List.mem_cons_of_mem k (t.complete k' hk')

def begin : Table K V := { t with nextTx := t.nextTx + 1 }

def settle (commits : Bool) (r : Versioned V) : Versioned V :=
  match r.pending with
  | some (owner, v) => if owner = tx then ⟨if commits then v else r.committed, none⟩ else r
  | none => r

/-- End a transaction, with its changes (`COMMIT`) or without (`ROLLBACK`). -/
def finish (commits : Bool) : Table K V where
  row k := settle tx commits (t.row k)
  keys := t.keys
  nextTx := t.nextTx
  complete k hk := by
    apply t.complete k
    intro hnone
    rw [hnone] at hk
    exact hk rfl

/-- The rows that a statement with the condition `p` will visit, those of `order` first. -/
def scan [DecidableEq K] (p : K → V → Bool) (order : List K) : List K :=
  (order ++ t.keys).eraseDups.filter fun k => (t.sees tx k).any (p k)

/-- The turn of one row in a `DELETE`. -/
def deleteRow [DecidableEq K] (p : K → V → Bool) (k : K) : Table K V :=
  if (t.sees tx k).any (p k) then t.write tx k none else t

/-! ## 1. Rows after an operation -/

theorem row_write [DecidableEq K] (k k' : K) (v : Option V) :
    (t.write tx k v).row k' =
      if k' = k then { t.row k with pending := some (tx, v) } else t.row k' := by
  exact Function.update_apply ..

variable {t tx}

/-- What a transaction sees of a row that nobody else has locked is its own version or the
committed one. -/
theorem sees_cases {k : K} {v : V} (h : t.sees tx k = some v) :
    (t.row k).committed = some v ∨ (t.row k).pending = some (tx, some v) := by
  unfold sees at h
  split at h
  · rename_i owner w hpending
    split at h
    · rename_i howner
      rw [hpending, howner, h]
      exact Or.inr rfl
    · exact Or.inl h
  · exact Or.inl h

theorem owner_of_not_locked {k : K} (h : t.lockedFor tx k = false) {owner : Nat} {v : Option V}
    (hpending : (t.row k).pending = some (owner, v)) : owner = tx := by
  simpa [lockedFor, hpending] using h

theorem sees_of_pending {k : K} {v : Option V} (h : (t.row k).pending = some (tx, v)) :
    t.sees tx k = v := by
  rw [sees, h]
  exact if_pos rfl

theorem sees_of_unlocked {k : K} (h : (t.row k).pending = none) :
    t.sees tx k = (t.row k).committed := by
  rw [sees, h]

theorem mem_scan [DecidableEq K] {p : K → V → Bool} {k : K} {v : V} (h : t.sees tx k = some v)
    (hp : p k v = true) (order : List K) : k ∈ t.scan tx p order := by
  rw [scan, List.mem_filter, List.mem_eraseDups, List.mem_append, h]
  refine ⟨Or.inr (t.complete k fun hnone => ?_), hp⟩
  rw [sees, hnone] at h
  exact absurd h (by simp)

/-! ## 2. No row satisfies a condition -/

/-- Neither version of the row satisfies `p`. -/
def RowFree (p : K → V → Bool) (t : Table K V) (k : K) : Prop :=
  (∀ v, (t.row k).committed = some v → p k v = false) ∧
  ∀ owner v, (t.row k).pending = some (owner, some v) → p k v = false

/-- No row satisfies `p`, whichever transactions commit. -/
def Free (p : K → V → Bool) (t : Table K V) : Prop := ∀ k, RowFree p t k

theorem RowFree.sees {p : K → V → Bool} {k : K} (h : RowFree p t k) {v : V}
    (hv : t.sees tx k = some v) : p k v = false := by
  rcases sees_cases hv with hcommitted | hpending
  · exact h.1 v hcommitted
  · exact h.2 tx v hpending

theorem RowFree.write [DecidableEq K] {p : K → V → Bool} {k : K} (h : RowFree p t k) (k' : K) {w : Option V}
    (hw : k = k' → ∀ v, w = some v → p k v = false) : RowFree p (t.write tx k' w) k := by
  unfold RowFree
  rw [row_write]
  split
  · rename_i hk
    rw [← hk]
    refine ⟨h.1, fun owner v hv => hw hk v ?_⟩
    exact (Prod.mk.inj (Option.some.inj hv)).2
  · exact h

theorem RowFree.deleteRow [DecidableEq K] {p : K → V → Bool} {k : K} (h : RowFree p t k)
    (q : K → V → Bool) (k' : K) : RowFree p (t.deleteRow tx q k') k := by
  unfold Table.deleteRow
  split
  · exact h.write k' fun _ v hv => absurd hv (by simp)
  · exact h

theorem RowFree.finish {p : K → V → Bool} {k : K} (h : RowFree p t k) (commits : Bool) :
    RowFree p (t.finish tx commits) k := by
  show (∀ v, (settle tx commits (t.row k)).committed = some v → _) ∧
    ∀ owner v, (settle tx commits (t.row k)).pending = some (owner, some v) → _
  unfold settle
  split
  · rename_i owner w hpending
    split
    · refine ⟨fun v hv => ?_, fun _ v hv => absurd hv (by simp)⟩
      cases commits with
      | true => exact h.2 owner v (by rw [hpending]; exact congrArg _ (congrArg _ hv))
      | false => exact h.1 v hv
    · exact h
  · exact h

theorem rowFree_of_deleted {p : K → V → Bool} {k : K} (h : (t.row k).pending = some (tx, none)) :
    RowFree p (t.finish tx true) k := by
  have hrow : (t.finish tx true).row k = {} := by
    show settle tx true (t.row k) = {}
    rw [settle, h]
    exact if_pos rfl
  unfold RowFree
  rw [hrow]
  exact ⟨fun v hv => absurd hv (by simp), fun _ v hv => absurd hv (by simp)⟩

theorem row_finish_of_owner {k : K} {owner : Nat} {v : Option V} (commits : Bool)
    (h : (t.row k).pending = some (owner, v)) (hne : owner ≠ tx) :
    (t.finish tx commits).row k = t.row k := by
  show settle tx commits (t.row k) = t.row k
  rw [settle, h]
  exact if_neg hne

theorem owner_finish {k : K} {owner : Nat} {v : Option V} {commits : Bool}
    (h : ((t.finish tx commits).row k).pending = some (owner, v)) :
    (t.row k).pending = some (owner, v) ∧ (t.finish tx commits).row k = t.row k := by
  have hsettled : (t.finish tx commits).row k = settle tx commits (t.row k) := rfl
  rw [hsettled, settle] at h
  rw [hsettled, settle]
  split at h
  · split at h
    · exact absurd h (by simp)
    · rename_i hpending hne
      rw [hpending] at h ⊢
      exact ⟨h, if_neg hne⟩
  · exact ⟨h, rfl⟩

end Table

end Interleaving
