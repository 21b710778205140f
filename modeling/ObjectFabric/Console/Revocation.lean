import ObjectFabric.Console.PostgresRefresh

/-!
# Revocation — what is left of a family after a `DELETE`

A `DELETE` visits the rows of its scan, so a successor that is inserted while it runs survives it.  A
revocation is final over every run in which no token of the family is in the course of being
exchanged while a `DELETE` of the family runs.
-/

namespace ObjectFabric

open Interleaving Proc

/-! ## 1. What a transaction holds -/

/-- What a transaction is at: nothing yet, a token that it has read and locked, or a `DELETE` with
the rows that it has still to visit. -/
inductive RefreshHold where
  | idle
  | locked (hash : String) (row : RefreshRow)
  | deleting (sel : RefreshSelector) (todo : List String)

structure TxClaim where
  tx : Nat
  hold : RefreshHold

/-- One row further in a `DELETE`. -/
def TxClaim.visited : TxClaim → TxClaim
  | ⟨tx, .deleting sel todo⟩ => ⟨tx, .deleting sel todo.tail⟩
  | c => c

def claimOf : History RefreshCall → Option TxClaim
  | [] => none
  | ⟨.beginTx, some tx⟩ :: _ => some ⟨tx, .idle⟩
  | ⟨.selectForUpdate tx hash, some (some row)⟩ :: _ => some ⟨tx, .locked hash row⟩
  | ⟨.scan tx sel, some hashes⟩ :: _ => some ⟨tx, .deleting sel hashes⟩
  | ⟨.deleteRow _ _ _, true⟩ :: h => (claimOf h).map TxClaim.visited
  | ⟨.commit _, true⟩ :: _ => none
  | ⟨.rollback _, _⟩ :: _ => none
  | _ :: h => claimOf h

def txHeld (h : History RefreshCall) : Multiset TxClaim :=
  match claimOf h with
  | none => 0
  | some c => {c}

def tokenRead : History RefreshCall → Option RefreshRow
  | [] => none
  | ⟨.selectForUpdate _ _, some (some row)⟩ :: _ => some row
  | _ :: h => tokenRead h

/-- A `DELETE` by family or by tenant selects a row and its successors alike. -/
def RefreshSelector.covers : RefreshSelector → RefreshRow → Bool
  | token _, _ => false
  | family familyID, row => row.familyID = familyID
  | tenant tenantID, row => row.tenantID = tenantID

def RefreshRow.kin (row row' : RefreshRow) : Prop :=
  row.familyID = row'.familyID ∧ row.tenantID = row'.tenantID

/-- No `DELETE` by family or tenant overlaps with an exchange of a token that it selects: it is not
begun while another transaction has such a token locked that was not consumed, or has inserted
one, and such a token is not read for an exchange while it waits to be visited. -/
def noOverlap : Condition RefreshCall StatementChoice RefreshTable (Multiset TxClaim)
  | _, _, _, .scan tx sel, _, t, _ =>
    ∀ k owner v, (t.row k).pending = some (owner, some v) → owner ≠ tx → sel.covers v = true →
      ∃ row, (t.row k).committed = some row ∧ row.consumed = true
  | _, _, _, .selectForUpdate tx hash, _, t, R =>
    ∀ tx' sel todo, (⟨tx', .deleting sel todo⟩ : TxClaim) ∈ R → hash ∈ todo →
      ∀ row, t.sees tx hash = some row → sel.covers row = true → row.consumed = true
  | _, _, _, _, _, _, _ => True

/-! ## 2. The invariant -/

def TxFacts (t : RefreshTable) (c : TxClaim) : Prop :=
  match c.hold with
  | .idle => ∀ k v, (t.row k).pending ≠ some (c.tx, v)
  | .locked hash row => (t.row hash).committed = some row ∧
      (∃ row', (t.row hash).pending = some (c.tx, some row') ∧ row'.kin row) ∧
      ∀ k, (t.row k).pending ≠ some (c.tx, none)
  | .deleting sel todo => ∀ k, k ∈ todo ∨ (t.row k).pending = some (c.tx, none) ∨
      Table.RowFree (fun _ => sel.covers) t k

/-- A token that is being exchanged is not selected by a `DELETE` under way. -/
def Apart (c c' : TxClaim) : Prop :=
  match c.hold, c'.hold with
  | .deleting sel _, .locked _ row => row.consumed = false → sel.covers row = false
  | _, _ => True

structure TxInv (t : RefreshTable) (R : Multiset TxClaim) : Prop where
  nodup : (R.map TxClaim.tx).Nodup
  below : ∀ c ∈ R, c.tx < t.nextTx
  owners : ∀ k owner v, (t.row k).pending = some (owner, v) → owner < t.nextTx
  coherent : ∀ k owner v v₀, (t.row k).committed = some v₀ →
    (t.row k).pending = some (owner, some v) → v.kin v₀
  facts : ∀ c ∈ R, TxFacts t c
  apart : ∀ c ∈ R, ∀ c' ∈ R, Apart c c'

theorem RefreshRow.kin.symm {row row' : RefreshRow} (h : row.kin row') : row'.kin row :=
  ⟨h.1.symm, h.2.symm⟩

theorem RefreshRow.kin.trans {a b c : RefreshRow} (h : a.kin b) (h' : b.kin c) : a.kin c :=
  ⟨h.1.trans h'.1, h.2.trans h'.2⟩

theorem covers_of_kin (sel : RefreshSelector) {row row' : RefreshRow} (h : row.kin row') :
    sel.covers row = sel.covers row' := by
  cases sel with
  | token hash => rfl
  | family familyID => simp only [RefreshSelector.covers, h.1]
  | tenant tenantID => simp only [RefreshSelector.covers, h.2]

variable {sel : RefreshSelector} {row : RefreshRow}

theorem selects_of_covers (h : sel.covers row = true)
    (k : String) : sel.selects k row = true := by
  cases sel with
  | token hash => exact absurd h (by simp [RefreshSelector.covers])
  | family | tenant => exact h

variable {tx : Nat} {k : String} {hash : String} {hold : RefreshHold} {todo : List String}

section

variable {t : RefreshTable} {R : Multiset TxClaim} {c : TxClaim}

theorem mem_own (c : TxClaim) (R : Multiset TxClaim) : c ∈ ({c} + R : Multiset TxClaim) :=
  Multiset.mem_add.mpr (Or.inl (Multiset.mem_singleton_self c))

theorem mem_other {c' : TxClaim} (h : c' ∈ R) : c' ∈ ({c} + R : Multiset TxClaim) :=
  Multiset.mem_add.mpr (Or.inr h)

theorem TxInv.others {r : Multiset TxClaim} (h : TxInv t (r + R)) : TxInv t R where
  nodup := by
    have hnodup := h.nodup
    rw [Multiset.map_add] at hnodup
    exact Multiset.nodup_of_le (Multiset.le_add_left _ _) hnodup
  below c hc := h.below c (Multiset.mem_add.mpr (Or.inr hc))
  owners := h.owners
  coherent := h.coherent
  facts c hc := h.facts c (Multiset.mem_add.mpr (Or.inr hc))
  apart c hc c' hc' := h.apart c (Multiset.mem_add.mpr (Or.inr hc)) c' (Multiset.mem_add.mpr (Or.inr hc'))

theorem TxInv.tx_ne (h : TxInv t ({c} + R)) {c' : TxClaim} (hc' : c' ∈ R) : c'.tx ≠ c.tx := by
  have hnodup := h.nodup
  rw [Multiset.map_add, Multiset.map_singleton, Multiset.singleton_add, Multiset.nodup_cons]
    at hnodup
  intro hsame
  exact hnodup.1 (hsame ▸ Multiset.mem_map_of_mem TxClaim.tx hc')

theorem TxInv.join (h : TxInv t R) (hne : ∀ c' ∈ R, c'.tx ≠ c.tx) (hbelow : c.tx < t.nextTx)
    (hfacts : TxFacts t c) (hapart : ∀ c' ∈ R, Apart c c' ∧ Apart c' c) : TxInv t ({c} + R) where
  nodup := by
    rw [Multiset.map_add, Multiset.map_singleton, Multiset.singleton_add, Multiset.nodup_cons]
    refine ⟨fun hmem => ?_, h.nodup⟩
    obtain ⟨c', hc', hsame⟩ := Multiset.mem_map.mp hmem
    exact hne c' hc' hsame
  below c' hc' := by
    rcases Multiset.mem_add.mp hc' with hown | hother
    · exact Multiset.mem_singleton.mp hown ▸ hbelow
    · exact h.below c' hother
  owners := h.owners
  coherent := h.coherent
  facts c' hc' := by
    rcases Multiset.mem_add.mp hc' with hown | hother
    · exact Multiset.mem_singleton.mp hown ▸ hfacts
    · exact h.facts c' hother
  apart c₁ hc₁ c₂ hc₂ := by
    rcases Multiset.mem_add.mp hc₁ with hown | hother <;>
      rcases Multiset.mem_add.mp hc₂ with hown' | hother'
    · rw [Multiset.mem_singleton.mp hown, Multiset.mem_singleton.mp hown']
      unfold Apart
      cases c.hold <;> trivial
    · rw [Multiset.mem_singleton.mp hown]
      exact (hapart c₂ hother').1
    · rw [Multiset.mem_singleton.mp hown']
      exact (hapart c₁ hother).2
    · exact h.apart c₁ hother c₂ hother'

theorem TxFacts.frame {t' : RefreshTable} (hfacts : TxFacts t c)
    (hrow : ∀ k v, (t.row k).pending = some (c.tx, v) → t'.row k = t.row k)
    (hpending : ∀ k v, (t'.row k).pending = some (c.tx, v) → (t.row k).pending = some (c.tx, v))
    (hfree : ∀ sel todo, c.hold = .deleting sel todo → ∀ k,
      Table.RowFree (fun _ => sel.covers) t k → Table.RowFree (fun _ => sel.covers) t' k) :
    TxFacts t' c := by
  obtain ⟨tx, hold⟩ := c
  cases hold with
  | idle => exact fun k v hp => hfacts k v (hpending k v hp)
  | locked hash row =>
    obtain ⟨hcommitted, ⟨row', hlock, hrow'⟩, hnone⟩ := hfacts
    have hsame := hrow hash _ hlock
    exact ⟨by rw [hsame, hcommitted], ⟨row', by rw [hsame, hlock], hrow'⟩,
      fun k hp => hnone k (hpending k _ hp)⟩
  | deleting sel todo => ?_
  intro k
  rcases hfacts k with hmem | hdeleted | hrowFree
  · exact Or.inl hmem
  · exact Or.inr (Or.inl (by rw [hrow k _ hdeleted, hdeleted]))
  · exact Or.inr (Or.inr (hfree sel todo rfl k hrowFree))

/-- A transaction writes a row that no other one has locked.  What it writes must be kin to what is
committed there, and must not be covered by a `DELETE` under way that passes over the row. -/
theorem TxInv.write (h : TxInv t R) (hne : ∀ c ∈ R, c.tx ≠ tx) (hbelow : tx < t.nextTx)
    (hunlocked : t.lockedFor tx k = false) {w : Option RefreshRow}
    (hkin : ∀ v v₀, w = some v → (t.row k).committed = some v₀ → v.kin v₀)
    (hspared : ∀ tx' sel todo, (⟨tx', .deleting sel todo⟩ : TxClaim) ∈ R →
      Table.RowFree (fun _ => sel.covers) t k → ∀ v, w = some v → sel.covers v = false) :
    TxInv (t.write tx k w) R where
  nodup := h.nodup
  below := h.below
  owners k' owner v hpending := by
    rw [Table.row_write] at hpending
    split at hpending
    · obtain ⟨rfl, -⟩ := Prod.mk.inj (Option.some.inj hpending)
      exact hbelow
    · exact h.owners k' owner v hpending
  coherent k' owner v v₀ hcommitted hpending := by
    rw [Table.row_write] at hcommitted hpending
    split at hpending
    · rename_i hk
      rw [if_pos hk] at hcommitted
      exact hkin v v₀ (Prod.mk.inj (Option.some.inj hpending)).2 hcommitted
    · rename_i hk
      rw [if_neg hk] at hcommitted
      exact h.coherent k' owner v v₀ hcommitted hpending
  facts c hc := by
    have hother := hne c hc
    apply (h.facts c hc).frame
    · -- a row that another transaction has locked is not this one
      intro k' v hpending
      rw [Table.row_write, if_neg]
      rintro rfl
      exact hother (Table.owner_of_not_locked hunlocked hpending)
    · intro k' v hpending
      rw [Table.row_write] at hpending
      split at hpending
      · exact absurd (Prod.mk.inj (Option.some.inj hpending)).1.symm hother
      · exact hpending
    · intro sel todo hhold k' hfree
      apply hfree.write k
      rintro rfl v hv
      obtain ⟨tx', hold⟩ := c
      obtain rfl : hold = .deleting sel todo := hhold
      exact hspared tx' sel todo hc hfree v hv
  apart := h.apart

theorem TxInv.finish (h : TxInv t R) (hne : ∀ c ∈ R, c.tx ≠ tx) (commits : Bool) :
    TxInv (t.finish tx commits) R where
  nodup := h.nodup
  below := h.below
  owners k owner v hpending := h.owners k owner v (Table.owner_finish hpending).1
  coherent k owner v v₀ hcommitted hpending := by
    obtain ⟨hold, hrow⟩ := Table.owner_finish hpending
    rw [hrow] at hcommitted
    exact h.coherent k owner v v₀ hcommitted hold
  facts c hc := (h.facts c hc).frame
    (fun k v hp => Table.row_finish_of_owner commits hp (hne c hc))
    (fun k v hp => (Table.owner_finish hp).1) fun sel todo _ k hfree => hfree.finish commits
  apart := h.apart

/-! ## 3. Each statement keeps the invariant -/

theorem TxInv.begin (h : TxInv t R) : TxInv t.begin ({⟨t.nextTx, .idle⟩} + R) := by
  have hothers : TxInv t.begin R :=
    ⟨h.nodup, fun c hc => Nat.lt_succ_of_lt (h.below c hc),
      fun k owner v hp => Nat.lt_succ_of_lt (h.owners k owner v hp), h.coherent, h.facts, h.apart⟩
  apply hothers.join
  · exact fun c hc hsame => absurd (h.below c hc) (by rw [hsame]; exact lt_irrefl _)
  · exact Nat.lt_succ_self _
  · exact fun k v hp => absurd (h.owners k _ v hp) (lt_irrefl _)
  · intro c' _
    refine ⟨trivial, ?_⟩
    unfold Apart
    cases c'.hold <;> trivial

theorem txFacts_write {v : RefreshRow} (hcommitted : (t.row hash).committed = some row)
    (hkin : v.kin row) (hnone : ∀ k, (t.row k).pending ≠ some (tx, none)) :
    TxFacts (t.write tx hash (some v)) ⟨tx, .locked hash row⟩ := by
  refine ⟨?_, ⟨v, ?_, hkin⟩, fun k hk => ?_⟩
  · rw [Table.row_write, if_pos rfl]
    exact hcommitted
  · rw [Table.row_write, if_pos rfl]
  · rw [Table.row_write] at hk
    split at hk
    · exact absurd (Prod.mk.inj (Option.some.inj hk)).2 (by simp)
    · exact hnone k hk

theorem TxInv.selectForUpdate
    (h : TxInv t ({⟨tx, .idle⟩} + R)) (hunlocked : t.lockedFor tx hash = false)
    (hsees : t.sees tx hash = some row)
    (hcond : ∀ tx' sel todo, (⟨tx', .deleting sel todo⟩ : TxClaim) ∈ R → hash ∈ todo →
      ∀ row, t.sees tx hash = some row → sel.covers row = true → row.consumed = true) :
    TxInv (t.write tx hash (some row)) ({⟨tx, .locked hash row⟩} + R) := by
  have hidle : ∀ k v, (t.row k).pending ≠ some (tx, v) :=
    h.facts ⟨tx, .idle⟩ (mem_own _ R)
  have hpending : (t.row hash).pending = none := by
    cases hp : (t.row hash).pending with
    | none => rfl
    | some lock =>
      obtain ⟨owner, v⟩ := lock
      have howner := Table.owner_of_not_locked hunlocked hp
      exact absurd (howner ▸ hp) (hidle hash v)
  have hcommitted : (t.row hash).committed = some row := by
    rw [← Table.sees_of_unlocked hpending, hsees]
  have hbelow : tx < t.nextTx :=
    h.below ⟨tx, .idle⟩ (mem_own _ R)
  have hne : ∀ c ∈ R, c.tx ≠ tx := fun c hc => h.tx_ne hc
  have hwrite : TxInv (t.write tx hash (some row)) R := by
    apply h.others.write hne hbelow hunlocked
    · intro v v₀ hv hv₀
      rw [hcommitted] at hv₀
      rw [← Option.some.inj hv, ← Option.some.inj hv₀]
      exact ⟨rfl, rfl⟩
    · intro tx' sel todo _ hfree v hv
      exact Option.some.inj hv ▸ hfree.1 row hcommitted
  apply hwrite.join hne hbelow
  · exact txFacts_write hcommitted ⟨rfl, rfl⟩ fun k => hidle k none
  · intro c' hc'
    refine ⟨trivial, ?_⟩
    obtain ⟨tx', hold⟩ := c'
    cases hold with
    | idle | locked => trivial
    | deleting sel todo => ?_
    intro hfresh
    by_contra hcovers
    rw [Bool.not_eq_false] at hcovers
    rcases (h.others.facts _ hc') hash with hmem | hdeleted | hfree
    · have hconsumed := hcond tx' sel todo hc' hmem row hsees hcovers
      rw [hfresh] at hconsumed
      exact Bool.false_ne_true hconsumed
    · rw [hpending] at hdeleted
      exact absurd hdeleted (by simp)
    · exact Bool.false_ne_true ((hfree.1 row hcommitted).symm.trans hcovers)

theorem TxInv.rejoin {t' : RefreshTable}
    (h : TxInv t ({⟨tx, .locked hash row⟩} + R)) (h' : TxInv t' R) (hnext : t'.nextTx = t.nextTx)
    (hfacts : TxFacts t' ⟨tx, .locked hash row⟩) : TxInv t' ({⟨tx, .locked hash row⟩} + R) := by
  have hown := mem_own ⟨tx, .locked hash row⟩ R
  apply h'.join (fun c hc => h.tx_ne hc) (hnext ▸ h.below _ hown) hfacts
  intro c' hc'
  have hmem := mem_other (c := ⟨tx, .locked hash row⟩) hc'
  exact ⟨h.apart _ hown c' hmem, h.apart c' hmem _ hown⟩

theorem TxInv.consume
    (h : TxInv t ({⟨tx, .locked hash row⟩} + R)) (hunlocked : t.lockedFor tx hash = false) :
    TxInv (RefreshTable.consume t tx hash) ({⟨tx, .locked hash row⟩} + R) := by
  have hown := mem_own ⟨tx, .locked hash row⟩ R
  obtain ⟨hcommitted, ⟨row', hlock, hkin⟩, hnone⟩ := h.facts _ hown
  have hresult : RefreshTable.consume t tx hash =
      t.write tx hash (some { row' with consumed := true }) := by
    rw [RefreshTable.consume, Table.sees_of_pending hlock]
  rw [hresult]
  refine h.rejoin ?_ rfl (txFacts_write hcommitted hkin hnone)
  apply h.others.write (fun c hc => h.tx_ne hc) (h.below _ hown) hunlocked
  · intro v v₀ hv hv₀
    rw [hcommitted] at hv₀
    rw [← Option.some.inj hv, ← Option.some.inj hv₀]
    exact hkin
  · intro tx' sel todo _ hfree v hv
    have hrow' : sel.covers row' = false := hfree.2 tx row' hlock
    rw [← Option.some.inj hv, ← hrow']
    exact covers_of_kin sel ⟨rfl, rfl⟩

theorem TxInv.insert {hash k : String} {row new : RefreshRow}
    (h : TxInv t ({⟨tx, .locked hash row⟩} + R)) (hfresh : row.consumed = false)
    (hkin : new.kin row) (hunlocked : t.lockedFor tx k = false) (hsees : t.sees tx k = none) :
    TxInv (t.write tx k (some new)) ({⟨tx, .locked hash row⟩} + R) := by
  have hown := mem_own ⟨tx, .locked hash row⟩ R
  obtain ⟨hcommitted, ⟨row', hlock, hkin'⟩, hnone⟩ := h.facts _ hown
  have hne : hash ≠ k := by
    rintro rfl
    rw [Table.sees_of_pending hlock] at hsees
    exact absurd hsees (by simp)
  -- the key is in nobody's hands
  have hempty : (t.row k).committed = none := by
    rcases hp : (t.row k).pending with _ | lock
    · rw [← Table.sees_of_unlocked hp, hsees]
    obtain ⟨owner, v⟩ := lock
    obtain rfl := Table.owner_of_not_locked hunlocked hp
    rw [Table.sees_of_pending hp] at hsees
    exact absurd (hsees ▸ hp) (hnone k)
  refine h.rejoin ?_ rfl ?_
  rotate_left
  · refine ⟨?_, ⟨row', ?_, hkin'⟩, fun k' hk' => ?_⟩
    · rw [Table.row_write, if_neg hne, hcommitted]
    · rw [Table.row_write, if_neg hne, hlock]
    · rw [Table.row_write] at hk'
      split at hk'
      · exact absurd (Prod.mk.inj (Option.some.inj hk')).2 (by simp)
      · exact hnone k' hk'
  · apply h.others.write (fun c hc => h.tx_ne hc) (h.below _ hown) hunlocked
    · intro v v₀ _ hv₀
      rw [hempty] at hv₀
      exact absurd hv₀ (by simp)
    · intro tx' sel todo hc' _ v hv
      have hapart := h.apart _ (mem_other hc') _ hown
      rw [← Option.some.inj hv, covers_of_kin sel hkin]
      exact hapart hfresh

/-- A row that nobody else has locked, and of which the transaction sees no covered version, is one
that it has deleted, or is free. -/
theorem TxInv.free_of_seen (h : TxInv t R)
    (hunlocked : t.lockedFor tx k = false)
    (hseen : ∀ v, t.sees tx k = some v → sel.covers v = false) :
    (t.row k).pending = some (tx, none) ∨ Table.RowFree (fun _ => sel.covers) t k := by
  rcases hp : (t.row k).pending with _ | lock
  · refine Or.inr ⟨fun v hv => hseen v ?_, fun owner v hv => absurd (hp.symm.trans hv) (by simp)⟩
    rw [Table.sees_of_unlocked hp, hv]
  obtain ⟨owner, w⟩ := lock
  obtain rfl := Table.owner_of_not_locked hunlocked hp
  rcases w with _ | v
  · exact Or.inl rfl
  have hv := hseen v (Table.sees_of_pending hp)
  refine Or.inr ⟨fun v₀ hv₀ => ?_, fun owner' v' hp' => ?_⟩
  · exact (covers_of_kin sel (h.coherent k owner v v₀ hv₀ hp)).symm.trans hv
  · rw [hp] at hp'
    exact Option.some.inj (Prod.mk.inj (Option.some.inj hp')).2 ▸ hv

theorem TxInv.free_of_locked (h : TxInv t R)
    {owner : Nat} {w : Option RefreshRow} (hp : (t.row k).pending = some (owner, w))
    (howner : owner ≠ tx) (hseen : ∀ v, t.sees tx k = some v → sel.covers v = false)
    (hthere : ∀ v, w = some v → sel.covers v = true → ∃ row, (t.row k).committed = some row) :
    Table.RowFree (fun _ => sel.covers) t k := by
  have hsees : t.sees tx k = (t.row k).committed := by
    rw [Table.sees, hp]
    exact if_neg howner
  refine ⟨fun v₀ hv₀ => hseen v₀ (hsees.trans hv₀), fun owner' v hp' => ?_⟩
  rw [hp] at hp'
  obtain ⟨-, rfl⟩ := Prod.mk.inj (Option.some.inj hp')
  by_contra hcovers
  rw [Bool.not_eq_false] at hcovers
  obtain ⟨row, hrow⟩ := hthere v rfl hcovers
  have hcovers' := (covers_of_kin sel (h.coherent k owner v row hrow hp)).symm.trans hcovers
  exact Bool.false_ne_true ((hseen row (hsees.trans hrow)).symm.trans hcovers')

theorem TxInv.scan
    (h : TxInv t ({⟨tx, hold⟩} + R)) (order : List String)
    (hcond : ∀ k owner v, (t.row k).pending = some (owner, some v) → owner ≠ tx →
      sel.covers v = true → ∃ row, (t.row k).committed = some row ∧ row.consumed = true) :
    TxInv t ({⟨tx, .deleting sel (t.scan tx sel.selects order)⟩} + R) := by
  have hbelow : tx < t.nextTx := h.below _ (mem_own ⟨tx, hold⟩ R)
  refine h.others.join (fun c hc => h.tx_ne hc) hbelow ?_ ?_
  · intro k
    by_cases hmem : k ∈ t.scan tx sel.selects order
    · exact Or.inl hmem
    right
    have hseen : ∀ v, t.sees tx k = some v → sel.covers v = false := by
      intro v hv
      by_contra hcovers
      rw [Bool.not_eq_false] at hcovers
      exact hmem (Table.mem_scan hv (selects_of_covers hcovers k) order)
    rcases hlocked : t.lockedFor tx k with _ | _
    · exact h.free_of_seen hlocked hseen
    right
    unfold Table.lockedFor at hlocked
    split at hlocked
    · rename_i owner w hp
      have howner : owner ≠ tx := of_decide_eq_true hlocked
      apply h.free_of_locked hp howner hseen
      rintro v rfl hcovers
      obtain ⟨row, hrow, -⟩ := hcond k owner v hp howner hcovers
      exact ⟨row, hrow⟩
    · exact absurd hlocked (by simp)
  · intro c' hc'
    constructor
    · obtain ⟨tx', hold'⟩ := c'
      cases hold' with
      | idle | deleting => trivial
      | locked hash row => ?_
      intro hfresh
      by_contra hcovers
      rw [Bool.not_eq_false] at hcovers
      obtain ⟨hcommitted, ⟨row', hlock, hkin⟩, -⟩ := h.others.facts _ hc'
      rw [← covers_of_kin sel hkin] at hcovers
      obtain ⟨row₀, hrow₀, hconsumed⟩ := hcond hash tx' row' hlock (h.tx_ne hc') hcovers
      rw [hcommitted] at hrow₀
      rw [← Option.some.inj hrow₀, hfresh] at hconsumed
      exact Bool.false_ne_true hconsumed
    · unfold Apart
      cases c'.hold <;> trivial

theorem TxInv.deleteRow
    (h : TxInv t ({⟨tx, .deleting sel (k :: todo)⟩} + R)) (hunlocked : t.lockedFor tx k = false) :
    TxInv (t.deleteRow tx sel.selects k) ({⟨tx, .deleting sel todo⟩} + R) := by
  have hown := mem_own ⟨tx, .deleting sel (k :: todo)⟩ R
  have hne : ∀ c ∈ R, c.tx ≠ tx := fun c hc => h.tx_ne hc
  have hothers : TxInv (t.deleteRow tx sel.selects k) R := by
    unfold Table.deleteRow
    split
    · exact h.others.write hne (h.below _ hown) hunlocked (fun _ _ hv => absurd hv (by simp))
        fun _ _ _ _ _ _ hv => absurd hv (by simp)
    · exact h.others
  have hnext : (t.deleteRow tx sel.selects k).nextTx = t.nextTx := by
    unfold Table.deleteRow
    split <;> rfl
  have hbelow : tx < t.nextTx := h.below _ hown
  refine hothers.join hne (hnext ▸ hbelow) ?_ ?_
  · intro k'
    by_cases hk : k' = k
    · subst hk
      right
      unfold Table.deleteRow
      split
      · exact Or.inl (by rw [Table.row_write, if_pos rfl])
      rename_i hskip
      apply h.free_of_seen hunlocked
      intro v hv
      by_contra hcovers
      rw [Bool.not_eq_false] at hcovers
      apply hskip
      rw [hv]
      exact selects_of_covers hcovers k'
    · rcases h.facts _ hown k' with hmem | hdeleted | hfree
      · exact Or.inl ((List.mem_cons.mp hmem).resolve_left hk)
      · refine Or.inr (Or.inl ?_)
        unfold Table.deleteRow
        split
        · rw [Table.row_write, if_neg hk, hdeleted]
        · exact hdeleted
      · exact Or.inr (Or.inr (hfree.deleteRow sel.selects k))
  · intro c' hc'
    have hmem := mem_other (c := ⟨tx, .deleting sel (k :: todo)⟩) hc'
    have hleft := h.apart _ hown c' hmem
    refine ⟨?_, ?_⟩
    · obtain ⟨tx', hold'⟩ := c'
      cases hold' with
      | idle | deleting => trivial
      | locked hash row => exact hleft
    · unfold Apart
      cases c'.hold <;> trivial

end

/-- The programs stay inside their transaction, insert only successors of the token they have locked,
and visit what their scan has listed. -/
def revokeSpec : Spec RefreshCall where
  pre h c :=
    match c with
    | .beginTx => claimOf h = none
    | .selectForUpdate tx _ => claimOf h = some ⟨tx, .idle⟩
    | .consume tx hash => ∃ row, claimOf h = some ⟨tx, .locked hash row⟩
    | .insert tx _ new => ∃ hash row, claimOf h = some ⟨tx, .locked hash row⟩ ∧
        row.consumed = false ∧ new.kin row
    | .scan tx _ => ∃ hold, claimOf h = some ⟨tx, hold⟩
    | .deleteRow tx sel hash => ∃ todo, claimOf h = some ⟨tx, .deleting sel (hash :: todo)⟩
    | .commit tx => ∃ hold, claimOf h = some ⟨tx, hold⟩
    | .rollback tx => ∃ hold, claimOf h = some ⟨tx, hold⟩
  post _ _ _ := True

def revokeProtocol : Protocol RefreshCall RefreshTable StatementChoice (Multiset TxClaim) where
  held := txHeld
  inv := TxInv
  cond := noOverlap
  spec _ := revokeSpec

variable {h : History RefreshCall}

theorem txHeld_of_claim {c : TxClaim} (hc : claimOf h = some c) :
    txHeld h = {c} := by
  rw [txHeld, hc]

theorem txHeld_of_none (hc : claimOf h = none) : txHeld h = 0 := by
  rw [txHeld, hc]

theorem claimOf_visited
    (hclaim : claimOf h = some ⟨tx, .deleting sel (hash :: todo)⟩) :
    claimOf (⟨.deleteRow tx sel hash, true⟩ :: h) = some ⟨tx, .deleting sel todo⟩ := by
  show (claimOf h).map TxClaim.visited = _
  rw [hclaim]
  rfl

theorem revokeProtocol_sound : revokeProtocol.Sound refreshMachine where
  drop _ _ _ h := h.others
  step := by
    intro β i h c x t R hpre hinv hcond
    refine ⟨trivial, ?_⟩
    change TxInv t (txHeld h + R) at hinv
    show TxInv _ (txHeld _ + R)
    cases c with
    | beginTx =>
      have hnone : claimOf h = none := hpre
      simp only [refreshMachine]
      split
      · exact hinv
      · rw [txHeld_of_none hnone, zero_add] at hinv
        exact hinv.begin
    | selectForUpdate tx hash =>
      have hclaim : claimOf h = some ⟨tx, .idle⟩ := hpre
      simp only [refreshMachine]
      split
      · exact hinv
      rename_i hfail
      rw [Bool.or_eq_true, not_or, Bool.not_eq_true, Bool.not_eq_true] at hfail
      rw [txHeld_of_claim hclaim] at hinv
      cases hsees : t.sees tx hash with
      | none =>
        simp only [RefreshTable.selectForUpdate, hsees]
        show TxInv t (txHeld h + R)
        rw [txHeld_of_claim hclaim]
        exact hinv
      | some row =>
        simp only [RefreshTable.selectForUpdate, hsees]
        exact hinv.selectForUpdate hfail.2 hsees hcond
    | consume tx hash =>
      obtain ⟨row, hclaim⟩ := hpre
      simp only [refreshMachine]
      split
      · exact hinv
      rename_i hfail
      rw [Bool.or_eq_true, not_or, Bool.not_eq_true, Bool.not_eq_true] at hfail
      show TxInv _ (txHeld h + R)
      rw [txHeld_of_claim hclaim] at hinv ⊢
      exact hinv.consume hfail.2
    | insert tx hash new =>
      obtain ⟨hash', row, hclaim, hfresh, hkin⟩ := hpre
      simp only [refreshMachine]
      split
      · exact hinv
      rename_i hfail
      simp only [Bool.or_eq_true, not_or, Bool.not_eq_true, Option.isSome_eq_false_iff,
        Option.isNone_iff_eq_none] at hfail
      show TxInv _ (txHeld h + R)
      rw [txHeld_of_claim hclaim] at hinv ⊢
      exact hinv.insert hfresh hkin hfail.1.2 hfail.2
    | scan tx sel =>
      obtain ⟨hold, hclaim⟩ := hpre
      simp only [refreshMachine]
      split
      · exact hinv
      · rw [txHeld_of_claim hclaim] at hinv
        exact hinv.scan x.order hcond
    | deleteRow tx sel hash =>
      obtain ⟨todo, hclaim⟩ := hpre
      simp only [refreshMachine]
      split
      · exact hinv
      rename_i hfail
      rw [Bool.or_eq_true, not_or, Bool.not_eq_true, Bool.not_eq_true] at hfail
      have hclaim' := claimOf_visited hclaim
      rw [txHeld_of_claim hclaim] at hinv
      rw [txHeld_of_claim hclaim']
      exact hinv.deleteRow hfail.2
    | commit tx =>
      obtain ⟨hold, hclaim⟩ := hpre
      simp only [refreshMachine]
      split
      · exact hinv
      rw [txHeld_of_claim hclaim] at hinv
      have hdone : TxInv (t.finish tx true) (0 + R) := by
        rw [zero_add]
        exact hinv.others.finish (fun c hc => hinv.tx_ne hc) true
      exact hdone
    | rollback tx => ?_
    obtain ⟨hold, hclaim⟩ := hpre
    rw [txHeld_of_claim hclaim] at hinv
    have hdone : TxInv (t.finish tx false) (0 + R) := by
      rw [zero_add]
      exact hinv.others.finish (fun c hc => hinv.tx_ne hc) false
    exact hdone

/-! ## 4. A family that is gone stays gone -/

def Gone (sel : RefreshSelector) (t : RefreshTable) : Prop := Table.Free (fun _ => sel.covers) t

variable {R : Multiset TxClaim}

theorem gone_step {t : RefreshTable} (hgone : Gone sel t) {β : Type}
    {c : RefreshCall β} (hpre : revokeSpec.pre h c)
    (hinv : TxInv t (txHeld h + R)) (x : StatementChoice) : Gone sel (refreshMachine.exec x c t).2 := by
  intro k
  cases c with
  | beginTx | scan =>
    simp only [refreshMachine]
    split <;> exact hgone k
  | selectForUpdate tx hash =>
    simp only [refreshMachine]
    split
    · exact hgone k
    unfold RefreshTable.selectForUpdate
    split
    · exact hgone k
    rename_i row hsees
    apply (hgone k).write hash
    rintro rfl v hv
    exact Option.some.inj hv ▸ (hgone k).sees hsees
  | consume tx hash =>
    simp only [refreshMachine]
    split
    · exact hgone k
    unfold RefreshTable.consume
    split
    · exact hgone k
    rename_i row hsees
    apply (hgone k).write hash
    rintro rfl v hv
    have hrow : sel.covers row = false := (hgone k).sees hsees
    rw [← Option.some.inj hv, ← hrow]
    exact covers_of_kin sel ⟨rfl, rfl⟩
  | insert tx hash new =>
    simp only [refreshMachine]
    split
    · exact hgone k
    obtain ⟨hash', row, hclaim, -, hkin⟩ := hpre
    rw [txHeld_of_claim hclaim] at hinv
    obtain ⟨-, ⟨row', hlock, hkin'⟩, -⟩ := hinv.facts _ (mem_own _ R)
    apply (hgone k).write hash
    rintro rfl v hv
    have hrow : sel.covers row' = false := (hgone hash').2 tx row' hlock
    rw [← Option.some.inj hv, ← hrow]
    exact covers_of_kin sel (hkin.trans hkin'.symm)
  | deleteRow tx sel' hash =>
    simp only [refreshMachine]
    split
    · exact hgone k
    · exact (hgone k).deleteRow sel'.selects hash
  | commit tx =>
    simp only [refreshMachine]
    split
    · exact hgone k
    · exact (hgone k).finish true
  | rollback tx => exact (hgone k).finish false

theorem gone_commit {t : RefreshTable}
    (h : TxInv t ({⟨tx, .deleting sel []⟩} + R)) : Gone sel (t.finish tx true) := by
  intro k
  rcases h.facts _ (mem_own _ R) k with hmem | hdeleted | hfree
  · exact absurd hmem List.not_mem_nil
  · exact Table.rowFree_of_deleted hdeleted
  · exact hfree.finish true

/-! ## 5. The programs -/

def Committed (h : History RefreshCall) (c : TxClaim) : Prop :=
  ∃ h', h = ⟨.commit c.tx, true⟩ :: h' ∧ claimOf h' = some c

def Achieved (task : RefreshTask) (h : History RefreshCall) (a : RefreshOutcome) : Prop :=
  match task, a with
  | _, .rotated _ => ∃ tx hash row, Committed h ⟨tx, .locked hash row⟩ ∧ tokenRead h = some row
  | .rotate _ _ _, .reuse => ∃ tx row, Committed h ⟨tx, .deleting (.family row.familyID) []⟩ ∧
      tokenRead h = some row
  | .revokeAllForTenant tenantID, .revoked => tenantID ≠ "" →
      ∃ tx, Committed h ⟨tx, .deleting (.tenant tenantID) []⟩
  | _, _ => True

/-- The `DELETE` of a transaction that has read `read`: it is done when no row is left to visit. -/
def Visited (tx : Nat) (sel : RefreshSelector) (read : Option RefreshRow)
    (h : History RefreshCall) (done : Bool) : Prop :=
  tokenRead h = read ∧ (∃ hold, claimOf h = some ⟨tx, hold⟩) ∧
    (done = true → claimOf h = some ⟨tx, .deleting sel []⟩)

theorem visitRows_conforms (hclaim : claimOf h = some ⟨tx, .deleting sel todo⟩) :
    (visitRows tx sel todo).Conforms revokeSpec (Visited tx sel (tokenRead h)) h := by
  induction todo generalizing h with
  | nil => exact ⟨rfl, ⟨_, hclaim⟩, fun _ => hclaim⟩
  | cons hash todo ih => ?_
  refine ⟨⟨todo, hclaim⟩, fun r _ => ?_⟩
  cases r with
  | true => exact ih (claimOf_visited hclaim)
  | false => exact ⟨rfl, ⟨_, hclaim⟩, fun h => absurd h (by simp)⟩

theorem deleteWhere_conforms (sel : RefreshSelector) (hclaim : claimOf h = some ⟨tx, hold⟩) :
    (deleteWhere tx sel).Conforms revokeSpec (Visited tx sel (tokenRead h)) h := by
  refine ⟨⟨hold, hclaim⟩, fun r _ => ?_⟩
  cases r with
  | none => exact ⟨rfl, ⟨hold, hclaim⟩, fun h => absurd h (by simp)⟩
  | some hashes =>
    have hscan : claimOf (⟨.scan tx sel, some hashes⟩ :: h) = some ⟨tx, .deleting sel hashes⟩ := rfl
    exact visitRows_conforms hscan

variable {task : RefreshTask}

theorem rolledBack_conforms {outcome : RefreshOutcome}
    (hclaim : ∃ hold, claimOf h = some ⟨tx, hold⟩)
    (hdone : outcome = .failed ∨ outcome = .invalid) :
    (rolledBack tx outcome).Conforms revokeSpec (Achieved task) h := by
  refine ⟨hclaim, fun _ _ => ?_⟩
  rcases hdone with rfl | rfl <;> cases task <;> trivial

section

variable {cfg : RefreshConfig} {task : RefreshTask} {tx : Nat} {h : History RefreshCall}

theorem exchangeToken_conforms {fresh : Option String}
    {now : Time} (hclaim : claimOf h = some ⟨tx, .locked hash row⟩) (hread : tokenRead h = some row)
    (hfresh : row.consumed = false) :
    (exchangeToken cfg tx hash row fresh now).Conforms revokeSpec (Achieved task) h := by
  refine ⟨⟨row, hclaim⟩, fun r _ => ?_⟩
  rcases r with _ | _
  · exact rolledBack_conforms ⟨_, hclaim⟩ (Or.inl rfl)
  rcases fresh with _ | raw
  · exact rolledBack_conforms ⟨_, hclaim⟩ (Or.inl rfl)
  refine ⟨⟨hash, row, hclaim, hfresh, rfl, rfl⟩, fun r _ => ?_⟩
  rcases r with _ | _
  · exact rolledBack_conforms ⟨_, hclaim⟩ (Or.inl rfl)
  refine ⟨⟨_, hclaim⟩, fun r _ => ?_⟩
  rcases r with _ | _
  · exact rolledBack_conforms ⟨_, hclaim⟩ (Or.inl rfl)
  have hdone : ∃ tx' hash' row', Committed (⟨.commit tx, true⟩ ::
      ⟨.insert tx (cfg.hashRefreshToken raw)
        { tenantID := row.tenantID, familyID := row.familyID, expiresAt := now + cfg.ttl },
        true⟩ :: ⟨.consume tx hash, true⟩ :: h) ⟨tx', .locked hash' row'⟩ ∧
      tokenRead h = some row' := ⟨tx, hash, row, ⟨_, rfl, hclaim⟩, hread⟩
  cases task <;> exact hdone

theorem deleteAndCommit_conforms {undone done : RefreshOutcome}
    (hclaim : claimOf h = some ⟨tx, hold⟩) (hundone : undone = .failed ∨ undone = .invalid)
    (hdone : ∀ h', Committed h' ⟨tx, .deleting sel []⟩ → tokenRead h' = tokenRead h →
      Achieved task h' done) :
    (deleteAndCommit tx sel undone done).Conforms revokeSpec (Achieved task) h := by
  apply (deleteWhere_conforms sel hclaim).seq
  rintro h' all ⟨hread, hin, hall⟩
  rcases all with _ | _
  · exact rolledBack_conforms hin hundone
  refine ⟨hin, fun r _ => ?_⟩
  cases r with
  | false => exact rolledBack_conforms hin hundone
  | true => exact hdone _ ⟨h', rfl, hall rfl⟩ hread

theorem pgRotate_conforms (rawToken : String) (fresh : Option String) (now : Time) :
    (pgRotate cfg rawToken fresh now).Conforms revokeSpec
      (Achieved (.rotate rawToken fresh now)) [] := by
  unfold pgRotate
  split
  · trivial
  refine ⟨rfl, fun r _ => ?_⟩
  rcases r with _ | tx
  · trivial
  refine ⟨rfl, fun r _ => ?_⟩
  match r with
  | none => exact rolledBack_conforms ⟨.idle, rfl⟩ (Or.inl rfl)
  | some none => exact rolledBack_conforms ⟨.idle, rfl⟩ (Or.inr rfl)
  | some (some row) =>
    simp only [Proc.ret_bind]
    split
    · exact deleteAndCommit_conforms rfl (Or.inr rfl) fun _ _ _ => trivial
    split
    · exact deleteAndCommit_conforms rfl (Or.inl rfl) fun _ hdone hread => ⟨tx, row, hdone, hread⟩
    · rename_i hfresh
      exact exchangeToken_conforms rfl rfl (Bool.not_eq_true _ ▸ hfresh)

theorem deleteStatement_conforms (sel : RefreshSelector)
    (hdone : ∀ tx h, Committed h ⟨tx, .deleting sel []⟩ → Achieved task h .revoked) :
    (deleteStatement sel).Conforms revokeSpec (Achieved task) [] := by
  refine ⟨rfl, fun r _ => ?_⟩
  rcases r with _ | tx
  · cases task <;> trivial
  have hbegin : claimOf [⟨.beginTx, some tx⟩] = some ⟨tx, .idle⟩ := rfl
  exact deleteAndCommit_conforms hbegin (Or.inl rfl) fun h' hcommitted _ => hdone tx h' hcommitted

theorem RefreshTask.conforms (task : RefreshTask) :
    (task.program cfg).Conforms revokeSpec (Achieved task) [] := by
  cases task with
  | rotate rawToken fresh now => exact pgRotate_conforms rawToken fresh now
  | revoke rawToken =>
    show (pgRevoke cfg rawToken).Conforms revokeSpec _ []
    unfold pgRevoke
    split
    · trivial
    · apply deleteStatement_conforms
      exact fun _ _ _ => trivial
  | revokeAllForTenant tenantID => ?_
  show (pgRevokeAllForTenant tenantID).Conforms revokeSpec _ []
  unfold pgRevokeAllForTenant
  split
  · rename_i hempty
    exact fun hne => absurd hempty hne
  · apply deleteStatement_conforms
    exact fun tx _ hcommitted _ => ⟨tx, hcommitted⟩

end

/-! ## 6. Revocations over a run -/

def refreshPool (cfg : RefreshConfig) (t : RefreshTable) (tasks : List RefreshTask) :
    Pool RefreshCall RefreshOutcome RefreshTable :=
  Pool.start t (tasks.map (RefreshTask.program cfg))

/-- The thread has reported that everything covered by `sel` is revoked. -/
def Revoked (task : RefreshTask) (th : Thread RefreshCall RefreshOutcome) (sel : RefreshSelector) :
    Prop :=
  match task with
  | .rotate _ _ _ => th.result? = some .reuse ∧
      ∃ row, tokenRead th.past = some row ∧ sel = .family row.familyID
  | .revokeAllForTenant tenantID =>
    th.result? = some .revoked ∧ tenantID ≠ "" ∧ sel = .tenant tenantID
  | .revoke _ => False

def Exchanged (th : Thread RefreshCall RefreshOutcome) (row : RefreshRow) : Prop :=
  (∃ tok, th.result? = some (.rotated tok)) ∧ tokenRead th.past = some row

variable {th : Thread RefreshCall RefreshOutcome}

theorem rest_of_result {a : RefreshOutcome}
    (h : th.result? = some a) : th.rest = .ret a := by
  unfold Thread.result? at h
  split at h
  · rename_i a' hrest
    rw [hrest, Option.some.inj h]
  · exact absurd h (by simp)

variable {P : Pool RefreshCall RefreshOutcome RefreshTable} {mv : Nat × StatementChoice}

section

variable {cfg : RefreshConfig} {tasks : List RefreshTask}

def achievedBy (tasks : List RefreshTask) (i : Nat) (h : History RefreshCall) (a : RefreshOutcome) :
    Prop :=
  Achieved (tasks[i]?.getD (.revoke "")) h a

theorem committed_step {β : Type}
    {c : RefreshCall β} {x : StatementChoice} {past : History RefreshCall} {cl : TxClaim}
    (hcommitted : Committed (⟨c, (refreshMachine.exec x c P.shared).1⟩ :: past) cl)
    (hinv : TxInv P.shared (txHeld past + R)) :
    TxInv P.shared ({cl} + R) ∧ (refreshMachine.exec x c P.shared).2 = P.shared.finish cl.tx true := by
  obtain ⟨h', hcons, hclaim⟩ := hcommitted
  obtain ⟨hevent, rfl⟩ := List.cons.inj hcons
  rw [txHeld_of_claim hclaim] at hinv
  refine ⟨hinv, ?_⟩
  generalize hexec : refreshMachine.exec x c P.shared = r at hevent
  obtain ⟨b, t'⟩ := r
  cases hevent
  simp only [refreshMachine] at hexec
  split at hexec
  · exact absurd (Prod.mk.inj hexec).1 (by simp)
  · exact (Prod.mk.inj hexec).2.symm

section

variable (hP : revokeProtocol.Good (achievedBy tasks) P)
include hP

theorem achieved_step (hmv : P.MoveMeets txHeld noOverlap mv)
    {a : RefreshOutcome} (hth : (P.step refreshMachine mv).threads[mv.1]? = some th)
    (hret : th.rest = .ret a) : achievedBy tasks mv.1 th.past a := by
  have hgood := revokeProtocol_sound.good_step hP hmv
  have hdone := hgood.conforms mv.1 th hth
  rwa [hret] at hdone

def RevokedGone (tasks : List RefreshTask) (P : Pool RefreshCall RefreshOutcome RefreshTable) :
    Prop :=
  ∀ (i : Nat) task th sel, tasks[i]? = some task → P.threads[i]? = some th →
    Revoked task th sel → Gone sel P.shared

omit hP in
theorem committed_of_revoked
    (hrevoked : Revoked task th sel)
    (hachieved : ∀ a, th.rest = .ret a → Achieved task th.past a) :
    ∃ tx, Committed th.past ⟨tx, .deleting sel []⟩ := by
  cases task with
  | rotate rawToken fresh now =>
    obtain ⟨hret, row, hread, rfl⟩ := hrevoked
    obtain ⟨tx, row', hcommitted, hread'⟩ := hachieved _ (rest_of_result hret)
    rw [hread] at hread'
    obtain rfl := Option.some.inj hread'
    exact ⟨tx, hcommitted⟩
  | revoke rawToken => exact absurd hrevoked (by simp [Revoked])
  | revokeAllForTenant tenantID =>
    obtain ⟨hret, hne, rfl⟩ := hrevoked
    exact hachieved _ (rest_of_result hret) hne

omit hP in
theorem committed_of_exchanged
    (hex : Exchanged th row)
    (hachieved : ∀ a, th.rest = .ret a → Achieved task th.past a) :
    ∃ tx hash, Committed th.past ⟨tx, .locked hash row⟩ := by
  obtain ⟨⟨tok, hret⟩, hread⟩ := hex
  have hdone : ∃ tx hash row', Committed th.past ⟨tx, .locked hash row'⟩ ∧
      tokenRead th.past = some row' := by
    have h := hachieved _ (rest_of_result hret)
    cases task <;> exact h
  obtain ⟨tx, hash, row', hcommitted, hread'⟩ := hdone
  rw [hread] at hread'
  obtain rfl := Option.some.inj hread'
  exact ⟨tx, hash, hcommitted⟩

theorem gone_pool_step
    (hgone : Gone sel P.shared) : Gone sel (P.step refreshMachine mv).shared := by
  rcases P.step_cases refreshMachine mv with hsame | ⟨past, β, c, k, hi, hstep⟩
  · rwa [hsame]
  have hinv : TxInv P.shared (txHeld past + P.heldByOthers txHeld mv.1) := hP.inv_thread hi
  rw [hstep]
  exact gone_step hgone (hP.conforms mv.1 _ hi).1 hinv mv.2

theorem revokedGone_step (hmv : P.MoveMeets txHeld noOverlap mv)
    (h : RevokedGone tasks P) : RevokedGone tasks (P.step refreshMachine mv) := by
  intro i task th sel htask hth hrevoked
  rcases P.step_cases refreshMachine mv with hsame | ⟨past, β, c, k, hi, hstep⟩
  · rw [hsame] at hth ⊢
    exact h i task th sel htask hth hrevoked
  have hinv : TxInv P.shared (txHeld past + P.heldByOthers txHeld mv.1) := hP.inv_thread hi
  have hlt : mv.1 < P.threads.length := (List.getElem?_eq_some_iff.mp hi).1
  by_cases hij : mv.1 = i
  · -- the thread reports with this step
    subst hij
    have hdone := committed_of_revoked hrevoked fun a ha => by
      have hachieved := achieved_step hP hmv hth ha
      rwa [achievedBy, htask] at hachieved
    rw [hstep] at hth ⊢
    rw [List.getElem?_set_self hlt] at hth
    obtain rfl := Option.some.inj hth
    obtain ⟨tx, hcommitted⟩ := hdone
    obtain ⟨hclaim, hstate⟩ := committed_step hcommitted hinv
    show Gone sel (refreshMachine.exec mv.2 c P.shared).2
    rw [hstate]
    exact gone_commit hclaim
  · have hth' := hth
    rw [hstep, List.getElem?_set_ne hij] at hth'
    exact gone_pool_step hP (h i task th sel htask hth' hrevoked)

theorem exchanged_step (hmv : P.MoveMeets txHeld noOverlap mv) (hgone : Gone sel P.shared) {j : Nat}
    (hth : (P.step refreshMachine mv).threads[j]? = some th) (hex : Exchanged th row)
    (hcovers : sel.covers row = true) : P.threads[j]? = some th := by
  rcases P.step_cases refreshMachine mv with hsame | ⟨past, β, c, k, hi, hstep⟩
  · rwa [hsame] at hth
  have hinv : TxInv P.shared (txHeld past + P.heldByOthers txHeld mv.1) := hP.inv_thread hi
  have hlt : mv.1 < P.threads.length := (List.getElem?_eq_some_iff.mp hi).1
  by_cases hij : mv.1 = j
  · -- the row that it has locked is covered, against what is gone
    subst hij
    have hdone := committed_of_exchanged hex fun a ha => achieved_step hP hmv hth ha
    rw [hstep] at hth
    rw [List.getElem?_set_self hlt] at hth
    obtain rfl := Option.some.inj hth
    obtain ⟨tx, hash, hcommitted⟩ := hdone
    obtain ⟨hclaim, -⟩ := committed_step hcommitted hinv
    obtain ⟨hrow, -, -⟩ := hclaim.facts _ (mem_own _ _)
    have hnot : sel.covers row = false := (hgone hash).1 row hrow
    exact absurd (hnot.symm.trans hcovers) Bool.false_ne_true
  · rw [hstep] at hth
    rwa [List.getElem?_set_ne hij] at hth

end

end

/-- When a thread has reported a family or a tenant as revoked, no token of it is exchanged any more:
whoever has exchanged one at a later time had done so before. -/
theorem revoked_tokens_not_exchanged (cfg : RefreshConfig) (t : RefreshTable)
    (ht : ∀ k, (t.row k).pending = none) (tasks : List RefreshTask)
    (mvs mvs' : List (Nat × StatementChoice))
    (hmvs : (refreshPool cfg t tasks).Meets txHeld refreshMachine noOverlap (mvs ++ mvs'))
    (i : Nat) (task : RefreshTask) (th : Thread RefreshCall RefreshOutcome) (sel : RefreshSelector)
    (htask : tasks[i]? = some task)
    (hth : ((refreshPool cfg t tasks).run refreshMachine mvs).threads[i]? = some th)
    (hrevoked : Revoked task th sel) (j : Nat) (th' : Thread RefreshCall RefreshOutcome)
    (row : RefreshRow)
    (hth' : ((refreshPool cfg t tasks).run refreshMachine (mvs ++ mvs')).threads[j]? = some th')
    (hex : Exchanged th' row) (hcovers : sel.covers row = true) :
    ((refreshPool cfg t tasks).run refreshMachine mvs).threads[j]? = some th' := by
  have hstart : revokeProtocol.Good (achievedBy tasks) (refreshPool cfg t tasks) := by
    apply Protocol.good_start
    · rfl
    · exact ⟨Multiset.nodup_zero, fun c hc => absurd hc (Multiset.notMem_zero c),
        fun k owner v hp => absurd ((ht k).symm.trans hp) (by simp),
        fun k owner v v₀ _ hp => absurd ((ht k).symm.trans hp) (by simp),
        fun c hc => absurd hc (Multiset.notMem_zero c), fun c hc => absurd hc (Multiset.notMem_zero c)⟩
    · intro i p hp
      rw [List.getElem?_map, Option.map_eq_some_iff] at hp
      obtain ⟨task, htask, rfl⟩ := hp
      have hconforms : (task.program cfg).Conforms revokeSpec (Achieved task) [] := task.conforms
      apply hconforms.mono
      intro h a hdone
      rwa [achievedBy, htask]
  obtain ⟨hbefore, hafter⟩ := (Pool.meets_append txHeld refreshMachine noOverlap _ mvs mvs').mp hmvs
  have hgood := revokeProtocol_sound.run hstart hbefore
  have hgone : Gone sel ((refreshPool cfg t tasks).run refreshMachine mvs).shared := by
    have hkept : RevokedGone tasks ((refreshPool cfg t tasks).run refreshMachine mvs) := by
      refine revokeProtocol_sound.run_keeps (fun P mv hP hmv h => revokedGone_step hP hmv h) hstart ?_
        hbefore
      -- nobody has reported anything at the start
      intro i task th sel htask hth hrevoked
      obtain ⟨tx, h', hpast, -⟩ := committed_of_revoked hrevoked fun a ha => by
        have hdone := hstart.conforms i th hth
        rw [ha] at hdone
        have hachieved : achievedBy tasks i th.past a := hdone
        rwa [achievedBy, htask] at hachieved
      rw [Pool.past_start hth] at hpast
      exact absurd hpast (by simp)
    exact hkept i task th sel htask hth hrevoked
  rw [Pool.run_append] at hth'
  -- from here on nothing covered is there to be exchanged
  have hkept := revokeProtocol_sound.run_keeps
    (I := fun P => Gone sel P.shared ∧ ∀ (j : Nat) th row, P.threads[j]? = some th →
      Exchanged th row → sel.covers row = true →
      ((refreshPool cfg t tasks).run refreshMachine mvs).threads[j]? = some th)
    (fun P mv hP hmv h => ?_) hgood ⟨hgone, fun j th row hth _ _ => hth⟩ hafter
  · exact hkept.2 j th' row hth' hex hcovers
  · exact ⟨gone_pool_step hP h.1, fun j th row hth hex hcovers =>
      h.2 j th row (exchanged_step hP hmv h.1 hth hex hcovers) hex hcovers⟩

/-! ## 7. A replay beside an exchange -/

/-- The tokens `t0` to `t3` with their SHA-256. -/
def pgSample : RefreshConfig where
  hashRefreshToken s :=
    if s = "t0" then "512f26ada3c3d634ac3c6b12b7b33cb50bb0963c3f6d9924241619c84ec78ff2"
    else if s = "t1" then "628b49d96dcde97a430dd4f597705899e09a968f793491e4b704cae33a40dc02"
    else if s = "t2" then "c44474038d459e40e4714afefa7bf8dae9f9834b22f5e8ec1dd434ecb62b512e"
    else if s = "t3" then "cece8a9cecfb6c7e7ee4f3346d5e2544138bfb6e33bec6042a17333a4d3180b0"
    else s
  rawRefreshToken n := "t" ++ toString n
  refreshFamilyID n := "f" ++ toString n

/-- A family with the exchanged token `t0` and its successor `t1`. -/
def oneFamily : RefreshTable :=
  Table.ofRows [pgSample.hashRefreshToken "t0", pgSample.hashRefreshToken "t1"] fun hash =>
    some ⟨"tenant", "f", 1, hash = pgSample.hashRefreshToken "t0"⟩

/-- The holder of `t1` exchanges it, somebody presents `t0` again, and then `t2` is presented. -/
def replayTasks : List RefreshTask :=
  [.rotate "t1" (some "t2") 0, .rotate "t0" none 0, .rotate "t2" (some "t3") 0]

/-- The `DELETE` of the family begins between the `INSERT` of `t2` and its `COMMIT`. -/
def crossedMoves : List (Nat × StatementChoice) :=
  [0, 0, 0, 0, 1, 1, 1, 0, 1, 1, 1].map fun i => (i, {})

def lateMoves : List (Nat × StatementChoice) := [2, 2, 2, 2, 2].map fun i => (i, {})

/-- The reuse of `t0` has been reported, and `t2`, issued before, is exchanged for `t3`. -/
theorem successor_survives_revocation :
    (((refreshPool pgSample oneFamily replayTasks).run refreshMachine
      crossedMoves).threads[1]?.bind Thread.result?) = some .reuse ∧
    (((refreshPool pgSample oneFamily replayTasks).run refreshMachine
      crossedMoves).shared.row (pgSample.hashRefreshToken "t2")).committed =
        some ⟨"tenant", "f", pgSample.ttl, false⟩ ∧
    (((refreshPool pgSample oneFamily replayTasks).run refreshMachine
      (crossedMoves ++ lateMoves)).threads[2]?.bind Thread.result?) =
        some (.rotated ⟨"t3", "tenant", pgSample.ttl⟩) := by
  decide +kernel

/-- The holder of `t1` exchanges it, the tenant is logged out everywhere, and `t2` is presented. -/
def logoutTasks : List RefreshTask :=
  [.rotate "t1" (some "t2") 0, .revokeAllForTenant "tenant", .rotate "t2" (some "t3") 0]

def exchangeMoves : List (Nat × StatementChoice) := [0, 0, 0, 0, 0].map fun i => (i, {})

/-- The `DELETE` visits `t2`, `t1` and `t0`. -/
def logoutMoves : List (Nat × StatementChoice) := [1, 1, 1, 1, 1, 1].map fun i => (i, {})

def retryMoves : List (Nat × StatementChoice) := [2, 2, 2].map fun i => (i, {})

def exchangedTable : RefreshTable :=
  ((((oneFamily.begin.write 0 (pgSample.hashRefreshToken "t1") (some ⟨"tenant", "f", 1, false⟩)).write
    0 (pgSample.hashRefreshToken "t1") (some ⟨"tenant", "f", 1, true⟩)).write
    0 (pgSample.hashRefreshToken "t2") (some ⟨"tenant", "f", pgSample.ttl, false⟩)).finish 0
    true).begin

theorem shared_exchangeMoves :
    ((refreshPool pgSample oneFamily logoutTasks).run refreshMachine
      (exchangeMoves ++ logoutMoves.take 1)).shared = exchangedTable := by
  rfl

theorem exchangedTable_unlocked (k : String) : (exchangedTable.row k).pending = none := by
  have hbase : ∀ k, (oneFamily.begin.row k).pending = none := fun _ => rfl
  have hfinish : ∀ r : Versioned RefreshRow, (∀ owner v, r.pending = some (owner, v) → owner = 0) →
      (Table.settle 0 true r).pending = none := by
    intro r hr
    unfold Table.settle
    split
    · rename_i owner v hp
      rw [if_pos (hr owner v hp)]
    · assumption
  apply hfinish
  intro owner v hp
  simp only [Table.row_write] at hp
  split at hp
  · exact (Prod.mk.inj (Option.some.inj hp)).1.symm
  split at hp
  · exact (Prod.mk.inj (Option.some.inj hp)).1.symm
  · rw [hbase k] at hp
    exact absurd hp (by simp)

theorem logout_apart :
    (refreshPool pgSample oneFamily logoutTasks).Meets txHeld refreshMachine noOverlap
      ((exchangeMoves ++ logoutMoves) ++ retryMoves) := by
  have hselect : (refreshPool pgSample oneFamily logoutTasks).Meets txHeld refreshMachine noOverlap
      (exchangeMoves ++ logoutMoves.take 1) := by
    refine ⟨trivial, ?_, trivial, trivial, trivial, trivial, trivial⟩
    exact fun tx' sel todo h => absurd h (Multiset.notMem_zero _)
  have hscan : ((refreshPool pgSample oneFamily logoutTasks).run refreshMachine
      (exchangeMoves ++ logoutMoves.take 1)).Meets txHeld refreshMachine noOverlap
      (logoutMoves.drop 1 ++ retryMoves) := by
    refine ⟨?_, trivial, trivial, trivial, trivial, trivial, ?_, trivial, trivial⟩
    · intro k owner v hp
      rw [shared_exchangeMoves, exchangedTable_unlocked] at hp
      exact absurd hp (by simp)
    · exact fun tx' sel todo h => absurd h (Multiset.notMem_zero _)
  have hmoves : (exchangeMoves ++ logoutMoves) ++ retryMoves =
      (exchangeMoves ++ logoutMoves.take 1) ++ (logoutMoves.drop 1 ++ retryMoves) := rfl
  rw [hmoves]
  exact (Pool.meets_append txHeld refreshMachine noOverlap _ _ _).mpr ⟨hselect, hscan⟩

/-- The exchange of `t1` is the only one, and it was done when the logout returned. -/
theorem logout_everywhere_final :
    (((refreshPool pgSample oneFamily logoutTasks).run refreshMachine
      ((exchangeMoves ++ logoutMoves) ++ retryMoves)).threads[2]?.bind Thread.result?) =
        some .invalid ∧
    (((refreshPool pgSample oneFamily logoutTasks).run refreshMachine
      (exchangeMoves ++ logoutMoves)).threads[0]?.bind Thread.result?) =
        some (.rotated ⟨"t2", "tenant", pgSample.ttl⟩) := by
  refine ⟨by decide +kernel, ?_⟩
  have hdone : (((refreshPool pgSample oneFamily logoutTasks).run refreshMachine
      ((exchangeMoves ++ logoutMoves) ++ retryMoves)).threads[0]?.bind Thread.result?) =
        some (.rotated ⟨"t2", "tenant", pgSample.ttl⟩) := by
    decide +kernel
  obtain ⟨th, hth, hresult⟩ := Option.bind_eq_some_iff.mp hdone
  have hfinal := revoked_tokens_not_exchanged pgSample oneFamily (fun _ => rfl) logoutTasks
    (exchangeMoves ++ logoutMoves) retryMoves logout_apart 1 _ _ (.tenant "tenant") rfl rfl
    ⟨rfl, by decide, rfl⟩ 0 th ⟨"tenant", "f", 1, false⟩ hth ⟨⟨_, hresult⟩, ?_⟩ (by decide)
  · rw [hfinal]
    exact hresult
  · have hread : (((refreshPool pgSample oneFamily logoutTasks).run refreshMachine
        ((exchangeMoves ++ logoutMoves) ++ retryMoves)).threads[0]?.bind fun th =>
          tokenRead th.past) = some ⟨"tenant", "f", 1, false⟩ := by
      decide +kernel
    rwa [hth] at hread

end ObjectFabric
