import Mathlib

/-!
# FiniteMap — finite maps with values of one type

`Finmap` of Mathlib at a constant family, with the lookup equations in the `if` form that case
splits want, the number of entries that satisfy a predicate, and multisets listed in order or by
rank (entries come as a multiset).
-/

/-- A finite map from `κ` to `ν`. -/
abbrev FMap (κ ν : Type) := Finmap fun _ : κ => ν

namespace FMap

variable {κ ν : Type} [DecidableEq κ]

theorem lookup_insert_ite (s : FMap κ ν) (k k' : κ) (v : ν) :
    (s.insert k v).lookup k' = if k' = k then some v else s.lookup k' := by
  by_cases hk : k' = k
  · subst hk
    rw [Finmap.lookup_insert, if_pos rfl]
  · rw [Finmap.lookup_insert_of_ne s hk, if_neg hk]

theorem lookup_erase_ite (s : FMap κ ν) (k k' : κ) :
    (s.erase k).lookup k' = if k' = k then none else s.lookup k' := by
  by_cases hk : k' = k
  · subst hk
    rw [Finmap.lookup_erase, if_pos rfl]
  · rw [Finmap.lookup_erase_ne hk, if_neg hk]

/-- The number of entries that satisfy `p`. -/
def count (p : κ → ν → Bool) (s : FMap κ ν) : Nat :=
  s.entries.countP fun e => p e.1 e.2

/-- Does some entry satisfy `p`? -/
def any (p : κ → ν → Bool) (s : FMap κ ν) : Bool := decide (0 < count p s)

theorem any_iff (p : κ → ν → Bool) (s : FMap κ ν) :
    any p s = true ↔ ∃ k v, s.lookup k = some v ∧ p k v = true := by
  unfold any count
  rw [decide_eq_true_iff, Multiset.countP_pos]
  constructor
  · rintro ⟨⟨k, v⟩, hmem, hp⟩
    exact ⟨k, v, Finmap.mem_lookup_iff.mpr hmem, hp⟩
  · rintro ⟨k, v, hlook, hp⟩
    exact ⟨⟨k, v⟩, Finmap.mem_lookup_iff.mp hlook, hp⟩

theorem entries_erase_of_lookup {s : FMap κ ν} {k : κ} {v : ν} (h : s.lookup k = some v) :
    s.entries = ⟨k, v⟩ ::ₘ (s.erase k).entries := by
  have hnot : k ∉ s.erase k := Finmap.notMem_erase_self
  have hback : (s.erase k).insert k v = s := by
    apply Finmap.ext_lookup
    intro k'
    rw [lookup_insert_ite, lookup_erase_ite]
    by_cases hk : k' = k
    · rw [if_pos hk, hk, h]
    · rw [if_neg hk, if_neg hk]
  rw [← Finmap.entries_insert_of_notMem hnot, hback]

theorem count_erase {p : κ → ν → Bool} {s : FMap κ ν} {k : κ} {v : ν}
    (h : s.lookup k = some v) :
    count p s = count p (s.erase k) + if p k v then 1 else 0 := by
  unfold count
  rw [entries_erase_of_lookup h, Multiset.countP_cons]

theorem count_insert_of_none {p : κ → ν → Bool} {s : FMap κ ν} {k : κ} (v : ν)
    (h : s.lookup k = none) :
    count p (s.insert k v) = count p s + if p k v then 1 else 0 := by
  unfold count
  rw [Finmap.entries_insert_of_notMem (Finmap.lookup_eq_none.mp h), Multiset.countP_cons]

theorem count_eq_zero {p : κ → ν → Bool} {s : FMap κ ν}
    (h : ∀ k v, s.lookup k = some v → p k v = false) : count p s = 0 := by
  unfold count
  rw [Multiset.countP_eq_zero]
  rintro ⟨k, v⟩ hmem
  simp [h k v (Finmap.mem_lookup_iff.mpr hmem)]

theorem count_insert_le (p : κ → ν → Bool) (s : FMap κ ν) (k : κ) (v : ν) :
    count p (s.insert k v) ≤ count p s + if p k v then 1 else 0 := by
  rcases hk : s.lookup k with _ | old
  · exact Nat.le_of_eq (count_insert_of_none v hk)
  have hnone : (s.erase k).lookup k = none := by rw [lookup_erase_ite, if_pos rfl]
  have hsame : (s.erase k).insert k v = s.insert k v := by
    apply Finmap.ext_lookup
    intro k'
    rw [lookup_insert_ite, lookup_insert_ite, lookup_erase_ite]
    by_cases hk' : k' = k
    · rw [if_pos hk', if_pos hk']
    · rw [if_neg hk', if_neg hk', if_neg hk']
  rw [← hsame, count_insert_of_none v hnone, count_erase hk]
  omega

theorem count_pos {p : κ → ν → Bool} {s : FMap κ ν} {k : κ} {v : ν} (h : s.lookup k = some v)
    (hp : p k v = true) : 0 < count p s := by
  rw [count_erase h, if_pos hp]
  omega

/-- The entries that satisfy `p`. -/
def filter (p : κ → ν → Bool) (s : FMap κ ν) : FMap κ ν where
  entries := s.entries.filter fun e => p e.1 e.2
  nodupKeys := Multiset.nodup_keys.mp (Multiset.nodup_of_le
    (Multiset.map_le_map (Multiset.filter_le _ _)) s.nodupKeys.nodup_keys)

theorem lookup_filter (p : κ → ν → Bool) (s : FMap κ ν) (k : κ) :
    (s.filter p).lookup k = (s.lookup k).filter (p k) := by
  ext v
  rw [Option.filter_eq_some_iff, Finmap.lookup_eq_some_iff, Finmap.lookup_eq_some_iff]
  exact Multiset.mem_filter

def keySet (s : FMap κ ν) : Multiset κ := s.entries.map Sigma.fst

omit [DecidableEq κ] in
theorem nodup_keySet (s : FMap κ ν) : s.keySet.Nodup := by
  have hkeys : s.keySet = s.keys.val := rfl
  rw [hkeys]
  exact s.keys.nodup

theorem mem_keySet {s : FMap κ ν} {k : κ} : k ∈ s.keySet ↔ (s.lookup k).isSome = true := by
  have hkeys : k ∈ s.keySet ↔ k ∈ s := Iff.rfl
  rw [hkeys, Finmap.lookup_isSome]

end FMap

namespace Multiset

variable {α : Type} [LinearOrder α]

def ascending (s : Multiset α) : List α :=
  Quot.liftOn s (List.insertionSort (· ≤ ·)) fun l l' hperm => by
    have hsame : (l.insertionSort (· ≤ ·)).Perm (l'.insertionSort (· ≤ ·)) :=
      (l.perm_insertionSort _).trans (hperm.trans (l'.perm_insertionSort _).symm)
    exact hsame.eq_of_pairwise' (List.pairwise_insertionSort _ l) (List.pairwise_insertionSort _ l')

theorem mem_ascending {s : Multiset α} {a : α} : a ∈ s.ascending ↔ a ∈ s := by
  induction s using Quot.inductionOn with
  | h l => exact (l.perm_insertionSort (· ≤ ·)).mem_iff

theorem coe_ascending (s : Multiset α) : (s.ascending : Multiset α) = s := by
  induction s using Quot.inductionOn with
  | h l => exact Multiset.coe_eq_coe.mpr (l.perm_insertionSort (· ≤ ·))

theorem pairwise_ascending (s : Multiset α) : s.ascending.Pairwise (· ≤ ·) := by
  induction s using Quot.inductionOn with
  | h l => exact List.pairwise_insertionSort (· ≤ ·) l

theorem ascending_eq {s : Multiset α} {l : List α} (hl : (l : Multiset α) = s)
    (hsorted : l.Pairwise (· ≤ ·)) : s.ascending = l := by
  have hperm : s.ascending.Perm l := Multiset.coe_eq_coe.mp (s.coe_ascending.trans hl.symm)
  exact hperm.eq_of_pairwise' s.pairwise_ascending hsorted

/-- The elements with their ranks, in the order of the ranks; equal ranks in the order of the
elements. -/
def rankedBy (f : α → Nat) (s : Multiset α) : List (Nat × α) :=
  (s.map fun a => toLex (f a, a)).ascending.map ofLex

theorem pairwise_rankedBy (f : α → Nat) (s : Multiset α) :
    (rankedBy f s).Pairwise fun p q => p.1 ≤ q.1 := by
  rw [rankedBy, List.pairwise_map]
  refine (pairwise_ascending _).imp fun {p q} hle => ?_
  rcases Prod.Lex.le_iff.mp hle with hlt | ⟨heq, -⟩
  · exact Nat.le_of_lt hlt
  · exact Nat.le_of_eq heq

theorem mem_rankedBy {f : α → Nat} {s : Multiset α} {p : Nat × α} :
    p ∈ rankedBy f s ↔ p.2 ∈ s ∧ p.1 = f p.2 := by
  rw [rankedBy, List.mem_map]
  constructor
  · rintro ⟨q, hq, rfl⟩
    rcases Multiset.mem_map.mp (mem_ascending.mp hq) with ⟨a, ha, rfl⟩
    exact ⟨ha, rfl⟩
  · rintro ⟨hmem, hrank⟩
    refine ⟨toLex p, mem_ascending.mpr (Multiset.mem_map.mpr ⟨p.2, hmem, ?_⟩), rfl⟩
    rw [← hrank]

theorem exists_rankedBy {s : Multiset α} {f g : α → Nat}
    (hfg : ∀ a ∈ s, ∀ b ∈ s, f a ≤ f b ↔ g a ≤ g b) :
    ∃ l : List α, (l : Multiset α) = s ∧ rankedBy f s = l.map (fun a => (f a, a)) ∧
      rankedBy g s = l.map (fun a => (g a, a)) := by
  -- the list is read off the first ranking
  let pairs := (s.map fun a => toLex (f a, a)).ascending
  have hpairs : ∀ p ∈ pairs, ∃ a ∈ s, toLex (f a, a) = p := fun p hp =>
    Multiset.mem_map.mp (Multiset.mem_ascending.mp hp)
  have hform : ∀ p ∈ pairs, ofLex p = (f (ofLex p).2, (ofLex p).2) := by
    intro p hp
    rcases hpairs p hp with ⟨a, -, rfl⟩
    rfl
  let l := pairs.map fun p => (ofLex p).2
  have hranked : rankedBy f s = l.map fun a => (f a, a) := by
    show pairs.map ofLex = (pairs.map fun p => (ofLex p).2).map fun a => (f a, a)
    rw [List.map_map]
    exact List.map_congr_left hform
  have hl : (l : Multiset α) = s := by
    show ((pairs.map fun p => (ofLex p).2 : List α) : Multiset α) = s
    rw [← Multiset.map_coe, Multiset.coe_ascending, Multiset.map_map]
    exact Multiset.map_id s
  refine ⟨l, hl, hranked, ?_⟩
  have hsorted : (l.map fun a => toLex (g a, a)).Pairwise (· ≤ ·) := by
    rw [List.map_map, List.pairwise_map]
    refine (Multiset.pairwise_ascending _).imp_of_mem ?_
    intro p q hp hq hle
    rcases hpairs p hp with ⟨a, ha, rfl⟩
    rcases hpairs q hq with ⟨b, hb, rfl⟩
    have hab := hfg a ha b hb
    have hba := hfg b hb a ha
    rw [Prod.Lex.le_iff] at hle ⊢
    rcases hle with hlt | ⟨heq, hkeys⟩
    · have hlt' : f a < f b := hlt
      left
      show g a < g b
      omega
    · have heq' : f a = f b := heq
      right
      refine ⟨?_, hkeys⟩
      show g a = g b
      omega
  have hcoe : ((l.map fun a => toLex (g a, a) : List _) : Multiset _) =
      s.map fun a => toLex (g a, a) := by
    rw [← Multiset.map_coe, hl]
  rw [rankedBy, Multiset.ascending_eq hcoe hsorted, List.map_map]
  rfl

end Multiset
