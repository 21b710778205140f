import Mathlib

/-!
# Blocks — lists cut into blocks of one size

Block `s` of a list holds its elements from `s * n` on and is filled up where the list ends.  The
first `N` blocks put together are the first `N * n` elements of the padded list
(`flatten_blocks`), so they give a list back that is not longer, and a prefix of one that is.
-/

namespace Streams

variable {α β ε : Type}

/-- Block `s`, filled up with `pad` to `n` elements. -/
def block (pad : α) (n s : Nat) (l : List α) : List α :=
  let taken := (l.drop (s * n)).take n
  taken ++ List.replicate (n - taken.length) pad

@[simp] theorem length_block (pad : α) (n s : Nat) (l : List α) : (block pad n s l).length = n := by
  unfold block
  rw [List.length_append, List.length_replicate, List.length_take]
  omega

theorem block_succ (pad : α) (n s : Nat) (l : List α) :
    block pad n (s + 1) l = block pad n s (l.drop n) := by
  unfold block
  rw [List.drop_drop, Nat.add_mul, Nat.one_mul, Nat.add_comm n]

theorem block_of_le {pad : α} {n s : Nat} {l : List α} (h : (s + 1) * n ≤ l.length) :
    block pad n s l = (l.drop (s * n)).take n := by
  rw [Nat.add_mul, Nat.one_mul] at h
  have hlen : ((l.drop (s * n)).take n).length = n := by
    rw [List.length_take, List.length_drop]
    omega
  simp only [block, hlen, Nat.sub_self, List.replicate_zero, List.append_nil]

theorem block_zero (pad : α) {n m : Nat} (h : n ≤ m) (l : List α) :
    block pad n 0 l = (l ++ List.replicate m pad).take n := by
  simp only [block, Nat.zero_mul, List.drop_zero, List.take_append, List.take_replicate,
    List.length_take]
  congr 2
  omega

theorem flatten_blocks (pad : α) (n N : Nat) (l : List α) :
    ((List.range N).map fun s => block pad n s l).flatten =
      (l ++ List.replicate (N * n) pad).take (N * n) := by
  induction N generalizing l with
  | zero => rw [Nat.zero_mul, List.take_zero]; rfl
  | succ N ih => ?_
  rw [List.range_succ_eq_map, List.map_cons, List.map_map, List.flatten_cons]
  have hshift : ((List.range N).map ((fun s => block pad n s l) ∘ Nat.succ)).flatten =
      ((l.drop n) ++ List.replicate (N * n) pad).take (N * n) := by
    rw [← ih]
    congr 1
    apply List.map_congr_left
    intro s _
    exact block_succ pad n s l
  have hsize : (N + 1) * n = n + N * n := by rw [Nat.add_mul, Nat.one_mul, Nat.add_comm]
  rw [hshift, hsize, block_zero pad (Nat.le_add_right n (N * n)), List.take_add]
  congr 1
  -- dropping a block from the padded list leaves a list with enough padding
  rw [List.drop_append, List.drop_replicate, List.take_append, List.take_append,
    List.take_replicate, List.take_replicate, List.length_drop]
  congr 2
  omega

theorem flatten_blocks_of_le {pad : α} {n N : Nat} {l : List α} (h : l.length ≤ N * n) :
    ((List.range N).map fun s => block pad n s l).flatten =
      l ++ List.replicate (N * n - l.length) pad := by
  rw [flatten_blocks, List.take_append, List.take_of_length_le h, List.take_replicate]
  congr 2
  omega

theorem flatten_blocks_of_ge {pad : α} {n N : Nat} {l : List α} (h : N * n ≤ l.length) :
    ((List.range N).map fun s => block pad n s l).flatten = l.take (N * n) := by
  rw [flatten_blocks, List.take_append_of_le_length h]

/-! ## Loops that stop at the first error -/

theorem bind_eq_ok {x : Except ε α} {f : α → Except ε β} {b : β} (h : (x >>= f) = .ok b) :
    ∃ a, x = .ok a ∧ f a = .ok b := by
  cases x with
  | error e => exact absurd h (by simp [bind, Except.bind])
  | ok a => exact ⟨a, rfl, h⟩

theorem mapM_of_ok {f : α → Except ε β} {g : α → β} {l : List α} (h : ∀ a ∈ l, f a = .ok (g a)) :
    l.mapM f = .ok (l.map g) := by
  induction l with
  | nil => rfl
  | cons a l ih =>
    rw [List.mapM_cons, h a List.mem_cons_self, ih fun a ha => h a (List.mem_cons_of_mem _ ha)]
    rfl

theorem forall₂_of_mapM {f : α → Except ε β} {l : List α} {bs : List β} (h : l.mapM f = .ok bs) :
    List.Forall₂ (fun a b => f a = .ok b) l bs := by
  induction l generalizing bs with
  | nil =>
    rw [List.mapM_nil] at h
    rw [← Except.ok.inj h]
    exact List.Forall₂.nil
  | cons a l ih => ?_
  rw [List.mapM_cons] at h
  rcases bind_eq_ok h with ⟨b, hb, hrest⟩
  rcases bind_eq_ok hrest with ⟨bs', hbs', hend⟩
  rw [← Except.ok.inj hend]
  exact List.Forall₂.cons hb (ih hbs')

theorem exists_of_mem_mapM {f : α → Except ε β} {l : List α} {bs : List β} (h : l.mapM f = .ok bs)
    {b : β} (hb : b ∈ bs) : ∃ a ∈ l, f a = .ok b := by
  rcases List.mem_iff_getElem.mp hb with ⟨i, hi, rfl⟩
  have hall := forall₂_of_mapM h
  have hlen : i < l.length := hall.length_eq ▸ hi
  exact ⟨l[i], List.getElem_mem hlen, hall.get hlen hi⟩

theorem exists_of_mapM_error {f : α → Except ε β} {l : List α} {e : ε} (h : l.mapM f = .error e) :
    ∃ a ∈ l, f a = .error e := by
  induction l with
  | nil => exact nomatch h
  | cons a l ih => ?_
  rw [List.mapM_cons] at h
  rcases ha : f a with e' | b
  · rw [ha] at h
    obtain rfl : e' = e := Except.error.inj h
    exact ⟨a, List.mem_cons_self, ha⟩
  rw [ha] at h
  cases hl : l.mapM f with
  | error e' =>
    rw [hl] at h
    obtain rfl : e' = e := Except.error.inj h
    obtain ⟨a', ha', he⟩ := ih hl
    exact ⟨a', List.mem_cons_of_mem a ha', he⟩
  | ok bs =>
    rw [hl] at h
    exact nomatch h

theorem mapM_of_error {f : α → Except ε β} {l : List α} (h : ∃ a ∈ l, ∃ e, f a = .error e) :
    ∃ a ∈ l, ∃ e, f a = .error e ∧ l.mapM f = .error e := by
  induction l with
  | nil =>
    rcases h with ⟨a, hmem, -⟩
    exact absurd hmem List.not_mem_nil
  | cons a l ih => ?_
  rcases hf : f a with e | b
  · refine ⟨a, List.mem_cons_self, e, hf, ?_⟩
    rw [List.mapM_cons, hf]
    rfl
  -- the first element is no error, so another one is
  have hrest : ∃ a ∈ l, ∃ e, f a = .error e := by
    rcases h with ⟨a', hmem, e, he⟩
    rcases List.mem_cons.mp hmem with rfl | hmem
    · rw [hf] at he
      exact absurd he (by simp)
    · exact ⟨a', hmem, e, he⟩
  rcases ih hrest with ⟨a', hmem, e, he, hloop⟩
  refine ⟨a', List.mem_cons_of_mem _ hmem, e, he, ?_⟩
  rw [List.mapM_cons, hf, hloop]
  rfl

theorem mapM_cases [Nonempty β] (f : α → Except ε β) (l : List α) :
    (∃ g : α → β, (∀ a ∈ l, f a = .ok (g a)) ∧ l.mapM f = .ok (l.map g)) ∨
      ∃ a ∈ l, ∃ e, f a = .error e ∧ l.mapM f = .error e := by
  by_cases hall : ∃ a ∈ l, ∃ e, f a = .error e
  · exact Or.inr (mapM_of_error hall)
  left
  have hvalue : ∀ a, ∃ b, a ∈ l → f a = .ok b := by
    intro a
    cases hf : f a with
    | error e => exact ⟨Classical.arbitrary β, fun hmem => absurd ⟨a, hmem, e, hf⟩ hall⟩
    | ok b => exact ⟨b, fun _ => rfl⟩
  choose g hg using hvalue
  exact ⟨g, hg, mapM_of_ok hg⟩

end Streams
