import Mathlib

/-!
# Separators — lists joined by a separator

Two fields joined by a separator can be told apart when the second does not contain it.  When it
may, the one other way to split the joined list moves a part from one field to the other.
-/

namespace Streams

variable {α : Type*} {x : α} {a b a' b' : List α}

/-- A part that ends with a separator is counted to the first field in one pair and to the second
in the other. -/
def Regroups (x : α) (a b a' b' : List α) : Prop :=
  ∃ s, (a' = a ++ x :: s ∧ b = s ++ x :: b') ∨ (a = a' ++ x :: s ∧ b' = s ++ x :: b)

theorem append_cons_eq_iff :
    a ++ x :: b = a' ++ x :: b' ↔ (a = a' ∧ b = b') ∨ Regroups x a b a' b' := by
  constructor
  · intro h
    rcases List.append_eq_append_iff.mp h with ⟨s, ha', hb⟩ | ⟨s, ha, hb'⟩
    · cases s with
      | nil =>
        left
        rw [List.append_nil] at ha'
        exact ⟨ha'.symm, List.cons.inj hb |>.2⟩
      | cons y s =>
        rcases List.cons.inj hb with ⟨rfl, hrest⟩
        exact Or.inr ⟨s, Or.inl ⟨ha', hrest⟩⟩
    · cases s with
      | nil =>
        left
        rw [List.append_nil] at ha
        exact ⟨ha, (List.cons.inj hb').2.symm⟩
      | cons y s =>
        rcases List.cons.inj hb' with ⟨rfl, hrest⟩
        exact Or.inr ⟨s, Or.inr ⟨ha, hrest⟩⟩
  · rintro (⟨rfl, rfl⟩ | ⟨s, ⟨rfl, rfl⟩ | ⟨rfl, rfl⟩⟩)
    · rfl
    · rw [List.append_assoc]
      rfl
    · rw [List.append_assoc]
      rfl

theorem append_cons_inj (hb : x ∉ b) (hb' : x ∉ b') :
    a ++ x :: b = a' ++ x :: b' ↔ a = a' ∧ b = b' := by
  rw [append_cons_eq_iff]
  constructor
  · rintro (heq | ⟨s, ⟨-, rfl⟩ | ⟨-, rfl⟩⟩)
    · exact heq
    · exact absurd (List.mem_append_right s List.mem_cons_self) hb
    · exact absurd (List.mem_append_right s List.mem_cons_self) hb'
  · exact Or.inl

theorem mem_intercalate {y : α} {l : List (List α)} (h : y ∈ [x].intercalate l) :
    y = x ∨ ∃ s ∈ l, y ∈ s := by
  induction l with
  | nil => cases h
  | cons s l ih => ?_
  rcases l with _ | ⟨t, l⟩
  · rw [List.intercalate_singleton] at h
    exact Or.inr ⟨s, List.mem_cons_self, h⟩
  rw [List.intercalate_cons_cons, List.mem_append, List.mem_append, List.mem_singleton] at h
  rcases h with (h | h) | h
  · exact Or.inr ⟨s, List.mem_cons_self, h⟩
  · exact Or.inl h
  · rcases ih h with heq | ⟨u, hu, hy⟩
    · exact Or.inl heq
    · exact Or.inr ⟨u, List.mem_cons_of_mem _ hu, hy⟩

/-! ## Splitting at every separator, and at the first one -/

section

variable [DecidableEq α]

theorem not_mem_of_mem_splitOn {l s : List α} (h : s ∈ l.splitOn x) : x ∉ s := by
  induction l generalizing s with
  | nil =>
    rw [List.splitOn_nil, List.mem_singleton] at h
    rw [h]
    exact List.not_mem_nil
  | cons y l ih => ?_
  rw [List.splitOn_cons_eq_if_modifyHead] at h
  split at h
  · rcases List.mem_cons.mp h with rfl | htail
    · exact List.not_mem_nil
    · exact ih htail
  rename_i hy
  have hne : ¬ x = y := fun hxy => hy (by rw [hxy, BEq.rfl])
  rcases hsplit : l.splitOn x with _ | ⟨t, ts⟩
  · exact absurd hsplit (List.splitOn_ne_nil x l)
  rw [hsplit, List.modifyHead_cons] at h
  rcases List.mem_cons.mp h with rfl | htail
  · rw [List.mem_cons, not_or]
    exact ⟨hne, ih (by rw [hsplit]; exact List.mem_cons_self)⟩
  · exact ih (by rw [hsplit]; exact List.mem_cons_of_mem _ htail)

def cut (x : α) : List α → List α × List α
  | [] => ([], [])
  | y :: l => if y = x then ([], l) else (y :: (cut x l).1, (cut x l).2)

theorem cut_of_not_mem (h : x ∉ a) : cut x a = (a, []) := by
  induction a with
  | nil => rfl
  | cons y a ih =>
    rw [List.mem_cons, not_or] at h
    rw [cut, if_neg (Ne.symm h.1), ih h.2]

theorem cut_append (h : x ∉ a) (b : List α) : cut x (a ++ x :: b) = (a, b) := by
  induction a with
  | nil => rw [List.nil_append, cut, if_pos rfl]
  | cons y a ih =>
    rw [List.mem_cons, not_or] at h
    rw [List.cons_append, cut, if_neg (Ne.symm h.1), ih h.2]

/-- Without a separator the first part is the whole list; with one, the two parts around it make
up the list. -/
theorem cut_cases (x : α) (l : List α) :
    (x ∉ l ∧ cut x l = (l, [])) ∨ (x ∉ (cut x l).1 ∧ l = (cut x l).1 ++ x :: (cut x l).2) := by
  by_cases h : x ∈ l
  · right
    rcases List.eq_append_cons_of_mem h with ⟨a, b, rfl, ha⟩
    rw [cut_append ha b]
    exact ⟨ha, rfl⟩
  · exact Or.inl ⟨h, cut_of_not_mem h⟩

end

end Streams
