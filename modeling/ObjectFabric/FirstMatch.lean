import Mathlib

/-!
# FirstMatch — a search that stops at one candidate

The code looks for the first element that satisfies `p` and tests `q` on that element only.  This
agrees with "some element satisfies both" unless the first candidate fails `q` and a later one does
not.
-/

namespace FirstMatch

variable {α : Type} (p q : α → Bool) (l : List α)

/-- The first candidate fails the test and one behind it passes. -/
def Shadowed : Prop :=
  ∃ before a after, l = before ++ a :: after ∧ (∀ b ∈ before, p b = false) ∧ p a = true ∧
    q a = false ∧ ∃ b ∈ after, p b = true ∧ q b = true

variable {p q l}

theorem find?_of_split {before after : List α} {a : α} (hl : l = before ++ a :: after)
    (hbefore : ∀ b ∈ before, p b = false) (ha : p a = true) : l.find? p = some a :=
  List.find?_eq_some_iff_append.mpr ⟨ha, before, after, hl, fun b hb => by simp [hbefore b hb]⟩

theorem find?_any_iff :
    ((l.find? p).any q = true ↔ ∃ a ∈ l, p a = true ∧ q a = true) ↔ ¬ Shadowed p q l := by
  constructor
  · rintro h ⟨before, a, after, hl, hbefore, ha, hqa, b, hb, hpqb⟩
    have hany := h.mpr ⟨b, by simp [hl, hb], hpqb⟩
    rw [find?_of_split hl hbefore ha, Option.any_some, hqa] at hany
    cases hany
  intro hshadow
  rcases hfind : l.find? p with _ | a
  · have hnone := List.find?_eq_none.mp hfind
    exact ⟨(by cases ·), fun ⟨b, hb, hpb, _⟩ => absurd hpb (hnone b hb)⟩
  rcases List.find?_eq_some_iff_append.mp hfind with ⟨ha, before, after, hl, hbefore⟩
  refine ⟨fun hqa => ⟨a, List.mem_of_find?_eq_some hfind, ha, hqa⟩, ?_⟩
  · rintro ⟨b, hb, hpb, hqb⟩
    simp only [Bool.not_eq_true'] at hbefore
    by_contra hqa
    rw [Option.any_some, Bool.not_eq_true] at hqa
    refine hshadow ⟨before, a, after, hl, hbefore, ha, hqa, b, ?_, hpb, hqb⟩
    rw [hl, List.mem_append, List.mem_cons] at hb
    rcases hb with hb | rfl | hb
    · rw [hbefore b hb] at hpb
      cases hpb
    · rw [hqb] at hqa
      cases hqa
    · exact hb

end FirstMatch
