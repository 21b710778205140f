import ObjectFabric.Interleaving.Pool

/-!
# Completions — the order in which threads succeed

A run determines the list of the threads that answered with success, in that order, each with the
calls it made.  The list is a history variable: `Protocol.Sound.run_completions` proves a relation
between it and the shared state from what single steps do.
-/

namespace Interleaving

variable {E : Type → Type} {α σ χ : Type}

namespace Pool

def completion (m : Machine E σ χ) (ack : α → Bool) (P : Pool E α σ) (mv : Nat × χ) :
    List (Nat × History E) :=
  match P.threads[mv.1]? with
  | some ⟨past, .call c k⟩ =>
    let r := m.exec mv.2 c P.shared
    match k r.1 with
    | .ret a => if ack a then [(mv.1, ⟨c, r.1⟩ :: past)] else []
    | .call _ _ => []
  | _ => []

def completions (m : Machine E σ χ) (ack : α → Bool) :
    Pool E α σ → List (Nat × χ) → List (Nat × History E)
  | _, [] => []
  | P, mv :: mvs => P.completion m ack mv ++ completions m ack (P.step m mv) mvs

theorem completion_of_call {m : Machine E σ χ} {ack : α → Bool} {P : Pool E α σ} {mv : Nat × χ}
    {past : History E} {β : Type} {c : E β} {k : β → Proc E α}
    (hi : P.threads[mv.1]? = some ⟨past, .call c k⟩) :
    (∃ a, k (m.exec mv.2 c P.shared).1 = .ret a ∧ ack a = true ∧
      P.completion m ack mv = [(mv.1, ⟨c, (m.exec mv.2 c P.shared).1⟩ :: past)]) ∨
    (¬ (∃ a, k (m.exec mv.2 c P.shared).1 = .ret a ∧ ack a = true) ∧
      P.completion m ack mv = []) := by
  unfold completion
  rw [hi]
  simp only
  cases hk : k (m.exec mv.2 c P.shared).1 with
  | call c' k' => exact Or.inr ⟨by simp, rfl⟩
  | ret a => ?_
  cases hack : ack a with
  | true => exact Or.inl ⟨a, rfl, hack, by simp [hack]⟩
  | false => ?_
  apply Or.inr
  refine ⟨?_, by simp [hack]⟩
  rintro ⟨a', ha', hok⟩
  rw [← Proc.ret.inj ha', hack] at hok
  exact absurd hok (by decide)

theorem step_or_completion (m : Machine E σ χ) (ack : α → Bool) (P : Pool E α σ) (mv : Nat × χ) :
    (P.step m mv = P ∧ P.completion m ack mv = []) ∨
    ∃ past, ∃ β : Type, ∃ c : E β, ∃ k, P.threads[mv.1]? = some ⟨past, .call c k⟩ ∧
      (P.step m mv).shared = (m.exec mv.2 c P.shared).2 := by
  unfold step completion
  cases hi : P.threads[mv.1]? with
  | none => exact Or.inl ⟨rfl, rfl⟩
  | some t =>
    rcases t with ⟨past, _ | ⟨c, k⟩⟩
    · exact Or.inl ⟨rfl, rfl⟩
    · exact Or.inr ⟨past, _, c, k, rfl, rfl⟩

end Pool

theorem Protocol.Sound.run_completions {M : Type} [AddCommMonoid M] {D : Protocol E σ χ M}
    {m : Machine E σ χ} {Q : Nat → History E → α → Prop} {ack : α → Bool}
    {J : List (Nat × History E) → σ → Prop} {P : Pool E α σ} {mvs : List (Nat × χ)}
    {L : List (Nat × History E)} (hD : D.Sound m) (hP : D.Good Q P)
    (hJ : ∀ P mv L, D.Good Q P → P.MoveMeets D.held D.cond mv → J L P.shared →
      J (L ++ P.completion m ack mv) (P.step m mv).shared)
    (hmvs : P.Meets D.held m D.cond mvs) (h0 : J L P.shared) :
    J (L ++ P.completions m ack mvs) (P.run m mvs).shared := by
  induction mvs generalizing P L with
  | nil =>
    rw [Pool.completions, List.append_nil]
    exact h0
  | cons mv mvs ih => ?_
  have hstep := hJ P mv L hP hmvs.1 h0
  have hrest := ih (hD.good_step hP hmvs.1) hmvs.2 hstep
  rw [List.append_assoc] at hrest
  exact hrest

end Interleaving
