import ObjectFabric.Interleaving.Proc

/-!
# Sequential — what a program run alone achieves

`p.Ensures m ok s Q`: run from `s`, with every choice of the environment satisfying `ok`, the
program ends with an answer and a state that satisfy `Q`.  `p.Admits m s Q` is the other side: for
some choices it does.
-/

namespace Interleaving

namespace Proc

variable {E : Type → Type} {α γ σ χ : Type}

def Ensures (m : Machine E σ χ) (ok : χ → Prop) : Proc E α → σ → (α → σ → Prop) → Prop
  | .ret a, s, Q => Q a s
  | .call c k, s, Q =>
    ∀ x, ok x → (k (m.exec x c s).1).Ensures m ok (m.exec x c s).2 Q

variable {m : Machine E σ χ} {ok : χ → Prop} {s : σ}

theorem Ensures.run {p : Proc E α} {Q : α → σ → Prop} (hp : p.Ensures m ok s Q) {x : Nat → χ}
    (hx : ∀ n, ok (x n)) (h : History E) : Q (p.run m x h s).1 (p.run m x h s).2.2 := by
  induction p generalizing x h s with
  | ret a => exact hp
  | call c k ih => exact ih _ (hp (x 0) (hx 0)) (fun n => hx (n + 1)) _

theorem Ensures.mono {p : Proc E α} {Q Q' : α → σ → Prop} (hp : p.Ensures m ok s Q)
    (hQ : ∀ a s, Q a s → Q' a s) : p.Ensures m ok s Q' := by
  induction p generalizing s with
  | ret a => exact hQ a s hp
  | call c k ih => exact fun x hx => ih _ (hp x hx)

theorem Ensures.bind {p : Proc E γ} {f : γ → Proc E α} {Q : α → σ → Prop}
    (hp : p.Ensures m ok s fun a s' => (f a).Ensures m ok s' Q) : (p.bind f).Ensures m ok s Q := by
  induction p generalizing s with
  | ret a => exact hp
  | call c k ih => exact fun x hx => ih _ (hp x hx)

theorem Ensures.seq {p : Proc E γ} {f : γ → Proc E α} {P : γ → σ → Prop} {Q : α → σ → Prop}
    (hp : p.Ensures m ok s P) (hf : ∀ a s', P a s' → (f a).Ensures m ok s' Q) :
    (p.bind f).Ensures m ok s Q :=
  (hp.mono hf).bind

theorem Ensures.of_forall {p : Proc E α} {Q : α → σ → Prop} (hQ : ∀ a s, Q a s) :
    p.Ensures m ok s Q := by
  induction p generalizing s with
  | ret a => exact hQ a s
  | call c k ih => exact fun x _ => ih _

theorem ensures_quiet {β : Type} {c : E β} (hc : ∀ x, (m.exec x c s).2 = s) {k : β → Proc E α}
    {Q : α → σ → Prop} (h : ∀ b, (k b).Ensures m ok s Q) :
    ((ask c).bind k).Ensures m ok s Q := by
  intro x _
  rw [hc x]
  exact h _

theorem Only.ensures {quiet : ∀ {β : Type}, E β → Prop} {p : Proc E α} (hp : p.Only quiet)
    (hquiet : ∀ {β : Type} (x : χ) (c : E β), quiet c → (m.exec x c s).2 = s) :
    p.Ensures m ok s fun _ s' => s' = s := by
  induction p with
  | ret a => rfl
  | call c k ih =>
    intro x _
    rw [hquiet x c hp.1]
    exact ih _ (hp.2 _)

theorem Only.run_congr {quiet : ∀ {β : Type}, E β → Prop} {p : Proc E α} (hp : p.Only quiet)
    {s' : σ} (hquiet : ∀ {β : Type} (x : χ) (c : E β), quiet c → (m.exec x c s).2 = s ∧
      (m.exec x c s').2 = s' ∧ (m.exec x c s).1 = (m.exec x c s').1) (x : Nat → χ)
    (h h' : History E) : (p.run m x h s).1 = (p.run m x h' s').1 := by
  induction p generalizing x h h' with
  | ret a => rfl
  | call c k ih => ?_
  rcases hquiet (x 0) c hp.1 with ⟨hs, hs', hsame⟩
  unfold run
  simp only
  rw [hs, hs', hsame]
  exact ih _ (hp.2 _) _ _ _

def Admits (m : Machine E σ χ) (ok : χ → Prop) : Proc E α → σ → (α → σ → Prop) → Prop
  | .ret a, s, Q => Q a s
  | .call c k, s, Q => ∃ x, ok x ∧ (k (m.exec x c s).1).Admits m ok (m.exec x c s).2 Q

theorem Admits.run {p : Proc E α} {Q : α → σ → Prop} (hp : p.Admits m ok s Q) {y : χ}
    (hy : ok y) : ∃ x : Nat → χ, (∀ n, ok (x n)) ∧
      ∀ h : History E, Q (p.run m x h s).1 (p.run m x h s).2.2 := by
  induction p generalizing s with
  | ret a => exact ⟨fun _ => y, fun _ => hy, fun _ => hp⟩
  | call c k ih => ?_
  obtain ⟨x, hx, hrest⟩ := hp
  obtain ⟨xs, hxs, hend⟩ := ih _ hrest
  refine ⟨fun | 0 => x | n + 1 => xs n, fun n => ?_, fun h => ?_⟩
  · cases n with
    | zero => exact hx
    | succ n => exact hxs n
  · exact hend _

theorem Admits.bind {p : Proc E γ} {f : γ → Proc E α} {Q : α → σ → Prop}
    (hp : p.Admits m ok s fun a s' => (f a).Admits m ok s' Q) : (p.bind f).Admits m ok s Q := by
  induction p generalizing s with
  | ret a => exact hp
  | call c k ih =>
    obtain ⟨x, hx, hrest⟩ := hp
    exact ⟨x, hx, ih _ hrest⟩

theorem Admits.mono {p : Proc E α} {Q Q' : α → σ → Prop} (hp : p.Admits m ok s Q)
    (hQ : ∀ a s, Q a s → Q' a s) : p.Admits m ok s Q' := by
  induction p generalizing s with
  | ret a => exact hQ a s hp
  | call c k ih =>
    obtain ⟨x, hx, hrest⟩ := hp
    exact ⟨x, hx, ih _ hrest⟩

theorem Ensures.admits {p : Proc E α} {Q : α → σ → Prop} (hp : p.Ensures m ok s Q) {x : χ}
    (hx : ok x) : p.Admits m ok s Q := by
  induction p generalizing s with
  | ret a => exact hp
  | call c k ih => exact ⟨x, hx, ih _ (hp x hx)⟩

/-! ## Invariants between the calls -/

/-- Every call satisfies `P`, and the answers are those the machine gives in states that satisfy `I`
after the calls made so far. -/
def within (m : Machine E σ χ) (I : History E → σ → Prop) (P : ∀ {β : Type}, E β → Prop) :
    Spec E where
  pre _ c := P c
  post h c b := ∃ x s, I h s ∧ (m.exec x c s).1 = b

theorem Conforms.run_within {I : History E → σ → Prop} {P : ∀ {β : Type}, E β → Prop}
    {p : Proc E α} {Q : History E → α → Prop} {h : History E}
    (hp : p.Conforms (within m I P) Q h)
    (hkeep : ∀ {β : Type} (h : History E) (x : χ) (c : E β) (s : σ), P c → I h s →
      I (⟨c, (m.exec x c s).1⟩ :: h) (m.exec x c s).2) (hI : I h s) (x : Nat → χ) :
    (∀ e ∈ (p.run m x h s).2.1, e ∈ h ∨ P e.call) ∧
      I (p.run m x h s).2.1 (p.run m x h s).2.2 := by
  induction p generalizing x h s with
  | ret a => exact ⟨fun e he => Or.inl he, hI⟩
  | call c k ih => ?_
  have hrest := ih _ (hp.2 _ ⟨x 0, s, hI, rfl⟩) (hkeep h (x 0) c s hp.1 hI) fun n => x (n + 1)
  refine ⟨fun e he => ?_, hrest.2⟩
  rcases hrest.1 e he with hmem | hP
  · rcases List.mem_cons.mp hmem with rfl | hold
    · exact Or.inr hp.1
    · exact Or.inl hold
  · exact Or.inr hP

theorem Only.run_within {I : σ → Prop} {P : ∀ {β : Type}, E β → Prop} {p : Proc E α}
    (hp : p.Only P) (hkeep : ∀ {β : Type} (x : χ) (c : E β) (s : σ), P c → I s → I (m.exec x c s).2)
    (hI : I s) (x : Nat → χ) (h : History E) :
    (∀ e ∈ (p.run m x h s).2.1, e ∈ h ∨ P e.call) ∧ I (p.run m x h s).2.2 := by
  have hconforms : p.Follows (within m (fun _ => I) P) h :=
    hp.conforms (R := fun _ => True) (fun _ _ _ hc _ => ⟨hc, fun _ => trivial⟩) trivial
  exact hconforms.run_within (fun _ x c s hc hs => hkeep x c s hc hs) hI x

end Proc

end Interleaving
