import Mathlib

/-!
# Proc — programs made of atomic calls

A program is a tree: it either returns, or makes one call of a signature `E` and continues with
whatever the call answers.  `E β` is the type of the calls that answer with a `β`.  Nothing here
says what a call does; a `Machine` gives the calls their meaning over a shared state, and the same
program can be run alone (`Proc.run`) or in a pool with others.

`Proc.Conforms` is the program logic used on single programs: every call the program can make
satisfies a precondition on the calls made so far, for all answers the postcondition admits.
-/

namespace Interleaving

/-- A program over the calls of `E` that returns an `α`. -/
inductive Proc (E : Type → Type) (α : Type) : Type 1 where
  | ret (a : α) : Proc E α
  | call {β : Type} (c : E β) (k : β → Proc E α) : Proc E α

structure Event (E : Type → Type) : Type 1 where
  {ty : Type}
  call : E ty
  result : ty

abbrev History (E : Type → Type) := List (Event E)

/-- The meaning of the calls: `χ` is what the environment picks at each step (the clock reading,
whether the call fails, the order in which a map is listed). -/
structure Machine (E : Type → Type) (σ χ : Type) where
  exec {β : Type} : χ → E β → σ → β × σ

/-- What a program may rely on at its calls: `pre` before the call, `post` of the answer. -/
structure Spec (E : Type → Type) where
  pre {β : Type} : History E → E β → Prop
  post {β : Type} : History E → E β → β → Prop

namespace Proc

variable {E : Type → Type} {α γ σ χ : Type}

protected def bind : Proc E α → (α → Proc E γ) → Proc E γ
  | .ret a, f => f a
  | .call c k, f => .call c fun b => (k b).bind f

instance : Monad (Proc E) where
  pure := .ret
  bind := Proc.bind

/-- The program that makes the one call `c` and returns its answer. -/
def ask {β : Type} (c : E β) : Proc E β := .call c .ret

@[simp] theorem pure_eq (a : α) : (pure a : Proc E α) = .ret a := rfl

@[simp] theorem bind_eq (p : Proc E α) (f : α → Proc E γ) : (p >>= f) = p.bind f := rfl

@[simp] theorem ret_bind (a : α) (f : α → Proc E γ) : (Proc.ret a).bind f = f a := rfl

@[simp] theorem call_bind {β : Type} (c : E β) (k : β → Proc E α) (f : α → Proc E γ) :
    (Proc.call c k).bind f = .call c fun b => (k b).bind f := rfl

@[simp] theorem ask_bind {β : Type} (c : E β) (f : β → Proc E γ) :
    (ask c).bind f = .call c f := rfl

theorem bind_assoc {δ : Type} (p : Proc E α) (f : α → Proc E γ) (g : γ → Proc E δ) :
    (p.bind f).bind g = p.bind fun a => (f a).bind g := by
  induction p with
  | ret a => rfl
  | call c k ih => simp only [call_bind, ih]

/-! ## 1. Running a program alone -/

/-- Run a program to its end.  The `n`-th call is made under the environment's choice `x n`. -/
def run (m : Machine E σ χ) : (Nat → χ) → Proc E α → History E → σ → α × History E × σ
  | _, .ret a, h, s => (a, h, s)
  | x, .call c k, h, s =>
    let r := m.exec (x 0) c s
    (k r.1).run m (fun n => x (n + 1)) (⟨c, r.1⟩ :: h) r.2

theorem run_history {m : Machine E σ χ} {x : Nat → χ} {p : Proc E α} (h h' : History E) {s : σ} :
    (p.run m x h' s).1 = (p.run m x h s).1 := by
  induction p generalizing x h h' s with
  | ret a => rfl
  | call c k ih => exact ih _ _ _

theorem run_bind_ret {m : Machine E σ χ} {x : Nat → χ} {p : Proc E α} {g : α → Proc E γ} {f : α → γ}
    (hg : ∀ a, g a = .ret (f a)) {h : History E} {s : σ} :
    ((p.bind g).run m x h s).1 = f (p.run m x h s).1 := by
  induction p generalizing x h s with
  | ret a =>
    rw [ret_bind, hg]
    rfl
  | call c k ih => exact ih _

theorem run_bind (m : Machine E σ χ) (x : Nat → χ) (p : Proc E α) (f : α → Proc E γ) (h : History E)
    (s : σ) : ∃ y, (p.bind f).run m x h s =
      (f (p.run m x h s).1).run m y (p.run m x h s).2.1 (p.run m x h s).2.2 := by
  induction p generalizing x h s with
  | ret a => exact ⟨x, rfl⟩
  | call c k ih => exact ih _ _ _ _

/-! ## 2. Conformance -/

/-- `p.Conforms S Q h`: started after the calls `h`, every call of `p` satisfies `S.pre`, and when
it returns `a` after the calls `h'` then `Q h' a`, as long as the answers satisfy `S.post`. -/
def Conforms (S : Spec E) (Q : History E → α → Prop) : History E → Proc E α → Prop
  | h, .ret a => Q h a
  | h, .call c k => S.pre h c ∧ ∀ b, S.post h c b → (k b).Conforms S Q (⟨c, b⟩ :: h)

/-- `p` keeps to `S`, whatever it returns. -/
abbrev Follows (S : Spec E) (h : History E) (p : Proc E α) : Prop :=
  p.Conforms S (fun _ _ => True) h

variable {S : Spec E} {Q Q' : History E → α → Prop} {h : History E}

@[simp] theorem conforms_ret (a : α) : (Proc.ret a).Conforms S Q h ↔ Q h a := Iff.rfl

theorem Conforms.mono {p : Proc E α} (hp : p.Conforms S Q h) (hQ : ∀ h a, Q h a → Q' h a) :
    p.Conforms S Q' h := by
  induction p generalizing h with
  | ret a => exact hQ h a hp
  | call c k ih => exact ⟨hp.1, fun b hb => ih b (hp.2 b hb)⟩

theorem Conforms.bind {p : Proc E γ} {f : γ → Proc E α}
    (hp : p.Conforms S (fun h' a => (f a).Conforms S Q h') h) :
    (p.bind f).Conforms S Q h := by
  induction p generalizing h with
  | ret a => exact hp
  | call c k ih => exact ⟨hp.1, fun b hb => ih b (hp.2 b hb)⟩

/-- The rule for a call and what follows it. -/
theorem Conforms.ask {β : Type} {c : E β} {f : β → Proc E α} (hc : S.pre h c)
    (hf : ∀ b, S.post h c b → (f b).Conforms S Q (⟨c, b⟩ :: h)) : ((ask c).bind f).Conforms S Q h :=
  ⟨hc, hf⟩

/-- The rule for two programs in sequence. -/
theorem Conforms.seq {p : Proc E γ} {P : History E → γ → Prop} {f : γ → Proc E α}
    (hp : p.Conforms S P h) (hf : ∀ h' a, P h' a → (f a).Conforms S Q h') :
    (p.bind f).Conforms S Q h :=
  (hp.mono hf).bind

theorem Conforms.weaken {S' : Spec E} {p : Proc E α}
    (hpre : ∀ (h : History E) {β : Type} (c : E β), S.pre h c → S'.pre h c)
    (hpost : ∀ (h : History E) {β : Type} (c : E β) (b : β), S'.post h c b → S.post h c b)
    (hp : p.Conforms S Q h) : p.Conforms S' Q h := by
  induction p generalizing h with
  | ret a => exact hp
  | call c k ih => exact ⟨hpre h c hp.1, fun b hb => ih b (hp.2 b (hpost h c b hb))⟩

def anyCalls : Spec E := ⟨fun _ _ => True, fun _ _ _ => True⟩

theorem Conforms.run {m : Machine E σ χ} {p : Proc E α} (hp : p.Conforms anyCalls Q h)
    (x : Nat → χ) (s : σ) : Q (p.run m x h s).2.1 (p.run m x h s).1 := by
  induction p generalizing x h s with
  | ret a => exact hp
  | call c k ih => exact ih _ (hp.2 _ trivial) _ _

/-! ## 3. Programs limited to some calls -/

/-- Every call the program can make satisfies `ok`, whatever the answers. -/
def Only (ok : ∀ {β : Type}, E β → Prop) : Proc E α → Prop
  | .ret _ => True
  | .call c k => ok c ∧ ∀ b, (k b).Only ok

theorem Only.mono {ok ok' : ∀ {β : Type}, E β → Prop} {p : Proc E α} (hp : p.Only ok)
    (h : ∀ {β : Type} (c : E β), ok c → ok' c) : p.Only ok' := by
  induction p with
  | ret a => trivial
  | call c k ih => exact ⟨h c hp.1, fun b => ih b (hp.2 b)⟩

theorem Only.bind {ok : ∀ {β : Type}, E β → Prop} {p : Proc E γ} {f : γ → Proc E α}
    (hp : p.Only ok) (hf : ∀ a, (f a).Only ok) : (p.bind f).Only ok := by
  induction p with
  | ret a => exact hf a
  | call c k ih => exact ⟨hp.1, fun b => ih b (hp.2 b)⟩

theorem Only.ask {ok : ∀ {β : Type}, E β → Prop} {β : Type} {c : E β} {f : β → Proc E α} (hc : ok c)
    (hf : ∀ b, (f b).Only ok) : ((ask c).bind f).Only ok :=
  ⟨hc, hf⟩

/-- A program without calls of a kind adds none to the history. -/
theorem Only.made_iff {P : ∀ {β : Type}, E β → Prop} {m : Machine E σ χ} {x : Nat → χ} {s : σ}
    {p : Proc E α} (hp : p.Only fun c => ¬ P c) :
    (∃ e ∈ (p.run m x h s).2.1, P e.call) ↔ ∃ e ∈ h, P e.call := by
  induction p generalizing x h s with
  | ret a => rfl
  | call c k ih =>
    refine (ih _ (hp.2 _)).trans ?_
    simp only [List.mem_cons, exists_eq_or_imp]
    exact or_iff_right hp.1

theorem Only.conforms {ok : ∀ {β : Type}, E β → Prop} {R : History E → Prop} {p : Proc E α}
    (hp : p.Only ok)
    (hok : ∀ (h : History E) {β : Type} (c : E β), ok c → R h → S.pre h c ∧ ∀ b, R (⟨c, b⟩ :: h))
    (hR : R h) : p.Conforms S (fun h' _ => R h') h := by
  induction p generalizing h with
  | ret a => exact hR
  | call c k ih =>
    have hc := hok h c hp.1 hR
    exact ⟨hc.1, fun b _ => ih b (hp.2 b) (hc.2 b)⟩

/-- A specification that only looks at the call itself limits the program to the calls it permits. -/
theorem Conforms.only {ok : ∀ {β : Type}, E β → Prop} {p : Proc E α}
    (hp : p.Conforms ⟨fun _ c => ok c, fun _ _ _ => True⟩ Q h) : p.Only ok := by
  induction p generalizing h with
  | ret a => trivial
  | call c k ih => exact ⟨hp.1, fun b => ih b (hp.2 b trivial)⟩

end Proc

end Interleaving
