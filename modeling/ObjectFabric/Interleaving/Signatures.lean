import ObjectFabric.Interleaving.Sequential

/-!
# Signatures — programs over a larger signature

When every call of `E` is a call of `F`, a program over `E` is one over `F`.  What it ensures, and
what it conforms to, carries over.
-/

namespace Interleaving

namespace Proc

variable {E F : Type → Type} {α γ σ τ χ : Type}

def lift (f : ∀ {β : Type}, E β → F β) : Proc E α → Proc F α
  | .ret a => .ret a
  | .call c k => .call (f c) fun b => (k b).lift f

variable {f : ∀ {β : Type}, E β → F β} {p : Proc E α}

def plainly (P : ∀ {β : Type}, E β → Prop) (R : ∀ {β : Type}, E β → β → Prop) : Spec E where
  pre _ c := P c
  post _ c b := R c b

theorem Conforms.lift {P : ∀ {β : Type}, F β → Prop} {R : ∀ {β : Type}, F β → β → Prop}
    {Q : α → Prop} {h : History E} (h' : History F)
    (hp : p.Conforms (plainly (fun c => P (f c)) fun c b => R (f c) b) (fun _ => Q) h) :
    (p.lift f).Conforms (plainly P R) (fun _ => Q) h' := by
  induction p generalizing h h' with
  | ret a => exact hp
  | call c k ih => exact ⟨hp.1, fun b hb => ih b _ (hp.2 b hb)⟩

theorem Ensures.lift {m : Machine E σ χ} {m' : Machine F τ χ} {ok : χ → Prop} {t : τ} {s : σ}
    {Q : α → τ → Prop} (put : τ → σ → τ)
    (hexec : ∀ {β : Type} (x : χ) (c : E β) (s : σ),
      m'.exec x (f c) (put t s) = ((m.exec x c s).1, put t (m.exec x c s).2))
    (hp : p.Ensures m ok s fun a s' => Q a (put t s')) : (p.lift f).Ensures m' ok (put t s) Q := by
  induction p generalizing s with
  | ret a => exact hp
  | call c k ih =>
    intro x hx
    rw [hexec]
    exact ih _ (hp x hx)

end Proc

end Interleaving
