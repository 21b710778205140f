import ObjectFabric.Interleaving.Proc

/-!
# Pool — interleavings of programs over one shared state

A pool is a shared state and a list of threads.  A move `(i, x)` lets thread `i` make its next call
under the environment's choice `x`; a run is any list of moves.  What a thread holds of the shared
state (references it counts in, pieces it owns) is a function `held` of the calls it has made, so
the state needs no bookkeeping of its own, and a condition on a step can speak of what the other
threads hold.

`Protocol.Sound.run` is the one induction over runs: an invariant that every permitted call keeps
holds in every state the pool reaches.
-/

namespace Interleaving

structure Thread (E : Type → Type) (α : Type) : Type 1 where
  past : History E
  rest : Proc E α

structure Pool (E : Type → Type) (α σ : Type) : Type 1 where
  shared : σ
  threads : List (Thread E α)

/-- A condition on a step: the number of the thread, its calls so far, its next call, the
environment's choice, the shared state and what the other threads hold. -/
abbrev Condition (E : Type → Type) (χ σ M : Type) :=
  Nat → History E → ∀ {β : Type}, E β → χ → σ → M → Prop

variable {E : Type → Type} {α σ χ M : Type}

def Thread.start (p : Proc E α) : Thread E α := ⟨[], p⟩

def Thread.result? (t : Thread E α) : Option α :=
  match t.rest with
  | .ret a => some a
  | .call _ _ => none

def Thread.held [Zero M] (hold : History E → M) (t : Thread E α) : M :=
  match t.rest with
  | .ret _ => 0
  | .call _ _ => hold t.past

namespace Pool

def start (s : σ) (ps : List (Proc E α)) : Pool E α σ := ⟨s, ps.map Thread.start⟩

theorem past_start {s : σ} {ps : List (Proc E α)} {i : Nat} {t : Thread E α}
    (ht : (start s ps).threads[i]? = some t) : t.past = [] := by
  rw [start, List.getElem?_map, Option.map_eq_some_iff] at ht
  obtain ⟨p, -, rfl⟩ := ht
  rfl

/-- Thread `mv.1` makes its next call; a thread that is missing or finished does nothing. -/
def step (m : Machine E σ χ) (P : Pool E α σ) (mv : Nat × χ) : Pool E α σ :=
  match P.threads[mv.1]? with
  | some ⟨past, .call c k⟩ =>
    let r := m.exec mv.2 c P.shared
    ⟨r.2, P.threads.set mv.1 ⟨⟨c, r.1⟩ :: past, k r.1⟩⟩
  | _ => P

def run (m : Machine E σ χ) (P : Pool E α σ) (mvs : List (Nat × χ)) : Pool E α σ :=
  mvs.foldl (step m) P

section

variable (m : Machine E σ χ)
include m

@[simp] theorem run_nil (P : Pool E α σ) : P.run m [] = P := rfl

@[simp] theorem run_cons (P : Pool E α σ) (mv : Nat × χ)
    (mvs : List (Nat × χ)) : P.run m (mv :: mvs) = (P.step m mv).run m mvs := rfl

theorem run_append (P : Pool E α σ) (l l' : List (Nat × χ)) :
    P.run m (l ++ l') = (P.run m l).run m l' := List.foldl_append

theorem step_cases (P : Pool E α σ) (mv : Nat × χ) :
    P.step m mv = P ∨
    ∃ past, ∃ β : Type, ∃ c : E β, ∃ k, P.threads[mv.1]? = some ⟨past, .call c k⟩ ∧
      P.step m mv = ⟨(m.exec mv.2 c P.shared).2,
        P.threads.set mv.1 ⟨⟨c, (m.exec mv.2 c P.shared).1⟩ :: past,
          k (m.exec mv.2 c P.shared).1⟩⟩ := by
  unfold step
  split
  · rename_i past β c k hi
    exact Or.inr ⟨past, β, c, k, hi, rfl⟩
  · exact Or.inl rfl

end

/-! ## 1. What the threads hold -/

section Held

variable [AddCommMonoid M] (hold : History E → M)

def held (P : Pool E α σ) : M := (P.threads.map (Thread.held hold)).sum

def heldByOthers (P : Pool E α σ) (i : Nat) : M :=
  ((P.threads.eraseIdx i).map (Thread.held hold)).sum

theorem held_eq_add_others (P : Pool E α σ) {i : Nat} {t : Thread E α}
    (hi : P.threads[i]? = some t) :
    P.held hold = t.held hold + P.heldByOthers hold i := by
  obtain ⟨hlt, rfl⟩ := List.getElem?_eq_some_iff.mp hi
  have hperm := (List.getElem_cons_eraseIdx_perm hlt).map (Thread.held hold)
  rw [Pool.held, ← hperm.sum_eq, List.map_cons, List.sum_cons]
  rfl

theorem held_set (P : Pool E α σ) (s : σ) {i : Nat} (t : Thread E α) (hi : i < P.threads.length) :
    Pool.held hold ⟨s, P.threads.set i t⟩ = t.held hold + P.heldByOthers hold i := by
  have hget : (P.threads.set i t)[i]? = some t := List.getElem?_set_self hi
  rw [held_eq_add_others hold ⟨s, P.threads.set i t⟩ hget, heldByOthers, List.eraseIdx_set_eq]
  rfl

def MoveMeets (C : Condition E χ σ M) (P : Pool E α σ) (mv : Nat × χ) : Prop :=
  match P.threads[mv.1]? with
  | some ⟨past, .call c _⟩ => C mv.1 past c mv.2 P.shared (P.heldByOthers hold mv.1)
  | _ => True

def Meets (m : Machine E σ χ) (C : Condition E χ σ M) : Pool E α σ → List (Nat × χ) → Prop
  | _, [] => True
  | P, mv :: mvs => MoveMeets hold C P mv ∧ Meets m C (P.step m mv) mvs

theorem meets_append (m : Machine E σ χ) (C : Condition E χ σ M) (P : Pool E α σ)
    (l l' : List (Nat × χ)) :
    P.Meets hold m C (l ++ l') ↔ P.Meets hold m C l ∧ (P.run m l).Meets hold m C l' := by
  induction l generalizing P with
  | nil => exact ⟨fun h => ⟨trivial, h⟩, And.right⟩
  | cons mv l ih =>
    rw [List.cons_append, run_cons, Meets, Meets, ih (P.step m mv), and_assoc]

section Decidable

variable {C : Condition E χ σ M}
  [∀ (i : Nat) (h : History E) {β : Type} (c : E β) (x : χ) (s : σ) (R : M), Decidable (C i h c x s R)]

instance decidableMoveMeets (P : Pool E α σ) (mv : Nat × χ) : Decidable (P.MoveMeets hold C mv) :=
  match hi : P.threads[mv.1]? with
  | some ⟨past, .call c _⟩ =>
    decidable_of_iff (C mv.1 past c mv.2 P.shared (P.heldByOthers hold mv.1)) (by simp [MoveMeets, hi])
  | some ⟨_, .ret _⟩ => .isTrue (by simp [MoveMeets, hi])
  | none => .isTrue (by simp [MoveMeets, hi])

instance decidableMeets (m : Machine E σ χ) (P : Pool E α σ) (mvs : List (Nat × χ)) :
    Decidable (P.Meets hold m C mvs) :=
  match mvs with
  | [] => .isTrue trivial
  | mv :: mvs =>
    have := decidableMeets m (P.step m mv) mvs
    inferInstanceAs (Decidable (MoveMeets hold C P mv ∧ Meets hold m C (P.step m mv) mvs))

end Decidable

theorem meets_of_forall (m : Machine E σ χ) {C : Condition E χ σ M}
    (hC : ∀ (i : Nat) (h : History E) {β : Type} (c : E β) (x : χ) (s : σ) (R : M), C i h c x s R)
    (P : Pool E α σ) (mvs : List (Nat × χ)) : P.Meets hold m C mvs := by
  induction mvs generalizing P with
  | nil => trivial
  | cons mv mvs ih => ?_
  refine ⟨?_, ih _⟩
  unfold MoveMeets
  split
  · exact hC ..
  · trivial

end Held

end Pool

/-! ## 2. Invariants over runs -/

/-- An invariant of the shared state and of what the threads hold together, the condition the steps
are taken under, and the specification each thread's program conforms to. -/
structure Protocol (E : Type → Type) (σ χ M : Type) where
  held : History E → M
  inv : σ → M → Prop
  cond : Condition E χ σ M
  spec : Nat → Spec E

namespace Protocol

variable [AddCommMonoid M]

/-- Every permitted call keeps the invariant and answers as specified.  `R` is what the other
threads hold. -/
structure Sound (D : Protocol E σ χ M) (m : Machine E σ χ) : Prop where
  step : ∀ {β : Type} (i : Nat) (h : History E) (c : E β) (x : χ) (s : σ) (R : M),
    (D.spec i).pre h c → D.inv s (D.held h + R) → D.cond i h c x s R →
      (D.spec i).post h c (m.exec x c s).1 ∧
        D.inv (m.exec x c s).2 (D.held (⟨c, (m.exec x c s).1⟩ :: h) + R)
  drop : ∀ (s : σ) (r R : M), D.inv s (r + R) → D.inv s R

/-- The invariant holds and every thread conforms; `Q i` is what thread `i` has achieved when it
returns. -/
structure Good (D : Protocol E σ χ M) (Q : Nat → History E → α → Prop) (P : Pool E α σ) :
    Prop where
  inv : D.inv P.shared (P.held D.held)
  conforms : ∀ (i : Nat) (t : Thread E α), P.threads[i]? = some t →
    t.rest.Conforms (D.spec i) (Q i) t.past

variable {D : Protocol E σ χ M} {m : Machine E σ χ} {Q : Nat → History E → α → Prop}

theorem Good.inv_thread {P : Pool E α σ} (hP : D.Good Q P) {i : Nat} {t : Thread E α}
    (hi : P.threads[i]? = some t) : D.inv P.shared (t.held D.held + P.heldByOthers D.held i) := by
  rw [← Pool.held_eq_add_others D.held P hi]
  exact hP.inv

theorem Sound.good_step (hD : D.Sound m) {P : Pool E α σ} {mv : Nat × χ} (hP : D.Good Q P)
    (hmv : P.MoveMeets D.held D.cond mv) : D.Good Q (P.step m mv) := by
  rcases P.step_cases m mv with hstep | ⟨past, β, c, k, hi, hstep⟩
  · rw [hstep]
    exact hP
  have hlt : mv.1 < P.threads.length := (List.getElem?_eq_some_iff.mp hi).1
  have hcond : D.cond mv.1 past c mv.2 P.shared (P.heldByOthers D.held mv.1) := by
    simpa only [Pool.MoveMeets, hi] using hmv
  have hinv : D.inv P.shared (D.held past + P.heldByOthers D.held mv.1) := hP.inv_thread hi
  obtain ⟨hpre, hrest⟩ := hP.conforms mv.1 _ hi
  obtain ⟨hpost, hinv'⟩ := hD.step mv.1 past c mv.2 P.shared _ hpre hinv hcond
  rw [hstep]
  generalize m.exec mv.2 c P.shared = r at hpost hinv' ⊢
  refine ⟨?_, fun i t ht => ?_⟩
  · rw [Pool.held_set D.held P _ _ hlt]
    -- a thread whose last call this was gives up what it still holds
    cases hk : k r.1 with
    | ret a =>
      simpa only [Thread.held, zero_add] using hD.drop _ _ _ hinv'
    | call c' k' => exact hinv'
  · by_cases hij : mv.1 = i
    · subst hij
      rw [List.getElem?_set_self hlt] at ht
      obtain rfl := Option.some.inj ht
      exact hrest r.1 hpost
    · rw [List.getElem?_set_ne hij] at ht
      exact hP.conforms i t ht

theorem Sound.run (hD : D.Sound m) {P : Pool E α σ} {mvs : List (Nat × χ)} (hP : D.Good Q P)
    (hmvs : P.Meets D.held m D.cond mvs) : D.Good Q (P.run m mvs) := by
  induction mvs generalizing P with
  | nil => exact hP
  | cons mv mvs ih => exact ih (hD.good_step hP hmvs.1) hmvs.2

theorem Sound.run_under (hD : D.Sound m) {C : Condition E χ σ M} {P : Pool E α σ}
    {mvs : List (Nat × χ)}
    (hC : ∀ (P : Pool E α σ) (mv : Nat × χ), D.Good Q P → P.MoveMeets D.held C mv →
      P.MoveMeets D.held D.cond mv)
    (hP : D.Good Q P) (hmvs : P.Meets D.held m C mvs) : D.Good Q (P.run m mvs) := by
  induction mvs generalizing P with
  | nil => exact hP
  | cons mv mvs ih => exact ih (hD.good_step hP (hC P mv hP hmvs.1)) hmvs.2

theorem Sound.run_keeps (hD : D.Sound m) {I : Pool E α σ → Prop} {P : Pool E α σ}
    {mvs : List (Nat × χ)}
    (hI : ∀ P mv, D.Good Q P → P.MoveMeets D.held D.cond mv → I P → I (P.step m mv))
    (hP : D.Good Q P) (h0 : I P) (hmvs : P.Meets D.held m D.cond mvs) : I (P.run m mvs) := by
  induction mvs generalizing P with
  | nil => exact h0
  | cons mv mvs ih => exact ih (hD.good_step hP hmvs.1) (hI P mv hP hmvs.1 h0) hmvs.2

theorem good_start {s : σ} {ps : List (Proc E α)} (h0 : D.held [] = 0) (hs : D.inv s 0)
    (hps : ∀ (i : Nat) (p : Proc E α), ps[i]? = some p → p.Conforms (D.spec i) (Q i) []) :
    D.Good Q (Pool.start s ps) := by
  refine ⟨?_, fun i t ht => ?_⟩
  · have hzero : (Pool.start s ps).held D.held = 0 := by
      unfold Pool.held Pool.start
      apply List.sum_eq_zero
      intro x hx
      simp only [List.map_map, List.mem_map, Function.comp_apply] at hx
      obtain ⟨p, -, rfl⟩ := hx
      cases p with
      | ret a => rfl
      | call c k => exact h0
    rw [hzero]
    exact hs
  · simp only [Pool.start, List.getElem?_map, Option.map_eq_some_iff] at ht
    obtain ⟨p, hp, rfl⟩ := ht
    exact hps i p hp

end Protocol

end Interleaving
