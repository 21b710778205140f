import Mathlib

/-!
# ClockedLock — calls that read a clock before they take a lock

A call is made of two moves: it reads the clock, and later it runs its body on the shared state with
that reading.  The clock never runs backwards, but the bodies run in any order.  The log of the calls
that have held the lock is kept beside the shared state, which no body can see or change.
-/

namespace Interleaving.ClockedLock

variable {κ τ β σ : Type} [LinearOrder τ]

inductive Move (κ τ : Type) where
  /-- Caller `i` starts a call and reads the clock, which has moved on to `t` at least. -/
  | read (i : Nat) (call : κ) (t : τ)
  | enter (i : Nat)

/-- A call that has held the lock, its reading of the clock and what it answered. -/
structure Entry (κ τ β : Type) where
  call : κ
  reading : τ
  answer : β

structure State (κ τ β σ : Type) where
  clock : τ
  waiting : Nat → Option (κ × τ) := fun _ => none
  /-- The last call comes first. -/
  log : List (Entry κ τ β) := []
  shared : σ

variable (body : κ → τ → σ → β × σ) (ok : κ → τ → σ → Prop)

def step (s : State κ τ β σ) : Move κ τ → State κ τ β σ
  | .read i call t =>
    { s with clock := max s.clock t
             waiting := Function.update s.waiting i (some (call, max s.clock t)) }
  | .enter i =>
    match s.waiting i with
    | none => s
    | some (call, t) =>
      { s with waiting := Function.update s.waiting i none
               log := ⟨call, t, (body call t s.shared).1⟩ :: s.log
               shared := (body call t s.shared).2 }

/-- A call that takes the lock meets `ok`. -/
def MoveMeets (s : State κ τ β σ) : Move κ τ → Prop
  | .read _ _ _ => True
  | .enter i => ∀ w ∈ s.waiting i, ok w.1 w.2 s.shared

def Meets : State κ τ β σ → List (Move κ τ) → Prop
  | _, [] => True
  | s, m :: ms => MoveMeets ok s m ∧ Meets (step body s m) ms

section

variable [∀ call t x, Decidable (ok call t x)]

instance (s : State κ τ β σ) : (m : Move κ τ) → Decidable (MoveMeets ok s m)
  | .read _ _ _ => inferInstanceAs (Decidable True)
  | .enter i => inferInstanceAs (Decidable (∀ w ∈ s.waiting i, ok w.1 w.2 s.shared))

instance decidableMeets : (s : State κ τ β σ) → (ms : List (Move κ τ)) → Decidable (Meets body ok s ms)
  | _, [] => inferInstanceAs (Decidable True)
  | s, m :: ms =>
    have := decidableMeets (step body s m) ms
    inferInstanceAs (Decidable (MoveMeets ok s m ∧ Meets body ok (step body s m) ms))

end

variable {body ok}

/-- No reading is ahead of the clock. -/
def Behind (s : State κ τ β σ) : Prop := ∀ i w, s.waiting i = some w → w.2 ≤ s.clock

theorem step_behind {s : State κ τ β σ} (h : Behind s) (m : Move κ τ) : Behind (step body s m) := by
  intro j w hw
  cases m with
  | read i call t =>
    by_cases hj : j = i
    · simp only [step, hj, Function.update_self, Option.some.injEq] at hw
      exact hw ▸ le_rfl
    · exact (h j w (by simpa [step, Function.update_of_ne hj] using hw)).trans (le_max_left _ _)
  | enter i =>
    simp only [step] at hw ⊢
    split at hw
    · exact h j w hw
    · by_cases hj : j = i
      · simp [hj] at hw
      · exact h j w (by simpa [Function.update_of_ne hj] using hw)

/-- What a body keeps when its call meets `ok` and is logged, every run of such calls keeps; the
invariant may name the clock. -/
theorem run_inv {I : τ → List (Entry κ τ β) → σ → Prop}
    (hclock : ∀ c c' l x, c ≤ c' → I c l x → I c' l x)
    (hI : ∀ c call t l x, t ≤ c → ok call t x → I c l x →
      I c (⟨call, t, (body call t x).1⟩ :: l) (body call t x).2)
    {s : State κ τ β σ} {ms : List (Move κ τ)} (hms : Meets body ok s ms) (hread : Behind s)
    (hs : I s.clock s.log s.shared) :
    I (ms.foldl (step body) s).clock (ms.foldl (step body) s).log (ms.foldl (step body) s).shared := by
  induction ms generalizing s with
  | nil => exact hs
  | cons m ms ih =>
    refine ih hms.2 (step_behind hread m) ?_
    cases m with
    | read i call t => exact hclock _ _ _ _ (le_max_left _ _) hs
    | enter i =>
      simp only [step]
      cases hwaiting : s.waiting i with
      | none => exact hs
      | some w => exact hI _ w.1 w.2 _ _ (hread i w hwaiting) (hms.1 w hwaiting) hs

end Interleaving.ClockedLock
