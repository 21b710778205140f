import Mathlib

/-!
# Lease — one resource, held until a deadline by one of many

A lease is granted when nobody holds it, when the holder's deadline has passed, or to the holder
itself; who holds it may extend it or end it for good.  A store implements a lease if what it answers
to its calls is permitted by the lease it shows, and if a call it refuses changes nothing.
-/

namespace ObjectFabric

namespace Leases

variable {α σ χ : Type} [DecidableEq α]

inductive Op (α : Type) where
  | acquire (n : α) (deadline : Int)
  | extend (n : α) (deadline : Int)
  | finish (n : α)

structure Lease (α : Type) where
  holder : Option α := none
  deadline : Int := 0
  closed : Bool := false

def Lease.apply (l : Lease α) (now : Int) : Op α → Option (Lease α)
  | .acquire n d =>
    if l.closed = false ∧ ∀ h, l.holder = some h → l.deadline ≤ now ∨ h = n then
      some ⟨some n, d, false⟩
    else none
  | .extend n d => if l.holder = some n then some { l with deadline := d } else none
  | .finish n => if l.holder = some n then some ⟨none, 0, true⟩ else none

/-- A store, the operation that each of its calls stands for, and the lease that it shows. -/
structure Leased (σ χ α : Type) [DecidableEq α] where
  op : Int → χ → Op α
  exec : σ → Int → χ → Bool × σ
  view : σ → Lease α
  granted : ∀ {s now c}, (exec s now c).1 = true →
    (view s).apply now (op now c) = some (view (exec s now c).2)
  refused : ∀ {s now c}, (exec s now c).1 = false → (exec s now c).2 = s

abbrev Log (α : Type) := List (Op α)

def latest : Log α → Option α
  | [] => none
  | .acquire n _ :: _ => some n
  | _ :: log => latest log

def told (n : α) : Log α → Option Int
  | [] => none
  | .acquire n' d :: log | .extend n' d :: log => if n' = n then some d else told n log
  | .finish n' :: log => if n' = n then none else told n log

structure Run (σ α : Type) where
  now : Int
  log : Log α := []
  store : σ

namespace Leased

variable (L : Leased σ χ α)

def step (r : Run σ α) (call : Int × χ) : Run σ α :=
  let answer := L.exec r.store call.1 call.2
  ⟨call.1, if answer.1 then L.op call.1 call.2 :: r.log else r.log, answer.2⟩

def run (r : Run σ α) (calls : List (Int × χ)) : Run σ α := calls.foldl L.step r

def Forward : Int → List (Int × χ) → Prop
  | _, [] => True
  | now, call :: calls => now ≤ call.1 ∧ Forward call.1 calls

/-- No two parties have been told that they hold the lease at a time that has not passed; only the
last to acquire it extends or ends it; and once it is over the store does not change. -/
structure Exclusive (r : Run σ α) : Prop where
  single : ∀ now n n' d d', r.now ≤ now → told n r.log = some d → told n' r.log = some d' →
    now < d → now < d' → n = n'
  fenced : ∀ now c n, (L.exec r.store now c).1 = true →
    (L.op now c = .finish n ∨ ∃ d, L.op now c = .extend n d) → latest r.log = some n
  final : (L.view r.store).closed = true → ∀ calls, (L.run r calls).store = r.store

structure Inv (r : Run σ α) : Prop where
  holder : ∀ n, (L.view r.store).holder = some n →
    latest r.log = some n ∧ (L.view r.store).closed = false
  told : ∀ n d, told n r.log = some d →
    d ≤ r.now ∨ (L.view r.store).holder = some n ∧ (L.view r.store).deadline = d

variable {L}

theorem Inv.refuse {r : Run σ α} (h : L.Inv r) {now : Int} (hnow : r.now ≤ now) :
    L.Inv ⟨now, r.log, r.store⟩ where
  holder := h.holder
  told n d hn := (h.told n d hn).imp_left fun hd => Int.le_trans hd hnow

/-- What a party that does not hold the lease has been told has passed. -/
theorem Inv.passed {r : Run σ α} (h : L.Inv r) {n n' : α} {d' : Int}
    (hholds : (L.view r.store).holder = some n) (hne : n ≠ n') (hn' : Leases.told n' r.log = some d') :
    d' ≤ r.now := by
  rcases h.told n' d' hn' with hpassed | ⟨hother, -⟩
  · exact hpassed
  · exact absurd (Option.some.inj (hholds.symm.trans hother)) hne

theorem Inv.grant {r : Run σ α} (h : L.Inv r) {now d : Int} {n : α} {s : σ} (hnow : r.now ≤ now)
    (ho : (L.view r.store).apply now (.acquire n d) = some (L.view s)) :
    L.Inv ⟨now, .acquire n d :: r.log, s⟩ := by
  rw [Lease.apply, Option.ite_none_right_eq_some] at ho
  obtain ⟨⟨-, hfree⟩, ho⟩ := ho
  have hview : L.view s = ⟨some n, d, false⟩ := (Option.some.inj ho).symm
  constructor
  · intro n' hn'
    rw [hview] at hn' ⊢
    exact ⟨hn', rfl⟩
  intro n' d' hn'
  rw [hview]
  by_cases hsame : n = n'
  · rw [Leases.told, if_pos hsame] at hn'
    exact .inr ⟨congrArg some hsame, Option.some.inj hn'⟩
  rw [Leases.told, if_neg hsame] at hn'
  rcases h.told n' d' hn' with hpassed | ⟨hholds, hd⟩
  · exact .inl (Int.le_trans hpassed hnow)
  · have := (hfree n' hholds).resolve_right (Ne.symm hsame)
    exact .inl (hd ▸ this)

theorem Inv.extend {r : Run σ α} (h : L.Inv r) {now d : Int} {n : α} {s : σ} (hnow : r.now ≤ now)
    (ho : (L.view r.store).apply now (.extend n d) = some (L.view s)) :
    L.Inv ⟨now, .extend n d :: r.log, s⟩ := by
  rw [Lease.apply, Option.ite_none_right_eq_some] at ho
  obtain ⟨hholds, ho⟩ := ho
  have hview : L.view s = { L.view r.store with deadline := d } := (Option.some.inj ho).symm
  constructor
  · intro n' hn'
    rw [hview] at hn' ⊢
    exact h.holder n' hn'
  intro n' d' hn'
  rw [hview]
  by_cases hsame : n = n'
  · rw [Leases.told, if_pos hsame] at hn'
    exact .inr ⟨hsame ▸ hholds, Option.some.inj hn'⟩
  · rw [Leases.told, if_neg hsame] at hn'
    exact .inl (Int.le_trans (h.passed hholds hsame hn') hnow)

theorem Inv.finish {r : Run σ α} (h : L.Inv r) {now : Int} {n : α} {s : σ} (hnow : r.now ≤ now)
    (ho : (L.view r.store).apply now (.finish n) = some (L.view s)) :
    L.Inv ⟨now, .finish n :: r.log, s⟩ := by
  rw [Lease.apply, Option.ite_none_right_eq_some] at ho
  obtain ⟨hholds, ho⟩ := ho
  have hview : L.view s = ⟨none, 0, true⟩ := (Option.some.inj ho).symm
  constructor
  · intro n' hn'
    rw [hview] at hn'
    cases hn'
  intro n' d' hn'
  by_cases hsame : n = n'
  · rw [Leases.told, if_pos hsame] at hn'
    cases hn'
  · rw [Leases.told, if_neg hsame] at hn'
    exact .inl (Int.le_trans (h.passed hholds hsame hn') hnow)

theorem Inv.step {r : Run σ α} (h : L.Inv r) {call : Int × χ} (hnow : r.now ≤ call.1) :
    L.Inv (L.step r call) := by
  simp only [Leased.step]
  rcases hanswer : (L.exec r.store call.1 call.2).1 with _ | _
  · simp only [L.refused hanswer, Bool.false_eq_true, if_false]
    exact h.refuse hnow
  have ho := L.granted hanswer
  simp only [if_true]
  cases hop : L.op call.1 call.2 with
  | acquire n d => exact h.grant hnow (hop ▸ ho)
  | extend n d => exact h.extend hnow (hop ▸ ho)
  | finish n => exact h.finish hnow (hop ▸ ho)

theorem Inv.run {r : Run σ α} (h : L.Inv r) {calls : List (Int × χ)} (hf : Forward r.now calls) :
    L.Inv (L.run r calls) := by
  induction calls generalizing r with
  | nil => exact h
  | cons call calls ih => exact ih (h.step hf.1) hf.2

/-- A lease that is over has no holder, so every call is refused. -/
theorem Inv.refused {r : Run σ α} (h : L.Inv r) (hover : (L.view r.store).closed = true) (now : Int)
    (c : χ) : (L.exec r.store now c).1 = false := by
  have hnone : ∀ n, (L.view r.store).holder ≠ some n := by
    intro n hn
    rw [(h.holder n hn).2] at hover
    cases hover
  rcases hanswer : (L.exec r.store now c).1 with _ | _
  · rfl
  have ho := L.granted hanswer
  cases hop : L.op now c with
  | acquire n d => simp [hop, Lease.apply, hover] at ho
  | extend n d => simp [hop, Lease.apply, hnone n] at ho
  | finish n => simp [hop, Lease.apply, hnone n] at ho

theorem Inv.exclusive {r : Run σ α} (h : L.Inv r) : L.Exclusive r where
  single now n n' d d' hnow hn hn' hd hd' := by
    have hholds := (h.told n d hn).resolve_left (fun hpassed => by omega)
    have hholds' := (h.told n' d' hn').resolve_left (fun hpassed => by omega)
    exact Option.some.inj (hholds.1.symm.trans hholds'.1)
  fenced now c n hanswer hop := by
    have ho := L.granted hanswer
    have hholds : (L.view r.store).holder = some n := by
      rcases hop with hop | ⟨d, hop⟩
      · rw [hop, Lease.apply, Option.ite_none_right_eq_some] at ho
        exact ho.1
      · rw [hop, Lease.apply, Option.ite_none_right_eq_some] at ho
        exact ho.1
    exact (h.holder n hholds).1
  final hover calls := by
    have hkeeps : ∀ r' : Run σ α, r'.store = r.store → (L.run r' calls).store = r.store := by
      induction calls with
      | nil => exact fun r' hr' => hr'
      | cons call calls ih => ?_
      intro r' hr'
      apply ih
      show (L.exec r'.store call.1 call.2).2 = r.store
      rw [hr']
      exact L.refused (h.refused hover call.1 call.2)
    exact hkeeps r rfl

/-- From a store whose lease nobody holds, every run is exclusive throughout. -/
theorem exclusive_run {s : σ} (hfree : (L.view s).holder = none) {now : Int} {calls : List (Int × χ)}
    (hf : Forward now calls) : L.Exclusive (L.run ⟨now, [], s⟩ calls) := by
  have hstart : L.Inv ⟨now, [], s⟩ := by
    constructor
    · intro n hn
      rw [hfree] at hn
      cases hn
    · exact fun n d hn => by cases hn
  exact (hstart.run hf).exclusive

end Leased

end Leases

end ObjectFabric
