import ObjectFabric.Console.FactorBinding

/-!
# FactorReplay — no factor is accepted twice

Along any interleaving of login, activate and disable requests the accepted time steps increase and
no recovery code is accepted twice.  The induction is on the moves still to come: the row bounds what
the store may accept from here on, and every step that accepts something tightens that bound.
Without enroll requests no enrollment is replaced, so what `FactorBinding` says of such runs holds of
all of these.
-/

namespace ObjectFabric

open Interleaving Proc

def Factor.step? : Factor → Option Int
  | .step n => some n
  | .recovery _ => none

def Factor.recovery? : Factor → Option String
  | .step _ => none
  | .recovery hash => some hash

def acceptedSteps (accepted : List Acceptance) : List Int :=
  accepted.filterMap fun a => a.factor.step?

def acceptedRecoveries (accepted : List Acceptance) : List String :=
  accepted.filterMap fun a => a.factor.recovery?

/-! ## 1. What a row allows -/

structure PossibleFrom (row? : Option MFARow) (accepted : List Acceptance) : Prop where
  increasing : (acceptedSteps accepted).Pairwise (· < ·)
  distinct : (acceptedRecoveries accepted).Nodup
  later : ∀ row, row? = some row → row.active = true →
    ∀ n ∈ acceptedSteps accepted, row.lastStep < n
  unused : ∀ row, row? = some row → row.active = true →
    ∀ hash ∈ acceptedRecoveries accepted, hash ∈ row.recovery
  nothing : row? = none → accepted = []

theorem possibleFrom_nil (row? : Option MFARow) : PossibleFrom row? [] where
  increasing := List.Pairwise.nil
  distinct := List.nodup_nil
  later _ _ _ _ hn := absurd hn List.not_mem_nil
  unused _ _ _ _ hmem := absurd hmem List.not_mem_nil
  nothing _ := rfl

theorem PossibleFrom.cons {row row' : MFARow} {a : Acceptance} {accepted : List Acceptance}
    (hacc : Accepts row a.factor row') (h : PossibleFrom (some row') accepted) :
    PossibleFrom (some row) (a :: accepted) := by
  obtain ⟨i, f, r, clock⟩ := a
  cases hacc with
  | activation n hashes hactive =>
    refine ⟨?_, h.distinct, fun row₀ hrow h₀ => ?_, fun row₀ hrow h₀ => ?_, fun hnone => nomatch hnone⟩
    · exact List.pairwise_cons.mpr ⟨h.later _ rfl rfl, h.increasing⟩
    · obtain rfl := Option.some.inj hrow
      exact absurd h₀ (by simp [hactive])
    · obtain rfl := Option.some.inj hrow
      exact absurd h₀ (by simp [hactive])
  | @later n hactive hlater =>
    have hrest := h.later _ rfl hactive
    refine ⟨?_, h.distinct, fun row₀ hrow _ m hm => ?_, fun row₀ hrow _ => ?_,
      fun hnone => nomatch hnone⟩
    · exact List.pairwise_cons.mpr ⟨hrest, h.increasing⟩
    · obtain rfl := Option.some.inj hrow
      rcases List.mem_cons.mp hm with rfl | hm
      · exact hlater
      · exact hlater.trans (hrest m hm)
    · obtain rfl := Option.some.inj hrow
      exact fun hash hmem => h.unused _ rfl hactive hash hmem
  | @unused hash hactive hunused => ?_
  have hrest := h.unused _ rfl hactive
  refine ⟨h.increasing, ?_, fun row₀ hrow _ => ?_, fun row₀ hrow _ hash' hmem => ?_,
    fun hnone => nomatch hnone⟩
  · refine List.nodup_cons.mpr ⟨fun hmem => ?_, h.distinct⟩
    exact absurd (hrest hash hmem) (Finset.notMem_erase hash row.recovery)
  · obtain rfl := Option.some.inj hrow
    exact fun n hn => h.later _ rfl hactive n hn
  · obtain rfl := Option.some.inj hrow
    rcases List.mem_cons.mp hmem with rfl | hmem
    · exact hunused
    · exact Finset.mem_of_mem_erase (hrest hash' hmem)

/-! ## 2. One enrollment -/

/-- Every request has read the secret of the row that is there. -/
def OneEnrollment (P : Pool MFACall AuthAnswer (Option MFARow)) : Prop :=
  ∀ (i : Nat) (t : Thread MFACall AuthAnswer) rec row, P.threads[i]? = some t →
    lastRecord t.past = some rec → P.shared = some row → row.secret = rec.secret

theorem Accepts.secret_eq {row row' : MFARow} {f : Factor} (h : Accepts row f row') :
    row'.secret = row.secret := by
  cases h <;> rfl

/-- A call that does not enroll leaves the secret of the row as it is. -/
theorem secret_of_exec {β : Type} {c : MFACall β} (hc : ¬ c.enrolls) {x : MFAChoice}
    {row? : Option MFARow} {row' : MFARow} (hrow' : (mfaMachine.exec x c row?).2 = some row') :
    ∃ row, row? = some row ∧ row'.secret = row.secret := by
  rcases mfaMachine_cases hc x row? with ⟨row, f, row₁, hrow, hacc, -, hrow₁⟩ | ⟨-, hkept | hgone⟩
  · obtain rfl : row₁ = row' := Option.some.inj (hrow₁.symm.trans hrow')
    exact ⟨row, hrow, hacc.secret_eq⟩
  · exact ⟨row', hkept.symm.trans hrow', rfl⟩
  · exact absurd (hgone.symm.trans hrow') (by simp)

/-- The record that a request has after a call is the one it had before, or that of the row. -/
theorem lastRecord_exec {β : Type} {c : MFACall β} {x : MFAChoice} {row? : Option MFARow}
    {past : History MFACall} {rec : MFARecord}
    (hread : lastRecord (⟨c, (mfaMachine.exec x c row?).1⟩ :: past) = some rec) :
    lastRecord past = some rec ∨ ∃ row, row? = some row ∧ row.secret = rec.secret := by
  cases c with
  | getMFA =>
    obtain ⟨now, fault⟩ := x
    cases fault with
    | some err => exact Or.inl hread
    | none =>
      cases row? with
      | none => exact Or.inl hread
      | some row =>
        obtain rfl : row.record = rec := Option.some.inj hread
        exact Or.inr ⟨row, rfl, rfl⟩
  | _ => exact Or.inl hread

section

variable {lib : FactorLibrary} {tasks : List MFATask} {P : Pool MFACall AuthAnswer (Option MFARow)}
  {mv : Nat × MFAChoice}

theorem OneEnrollment.step {past : History MFACall} {β : Type} {c : MFACall β}
    {k : β → Proc MFACall AuthAnswer} (h : OneEnrollment P)
    (hi : P.threads[mv.1]? = some ⟨past, .call c k⟩) (hc : ¬ c.enrolls) :
    OneEnrollment ⟨(mfaMachine.exec mv.2 c P.shared).2, P.threads.set mv.1
      ⟨⟨c, (mfaMachine.exec mv.2 c P.shared).1⟩ :: past, k (mfaMachine.exec mv.2 c P.shared).1⟩⟩ := by
  intro i t rec row' ht hread hrow'
  obtain ⟨row, hrow, hsecret⟩ := secret_of_exec hc hrow'
  rw [hsecret]
  by_cases hsame : mv.1 = i
  · subst hsame
    rw [List.getElem?_set_self (List.getElem?_eq_some_iff.mp hi).1] at ht
    obtain rfl := Option.some.inj ht
    rcases lastRecord_exec hread with hold | ⟨row₀, hrow₀, hnew⟩
    · exact h mv.1 _ rec row hi hold hrow
    · obtain rfl : row₀ = row := Option.some.inj (hrow₀.symm.trans hrow)
      exact hnew
  · rw [List.getElem?_set_ne hsame] at ht
    exact h i t rec row ht hread hrow

theorem OneEnrollment.moveMeets (h : OneEnrollment P) :
    P.MoveMeets (fun _ => 0) (sameEnrollment tasks) mv := by
  unfold Pool.MoveMeets
  split
  · rename_i past β c k hi
    have hkept : enrollmentKept past P.shared = true := by
      unfold enrollmentKept
      cases hrow : P.shared with
      | none => rfl
      | some row =>
        cases hread : lastRecord past with
        | none => simp
        | some rec => simp [h mv.1 _ rec row hi hread hrow]
    cases c with
    | markTOTPStep | disable => exact hkept
    | consumeRecoveryCode hash => exact fun _ => hkept
    | _ => trivial
  · trivial

/-- The threads keep to their programs, none of which enrolls. -/
structure Steady (lib : FactorLibrary) (tasks : List MFATask)
    (P : Pool MFACall AuthAnswer (Option MFARow)) : Prop where
  inStep : InStep lib tasks P
  one : OneEnrollment P
  quiet : ∀ task ∈ tasks, ¬ task.enrolls

variable (hP : Steady lib tasks P)
include hP

theorem Steady.not_enrolls {past : History MFACall} {β : Type} {c : MFACall β}
    {k : β → Proc MFACall AuthAnswer} {i : Nat} (hi : P.threads[i]? = some ⟨past, .call c k⟩) :
    ¬ c.enrolls := by
  obtain ⟨task, htask, hpre, -⟩ := hP.inStep.task hi
  cases c with
  | beginEnrollment secret => exact absurd hpre (hP.quiet task (List.mem_of_getElem? htask))
  | _ => exact id

theorem Steady.step : Steady lib tasks (P.step mfaMachine mv) := by
  refine ⟨hP.inStep.step hP.one.moveMeets, ?_, hP.quiet⟩
  rcases P.step_cases mfaMachine mv with hstep | ⟨past, β, c, k, hi, hstep⟩
  · rw [hstep]
    exact hP.one
  · rw [hstep]
    exact hP.one.step hi (hP.not_enrolls hi)

theorem Steady.meets (mvs : List (Nat × MFAChoice)) :
    P.Meets (fun _ => 0) mfaMachine (sameEnrollment tasks) mvs := by
  induction mvs generalizing P with
  | nil => trivial
  | cons mv mvs ih => exact ⟨hP.one.moveMeets, ih hP.step⟩

/-! ## 3. Whole runs -/

theorem possibleFrom_step {accepted : List Acceptance}
    (h : PossibleFrom (P.step mfaMachine mv).shared accepted) :
    PossibleFrom P.shared ((acceptedAt P mv).toList ++ accepted) := by
  rcases acceptedAt_cases P mv with ⟨hat, hstep⟩ | ⟨past, β, c, k, hi, hstep, hat⟩
  · rw [hstep] at h
    rw [hat]
    exact h
  rw [hstep] at h
  rcases mfaMachine_cases (hP.not_enrolls hi) mv.2 P.shared with ⟨row, f, row', hrow, hacc, hf, hrow'⟩ | ⟨hf, hkept⟩
  · have hsome : acceptedAt P mv = some ⟨mv.1, f, row, lastClock past⟩ := by
      rw [hat, hf, hrow]
      rfl
    rw [hsome, hrow]
    rw [hrow'] at h
    exact PossibleFrom.cons (a := ⟨mv.1, f, row, lastClock past⟩) hacc h
  · have hnone : acceptedAt P mv = none := by
      rw [hat, hf]
      cases P.shared <;> rfl
    rw [hnone]
    rcases hkept with hsame | hgone
    · rwa [hsame] at h
    -- without a row, nothing more can be accepted
    have hempty : accepted = [] := h.nothing hgone
    rw [hempty]
    exact possibleFrom_nil P.shared

theorem possibleFrom_run (mvs : List (Nat × MFAChoice)) :
    PossibleFrom P.shared (acceptances P mvs) := by
  induction mvs generalizing P with
  | nil => exact possibleFrom_nil P.shared
  | cons mv mvs ih => exact possibleFrom_step hP (ih hP.step)

end

/-! ## 4. No replay -/

/-- In any run of login, activate and disable requests, from any row and at any clock, every accepted
time step, that of the activation included, is later than all accepted before it, and no recovery
code is accepted twice.  Every accepted code is one of the enrollment, and every session, activation
and removal has an acceptance of its own request, unless the login had read that no enrollment is
active. -/
theorem factors_accepted_once (lib : FactorLibrary) (acct : Account) (row? : Option MFARow)
    (tasks : List MFATask) (htasks : ∀ task ∈ tasks, ¬ task.enrolls)
    (mvs : List (Nat × MFAChoice)) :
    (acceptedSteps (acceptances (mfaPool lib acct row? tasks) mvs)).Pairwise (· < ·) ∧
    (acceptedRecoveries (acceptances (mfaPool lib acct row? tasks) mvs)).Nodup ∧
    (∀ a ∈ acceptances (mfaPool lib acct row? tasks) mvs, a.genuine lib tasks = true) ∧
    (∀ l mv l' row, mvs = l ++ mv :: l' →
      removedAt ((mfaPool lib acct row? tasks).run mfaMachine l) mv = some row →
      ∃ a ∈ acceptances (mfaPool lib acct row? tasks) l, a.thread = mv.1) ∧
    (∀ (i : Nat) (t : Thread MFACall AuthAnswer),
      ((mfaPool lib acct row? tasks).run mfaMachine mvs).threads[i]? = some t →
      (t.result? = some .session →
        (∀ rec, lastRecord t.past = some rec → rec.active = false) ∨
        ∃ a ∈ acceptances (mfaPool lib acct row? tasks) mvs, a.thread = i) ∧
      (∀ codes, t.result? = some (.activated codes) →
        ∃ a ∈ acceptances (mfaPool lib acct row? tasks) mvs, a.thread = i)) := by
  have hsteady : Steady lib tasks (mfaPool lib acct row? tasks) := by
    refine ⟨inStep_start acct row?, fun i t rec row ht hread => ?_, htasks⟩
    rw [Pool.past_start ht] at hread
    exact nomatch hread
  have h := possibleFrom_run hsteady mvs
  obtain ⟨hgenuine, hremovals, hend, hlogged⟩ := bound_run hsteady.inStep
    (logged_start lib acct row?) (hsteady.meets mvs)
  refine ⟨h.increasing, h.distinct, hgenuine, fun l mv l' row hsplit hremoved => ?_,
    fun i t ht => ⟨fun hsession => ?_, fun codes hactivated => ?_⟩⟩
  · obtain ⟨a, ha, hthread, -⟩ := hremovals l mv l' row hsplit hremoved
    exact ⟨a, ha, hthread⟩
  · rcases hend.justified ht hsession with hnone | haccepted
    · exact Or.inl hnone
    · exact Or.inr (hlogged.granted i t ht haccepted)
  · exact hlogged.granted i t ht (hend.justified ht hactivated)

/-- An activation with the code of step 0, two logins with the code of step 1, and two with the same
recovery code; the requests read and verify before any of them is accepted. -/
def replayedTasks : List MFATask :=
  [.activate (accountRequest "755224" "") (some ["MZXW6YTBOI2DKNRX"]),
    .login (accountRequest "287082" ""), .login (accountRequest "287082" ""),
    .login (accountRequest "" "MZXW6YTBOI2DKNRX"), .login (accountRequest "" "MZXW6YTBOI2DKNRX")]

def replayedMoves : List (Nat × MFAChoice) :=
  [0, 0, 0, 1, 2, 3, 4, 1, 2, 1, 2, 3, 4, 1, 3].map fun i => (i, { now := sampleTime })

/-- One login of each pair gets the session, and its acceptance is among the three. -/
theorem factors_not_replayed :
    let P := mfaPool sampleLibrary sampleAccount (some { secret := firstSecret }) replayedTasks
    acceptedSteps (acceptances P replayedMoves) = [0, 1] ∧
    acceptedRecoveries (acceptances P replayedMoves) = [sampleRecoveryHash] ∧
    ((P.run mfaMachine replayedMoves).threads[1]?.bind Thread.result?) = some .session ∧
    (acceptedSteps (acceptances P replayedMoves)).Pairwise (· < ·) :=
  ⟨by decide +kernel, by decide +kernel, by decide +kernel,
    (factors_accepted_once sampleLibrary sampleAccount _ replayedTasks
      (by simp [replayedTasks, MFATask.enrolls]) replayedMoves).1⟩

end ObjectFabric
