import ObjectFabric.Fleet.Orchestrator

/-!
# Recovery — what becomes of the jobs of a node that has crashed

The store would let any node claim a job in progress whose deadline has passed, and it lists such
jobs for that purpose.  `RunOnce` claims pending jobs only, and counts every job in progress against
the limit of its cell.  So the jobs of a crashed node stay as they are, and keep their places.
-/

namespace ObjectFabric

open Interleaving Proc

def ClaimedJob.orphaned (crashed : List String) (e : ClaimedJob) : Bool :=
  e.job.state = .running && e.claimedBy ∈ crashed

def JobStore.orphanCount (crashed : List String) (s : JobStore) (cell : String) : Nat :=
  s.entries.countP fun e => e.orphaned crashed && e.job.destCellID = cell

def JobStore.blocked (cfg : FleetConfig) (crashed : List String) (s : JobStore) (cell : String) :
    Prop :=
  cfg.cellLimit cell ≤ s.orphanCount crashed cell

/-- An entry that `RunOnce` has no way to claim: an orphaned job, or a pending one whose cell is
full of them. -/
def Stranded (cfg : FleetConfig) (crashed : List String) (s : JobStore) (e : ClaimedJob) : Prop :=
  e.orphaned crashed = true ∨ e.job.state = .pending ∧ s.blocked cfg crashed e.job.destCellID

/-! ## 1. What the living nodes ask for -/

def strandSpec (cfg : FleetConfig) (crashed : List String) (s₀ : JobStore) : Spec JobCall where
  pre _ c :=
    match c with
    | .acquireJob jobID nodeID _ => nodeID ∉ crashed ∧
        ∀ e, s₀.find jobID = some e → ¬ Stranded cfg crashed s₀ e
    | .heartbeatJob _ nodeID _ => nodeID ∉ crashed ∧ nodeID ≠ ""
    | .releaseJob _ nodeID _ => nodeID ∉ crashed ∧ nodeID ≠ ""
    | _ => True
  post _ c r :=
    match c, r with
    | .listActiveJobs, .ok jobs =>
      (∀ j ∈ jobs, ∀ e, s₀.find j.jobID = some e → Stranded cfg crashed s₀ e → j = e.job) ∧
      ∀ cell, s₀.orphanCount crashed cell ≤ runningIn jobs cell
    | _, _ => True

variable {s : JobStore} {e : ClaimedJob}

section

variable {cfg : FleetConfig} {crashed : List String} {s₀ : JobStore}

def NoneStranded (cfg : FleetConfig) (crashed : List String) (s₀ : JobStore) (ids : List String) :
    Prop :=
  ∀ id ∈ ids, ∀ e, s₀.find id = some e → ¬ Stranded cfg crashed s₀ e

theorem dispatch_spares {nodeID : NodeID} (hlive : nodeID.1 ∉ crashed) (jobs : List MigrationJob)
    (running : String → Nat) (h : History JobCall)
    (hjobs : ∀ j ∈ jobs, ∀ e, s₀.find j.jobID = some e → Stranded cfg crashed s₀ e → j = e.job)
    (hcount : ∀ cell, s₀.orphanCount crashed cell ≤ running cell) :
    (dispatch cfg nodeID running jobs).Conforms (strandSpec cfg crashed s₀)
      (fun _ ids => NoneStranded cfg crashed s₀ ids) h := by
  -- the counter never goes down, so it stays above the number of orphaned jobs
  induction jobs generalizing running h with
  | nil => exact fun id hid => absurd hid List.not_mem_nil
  | cons j js ih => ?_
  have hjs : ∀ j ∈ js, ∀ e, s₀.find j.jobID = some e → Stranded cfg crashed s₀ e → j = e.job :=
    fun j hj => hjobs j (List.mem_cons_of_mem _ hj)
  unfold dispatch
  split
  · exact ih running h hjs hcount
  split
  · exact ih running h hjs hcount
  rename_i hpending hbelow
  have hspared : ∀ e, s₀.find j.jobID = some e → ¬ Stranded cfg crashed s₀ e := by
    intro e he hstranded
    obtain rfl := hjobs j (List.mem_cons_self ..) e he hstranded
    rcases hstranded with horphan | ⟨-, hfull⟩
    · have hrunning : e.job.state = .running :=
        of_decide_eq_true (Bool.and_eq_true_iff.mp horphan).1
      exact hpending (by rw [hrunning]; decide)
    · exact hbelow (le_trans hfull (hcount _))
  refine .ask ⟨hlive, hspared⟩ fun r _ => ?_
  split
  · apply (ih _ _ hjs ?_).seq
    · intro _ rest hrest id hid
      rcases List.mem_cons.mp hid with rfl | hid
      · exact hspared
      · exact hrest id hid
    intro cell
    by_cases hcell : cell = j.destCellID
    · rw [hcell, Function.update_self]
      exact Nat.le_succ_of_le (hcount _)
    · rw [Function.update_of_ne hcell]
      exact hcount cell
  · exact ih _ _ hjs hcount

theorem heartbeatLoop_spares {nodeID : NodeID} (hlive : nodeID.1 ∉ crashed) (jobID : String)
    (ticks : Nat) (h : History JobCall) :
    (heartbeatLoop cfg nodeID jobID ticks).Conforms (strandSpec cfg crashed s₀)
      (fun _ ids => NoneStranded cfg crashed s₀ ids) h := by
  have hnone : NoneStranded cfg crashed s₀ [] := fun id hid => absurd hid List.not_mem_nil
  induction ticks generalizing h with
  | zero => exact hnone
  | succ ticks ih => ?_
  refine .ask ⟨hlive, nodeID.2⟩ fun r _ => ?_
  split
  · exact hnone
  · exact hnone
  · exact ih _

theorem FleetTask.spares (t : FleetTask) (hlive : t.nodeID.1 ∉ crashed) :
    (t.program cfg).Conforms (strandSpec cfg crashed s₀)
      (fun _ ids => NoneStranded cfg crashed s₀ ids) [] := by
  have hnone : NoneStranded cfg crashed s₀ [] := fun id hid => absurd hid List.not_mem_nil
  cases t with
  | runOnce nodeID =>
    refine ⟨trivial, fun r hr => ?_⟩
    cases r with
    | error err => exact hnone
    | ok active => exact dispatch_spares hlive active _ _ hr.1 hr.2
  | run nodeID jobID bytes pieces runErr =>
    refine .ask trivial fun r _ => ?_
    split
    · exact ⟨⟨hlive, nodeID.2⟩, fun _ _ => hnone⟩
    · exact hnone
  | heartbeats nodeID jobID ticks => exact heartbeatLoop_spares hlive jobID ticks []

/-! ## 2. Stranded jobs over a run -/

/-- The stranded jobs are as they were, and the orphaned ones are those of the start. -/
structure StrandedKept (cfg : FleetConfig) (crashed : List String) (s₀ s : JobStore) : Prop where
  kept : ∀ jobID e, s₀.find jobID = some e → Stranded cfg crashed s₀ e → s.find jobID = some e
  old : ∀ jobID e, s.find jobID = some e → e.orphaned crashed = true → s₀.find jobID = some e
  count : ∀ cell, s.orphanCount crashed cell = s₀.orphanCount crashed cell

section

variable (hs : StrandedKept cfg crashed s₀ s)
include hs

theorem StrandedKept.modify {jobID : String}
    (he : s.find jobID = some e) {f : ClaimedJob → ClaimedJob}
    (hf : ∀ e, (f e).job.jobID = e.job.jobID)
    (hspared : ∀ e, s₀.find jobID = some e → ¬ Stranded cfg crashed s₀ e)
    (hafter : (f e).orphaned crashed = false) :
    StrandedKept cfg crashed s₀ (s.modify jobID f hf) where
  kept id e' he' hstranded := by
    have hne : id ≠ jobID := by
      rintro rfl
      exact hspared e' he' hstranded
    rw [JobStore.find_modify, hs.kept id e' he' hstranded, Option.map_some, if_neg hne]
  old id e' he' horphan := by
    rw [JobStore.find_modify] at he'
    by_cases hid : id = jobID
    · subst hid
      rw [he, Option.map_some, if_pos rfl] at he'
      obtain rfl := Option.some.inj he'
      rw [hafter] at horphan
      exact absurd horphan Bool.false_ne_true
    · simp only [if_neg hid, Option.map_id'] at he'
      exact hs.old id e' he' horphan
  count cell := by
    have hbefore : e.orphaned crashed = false := by
      rw [← Bool.not_eq_true]
      exact fun horphan => hspared e (hs.old jobID e he horphan) (Or.inl horphan)
    have hcount : (s.modify jobID f hf).orphanCount crashed cell +
        (if (e.orphaned crashed && decide (e.job.destCellID = cell)) then 1 else 0) =
        s.orphanCount crashed cell +
          if ((f e).orphaned crashed && decide ((f e).job.destCellID = cell)) then 1 else 0 :=
      JobStore.countP_modify _ he
    rw [hbefore, hafter, Bool.false_and, Bool.false_and] at hcount
    rw [← hs.count cell]
    simpa using hcount

omit hs in
theorem orphaned_of_claimed_live (h : e.claimedBy ∉ crashed) :
    e.orphaned crashed = false := by
  rw [ClaimedJob.orphaned, decide_eq_false h, Bool.and_false]

omit hs in
theorem orphanCount_le_running (s : JobStore) (cell : String) :
    s.orphanCount crashed cell ≤ s.runningCount cell := by
  apply List.countP_mono_left
  intro e _ he
  rw [Bool.and_eq_true, ClaimedJob.orphaned, Bool.and_eq_true] at he
  exact Bool.and_eq_true_iff.mpr ⟨he.1.1, he.2⟩

theorem not_stranded_of_owner {jobID : String}
    (he : s.find jobID = some e) (hlive : e.claimedBy ∉ crashed)
    (hnamed : e.claimedBy ≠ "") : ∀ e, s₀.find jobID = some e → ¬ Stranded cfg crashed s₀ e := by
  intro e' he' hstranded
  obtain rfl : e = e' := Option.some.inj (he.symm.trans (hs.kept jobID e' he' hstranded))
  rcases hstranded with horphan | ⟨hpending, -⟩
  · rw [orphaned_of_claimed_live hlive] at horphan
    exact Bool.false_ne_true horphan
  · exact hnamed (e.unclaimed hpending)

def strandProtocol (cfg : FleetConfig) (crashed : List String) (s₀ : JobStore) :
    Protocol JobCall JobStore JobChoice PUnit where
  held _ := 0
  inv s _ := StrandedKept cfg crashed s₀ s
  cond _ _ _ _ _ _ _ := True
  spec _ := strandSpec cfg crashed s₀

theorem acquireJob_strands {jobID nodeID : String} {ttl now : Time} (hlive : nodeID ∉ crashed)
    (hspared : ∀ e, s₀.find jobID = some e → ¬ Stranded cfg crashed s₀ e) :
    StrandedKept cfg crashed s₀ (s.acquireJob jobID nodeID ttl now).2 := by
  rcases s.acquireJob_cases jobID nodeID ttl now with ⟨r, hsame, -⟩ | ⟨e, he, hfree, hclaim⟩
  · rw [hsame]
    exact hs
  · rw [hclaim]
    exact hs.modify (f := JobStore.claim nodeID ttl now) he (fun _ => rfl) hspared
      (orphaned_of_claimed_live hlive)

theorem heartbeatJob_strands
    {jobID nodeID : String} {ttl now : Time} (hlive : nodeID ∉ crashed) (hnamed : nodeID ≠ "") :
    StrandedKept cfg crashed s₀ (s.heartbeatJob jobID nodeID ttl now).2 := by
  rcases s.heartbeatJob_cases jobID nodeID ttl now with hsame | ⟨e, he, rfl, hextend⟩
  · rw [hsame]
    exact hs
  · rw [hextend]
    exact hs.modify (f := JobStore.extend ttl now) he (fun _ => rfl)
      (not_stranded_of_owner hs he hlive hnamed) (orphaned_of_claimed_live hlive)

theorem releaseJob_strands
    {jobID nodeID : String} {r : JobStore.JobResult} {now : Time} (hlive : nodeID ∉ crashed)
    (hnamed : nodeID ≠ "") : StrandedKept cfg crashed s₀ (s.releaseJob jobID nodeID r now).2 := by
  rcases s.releaseJob_cases jobID nodeID now r with hsame | ⟨e, he, rfl, hended, hfinish⟩
  · rw [hsame]
    exact hs
  rw [hfinish]
  refine hs.modify (f := JobStore.finish r now) he (fun _ => rfl)
    (not_stranded_of_owner hs he hlive hnamed) ?_
  rw [ClaimedJob.orphaned, JobStore.finish, decide_eq_false hended, Bool.false_and]

theorem listActiveJobs_strands :
    (∀ j ∈ s.listActiveJobs, ∀ e, s₀.find j.jobID = some e → Stranded cfg crashed s₀ e →
      j = e.job) ∧
    ∀ cell, s₀.orphanCount crashed cell ≤ runningIn s.listActiveJobs cell := by
  constructor
  · intro j hj e he hstranded
    obtain ⟨e', he', rfl⟩ := s.find_of_mem_listActiveJobs hj
    have hsame := hs.kept _ e he hstranded
    rw [he'] at hsame
    rw [Option.some.inj hsame]
  · intro cell
    rw [runningIn, s.countP_listActiveJobs, ← hs.count]
    exact orphanCount_le_running s cell

end

theorem strandProtocol_sound : (strandProtocol cfg crashed s₀).Sound jobMachine where
  drop _ _ _ h := h
  step := by
    intro β i h c x s R hpre hs _
    obtain ⟨now, fault⟩ := x
    cases c with
    | listActiveJobs =>
      cases fault with
      | some err => exact ⟨trivial, hs⟩
      | none => exact ⟨listActiveJobs_strands hs, hs⟩
    | acquireJob jobID nodeID ttl =>
      cases fault with
      | some err => exact ⟨trivial, hs⟩
      | none => exact ⟨trivial, acquireJob_strands hs hpre.1 hpre.2⟩
    | heartbeatJob jobID nodeID ttl =>
      cases fault with
      | some err => exact ⟨trivial, hs⟩
      | none => exact ⟨trivial, heartbeatJob_strands hs hpre.1 hpre.2⟩
    | releaseJob jobID nodeID r =>
      cases fault with
      | some err => exact ⟨trivial, hs⟩
      | none => exact ⟨trivial, releaseJob_strands hs hpre.1 hpre.2⟩
    | getJob jobID =>
      cases fault <;> exact ⟨trivial, hs⟩

variable (cfg crashed) in
/-- Whatever the living nodes begin after the crash, in any interleaving and at any clock: a job of a
crashed node stays in progress under its old claim and is not dispatched, and neither is a pending
job of a cell whose places are all taken by such jobs. -/
theorem stranded_jobs_stay (s : JobStore) (tasks : List FleetTask)
    (hlive : ∀ t ∈ tasks, t.nodeID.1 ∉ crashed) (mvs : List (Nat × JobChoice)) (jobID : String)
    (e : ClaimedJob) (he : s.find jobID = some e) (hstranded : Stranded cfg crashed s e) :
    ((fleet cfg s tasks).run jobMachine mvs).shared.find jobID = some e ∧
      ∀ (i : Nat) (t : Thread JobCall (List String)) (dispatched : List String),
        ((fleet cfg s tasks).run jobMachine mvs).threads[i]? = some t →
        t.rest = .ret dispatched → jobID ∉ dispatched := by
  have hstart : (strandProtocol cfg crashed s).Good
      (fun _ _ ids => NoneStranded cfg crashed s ids) (fleet cfg s tasks) := by
    apply Protocol.good_start
    · rfl
    · exact ⟨fun _ _ he _ => he, fun _ _ he _ => he, fun _ => rfl⟩
    · intro i p hp
      rw [List.getElem?_map, Option.map_eq_some_iff] at hp
      obtain ⟨t, ht, rfl⟩ := hp
      exact t.spares (hlive t (List.mem_of_getElem? ht))
  have hend := strandProtocol_sound.run hstart (Pool.meets_of_forall _ _ (fun _ _ _ _ _ _ _ => trivial) _ mvs)
  refine ⟨hend.inv.kept jobID e he hstranded, fun i t dispatched ht hret hmem => ?_⟩
  have hnone := hend.conforms i t ht
  rw [hret] at hnone
  exact hnone jobID hmem e he hstranded

end

/-! ## 3. A crash -/

def crashJobs : JobStore where
  entries := [queued "j1", queued "j2"]
  distinct := by decide

def minute : Time := 60 * 1000000000

/-- Node `a` claims the first job and crashes; long after its deadline `b` looks for work.  The
cell admits `limit` jobs. -/
def crashRun (s : JobStore) (limit : Int) : Pool JobCall (List String) JobStore :=
  (fleet { maxConcurrentJobs := fun _ => limit } s
    [.runOnce nodeA, .runOnce nodeB]).run jobMachine
    [(0, { now := 0 }), (0, { now := 0 }), (1, { now := minute })]

/-- The job as `a` left it. -/
def leftByA : ClaimedJob :=
  ⟨{ jobID := "j1", destCellID := "eu", state := .running }, "a", 30 * 1000000000, by simp⟩

/-- With a place free, `b` dispatches nothing; with one place in all, the second job waits for a
node that is gone. -/
theorem crashed_job_not_reclaimed :
    leftByA.claimed minute = false ∧
    (crashRun oneJob 2).shared.find "j1" = some leftByA ∧
    (crashRun oneJob 2).threads[1]?.bind Thread.result? = some [] ∧
    (crashRun crashJobs 1).shared.find "j1" = some leftByA ∧
    (crashRun crashJobs 1).shared.find "j2" = crashJobs.find "j2" ∧
    (crashRun crashJobs 1).threads[1]?.bind Thread.result? = some [] := by
  decide +kernel

/-- The state that `a` leaves behind. -/
def abandoned : JobStore where
  entries := [leftByA]
  distinct := by decide

def survivor : List FleetTask := [.runOnce nodeB]

theorem crashed_job_stays :
    leftByA.orphaned ["a"] = true ∧
      ((fleet {} abandoned survivor).run jobMachine [(0, { now := minute })]).shared.find "j1" =
        some leftByA := by
  have horphan : leftByA.orphaned ["a"] = true := by decide
  exact ⟨horphan, (stranded_jobs_stay {} ["a"] abandoned survivor
    (by simp [survivor, FleetTask.nodeID, nodeB]) [(0, { now := minute })] "j1" leftByA (by decide)
    (Or.inl horphan)).1⟩

end ObjectFabric
