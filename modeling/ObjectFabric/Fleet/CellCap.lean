import ObjectFabric.Fleet.Orchestrator

/-!
# CellCap — the limit on the jobs of a destination cell

A call of `RunOnce` compares the limit with its own counter, which starts from one list of the jobs.
The limit holds over the fleet as long as the counter has not fallen behind the store when a pending
job is claimed; two nodes that list the jobs before either claims one break it.
-/

namespace ObjectFabric

open Interleaving Proc

/-! ## 1. The counter -/

def JobStore.cellOf (s : JobStore) (jobID : String) : Option String :=
  (s.find jobID).map fun e => e.job.destCellID

/-- The counter of a call of `RunOnce` for a cell, from what it has asked the store: the jobs in
progress that it was shown, and those it has claimed since. -/
def countedIn (s : JobStore) (cell : String) : History JobCall → Nat
  | [] => 0
  | ⟨.listActiveJobs, .ok jobs⟩ :: _ => runningIn jobs cell
  | ⟨.acquireJob jobID _ _, .ok true⟩ :: h =>
    countedIn s cell h + if s.cellOf jobID = some cell then 1 else 0
  | _ :: h => countedIn s cell h

/-- A pending job is only claimed while its cell has no more jobs in progress than the claimer has
counted. -/
def countsCurrent (s₀ : JobStore) : Condition JobCall JobChoice JobStore PUnit
  | _, h, _, .acquireJob jobID _ _, _, s, _ =>
    ∀ e, s.find jobID = some e → e.job.state = .pending →
      s.runningCount e.job.destCellID ≤ countedIn s₀ e.job.destCellID h
  | _, _, _, _, _, _, _ => True

/-- A claim is asked for only while the counter of the job's cell is below the limit. -/
def capSpec (cfg : FleetConfig) (s₀ : JobStore) : Spec JobCall where
  pre h c :=
    match c with
    | .acquireJob jobID _ _ =>
      ∀ cell, s₀.cellOf jobID = some cell → countedIn s₀ cell h < cfg.cellLimit cell
    | _ => True
  post _ c r :=
    match c, r with
    | .listActiveJobs, .ok jobs => ∀ j ∈ jobs, s₀.cellOf j.jobID = some j.destCellID
    | _, _ => True

section

variable {cfg : FleetConfig} {s₀ : JobStore}

theorem dispatch_counts (nodeID : NodeID) (jobs : List MigrationJob) (running : String → Nat)
    (h : History JobCall) (hcells : ∀ j ∈ jobs, s₀.cellOf j.jobID = some j.destCellID)
    (hcount : ∀ cell, countedIn s₀ cell h = running cell) :
    (dispatch cfg nodeID running jobs).Follows (capSpec cfg s₀) h := by
  -- the induction carries that `running` is the counter that the history gives
  induction jobs generalizing running h with
  | nil => trivial
  | cons j js ih => ?_
  have hj : s₀.cellOf j.jobID = some j.destCellID := hcells j (List.mem_cons_self ..)
  have hjs : ∀ j ∈ js, s₀.cellOf j.jobID = some j.destCellID :=
    fun j hj => hcells j (List.mem_cons_of_mem _ hj)
  unfold dispatch
  split
  · exact ih running h hjs hcount
  split
  · exact ih running h hjs hcount
  rename_i hbelow
  refine ⟨fun cell hcell => ?_, fun r _ => ?_⟩
  · obtain rfl : j.destCellID = cell := Option.some.inj (hj.symm.trans hcell)
    rw [hcount]
    exact not_le.mp hbelow
  simp only [Proc.ret_bind]
  split
  · apply (ih _ _ hjs ?_).seq
    · exact fun _ _ _ => trivial
    intro cell
    show countedIn s₀ cell h + (if s₀.cellOf j.jobID = some cell then 1 else 0) = _
    rw [hcount, hj]
    by_cases hcell : cell = j.destCellID
    · rw [hcell, Function.update_self, if_pos rfl]
    · rw [Function.update_of_ne hcell, if_neg (fun h => hcell (Option.some.inj h).symm),
        Nat.add_zero]
  · rename_i hother
    apply ih _ _ hjs
    intro cell
    rw [← hcount cell]
    match r, hother with
    | .ok true, hother => exact absurd rfl hother
    | .ok false, _ => rfl
    | .error _, _ => rfl

theorem runOnce_counts (nodeID : NodeID) :
    (runOnce cfg nodeID).Follows (capSpec cfg s₀) [] := by
  refine ⟨trivial, fun r hr => ?_⟩
  cases r with
  | error err => trivial
  | ok active => exact dispatch_counts nodeID active _ _ hr fun _ => rfl

theorem heartbeatLoop_counts (nodeID : NodeID) (jobID : String) (ticks : Nat) (h : History JobCall) :
    (heartbeatLoop cfg nodeID jobID ticks).Follows (capSpec cfg s₀) h := by
  induction ticks generalizing h with
  | zero => trivial
  | succ ticks ih => ?_
  refine .ask trivial fun r _ => ?_
  split
  · trivial
  · trivial
  · exact ih _

theorem FleetTask.counts (t : FleetTask) :
    (t.program cfg).Follows (capSpec cfg s₀) [] := by
  cases t with
  | runOnce nodeID => exact runOnce_counts nodeID
  | run nodeID jobID bytes pieces runErr =>
    refine .ask trivial fun r _ => ?_
    split
    · exact ⟨trivial, fun _ _ => trivial⟩
    · trivial
  | heartbeats nodeID jobID ticks => exact heartbeatLoop_counts nodeID jobID ticks []

/-! ## 2. The limit over a run -/

/-- The jobs are those of the start, each with its cell, and no cell is over its limit. -/
structure WithinLimits (cfg : FleetConfig) (s₀ s : JobStore) : Prop where
  cells : ∀ jobID, s.cellOf jobID = s₀.cellOf jobID
  limits : ∀ cell, s.runningCount cell ≤ cfg.cellLimit cell

theorem cellOf_modify {s : JobStore} {jobID : String} {f : ClaimedJob → ClaimedJob}
    {hf : ∀ e, (f e).job.jobID = e.job.jobID}
    (hcell : ∀ e, (f e).job.destCellID = e.job.destCellID) (id : String) :
    (s.modify jobID f hf).cellOf id = s.cellOf id := by
  rw [JobStore.cellOf, JobStore.find_modify, Option.map_map, JobStore.cellOf]
  apply congrArg (Option.map · (s.find id))
  funext e
  rw [Function.comp_apply]
  split
  · exact hcell e
  · rfl

/-- A change that keeps a job's cell, and that does not set it in progress unless its cell has
room. -/
theorem WithinLimits.modify {s : JobStore} (hs : WithinLimits cfg s₀ s) {jobID : String}
    {e : ClaimedJob} (he : s.find jobID = some e) {f : ClaimedJob → ClaimedJob}
    (hf : ∀ e, (f e).job.jobID = e.job.jobID)
    (hcell : ∀ e, (f e).job.destCellID = e.job.destCellID)
    (hroom : (f e).job.state = .running → e.job.state ≠ .running →
      s.runningCount e.job.destCellID < cfg.cellLimit e.job.destCellID) :
    WithinLimits cfg s₀ (s.modify jobID f hf) where
  cells id := by rw [cellOf_modify hcell, hs.cells]
  limits cell := by
    have hcount : (s.modify jobID f hf).runningCount cell +
        (if e.job.runningFor cell then 1 else 0) =
        s.runningCount cell + if (f e).job.runningFor cell then 1 else 0 :=
      JobStore.countP_modify _ he
    have hle := hs.limits cell
    by_cases hafter : (f e).job.runningFor cell = true
    · by_cases hbefore : e.job.runningFor cell = true
      · rw [if_pos hafter, if_pos hbefore] at hcount
        omega
      -- the job is set in progress by this change
      rw [if_pos hafter, if_neg hbefore] at hcount
      simp only [MigrationJob.runningFor, Bool.and_eq_true, decide_eq_true_eq] at hafter hbefore
      rw [hcell] at hafter
      have hlt := hroom hafter.1 fun hrunning => hbefore ⟨hrunning, hafter.2⟩
      rw [hafter.2] at hlt
      omega
    · rw [if_neg hafter] at hcount
      omega

def capProtocol (cfg : FleetConfig) (s₀ : JobStore) :
    Protocol JobCall JobStore JobChoice PUnit where
  held _ := 0
  inv s _ := WithinLimits cfg s₀ s
  cond := countsCurrent s₀
  spec _ := capSpec cfg s₀

theorem acquireJob_within {s : JobStore} (hs : WithinLimits cfg s₀ s) {h : History JobCall}
    {jobID nodeID : String} {ttl now : Time}
    (hpre : ∀ cell, s₀.cellOf jobID = some cell → countedIn s₀ cell h < cfg.cellLimit cell)
    (hcond : ∀ e, s.find jobID = some e → e.job.state = .pending →
      s.runningCount e.job.destCellID ≤ countedIn s₀ e.job.destCellID h) :
    WithinLimits cfg s₀ (s.acquireJob jobID nodeID ttl now).2 := by
  rcases s.acquireJob_cases jobID nodeID ttl now with ⟨r, hsame, -⟩ | ⟨e, he, hfree, hclaim⟩
  · rw [hsame]
    exact hs
  rw [hclaim]
  refine hs.modify (f := JobStore.claim nodeID ttl now) he (fun _ => rfl) (fun _ => rfl) fun _ hnot =>
    ?_
  -- a job that may be claimed and is not in progress is pending
  have hpending : e.job.state = .pending := by
    have hactive := (Bool.and_eq_true_iff.mp hfree).1
    simp only [ClaimedJob.active, Bool.or_eq_true, decide_eq_true_eq] at hactive
    exact hactive.resolve_right hnot
  have hcell : s₀.cellOf jobID = some e.job.destCellID := by
    rw [← hs.cells, JobStore.cellOf, he, Option.map_some]
  exact lt_of_le_of_lt (hcond e he hpending) (hpre _ hcell)

theorem heartbeatJob_within {s : JobStore} (hs : WithinLimits cfg s₀ s) (jobID nodeID : String)
    (ttl now : Time) : WithinLimits cfg s₀ (s.heartbeatJob jobID nodeID ttl now).2 := by
  rcases s.heartbeatJob_cases jobID nodeID ttl now with hsame | ⟨e, he, -, hextend⟩
  · rw [hsame]
    exact hs
  · rw [hextend]
    exact hs.modify (f := JobStore.extend ttl now) he _ (fun _ => rfl) fun hrunning hnot =>
      absurd hrunning hnot

theorem releaseJob_within {s : JobStore} (hs : WithinLimits cfg s₀ s) (jobID nodeID : String)
    (r : JobStore.JobResult) (now : Time) :
    WithinLimits cfg s₀ (s.releaseJob jobID nodeID r now).2 := by
  rcases s.releaseJob_cases jobID nodeID now r with hsame | ⟨e, he, -, hended, hfinish⟩
  · rw [hsame]
    exact hs
  · rw [hfinish]
    exact hs.modify (f := JobStore.finish r now) he _ (fun _ => rfl) fun hrunning _ =>
      absurd hrunning hended

theorem capProtocol_sound : (capProtocol cfg s₀).Sound jobMachine where
  drop _ _ _ h := h
  step := by
    intro β i h c x s R hpre hs hcond
    obtain ⟨now, fault⟩ := x
    cases c with
    | listActiveJobs =>
      cases fault with
      | some err => exact ⟨trivial, hs⟩
      | none =>
        refine ⟨fun j hj => ?_, hs⟩
        obtain ⟨e, he, rfl⟩ := s.find_of_mem_listActiveJobs hj
        rw [← hs.cells, JobStore.cellOf, he, Option.map_some]
    | acquireJob jobID nodeID ttl =>
      cases fault with
      | some err => exact ⟨trivial, hs⟩
      | none => exact ⟨trivial, acquireJob_within hs hpre hcond⟩
    | heartbeatJob jobID nodeID ttl =>
      cases fault with
      | some err => exact ⟨trivial, hs⟩
      | none => exact ⟨trivial, heartbeatJob_within hs jobID nodeID ttl now⟩
    | releaseJob jobID nodeID r =>
      cases fault with
      | some err => exact ⟨trivial, hs⟩
      | none => exact ⟨trivial, releaseJob_within hs jobID nodeID r now⟩
    | getJob jobID =>
      cases fault <;> exact ⟨trivial, hs⟩

/-- Started with every cell within its limit, a fleet of any size keeps every cell within it, at
every clock, over every run in which no counter falls behind. -/
theorem cell_limit_kept_of_current_counts (s : JobStore) (tasks : List FleetTask)
    (mvs : List (Nat × JobChoice)) (hs : ∀ cell, s.runningCount cell ≤ cfg.cellLimit cell)
    (hmvs : (fleet cfg s tasks).Meets (fun _ => 0) jobMachine (countsCurrent s) mvs)
    (cell : String) (now : Time) :
    ((fleet cfg s tasks).run jobMachine mvs).shared.liveCount cell now ≤ cfg.cellLimit cell := by
  have hstart : (capProtocol cfg s).Good (fun _ _ _ => True) (fleet cfg s tasks) := by
    apply Protocol.good_start
    · rfl
    · exact ⟨fun _ => rfl, hs⟩
    · intro i p hp
      rw [List.getElem?_map, Option.map_eq_some_iff] at hp
      obtain ⟨t, -, rfl⟩ := hp
      exact t.counts
  have hend := capProtocol_sound.run hstart hmvs
  exact le_trans (JobStore.liveCount_le _ now cell) (hend.inv.limits cell)

end

/-! ## 3. Two nodes -/

def twoJobs : JobStore where
  entries := [⟨{ jobID := "j1", destCellID := "eu" }, "", 0, by simp⟩,
    ⟨{ jobID := "j2", destCellID := "eu" }, "", 0, by simp⟩]
  distinct := by decide

def twoNodes : Pool JobCall (List String) JobStore :=
  fleet {} twoJobs [.runOnce nodeA, .runOnce nodeB]

/-- Both nodes list the jobs; then `a` claims the first job and `b`, refused the first, the
second. -/
def overlappedMoves : List (Nat × JobChoice) := [0, 1, 0, 1, 1].map fun i => (i, {})

/-- The cell admits one job, and two run under claims that hold. -/
theorem cell_limit_exceeded :
    (twoNodes.run jobMachine overlappedMoves).shared.liveCount "eu" 0 = 2 ∧
      ({} : FleetConfig).cellLimit "eu" = 1 := by
  decide +kernel

/-- Node `b` lists the jobs after `a` is through. -/
def orderedMoves : List (Nat × JobChoice) := [0, 0, 1].map fun i => (i, {})

theorem cell_limit_kept_in_turn :
    (twoNodes.run jobMachine orderedMoves).shared.liveCount "eu" 0 = 1 ∧
      (twoNodes.run jobMachine orderedMoves).shared.liveCount "eu" 0 ≤
        ({} : FleetConfig).cellLimit "eu" := by
  refine ⟨by decide +kernel, cell_limit_kept_of_current_counts twoJobs _ _ ?_ ?_ "eu" 0⟩
  · intro cell
    rw [show twoJobs.runningCount cell = 0 from rfl]
    exact Nat.zero_le _
  refine ⟨trivial, ?_, trivial, trivial⟩
  intro e he _
  obtain rfl := Option.some.inj he
  decide +kernel

end ObjectFabric
