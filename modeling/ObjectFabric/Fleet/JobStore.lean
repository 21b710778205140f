import ObjectFabric.Interleaving.Proc
import ObjectFabric.Metadata.Manifest

/-!
# JobStore — claims on migration jobs

`migration/jobstore.go`.  A node owns a job by a claim with a deadline; every operation is one atomic
step.  A job in progress whose deadline has passed may be claimed by anybody.
-/

namespace ObjectFabric

open Interleaving

inductive JobState where
  | pending
  | running
  | done
  | failed
  deriving DecidableEq, Repr

/-- One drain queued against a destination cell.  What only the runner reads is left out. -/
structure MigrationJob where
  jobID : String
  tenantID : String := ""
  destCellID : String
  state : JobState := .pending
  startedAt : Time := 0
  completedAt : Time := 0
  error : String := ""
  bytesCopied : Int := 0
  piecesCopied : Int := 0
  deriving DecidableEq, Repr

def MigrationJob.runningFor (cell : String) (j : MigrationJob) : Bool :=
  j.state = .running && j.destCellID = cell

/-- A job and the node that has claimed it, if any; a pending job is not claimed. -/
structure ClaimedJob where
  job : MigrationJob
  claimedBy : String := ""
  claimedUntil : Time := 0
  unclaimed : job.state = .pending → claimedBy = "" := by simp
  deriving DecidableEq

namespace ClaimedJob

def active (e : ClaimedJob) : Bool := e.job.state = .pending || e.job.state = .running

def claimed (e : ClaimedJob) (now : Time) : Bool := e.claimedBy ≠ "" && now < e.claimedUntil

/-- A node may claim the job: it has not ended, and no other node has a claim that holds. -/
def claimable (e : ClaimedJob) (nodeID : String) (now : Time) : Bool :=
  e.active && !(e.claimed now && e.claimedBy ≠ nodeID)

end ClaimedJob

structure JobStore where
  entries : List ClaimedJob := []
  distinct : (entries.map fun e => e.job.jobID).Nodup := by simp

inductive JobError where
  | jobNotFound
  | claimNotHeld
  | other (text : String)
  deriving DecidableEq, Repr

namespace JobStore

def find (s : JobStore) (jobID : String) : Option ClaimedJob :=
  s.entries.find? fun e => e.job.jobID = jobID

def modify (s : JobStore) (jobID : String) (f : ClaimedJob → ClaimedJob)
    (hf : ∀ e, (f e).job.jobID = e.job.jobID) : JobStore where
  entries := s.entries.map fun e => if e.job.jobID = jobID then f e else e
  distinct := by
    have hids : ((s.entries.map fun e => if e.job.jobID = jobID then f e else e).map
        fun e => e.job.jobID) = s.entries.map fun e => e.job.jobID := by
      rw [List.map_map]
      apply List.map_congr_left
      intro e _
      rw [Function.comp_apply]
      split
      · exact hf e
      · rfl
    rw [hids]
    exact s.distinct

def claim (nodeID : String) (ttl now : Time) (e : ClaimedJob) : ClaimedJob :=
  { job := { e.job with
      state := .running, startedAt := if e.job.startedAt = 0 then now else e.job.startedAt }
    claimedBy := nodeID, claimedUntil := now + ttl }

def extend (ttl now : Time) (e : ClaimedJob) : ClaimedJob := { e with claimedUntil := now + ttl }

def acquireJob (s : JobStore) (jobID nodeID : String) (ttl now : Time) :
    Except JobError Bool × JobStore :=
  if jobID = "" ∨ nodeID = "" then
    (.error (.other "migration: AcquireJob requires jobID and nodeID"), s)
  else if ttl ≤ 0 then
    (.error (.other "migration: AcquireJob requires positive ttl"), s)
  else
    match s.find jobID with
    | none => (.error .jobNotFound, s)
    | some e =>
      if !e.active then
        (.ok false, s)
      else if e.claimed now && e.claimedBy ≠ nodeID then
        (.ok false, s)
      else
        (.ok true, s.modify jobID (claim nodeID ttl now) fun _ => rfl)

def heartbeatJob (s : JobStore) (jobID nodeID : String) (ttl now : Time) :
    Except JobError Unit × JobStore :=
  if ttl ≤ 0 then
    (.error (.other "migration: HeartbeatJob requires positive ttl"), s)
  else
    match s.find jobID with
    | none => (.error .jobNotFound, s)
    | some e =>
      if e.claimedBy ≠ nodeID then
        (.error .claimNotHeld, s)
      else
        (.ok (), s.modify jobID (extend ttl now) fun _ => rfl)

structure JobResult where
  terminal : JobState
  bytesCopied : Int := 0
  piecesCopied : Int := 0
  error : Option String := none
  deriving DecidableEq, Repr

def finish (r : JobResult) (now : Time) (e : ClaimedJob) : ClaimedJob :=
  { job := { e.job with
      state := r.terminal, bytesCopied := r.bytesCopied, piecesCopied := r.piecesCopied,
      completedAt := now, error := r.error.getD e.job.error } }

def releaseJob (s : JobStore) (jobID nodeID : String) (r : JobResult) (now : Time) :
    Except JobError Unit × JobStore :=
  if r.terminal ≠ .done ∧ r.terminal ≠ .failed then
    (.error (.other "migration: ReleaseJob terminal must be JobDone or JobFailed"), s)
  else
    match s.find jobID with
    | none => (.error .jobNotFound, s)
    | some e =>
      if e.claimedBy ≠ nodeID then
        (.error .claimNotHeld, s)
      else
        (.ok (), s.modify jobID (finish r now) fun _ => rfl)

def listActiveJobs (s : JobStore) : List MigrationJob :=
  (s.entries.filter ClaimedJob.active).map ClaimedJob.job

def getJob (s : JobStore) (jobID : String) : Option MigrationJob :=
  (s.find jobID).map ClaimedJob.job

def runningCount (s : JobStore) (cell : String) : Nat :=
  s.entries.countP fun e => e.job.runningFor cell

def liveCount (s : JobStore) (cell : String) (now : Time) : Nat :=
  s.entries.countP fun e => e.job.runningFor cell && e.claimed now

/-! ## 1. One entry at a time -/

section

variable {s : JobStore} {jobID : String} {e : ClaimedJob} {f : ClaimedJob → ClaimedJob}
  {hf : ∀ e, (f e).job.jobID = e.job.jobID}

theorem jobID_of_find (h : s.find jobID = some e) : e.job.jobID = jobID := by
  simpa using List.find?_some h

theorem mem_of_find (h : s.find jobID = some e) : e ∈ s.entries := List.mem_of_find?_eq_some h

theorem find_of_mem (he : e ∈ s.entries) : s.find e.job.jobID = some e := by
  have hsome : (s.find e.job.jobID).isSome = true := by
    rw [find, List.find?_isSome]
    exact ⟨e, he, decide_eq_true rfl⟩
  obtain ⟨e', he'⟩ := Option.isSome_iff_exists.mp hsome
  have hsame : e' = e :=
    List.inj_on_of_nodup_map s.distinct (mem_of_find he') he (jobID_of_find he')
  rw [he', hsame]

theorem find_modify (id : String) :
    (s.modify jobID f hf).find id = (s.find id).map fun e => if id = jobID then f e else e := by
  unfold find modify
  simp only [List.find?_map]
  have hpred : ((fun e : ClaimedJob => decide (e.job.jobID = id)) ∘
      fun e => if e.job.jobID = jobID then f e else e) = fun e => decide (e.job.jobID = id) := by
    funext e
    rw [Function.comp_apply]
    split
    · rw [hf e]
    · rfl
  rw [hpred]
  cases hfind : s.entries.find? fun e => decide (e.job.jobID = id) with
  | none => rfl
  | some e =>
    have hid : e.job.jobID = id := jobID_of_find hfind
    rw [Option.map_some, Option.map_some, hid]

theorem find_modify_self (f : ClaimedJob → ClaimedJob) (hf : ∀ e, (f e).job.jobID = e.job.jobID)
    (h : s.find jobID = some e) : (s.modify jobID f hf).find jobID = some (f e) := by
  rw [find_modify, h, Option.map_some, if_pos rfl]

theorem countP_modify (p : ClaimedJob → Bool) (h : s.find jobID = some e) :
    (s.modify jobID f hf).entries.countP p + (if p e then 1 else 0) =
      s.entries.countP p + if p (f e) then 1 else 0 := by
  have hgeneral : ∀ l : List ClaimedJob, (l.map fun e => e.job.jobID).Nodup →
      l.find? (fun e => e.job.jobID = jobID) = some e →
      (l.map fun e => if e.job.jobID = jobID then f e else e).countP p + (if p e then 1 else 0) =
        l.countP p + if p (f e) then 1 else 0 := by
    intro l
    induction l with
    | nil => exact fun _ hnone => absurd hnone (by simp)
    | cons a l ih => ?_
    intro hnodup hfind
    rw [List.map_cons, List.nodup_cons] at hnodup
    rw [List.map_cons, List.countP_cons, List.countP_cons]
    by_cases ha : a.job.jobID = jobID
    · rw [List.find?_cons_of_pos (by simpa using ha)] at hfind
      obtain rfl := Option.some.inj hfind
      -- no later entry has this ID
      have htail : (l.map fun e => if e.job.jobID = jobID then f e else e) = l := by
        have hkeep : ∀ e ∈ l, (if e.job.jobID = jobID then f e else e) = e := by
          intro e he
          rw [if_neg]
          intro hsame
          exact hnodup.1 (List.mem_map.mpr ⟨e, he, hsame.trans ha.symm⟩)
        rw [List.map_congr_left hkeep, List.map_id']
      rw [if_pos ha, htail]
      omega
    · rw [List.find?_cons_of_neg (by simpa using ha)] at hfind
      have hrest := ih hnodup.2 hfind
      rw [if_neg ha]
      omega
  exact hgeneral s.entries s.distinct h

end

/-! ## 2. What an operation changes -/

section

variable (s : JobStore) (jobID nodeID : String) (ttl now : Time)

theorem acquireJob_cases :
    (∃ r, s.acquireJob jobID nodeID ttl now = (r, s) ∧ r ≠ .ok true) ∨
    ∃ e, s.find jobID = some e ∧ e.claimable nodeID now = true ∧
      s.acquireJob jobID nodeID ttl now =
        (.ok true, s.modify jobID (claim nodeID ttl now) fun _ => rfl) := by
  unfold acquireJob
  split
  · exact Or.inl ⟨_, rfl, by simp⟩
  split
  · exact Or.inl ⟨_, rfl, by simp⟩
  rcases hfind : s.find jobID with _ | e
  · exact Or.inl ⟨_, rfl, by simp⟩
  simp only
  split
  · exact Or.inl ⟨_, rfl, by simp⟩
  split
  · exact Or.inl ⟨_, rfl, by simp⟩
  rename_i hactive hfree
  refine Or.inr ⟨e, rfl, Bool.and_eq_true_iff.mpr ⟨?_, ?_⟩, rfl⟩
  · simpa using hactive
  · rw [Bool.not_eq_true', ← Bool.not_eq_true]
    exact hfree

theorem heartbeatJob_cases :
    (s.heartbeatJob jobID nodeID ttl now).2 = s ∨
    ∃ e, s.find jobID = some e ∧ e.claimedBy = nodeID ∧
      (s.heartbeatJob jobID nodeID ttl now).2 = s.modify jobID (extend ttl now) fun _ => rfl := by
  unfold heartbeatJob
  split
  · exact Or.inl rfl
  cases hfind : s.find jobID with
  | none => exact Or.inl rfl
  | some e =>
    by_cases howner : e.claimedBy = nodeID
    · exact Or.inr ⟨e, rfl, howner, by simp [howner]⟩
    · exact Or.inl (by simp [howner])

theorem releaseJob_cases (r : JobResult) :
    (s.releaseJob jobID nodeID r now).2 = s ∨
    ∃ e, s.find jobID = some e ∧ e.claimedBy = nodeID ∧ r.terminal ≠ .running ∧
      (s.releaseJob jobID nodeID r now).2 = s.modify jobID (finish r now) fun _ => rfl := by
  unfold releaseJob
  split
  · exact Or.inl rfl
  rename_i hterminal
  have hended : r.terminal ≠ .running := by
    intro hrunning
    simp [hrunning] at hterminal
  cases hfind : s.find jobID with
  | none => exact Or.inl rfl
  | some e =>
    by_cases howner : e.claimedBy = nodeID
    · exact Or.inr ⟨e, rfl, howner, hended, by simp [howner]⟩
    · exact Or.inl (by simp [howner])

theorem countP_listActiveJobs (cell : String) :
    s.listActiveJobs.countP (MigrationJob.runningFor cell) = s.runningCount cell := by
  unfold listActiveJobs runningCount
  rw [List.countP_map, List.countP_filter]
  apply List.countP_congr
  intro e _
  simp only [Function.comp_apply, MigrationJob.runningFor, ClaimedJob.active, Bool.and_eq_true,
    decide_eq_true_eq, Bool.or_eq_true]
  tauto

theorem find_of_mem_listActiveJobs {j : MigrationJob} (hj : j ∈ s.listActiveJobs) :
    ∃ e, s.find j.jobID = some e ∧ e.job = j := by
  obtain ⟨e, he, rfl⟩ := List.mem_map.mp hj
  exact ⟨e, find_of_mem (List.mem_of_mem_filter he), rfl⟩

theorem liveCount_le (cell : String) : s.liveCount cell now ≤ s.runningCount cell := by
  apply List.countP_mono_left
  intro e _ he
  exact (Bool.and_eq_true_iff.mp he).1

end

end JobStore

end ObjectFabric
