import ObjectFabric.Fleet.JobStore
import ObjectFabric.Interleaving.Pool

/-!
# Orchestrator — gateway nodes that share one job store

`migration/fleet_orchestrator.go`.  A call of `RunOnce` lists the active jobs once, counts those in
progress for each destination cell, and then claims pending jobs one by one as long as its own count
is below the cell's limit.  The workers of the claimed jobs run beside it.
-/

namespace ObjectFabric

open Interleaving Proc

inductive JobCall : Type → Type where
  | listActiveJobs : JobCall (Except JobError (List MigrationJob))
  | acquireJob (jobID nodeID : String) (ttl : Time) : JobCall (Except JobError Bool)
  | heartbeatJob (jobID nodeID : String) (ttl : Time) : JobCall (Except JobError Unit)
  | releaseJob (jobID nodeID : String) (r : JobStore.JobResult) : JobCall (Except JobError Unit)
  | getJob (jobID : String) : JobCall (Except JobError (Option MigrationJob))

structure JobChoice where
  now : Time := 0
  fault : Option String := none

def jobMachine : Machine JobCall JobStore JobChoice where
  exec x c s :=
    match c, x.fault with
    | .listActiveJobs, none => (.ok s.listActiveJobs, s)
    | .listActiveJobs, some err => (.error (.other err), s)
    | .acquireJob jobID nodeID ttl, none => s.acquireJob jobID nodeID ttl x.now
    | .acquireJob _ _ _, some err => (.error (.other err), s)
    | .heartbeatJob jobID nodeID ttl, none => s.heartbeatJob jobID nodeID ttl x.now
    | .heartbeatJob _ _ _, some err => (.error (.other err), s)
    | .releaseJob jobID nodeID r, none => s.releaseJob jobID nodeID r x.now
    | .releaseJob _ _ _, some err => (.error (.other err), s)
    | .getJob jobID, none => (.ok (s.getJob jobID), s)
    | .getJob _, some err => (.error (.other err), s)

abbrev NodeID := { name : String // name ≠ "" }

/-- What every node of the fleet is configured with: a cell that is not listed, or whose maximum is
not positive, runs one job at a time. -/
structure FleetConfig where
  maxConcurrentJobs : String → Int := fun _ => 1
  claimTTL : Time := 30 * 1000000000

namespace FleetConfig

variable (cfg : FleetConfig)

def cellLimit (cell : String) : Nat :=
  if cfg.maxConcurrentJobs cell ≤ 0 then 1 else (cfg.maxConcurrentJobs cell).toNat

end FleetConfig

/-- The counter of `RunOnce`: jobs in progress for a cell, by any node and under any claim. -/
def runningIn (jobs : List MigrationJob) (cell : String) : Nat :=
  jobs.countP (MigrationJob.runningFor cell)

/-- The second loop of `RunOnce`; the result is the jobs whose workers it starts. -/
def dispatch (cfg : FleetConfig) (nodeID : NodeID) :
    (String → Nat) → List MigrationJob → Proc JobCall (List String)
  | _, [] => .ret []
  | running, j :: js =>
    if j.state ≠ .pending then
      dispatch cfg nodeID running js
    else if cfg.cellLimit j.destCellID ≤ running j.destCellID then
      dispatch cfg nodeID running js
    else do
      match ← ask (.acquireJob j.jobID nodeID.1 cfg.claimTTL) with
      | .ok true =>
        let counted := Function.update running j.destCellID (running j.destCellID + 1)
        let rest ← dispatch cfg nodeID counted js
        return j.jobID :: rest
      -- an error is logged; `false` means that another node was first
      | _ => dispatch cfg nodeID running js

def runOnce (cfg : FleetConfig) (nodeID : NodeID) : Proc JobCall (List String) := do
  match ← ask .listActiveJobs with
  | .error _ => return []
  | .ok active => dispatch cfg nodeID (runningIn active) active

/-- The worker of a job.  What the runner reports is given; the runner makes no calls here. -/
def runJob (nodeID : NodeID) (jobID : String) (bytes pieces : Int) (runErr : Option String) :
    Proc JobCall (List String) := do
  match ← ask (.getJob jobID) with
  | .ok (some _) =>
    let terminal := if runErr.isSome then JobState.failed else JobState.done
    let _ ← ask (.releaseJob jobID nodeID.1
      { terminal, bytesCopied := bytes, piecesCopied := pieces, error := runErr })
    return []
  | _ => return []

/-- Extends the claim at each tick, until the worker is done or the claim is lost. -/
def heartbeatLoop (cfg : FleetConfig) (nodeID : NodeID) (jobID : String) :
    Nat → Proc JobCall (List String)
  | 0 => .ret []
  | ticks + 1 => do
    match ← ask (.heartbeatJob jobID nodeID.1 cfg.claimTTL) with
    | .error .claimNotHeld => return []
    | .error .jobNotFound => return []
    | _ => heartbeatLoop cfg nodeID jobID ticks

inductive FleetTask where
  | runOnce (nodeID : NodeID)
  | run (nodeID : NodeID) (jobID : String) (bytes pieces : Int) (runErr : Option String)
  | heartbeats (nodeID : NodeID) (jobID : String) (ticks : Nat)

namespace FleetTask

def nodeID : FleetTask → NodeID
  | runOnce nodeID => nodeID
  | run nodeID _ _ _ _ => nodeID
  | heartbeats nodeID _ _ => nodeID

def program (cfg : FleetConfig) : FleetTask → Proc JobCall (List String)
  | runOnce nodeID => ObjectFabric.runOnce cfg nodeID
  | run nodeID jobID bytes pieces runErr => runJob nodeID jobID bytes pieces runErr
  | heartbeats nodeID jobID ticks => heartbeatLoop cfg nodeID jobID ticks

end FleetTask

def fleet (cfg : FleetConfig) (s : JobStore) (tasks : List FleetTask) :
    Pool JobCall (List String) JobStore :=
  Pool.start s (tasks.map (FleetTask.program cfg))

/-! ## A sample fleet -/

def nodeA : NodeID := ⟨"a", by decide⟩

def nodeB : NodeID := ⟨"b", by decide⟩

def queued (jobID : String) : ClaimedJob where
  job := { jobID, destCellID := "eu" }
  unclaimed := fun _ => rfl

def oneJob : JobStore where
  entries := [queued "j1"]
  distinct := by decide

end ObjectFabric
