import ObjectFabric.FiniteMap
import ObjectFabric.Fleet.Orchestrator
import ObjectFabric.Interleaving.Lease

/-!
# Claims — a job's claim is a lease, in memory and in Postgres

`migration/jobstore.go` and `migration/pg_lock.go`.  The claim is fenced by the name of the node.
-/

namespace ObjectFabric

open Leases

/-! ## 1. The Postgres store -/

/-- A row of `migration_jobs`; absent times and texts of the job are NULL. -/
structure PgJobRow where
  job : MigrationJob
  claimedBy : Option String := none
  claimedUntil : Option Time := none

/-- The table, by `job_id`. -/
abbrev PgJobs := FMap String PgJobRow

namespace PgJobs

/-- `UPDATE … WHERE job_id = $1 AND …`: whether a row was affected. -/
def update (s : PgJobs) (jobID : String) (p : PgJobRow → Bool) (f : PgJobRow → PgJobRow) :
    Bool × PgJobs :=
  match s.lookup jobID with
  | some row => if p row then (true, s.insert jobID (f row)) else (false, s)
  | none => (false, s)

/-- The answer when no row was affected: jobs are not deleted, so the query that follows finds the
job if the update did. -/
def unaffected {α : Type} (s : PgJobs) (jobID : String) (answer : Except JobError α) :
    Except JobError α :=
  if (s.lookup jobID).isNone then .error .jobNotFound else answer

def acquireJob (s : PgJobs) (jobID nodeID : String) (ttl now : Time) :
    Except JobError Bool × PgJobs :=
  if jobID = "" ∨ nodeID = "" then
    (.error (.other "migration: AcquireJob requires jobID and nodeID"), s)
  else if ttl ≤ 0 then
    (.error (.other "migration: AcquireJob requires positive ttl"), s)
  else
    let r := s.update jobID
      (fun row => (row.job.state = .pending || row.job.state = .running) &&
        (row.claimedBy.isNone || row.claimedUntil.any (· ≤ now) || row.claimedBy = some nodeID))
      (fun row =>
        { job := { row.job with
            state := .running
            startedAt := if row.job.startedAt = 0 then now else row.job.startedAt }
          claimedBy := some nodeID, claimedUntil := some (now + ttl) })
    (if r.1 then .ok true else s.unaffected jobID (.ok false), r.2)

def heartbeatJob (s : PgJobs) (jobID nodeID : String) (ttl now : Time) :
    Except JobError Unit × PgJobs :=
  if ttl ≤ 0 then
    (.error (.other "migration: HeartbeatJob requires positive ttl"), s)
  else
    let r := s.update jobID (fun row => row.claimedBy = some nodeID)
      (fun row => { row with claimedUntil := some (now + ttl) })
    (if r.1 then .ok () else s.unaffected jobID (.error .claimNotHeld), r.2)

def releaseJob (s : PgJobs) (jobID nodeID : String) (r : JobStore.JobResult) (now : Time) :
    Except JobError Unit × PgJobs :=
  if r.terminal ≠ .done ∧ r.terminal ≠ .failed then
    (.error (.other "migration: ReleaseJob terminal must be JobDone or JobFailed"), s)
  else
    let u := s.update jobID (fun row => row.claimedBy = some nodeID)
      (fun row => { job := { row.job with
        state := r.terminal, bytesCopied := r.bytesCopied, piecesCopied := r.piecesCopied,
        completedAt := now, error := r.error.getD "" } })
    (if u.1 then .ok () else s.unaffected jobID (.error .claimNotHeld), u.2)

end PgJobs

/-! ## 2. The lease they show -/

inductive ClaimCall where
  | acquire (node : NodeID) (ttl : Time)
  | heartbeat (node : NodeID) (ttl : Time)
  | release (node : NodeID) (r : JobStore.JobResult)

def ClaimCall.op (now : Time) : ClaimCall → Op String
  | .acquire node ttl => .acquire node (now + ttl)
  | .heartbeat node ttl => .extend node (now + ttl)
  | .release node _ => .finish node

def ClaimedJob.lease (e : ClaimedJob) : Lease String :=
  ⟨if e.claimedBy = "" then none else some e.claimedBy, e.claimedUntil, !e.active⟩

def PgJobRow.lease (row : PgJobRow) : Lease String :=
  ⟨row.claimedBy, row.claimedUntil.getD 0,
    !(row.job.state = .pending || row.job.state = .running)⟩

def JobStore.execClaim (jobID : String) (s : JobStore) (now : Time) : ClaimCall → Bool × JobStore
  | .acquire node ttl =>
    let r := s.acquireJob jobID node ttl now
    (r.1.toOption.getD false, r.2)
  | .heartbeat node ttl =>
    let r := s.heartbeatJob jobID node ttl now
    (r.1.toBool, r.2)
  | .release node res =>
    let r := s.releaseJob jobID node res now
    (r.1.toBool, r.2)

def PgJobs.execClaim (jobID : String) (s : PgJobs) (now : Time) : ClaimCall → Bool × PgJobs
  | .acquire node ttl =>
    let r := s.acquireJob jobID node ttl now
    (r.1.toOption.getD false, r.2)
  | .heartbeat node ttl =>
    let r := s.heartbeatJob jobID node ttl now
    (r.1.toBool, r.2)
  | .release node res =>
    let r := s.releaseJob jobID node res now
    (r.1.toBool, r.2)

def leaseOf {ε : Type} (lease : ε → Lease String) (found : Option ε) : Lease String :=
  (found.map lease).getD { closed := true }

/-- What a granted call has done: it found an entry, and left one whose lease is as the operation
says. -/
def Granted {ε : Type} (lease : ε → Lease String) (now : Time) (c : ClaimCall)
    (before after : Option ε) : Prop :=
  ∃ e e', before = some e ∧ after = some e' ∧ (lease e).apply now (c.op now) = some (lease e')

theorem Granted.apply {ε : Type} {lease : ε → Lease String} {now : Time} {c : ClaimCall}
    {before after : Option ε} (h : Granted lease now c before after) :
    (leaseOf lease before).apply now (c.op now) = some (leaseOf lease after) := by
  obtain ⟨e, e', rfl, rfl, happly⟩ := h
  exact happly

/-- The holder of the lease is the node of the entry, when that is named. -/
theorem ClaimedJob.holder_lease {e : ClaimedJob} {node : NodeID} (h : e.claimedBy = node) :
    e.lease.holder = some node.val := by
  simp [ClaimedJob.lease, h, node.property]

theorem ClaimedJob.apply_acquire {e : ClaimedJob} {node : NodeID} {now : Time}
    (h : e.claimable node now = true) (ttl : Time) :
    e.lease.apply now (.acquire node (now + ttl)) =
      some (JobStore.claim node ttl now e).lease := by
  simp only [claimable, Bool.and_eq_true, Bool.not_eq_true'] at h
  rw [Lease.apply, if_pos]
  · simp [lease, JobStore.claim, node.property, active]
  · refine ⟨by simp [lease, h.1], fun holder hholder => ?_⟩
    have hfree := h.2
    by_cases hnone : e.claimedBy = ""
    · simp [lease, hnone] at hholder
    obtain rfl : e.claimedBy = holder := by simpa [lease, hnone] using hholder
    simp only [claimed, hnone, ne_eq, not_false_eq_true, decide_true, Bool.true_and,
      Bool.and_eq_false_iff, decide_eq_false_iff_not, not_lt, not_not] at hfree
    exact hfree

theorem JobStore.execClaim_cases (jobID : String) (s : JobStore) (now : Time) (c : ClaimCall) :
    s.execClaim jobID now c = (false, s) ∨ (s.execClaim jobID now c).1 = true ∧
      Granted ClaimedJob.lease now c (s.find jobID) ((s.execClaim jobID now c).2.find jobID) := by
  cases c with
  | acquire node ttl =>
    simp only [execClaim]
    rcases s.acquireJob_cases jobID node ttl now with ⟨r, hr, hne⟩ | ⟨e, hfind, hclaim, hr⟩
    · rw [hr]
      match r with
      | .ok true => exact absurd rfl hne
      | .ok false => exact .inl rfl
      | .error _ => exact .inl rfl
    · rw [hr]
      refine .inr ⟨rfl, e, _, hfind, ?_, ClaimedJob.apply_acquire hclaim ttl⟩
      exact find_modify_self (claim node ttl now) (fun _ => rfl) hfind
  | heartbeat node ttl =>
    simp only [execClaim, heartbeatJob]
    by_cases httl : ttl ≤ 0
    · rw [if_pos httl]
      exact .inl rfl
    rw [if_neg httl]
    rcases hfind : s.find jobID with _ | e
    · exact .inl rfl
    by_cases howner : e.claimedBy = node
    · simp only [howner, ne_eq, not_true_eq_false, if_false]
      refine .inr ⟨rfl, e, _, rfl, find_modify_self (extend ttl now) (fun _ => rfl) hfind, ?_⟩
      rw [ClaimCall.op, Lease.apply, if_pos (ClaimedJob.holder_lease howner)]
      rfl
    · simp only [ne_eq, howner, not_false_eq_true, if_true]
      exact .inl rfl
  | release node r => ?_
  simp only [execClaim, releaseJob]
  by_cases hterminal : r.terminal ≠ .done ∧ r.terminal ≠ .failed
  · rw [if_pos hterminal]
    exact .inl rfl
  rw [if_neg hterminal]
  rcases hfind : s.find jobID with _ | e
  · exact .inl rfl
  by_cases howner : e.claimedBy = node
  · simp only [howner, ne_eq, not_true_eq_false, if_false]
    refine .inr ⟨rfl, e, _, rfl, find_modify_self (finish r now) (fun _ => rfl) hfind, ?_⟩
    rw [ClaimCall.op, Lease.apply, if_pos (ClaimedJob.holder_lease howner)]
    have hended : r.terminal ≠ .pending ∧ r.terminal ≠ .running := by
      cases hr : r.terminal <;> simp_all
    simp [ClaimedJob.lease, finish, ClaimedJob.active, hended]
  · simp only [ne_eq, howner, not_false_eq_true, if_true]
    exact .inl rfl

theorem PgJobs.update_cases (s : PgJobs) (jobID : String) (p : PgJobRow → Bool)
    (f : PgJobRow → PgJobRow) :
    s.update jobID p f = (false, s) ∨ ∃ row, s.lookup jobID = some row ∧ p row = true ∧
      s.update jobID p f = (true, s.insert jobID (f row)) := by
  unfold update
  cases hrow : s.lookup jobID with
  | none => exact .inl rfl
  | some row =>
    cases hp : p row with
    | false => exact .inl (by simp [hp])
    | true => exact .inr ⟨row, rfl, hp, by simp [hp]⟩

/-- An answer that stands for no affected row is no grant. -/
theorem PgJobs.unaffected_claimNotHeld (s : PgJobs) (jobID : String) :
    (s.unaffected jobID (.error .claimNotHeld : Except JobError Unit)).toBool = false := by
  unfold unaffected
  split <;> rfl

theorem PgJobs.execClaim_cases (jobID : String) (s : PgJobs) (now : Time) (c : ClaimCall) :
    s.execClaim jobID now c = (false, s) ∨ (s.execClaim jobID now c).1 = true ∧
      Granted PgJobRow.lease now c (s.lookup jobID) ((s.execClaim jobID now c).2.lookup jobID) := by
  cases c with
  | acquire node ttl =>
    simp only [execClaim, acquireJob]
    split
    · exact .inl rfl
    split
    · exact .inl rfl
    rcases s.update_cases jobID _ _ with hno | ⟨row, hrow, hp, hyes⟩
    · rw [hno]
      refine .inl (Prod.ext ?_ rfl)
      simp only [Bool.false_eq_true, if_false, unaffected]
      split <;> rfl
    · rw [hyes]
      refine .inr ⟨rfl, row, _, hrow, Finmap.lookup_insert s, ?_⟩
      simp only [Bool.and_eq_true] at hp
      rw [ClaimCall.op, Lease.apply, if_pos]
      · rfl
      · refine ⟨by simp [PgJobRow.lease, hp.1], fun holder hholder => ?_⟩
        have hfree := hp.2
        simp only [show row.claimedBy = some holder from hholder, Option.isNone_some,
          Bool.false_or, Bool.or_eq_true, decide_eq_true_eq, Option.some.injEq] at hfree
        refine hfree.imp_left fun hpassed => ?_
        cases huntil : row.claimedUntil with
        | none => simp [huntil] at hpassed
        | some d => simpa [huntil, PgJobRow.lease] using hpassed
  | heartbeat node ttl =>
    simp only [execClaim, heartbeatJob]
    split
    · exact .inl rfl
    rcases s.update_cases jobID _ _ with hno | ⟨row, hrow, hp, hyes⟩
    · rw [hno]
      exact .inl (Prod.ext (s.unaffected_claimNotHeld jobID) rfl)
    rw [hyes]
    refine .inr ⟨rfl, row, _, hrow, Finmap.lookup_insert s, ?_⟩
    have hholds : row.lease.holder = some node.val := of_decide_eq_true hp
    rw [ClaimCall.op, Lease.apply, if_pos hholds]
    rfl
  | release node r => ?_
  simp only [execClaim, releaseJob]
  by_cases hterminal : r.terminal ≠ .done ∧ r.terminal ≠ .failed
  · rw [if_pos hterminal]
    exact .inl rfl
  rw [if_neg hterminal]
  rcases s.update_cases jobID _ _ with hno | ⟨row, hrow, hp, hyes⟩
  · rw [hno]
    exact .inl (Prod.ext (s.unaffected_claimNotHeld jobID) rfl)
  rw [hyes]
  refine .inr ⟨rfl, row, _, hrow, Finmap.lookup_insert s, ?_⟩
  have hholds : row.lease.holder = some node.val := of_decide_eq_true hp
  rw [ClaimCall.op, Lease.apply, if_pos hholds]
  have hended : r.terminal ≠ .pending ∧ r.terminal ≠ .running := by
    cases hr : r.terminal <;> simp_all
  simp [PgJobRow.lease, hended]

def leased {σ ε : Type} (find : σ → Option ε) (lease : ε → Lease String)
    (exec : σ → Time → ClaimCall → Bool × σ)
    (hcases : ∀ s now c, exec s now c = (false, s) ∨ (exec s now c).1 = true ∧
      Granted lease now c (find s) (find (exec s now c).2)) : Leased σ ClaimCall String where
  op := ClaimCall.op
  exec := exec
  view s := leaseOf lease (find s)
  granted {s now c} hyes := by
    rcases hcases s now c with hno | ⟨-, hgranted⟩
    · rw [hno] at hyes
      cases hyes
    · exact hgranted.apply
  refused {s now c} hno := by
    rcases hcases s now c with hsame | ⟨hyes, -⟩
    · rw [hsame]
    · rw [hyes] at hno
      cases hno

def memoryClaims (jobID : String) : Leased JobStore ClaimCall String :=
  leased (·.find jobID) ClaimedJob.lease (JobStore.execClaim jobID) (JobStore.execClaim_cases jobID)

def postgresClaims (jobID : String) : Leased PgJobs ClaimCall String :=
  leased (·.lookup jobID) PgJobRow.lease (PgJobs.execClaim jobID) (PgJobs.execClaim_cases jobID)

/-- From a job that has just been put, in either store: whatever the nodes call and however their
calls interleave, claims are exclusive and fenced, and an ended job does not change. -/
theorem claims_exclusive (jobID : String) (s : JobStore) (t : PgJobs) (now : Time)
    (calls : List (Time × ClaimCall)) (hforward : Leased.Forward now calls)
    (hs : ∀ e, s.find jobID = some e → e.job.state = .pending)
    (ht : ∀ row, t.lookup jobID = some row → row.claimedBy = none) :
    (memoryClaims jobID).Exclusive ((memoryClaims jobID).run ⟨now, [], s⟩ calls) ∧
      (postgresClaims jobID).Exclusive ((postgresClaims jobID).run ⟨now, [], t⟩ calls) := by
  constructor
  · refine Leased.exclusive_run ?_ hforward
    show (leaseOf ClaimedJob.lease (s.find jobID)).holder = none
    cases hfind : s.find jobID with
    | none => rfl
    | some e => simp [leaseOf, ClaimedJob.lease, e.unclaimed (hs e hfind)]
  · refine Leased.exclusive_run ?_ hforward
    show (leaseOf PgJobRow.lease (t.lookup jobID)).holder = none
    cases hfind : t.lookup jobID with
    | none => rfl
    | some row => exact ht row hfind

/-- The claim of one node expires and another takes the job over, before the first comes back. -/
theorem claims_exclusive_takeover :
    let job : MigrationJob := { jobID := "j", destCellID := "c" }
    let a : NodeID := ⟨"a", by decide⟩
    let calls : List (Time × ClaimCall) :=
      [(0, .acquire a 10), (10, .acquire ⟨"b", by decide⟩ 10), (12, .heartbeat a 10)]
    (memoryClaims "j").Exclusive
        ((memoryClaims "j").run ⟨0, [], { entries := [{ job := job }] }⟩ calls) ∧
      (postgresClaims "j").Exclusive
        ((postgresClaims "j").run ⟨0, [], (∅ : PgJobs).insert "j" { job := job }⟩ calls) :=
  claims_exclusive "j" _ _ 0 _ ⟨by decide, by decide, by decide, trivial⟩
    (fun e he => by cases he; rfl) (fun row hrow => by cases hrow; rfl)

end ObjectFabric
