import ObjectFabric.Fleet.Orchestrator

/-!
# Runners — the workers of one job and their heartbeats

`FleetOrchestrator.run` and `heartbeatLoop` of `migration/fleet_orchestrator.go`.  The runner is given
the context of `RunOnce`.  The loop that is told that the claim is lost returns; it cancels nothing.
-/

namespace ObjectFabric

/-- Where a goroutine `run` stands, from the grant of its claim on. -/
inductive Phase where
  /-- `AcquireJob` has answered true, `GetJob` has not been called. -/
  | granted
  | loaded
  /-- The heartbeat loop has been started and the runner has not returned. -/
  | working
  /-- The runner has returned, `ReleaseJob` has not been called. -/
  | returned
  | ended
  deriving DecidableEq

/-- A goroutine `run` with its heartbeat loop: the loop goes on, it has been told that the claim is
not held, and the steps that the runner has made since. -/
structure Worker where
  node : NodeID
  phase : Phase := .granted
  beating : Bool := false
  told : Bool := false
  late : Nat := 0

/-- Not yet through with its `ReleaseJob`. -/
def Worker.active (w : Worker) : Bool := w.phase ≠ .ended

structure Crew where
  store : JobStore
  workers : List Worker := []

variable {jobID : String} {s : Crew}

namespace Crew

/-- One call of the store or one step of a goroutine; a call that fails leaves the store as it is. -/
inductive Move where
  /-- `AcquireJob` of a `RunOnce` whose snapshot lists the job as pending. -/
  | acquire (node : NodeID) (ttl now : Time)
  | getJob (i : Nat) (fails : Bool)
  | start (i : Nat)
  | beat (i : Nat) (ttl now : Time)
  /-- The loop sees that the runner has returned or that the context is cancelled.  Until then it may
  still beat. -/
  | quit (i : Nat)
  | work (i : Nat)
  | return (i : Nat)
  | release (i : Nat) (r : JobStore.JobResult) (now : Time) (fails : Bool)

def hear (answer : Except JobError Unit) (w : Worker) : Worker :=
  match answer with
  | .error .claimNotHeld => { w with told := true, beating := false }
  | .error .jobNotFound => { w with beating := false }
  | _ => w

/-- Worker `i` goes on when it is in the phase `p`. -/
def advance (s : Crew) (i : Nat) (p : Phase) (f : Worker → Worker) : Crew :=
  { s with workers := s.workers.modify i fun w => if w.phase = p then f w else w }

def step (jobID : String) (s : Crew) : Move → Crew
  | .acquire node ttl now =>
    let r := s.store.acquireJob jobID node ttl now
    ⟨r.2, if r.1.toOption = some true then { node } :: s.workers else s.workers⟩
  | .getJob i fails => s.advance i .granted fun w =>
      { w with phase := if fails ∨ s.store.getJob jobID = none then .ended else .loaded }
  | .start i => s.advance i .loaded fun w => { w with phase := .working, beating := true }
  | .beat i ttl now =>
    match s.workers[i]? with
    | some w =>
      if w.beating then
        let r := s.store.heartbeatJob jobID w.node ttl now
        ⟨r.2, s.workers.modify i (hear r.1)⟩
      else s
    | none => s
  | .quit i => { s with workers := s.workers.modify i fun w => { w with beating := false } }
  | .work i => s.advance i .working fun w => if w.told then { w with late := w.late + 1 } else w
  | .return i => s.advance i .working fun w => { w with phase := .returned }
  | .release i r now fails =>
    match s.workers[i]? with
    | some w =>
      if w.phase = .returned then
        ⟨if fails then s.store else (s.store.releaseJob jobID w.node r now).2,
          s.workers.modify i fun w => { w with phase := .ended }⟩
      else s
    | none => s

def run (jobID : String) (s : Crew) (moves : List Move) : Crew := moves.foldl (step jobID) s

/-- The job is not claimed, though it could be, between a worker's grant and its `ReleaseJob`. -/
def undisturbed (jobID : String) (s : Crew) : Move → Bool
  | .acquire node _ now =>
    (s.store.find jobID).all (fun e => !e.claimable node now) || s.workers.all (!·.active)
  | _ => true

def allMeet (jobID : String) (P : Crew → Move → Bool) : Crew → List Move → Bool
  | _, [] => true
  | s, m :: moves => P s m && allMeet jobID P (s.step jobID m) moves

/-- A worker whose heartbeat has been told that the claim is lost has stopped, without another step
of its runner; and no two are at work. -/
structure Abandons (s : Crew) : Prop where
  stops : ∀ w ∈ s.workers, w.late = 0 ∧ (w.told = true → w.phase ≠ .working)
  single : ∀ (i j : Nat) (w w' : Worker), s.workers[i]? = some w → s.workers[j]? = some w' →
    w.phase = .working → w'.phase = .working → i = j

/-! ## 1. Whoever is active owns the claim -/

def owner (jobID : String) (store : JobStore) : Option String := (store.find jobID).map (·.claimedBy)

structure Held (jobID : String) (s : Crew) : Prop where
  each : ∀ (i : Nat) (w : Worker), s.workers[i]? = some w → w.late = 0 ∧
    (w.active = true → w.told = false ∧ owner jobID s.store = some w.node.val)
  single : ∀ (i j : Nat) (w w' : Worker), s.workers[i]? = some w → s.workers[j]? = some w' →
    w.active = true → w'.active = true → i = j

theorem active_of_working {w : Worker} (h : w.phase = .working) : w.active = true := by
  simp [Worker.active, h]

theorem Held.abandons (h : Held jobID s) : Abandons s where
  stops w hw := by
    obtain ⟨i, hi⟩ := List.mem_iff_getElem?.mp hw
    refine ⟨(h.each i w hi).1, fun htold hworking => ?_⟩
    rw [((h.each i w hi).2 (active_of_working hworking)).1] at htold
    cases htold
  single i j w w' hw hw' hworking hworking' :=
    h.single i j w w' hw hw' (active_of_working hworking) (active_of_working hworking')

/-- One worker changes, and does not become active again; the row keeps its owner, if anybody is active
after that. -/
theorem Held.modify (h : Held jobID s) {i : Nat} {f : Worker → Worker}
    {store : JobStore}
    (hf : ∀ w, s.workers[i]? = some w → (f w).late = 0 ∧ ((f w).active = true →
      w.active = true ∧ (f w).told = false ∧ (f w).node = w.node))
    (howner : ∀ j w, s.workers[j]? = some w → w.active = true → (i = j → (f w).active = true) →
      owner jobID store = owner jobID s.store) :
    Held jobID ⟨store, s.workers.modify i f⟩ := by
  have hget : ∀ j w, (s.workers.modify i f)[j]? = some w →
      ∃ v, s.workers[j]? = some v ∧ w = if i = j then f v else v := by
    intro j w hw
    rw [List.getElem?_modify] at hw
    obtain ⟨v, hv, heq⟩ := Option.map_eq_some_iff.mp hw
    exact ⟨v, hv, heq.symm⟩
  have hactive : ∀ j v, s.workers[j]? = some v → (if i = j then f v else v).active = true →
      v.active = true := by
    intro j v hv hbusy
    split at hbusy
    · rename_i hij
      exact ((hf v (hij ▸ hv)).2 hbusy).1
    · exact hbusy
  constructor
  · intro j w hw
    obtain ⟨v, hv, rfl⟩ := hget j w hw
    by_cases hij : i = j
    · rw [if_pos hij]
      have hchanged := hf v (hij ▸ hv)
      refine ⟨hchanged.1, fun hbusy => ?_⟩
      obtain ⟨hbefore, htold, hnode⟩ := hchanged.2 hbusy
      refine ⟨htold, ?_⟩
      rw [hnode, howner j v hv hbefore (fun _ => hbusy)]
      exact ((h.each j v hv).2 hbefore).2
    · rw [if_neg hij]
      refine ⟨(h.each j v hv).1, fun hbusy => ?_⟩
      rw [howner j v hv hbusy (fun heq => absurd heq hij)]
      exact (h.each j v hv).2 hbusy
  · intro j k w w' hw hw' hbusy hbusy'
    obtain ⟨v, hv, rfl⟩ := hget j w hw
    obtain ⟨v', hv', rfl⟩ := hget k w' hw'
    exact h.single j k v v' hv hv' (hactive j v hv hbusy) (hactive k v' hv' hbusy')

theorem owner_heartbeatJob (jobID nodeID : String) (store : JobStore) (ttl now : Time) :
    owner jobID (store.heartbeatJob jobID nodeID ttl now).2 = owner jobID store := by
  rcases store.heartbeatJob_cases jobID nodeID ttl now with hsame | ⟨e, hfind, -, hbeat⟩
  · rw [hsame]
  · have hafter := JobStore.find_modify_self (JobStore.extend ttl now) (fun _ => rfl) hfind
    rw [hbeat, owner, hafter, owner, hfind]
    rfl

/-- The owner of the row is not told that the claim is lost. -/
theorem told_hear {store : JobStore} {w : Worker} {ttl now : Time}
    (h : owner jobID store = some w.node.val) :
    (hear (store.heartbeatJob jobID w.node ttl now).1 w).told = w.told := by
  obtain ⟨e, hfind, hnode⟩ := Option.map_eq_some_iff.mp h
  unfold JobStore.heartbeatJob
  split
  · rfl
  · simp [hfind, hnode, hear]

theorem hear_frame (answer : Except JobError Unit) (w : Worker) :
    (hear answer w).node = w.node ∧ (hear answer w).active = w.active ∧
      (hear answer w).late = w.late := by
  unfold hear
  split <;> exact ⟨rfl, rfl, rfl⟩

/-- A step of an active goroutine that does not touch what its heartbeat has heard. -/
theorem Held.advance (h : Held jobID s) {i : Nat} {p : Phase} {f : Worker → Worker} (hp : p ≠ .ended)
    (hf : ∀ w, w.phase = p → w.told = false →
      (f w).late = w.late ∧ (f w).told = false ∧ (f w).node = w.node) :
    Held jobID (s.advance i p f) := by
  refine h.modify (fun w hw => ?_) (fun _ _ _ _ _ => rfl)
  have heach := h.each i w hw
  by_cases hphase : w.phase = p
  · have hactive : w.active = true := by simpa [Worker.active, hphase] using hp
    obtain ⟨hlate, htold, hnode⟩ := hf w hphase (heach.2 hactive).1
    rw [if_pos hphase]
    exact ⟨hlate.trans heach.1, fun _ => ⟨hactive, htold, hnode⟩⟩
  · rw [if_neg hphase]
    exact ⟨heach.1, fun hactive => ⟨hactive, (heach.2 hactive).1, rfl⟩⟩

theorem Held.acquire (h : Held jobID s) (node : NodeID) (ttl now : Time)
    (hmeets : undisturbed jobID s (.acquire node ttl now) = true) :
    Held jobID (s.step jobID (.acquire node ttl now)) := by
  simp only [step]
  rcases s.store.acquireJob_cases jobID node ttl now with ⟨r, hr, hno⟩ | ⟨e, hfind, hclaim, hr⟩
  · have hnot : ¬ r.toOption = some true := by
      intro hyes
      cases r <;> simp_all [Except.toOption]
    rw [hr, if_neg hnot]
    exact h
  · rw [hr]
    -- the claim was to be had, so nobody is active
    have hrest : ∀ (i : Nat) (w : Worker), s.workers[i]? = some w → w.active = true → False := by
      intro i w hw hactive
      have hall : s.workers.all (!·.active) = true := by
        simpa [undisturbed, hfind, hclaim] using hmeets
      have hidle := List.all_eq_true.mp hall w (List.mem_of_getElem? hw)
      simp [hactive] at hidle
    have howner : owner jobID (s.store.modify jobID (JobStore.claim node ttl now) fun _ => rfl) =
        some node.val := by
      rw [owner, JobStore.find_modify_self (JobStore.claim node ttl now) (fun _ => rfl) hfind]
      rfl
    have hyes : (Except.ok true : Except JobError Bool).toOption = some true := rfl
    rw [if_pos hyes]
    constructor
    · intro i w hw
      cases i with
      | zero =>
        cases hw
        exact ⟨rfl, fun _ => ⟨rfl, howner⟩⟩
      | succ i => exact ⟨(h.each i w hw).1, fun hactive => (hrest i w hw hactive).elim⟩
    · intro i j w w' hw hw' hactive hactive'
      cases i with
      | zero =>
        cases j with
        | zero => rfl
        | succ j => exact (hrest j w' hw' hactive').elim
      | succ i => exact (hrest i w hw hactive).elim

theorem Held.step (h : Held jobID s) (m : Move)
    (hmeets : undisturbed jobID s m = true) : Held jobID (s.step jobID m) := by
  cases m with
  | acquire node ttl now => exact h.acquire node ttl now hmeets
  | getJob | start => exact h.advance (by decide) fun w _ htold => ⟨rfl, htold, rfl⟩
  | «return» i => exact h.advance (by decide) fun w _ htold => ⟨rfl, htold, rfl⟩
  | work i =>
    -- the loop has been told nothing, so this step is not counted as a late one
    exact h.advance (by decide) fun w _ htold => by simp [htold]
  | quit i =>
    exact h.modify (fun w hw => ⟨(h.each i w hw).1, fun hactive =>
      ⟨hactive, ((h.each i w hw).2 hactive).1, rfl⟩⟩) (fun _ _ _ _ _ => rfl)
  | beat i ttl now =>
    simp only [Crew.step]
    split
    · rename_i w hw
      split
      · refine h.modify (fun w' hw' => ?_) (fun _ _ _ _ _ => owner_heartbeatJob ..)
        obtain rfl : w = w' := Option.some.inj (hw.symm.trans hw')
        obtain ⟨hnode, hsame, hlate⟩ := hear_frame (s.store.heartbeatJob jobID w.node ttl now).1 w
        refine ⟨hlate.trans (h.each i w hw).1, fun hactive => ?_⟩
        rw [hsame] at hactive
        have heach := (h.each i w hw).2 hactive
        exact ⟨hactive, (told_hear heach.2).trans heach.1, hnode⟩
      · exact h
    · exact h
  | release i r now fails => ?_
  simp only [Crew.step]
  split
  · rename_i w hw
    split
    · rename_i hreturned
      have hactive : w.active = true := by simp [Worker.active, hreturned]
      refine h.modify (fun w' hw' => ⟨(h.each i w' hw').1, nofun⟩) (fun j w' hw' hactive' hsame => ?_)
      -- a second active worker would be this one
      have hij := h.single i j w w' hw hw' hactive hactive'
      cases hsame hij
    · exact h
  · exact h

theorem Held.run (h : Held jobID s) (moves : List Move)
    (hmeet : allMeet jobID (undisturbed jobID) s moves = true) : Held jobID (s.run jobID moves) := by
  induction moves generalizing s with
  | nil => exact h
  | cons m moves ih =>
    simp only [allMeet, Bool.and_eq_true] at hmeet
    exact ih (h.step m hmeet.1) hmeet.2

/-- Whatever the store holds at the start: when the job is never claimed between a worker's grant and
its `ReleaseJob`, a worker that has lost the claim has stopped, and no two are at work. -/
theorem abandons_run (jobID : String) (store : JobStore) (moves : List Move)
    (hmeet : allMeet jobID (undisturbed jobID) ⟨store, []⟩ moves = true) :
    Abandons (run jobID ⟨store, []⟩ moves) := by
  have hstart : Held jobID ⟨store, []⟩ := ⟨fun _ _ hw => by simp at hw, fun _ _ _ _ hw => by simp at hw⟩
  exact (hstart.run moves hmeet).abandons

/-- The job is claimed and worked on, the release fails, and after the deadline `b` takes over; the
heartbeat loop of `a` learns it late. -/
theorem abandons_run_takeover :
    let s := run "j1" ⟨oneJob, []⟩ [.acquire nodeA 10 0, .getJob 0 false, .start 0, .work 0, .beat 0 10 5,
      .return 0, .release 0 ⟨.done, 1, 1, none⟩ 7 true, .acquire nodeB 10 15, .getJob 0 false, .start 0,
      .beat 1 10 16, .work 0]
    (s.workers.map fun w => (w.node.val, w.phase, w.told)) =
      [("b", .working, false), ("a", .ended, true)] ∧ Abandons s :=
  ⟨by decide +kernel, abandons_run "j1" oneJob _ (by decide +kernel)⟩

/-- A claim expires under a runner and another node takes the job over: the heartbeat of the first is
told so, and its runner goes on beside the second. -/
theorem runner_survives_lost_claim :
    let s := run "j1" ⟨oneJob, []⟩ [.acquire nodeA 10 0, .getJob 0 false, .start 0,
      .acquire nodeB 10 10, .getJob 0 false, .start 0, .beat 1 10 11, .work 1]
    (s.workers.map fun w => (w.node.val, w.phase, w.told, w.late)) =
      [("b", .working, false, 0), ("a", .working, true, 1)] ∧ ¬ Abandons s := by
  refine ⟨by decide +kernel, fun h => ?_⟩
  have hsame := h.single 0 1 _ _ rfl rfl (by decide +kernel) (by decide +kernel)
  cases hsame

end Crew

end ObjectFabric
