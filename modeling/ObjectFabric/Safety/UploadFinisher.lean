import ObjectFabric.Interleaving.Linearize
import ObjectFabric.Store.PostgresMultipart

/-!
# UploadFinisher — completing, aborting and expiring one upload on many nodes

The row of an upload is what the nodes compete for, but a DELETE of the row succeeds also when
another node has deleted it before, and the sweep deletes pieces before it deletes the row.  When
every DELETE finds its row and the sweep's cleanup runs while the row is still there, one call
finishes the upload.
-/

namespace ObjectFabric

open Interleaving Interleaving.Proc

inductive FinishRequest where
  | complete (node : Nat) (tenantID bucket objectKey : String) (expected : List PartReference)
  | abort (node : Nat) (tenantID : String)
  | expire (node : Nat) (tenantID : String)

namespace FinishRequest

def isComplete : FinishRequest → Bool
  | .complete _ _ _ _ _ => true
  | _ => false

def isExpire : FinishRequest → Bool
  | .expire _ _ => true
  | _ => false

/-- The call on the upload `id`, and for an abort the deletion of the parts by its handler; the
answer says whether the call succeeded. -/
def handle (hasCleanup : Bool) (id : String) : FinishRequest → Proc PgCall Bool
  | .complete node tenantID bucket objectKey expected => do
    match ← PostgresStore.complete node id tenantID bucket objectKey expected with
    | .error _ => return false
    | .ok _ => return true
  | .abort node tenantID => do
    match ← PostgresStore.abort node id tenantID with
    | .error _ => return false
    | .ok (_, parts) =>
      ask (.cleanup id parts)
      return true
  | .expire node tenantID => PostgresStore.expireOne hasCleanup node tenantID id

end FinishRequest

def rowDeleted : History PgCall → Bool
  | [] => false
  | ⟨.deleteUpload _ _, .ok _⟩ :: _ => true
  | _ :: h => rowDeleted h

/-- A DELETE statement finds the row, and that of a completion comes before any cleanup; the sweep
hands the parts over while the row exists. -/
def rowFound (id : String) (reqs : List FinishRequest) : Condition PgCall Bool PgFleet PUnit
  | i, _, _, .deleteUpload tenantID id', fault, s, _ => fault = false →
      (s.row tenantID id').isSome = true ∧
        (reqs[i]?.any FinishRequest.isComplete = true → s.handed = [])
  | i, _, _, .cleanup _ _, _, s, _ => reqs[i]?.any FinishRequest.isExpire = true →
      (s.rows.lookup id).isSome = true
  | _, _, _, _, _, _, _ => True

variable {node : Nat} {tenantID : String} {hasCleanup : Bool}

/-! ## 1. What the calls do -/

section

variable (id : String) (reqs : List FinishRequest)

/-- Only a call that has deleted the row, or the sweep, hands parts to the cleanup. -/
def finishSpec (i : Nat) : Spec PgCall where
  pre h c := match c with
    | .deleteUpload _ id' => id' = id
    | .cleanup _ _ => reqs[i]?.any FinishRequest.isComplete = false ∧
        (rowDeleted h = true ∨ reqs[i]?.any FinishRequest.isExpire = true)
    | _ => True
  post _ _ _ := True

def finishResult (_ : Nat) (h : History PgCall) (succeeded : Bool) : Prop :=
  succeeded = true → rowDeleted h = true

variable {id reqs} {i : Nat}

theorem get_conforms {Q : History PgCall → Except StoreError Session → Prop}
    {h : History PgCall} (hQ : ∀ h a, Q h a) :
    (PostgresStore.get node tenantID id).Conforms (finishSpec id reqs i) Q h := by
  refine ⟨trivial, fun cached _ => ?_⟩
  cases cached with
  | some session =>
    simp only [Proc.ret_bind]
    split <;> exact hQ _ _
  | none => ?_
  refine ⟨trivial, fun loaded _ => ?_⟩
  rcases loaded with e | upload
  · exact hQ _ _
  simp only [Proc.ret_bind]
  split
  · exact hQ _ _
  refine ⟨trivial, fun session _ => ?_⟩
  cases session with
  | error e => exact hQ _ _
  | ok session => exact ⟨trivial, fun _ _ => hQ _ _⟩

theorem remove_conforms {h : History PgCall} :
    (PostgresStore.remove node tenantID id).Conforms (finishSpec id reqs i)
      (fun h' a => a = .ok () → rowDeleted h' = true) h := by
  refine ⟨rfl, fun deleted _ => ?_⟩
  cases deleted with
  | error e => exact fun ha => absurd ha (by simp)
  | ok u => exact ⟨trivial, fun _ _ _ => rfl⟩

theorem complete_conforms {tenantID bucket objectKey : String}
    {expected : List PartReference} :
    ((FinishRequest.complete node tenantID bucket objectKey expected).handle hasCleanup id).Conforms
      (finishSpec id reqs i) (finishResult i) [] := by
  have hfail : ∀ h, finishResult i h false := fun h hf => absurd hf (by decide)
  apply Conforms.bind
  apply Conforms.bind
  apply get_conforms
  intro h session
  rcases session with e | session
  · exact hfail h
  simp only
  split
  · exact hfail h
  split
  · exact hfail h
  apply Conforms.bind
  apply remove_conforms.mono
  intro h' removed hremoved
  cases removed with
  | error e => exact hfail h'
  | ok u => exact fun _ => hremoved rfl

theorem abort_conforms
    (hi : reqs[i]? = some (.abort node tenantID)) :
    ((FinishRequest.abort node tenantID).handle hasCleanup id).Conforms (finishSpec id reqs i)
      (finishResult i) [] := by
  have hfail : ∀ h, finishResult i h false := fun h hf => absurd hf (by decide)
  apply Conforms.bind
  apply Conforms.bind
  apply get_conforms
  intro h session
  rcases session with e | session
  · exact hfail h
  apply Conforms.bind
  apply remove_conforms.mono
  intro h' removed hremoved
  cases removed with
  | error e => exact hfail h'
  | ok u =>
    have hdeleted : rowDeleted h' = true := hremoved rfl
    refine ⟨⟨by rw [hi]; rfl, Or.inl hdeleted⟩, fun _ _ _ => hdeleted⟩

theorem expire_conforms_finish
    (hi : reqs[i]? = some (.expire node tenantID)) :
    ((FinishRequest.expire node tenantID).handle hasCleanup id).Conforms (finishSpec id reqs i)
      (finishResult i) [] := by
  have hfail : ∀ h, finishResult i h false := fun h hf => absurd hf (by decide)
  have hremove : ∀ h (k : Except StoreError Unit → Proc PgCall Bool),
      (∀ e, k (.error e) = .ret false) → k (.ok ()) = .ret true →
      ((PostgresStore.remove node tenantID id).bind k).Conforms (finishSpec id reqs i)
        (finishResult i) h := by
    intro h k herr hok
    apply Conforms.bind
    apply remove_conforms.mono
    intro h' removed hremoved
    cases removed with
    | error e =>
      rw [herr]
      exact hfail h'
    | ok u =>
      rw [hok]
      exact fun _ => hremoved rfl
  refine ⟨trivial, fun loaded _ => ?_⟩
  rcases loaded with e | upload
  · exact hfail _
  refine ⟨trivial, fun session _ => ?_⟩
  rcases session with e | session
  · exact hfail _
  split
  · exact hfail _
  · cases hasCleanup with
    | false => exact hremove _ _ (fun _ => rfl) rfl
    | true =>
      exact ⟨⟨by rw [hi]; rfl, Or.inr (by rw [hi]; rfl)⟩,
        fun _ _ => hremove _ _ (fun _ => rfl) rfl⟩

theorem finishHandlers_conform {p : Proc PgCall Bool}
    (hp : (reqs.map (FinishRequest.handle hasCleanup id))[i]? = some p) :
    p.Conforms (finishSpec id reqs i) (finishResult i) [] := by
  rw [List.getElem?_map, Option.map_eq_some_iff] at hp
  rcases hp with ⟨r, hi, rfl⟩
  cases r with
  | complete node tenantID bucket objectKey expected => exact complete_conforms
  | abort node tenantID => exact abort_conforms hi
  | expire node tenantID => exact expire_conforms_finish hi

/-! ## 2. Steps and runs -/

variable (id reqs) in
def finishProtocol : Protocol PgCall PgFleet Bool PUnit where
  held _ := 0
  inv _ _ := True
  cond := rowFound id reqs
  spec := finishSpec id reqs

theorem finishProtocol_sound : (finishProtocol id reqs).Sound pgMachine where
  step _ _ _ _ _ _ _ _ _ := ⟨trivial, trivial⟩
  drop _ _ _ _ := trivial

variable (id reqs) in
/-- At most one call has deleted the row, and if that is a completion nothing was handed over. -/
structure SingleFinisher (P : Pool PgCall Bool PgFleet) : Prop where
  unique : ∀ i j, rowDeleted (P.pastOf i) = true → rowDeleted (P.pastOf j) = true → i = j
  gone : ∀ i, rowDeleted (P.pastOf i) = true → P.shared.rows.lookup id = none
  clean : ∀ i, rowDeleted (P.pastOf i) = true → reqs[i]?.any FinishRequest.isComplete = true →
    P.shared.handed = []

theorem SingleFinisher.of_same {P P' : Pool PgCall Bool PgFleet} (hP : SingleFinisher id reqs P)
    (hpast : ∀ i, rowDeleted (P'.pastOf i) = rowDeleted (P.pastOf i))
    (hrows : P'.shared.rows = P.shared.rows)
    (hhanded : P'.shared.handed = P.shared.handed ∨
      ∀ i, rowDeleted (P.pastOf i) = true → reqs[i]?.any FinishRequest.isComplete = false) :
    SingleFinisher id reqs P' := by
  constructor
  · intro i j hi hj
    rw [hpast] at hi hj
    exact hP.unique i j hi hj
  · intro i hi
    rw [hpast] at hi
    rw [hrows]
    exact hP.gone i hi
  · intro i hi hcomplete
    rw [hpast] at hi
    rcases hhanded with hsame | hnone
    · rw [hsame]
      exact hP.clean i hi hcomplete
    · rw [hnone i hi] at hcomplete
      exact absurd hcomplete (by decide)

theorem SingleFinisher.first {P P' : Pool PgCall Bool PgFleet} {w : Nat}
    (hP : SingleFinisher id reqs P) (hrow : (P.shared.rows.lookup id).isSome = true)
    (hpast : ∀ i, i ≠ w → P'.pastOf i = P.pastOf i) (hgone : P'.shared.rows.lookup id = none)
    (hclean : reqs[w]?.any FinishRequest.isComplete = true → P'.shared.handed = []) :
    SingleFinisher id reqs P' := by
  -- the row was there, so nobody else has deleted it
  have honly : ∀ i, rowDeleted (P'.pastOf i) = true → i = w := by
    intro i hi
    by_cases hiw : i = w
    · exact hiw
    · rw [hpast i hiw] at hi
      rw [hP.gone i hi] at hrow
      exact absurd hrow (by decide)
  constructor
  · intro i j hi hj
    rw [honly i hi, honly j hj]
  · exact fun i _ => hgone
  · intro i hi hcomplete
    rw [honly i hi] at hcomplete
    exact hclean hcomplete

theorem singleFinisher_step {P : Pool PgCall Bool PgFleet} {mv : Nat × Bool}
    (hgood : (finishProtocol id reqs).Good finishResult P)
    (hmv : P.MoveMeets (fun _ => (0 : PUnit)) (rowFound id reqs) mv)
    (hP : SingleFinisher id reqs P) : SingleFinisher id reqs (P.step pgMachine mv) := by
  rcases P.step_cases pgMachine mv with hstep | ⟨past, β, c, k, hthread, hstep⟩
  · rw [hstep]
    exact hP
  have hpre : (finishSpec id reqs mv.1).pre past c := (hgood.conforms mv.1 _ hthread).1
  have hcond : rowFound id reqs mv.1 past c mv.2 P.shared PUnit.unit := by
    unfold Pool.MoveMeets at hmv
    rw [hthread] at hmv
    exact hmv
  have hself : P.pastOf mv.1 = past := by
    unfold Pool.pastOf
    rw [hthread]
    rfl
  have hpasts := Pool.pastOf_step (m := pgMachine) hthread
  have hshared : (P.step pgMachine mv).shared = (P.shared.exec mv.2 c).2 := by
    rw [hstep]
    rfl
  -- a call other than a successful DELETE does not count
  have hsame : rowDeleted (⟨c, (pgMachine.exec mv.2 c P.shared).1⟩ :: past) = rowDeleted past →
      ∀ i, rowDeleted ((P.step pgMachine mv).pastOf i) = rowDeleted (P.pastOf i) := by
    intro hc i
    rw [hpasts i]
    by_cases hi : i = mv.1
    · rw [if_pos hi, hi, hself]
      exact hc
    · rw [if_neg hi]
  -- a call that moves neither rows nor hand-overs
  have hquiet : rowDeleted (⟨c, (pgMachine.exec mv.2 c P.shared).1⟩ :: past) = rowDeleted past →
      (P.shared.exec mv.2 c).2.rows = P.shared.rows →
      (P.shared.exec mv.2 c).2.handed = P.shared.handed →
      SingleFinisher id reqs (P.step pgMachine mv) := by
    intro hc hrows hhanded
    apply hP.of_same (hsame hc)
    · rw [hshared, hrows]
    · rw [hshared]
      exact Or.inl hhanded
  cases c with
  | cacheLoad | cacheStore | cacheDelete => exact hquiet rfl rfl rfl
  | loadUpload t id' =>
    have hs := P.shared.exec_loadUpload mv.2 t id'
    exact hquiet rfl (by rw [hs]) (by rw [hs])
  | loadParts t id' upload =>
    have hs := P.shared.exec_loadParts mv.2 t id' upload
    exact hquiet rfl (by rw [hs]) (by rw [hs])
  | deleteUpload t id' =>
    have hid : id' = id := hpre
    subst hid
    cases hfault : mv.2 with
    | true =>
      rw [hfault] at hquiet
      exact hquiet rfl rfl rfl
    | false => ?_
    have hfound := hcond hfault
    have hdel := PgFleet.exec_deleteUpload hfound.1
    rw [hfault] at hshared
    apply hP.first (PgFleet.lookup_of_row hfound.1)
    · intro i hi
      rw [hpasts i, if_neg hi]
    · rw [hshared, hdel]
      exact Finmap.lookup_erase id' P.shared.rows
    · intro hcomplete
      rw [hshared, hdel]
      exact hfound.2 hcomplete
  | cleanup id' parts => ?_
  apply hP.of_same (hsame rfl)
  · rw [hshared]
    rfl
  -- whoever hands parts over, no completion has deleted the row
  apply Or.inr
  intro i hi
  rcases hpre with ⟨hkind, hdeleted | hexpire⟩
  · have hmine : i = mv.1 := hP.unique i mv.1 hi (by rw [hself]; exact hdeleted)
    rw [hmine]
    exact hkind
  · have hrow := hcond hexpire
    rw [hP.gone i hi] at hrow
    exact absurd hrow (by decide)

end

/-- In every run in which the DELETE statements find the row and the sweep's cleanup runs while the
row exists, at most one call succeeds, and no parts are handed over once a completion has. -/
theorem single_finisher_of_row_found (hasCleanup : Bool) (id : String) (s : PgFleet)
    (reqs : List FinishRequest) (moves : List (Nat × Bool)) (hs : s.handed = [])
    (hmoves : (Pool.start s (reqs.map (FinishRequest.handle hasCleanup id))).Meets
      (fun _ => (0 : PUnit)) pgMachine (rowFound id reqs) moves) :
    let P := (Pool.start s (reqs.map (FinishRequest.handle hasCleanup id))).run pgMachine moves
    (∀ i j, P.Acked (fun a => a) i → P.Acked (fun a => a) j → i = j) ∧
    ∀ i, P.Acked (fun a => a) i → reqs[i]?.any FinishRequest.isComplete = true →
      P.shared.handed = [] := by
  intro P
  have hstart : (finishProtocol id reqs).Good finishResult
      (Pool.start s (reqs.map (FinishRequest.handle hasCleanup id))) :=
    Protocol.good_start rfl trivial fun i p hp => finishHandlers_conform hp
  have hsingle : SingleFinisher id reqs P := by
    apply finishProtocol_sound.run_keeps (fun P mv => singleFinisher_step) hstart _ hmoves
    constructor
    · intro i j hi
      rw [Pool.pastOf_start] at hi
      exact absurd hi (by decide)
    · intro i hi
      rw [Pool.pastOf_start] at hi
      exact absurd hi (by decide)
    · exact fun _ _ _ => hs
  have hgood := finishProtocol_sound.run hstart hmoves
  have hdeleted : ∀ i, P.Acked (fun a => a) i → rowDeleted (P.pastOf i) = true := by
    rintro i ⟨t, a, ht, ha, hok⟩
    have hconf := hgood.conforms i t ht
    rw [ha] at hconf
    unfold Pool.pastOf
    rw [ht]
    exact hconf hok
  constructor
  · exact fun i j hi hj => hsingle.unique i j (hdeleted i hi) (hdeleted j hj)
  · exact fun i hi hcomplete => hsingle.clean i (hdeleted i hi) hcomplete

def sampleSession : Session where
  upload := { id := "upload", tenantID := "tenant", bucket := "bucket", objectKey := "key",
              backend := "backend" }
  parts := [{ partNumber := 1, pieceID := "upload-p00001", backend := "backend" }]

def sampleFleet : PgFleet where
  rows := (∅ : FMap String Session).insert "upload" sampleSession
  caches := ((∅ : FMap (Nat × String) Session).insert (0, "upload") sampleSession).insert
    (1, "upload") sampleSession

def completeAndAbort : List FinishRequest :=
  [.complete 0 "tenant" "bucket" "key" [{ partNumber := 1 }], .abort 1 "tenant"]

def completeAndAbortPool : Pool PgCall Bool PgFleet :=
  Pool.start sampleFleet (completeAndAbort.map (FinishRequest.handle true "upload"))

/-- The completion runs to its end while the abort has only read its node's cache. -/
theorem single_finisher_lone_run :
    let P := completeAndAbortPool.run pgMachine [(1, false), (0, false), (0, false), (0, false)]
    P.Acked (fun a => a) 0 ∧ (∀ j, P.Acked (fun a => a) j → j = 0) ∧ P.shared.handed = [] := by
  intro P
  have hdone : P.Acked (fun a => a) 0 := ⟨_, _, rfl, rfl, rfl⟩
  have hsingle := single_finisher_of_row_found true "upload" sampleFleet completeAndAbort
    [(1, false), (0, false), (0, false), (0, false)] rfl
    ⟨trivial, trivial, fun _ => ⟨rfl, fun _ => rfl⟩, trivial, trivial⟩
  exact ⟨hdone, fun j hj => hsingle.1 j 0 hj hdone, hsingle.2 0 hdone rfl⟩

/-- Node 0 completes the upload; node 1 then aborts it from its own cache, and hands the parts of
the completed object to the cleanup. -/
theorem completed_upload_aborted :
    let P := completeAndAbortPool.run pgMachine
      [(0, false), (0, false), (0, false), (1, false), (1, false), (1, false), (1, false)]
    P.Acked (fun a => a) 0 ∧ P.Acked (fun a => a) 1 ∧
      P.shared.handed = [("upload", sampleSession.parts)] := by
  intro P
  exact ⟨⟨_, _, rfl, rfl, rfl⟩, ⟨_, _, rfl, rfl, rfl⟩, by decide⟩

end ObjectFabric
