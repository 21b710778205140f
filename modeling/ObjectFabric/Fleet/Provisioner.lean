import ObjectFabric.Compliance.Residency
import ObjectFabric.Metadata.ObjectLock

/-!
# Provisioner — cells brought up and torn down by Terraform

`internal/cellops/automated_provisioner.go`.  `Apply` and `Destroy` run in goroutines of their own;
the row of a cell is read and written under the provisioner's lock, one locked section a step.
-/

namespace ObjectFabric

namespace CellOps

inductive ProvisionStatus where
  | provisioning
  | active
  | decommissioning
  deriving DecidableEq, Repr

structure CellRequest where
  tenantID : String
  region : String
  country : String
  capacityPetabytes : Rat := 0
  erasureProfile : String := ""
  nodeCount : Int := 0
  deriving DecidableEq

def CellRequest.validate (r : CellRequest) : Except String Unit :=
  if trimUnicodeSpace r.tenantID.toList = [] then .error "cellops: tenant_id is required"
  else if trimUnicodeSpace r.region.toList = [] then .error "cellops: region is required"
  else if trimUnicodeSpace r.country.toList = [] then .error "cellops: country is required"
  else if r.nodeCount < 0 then .error "cellops: node_count must be non-negative"
  else if r.capacityPetabytes < 0 then .error "cellops: capacity_petabytes must be non-negative"
  else .ok ()

structure CellStatus where
  cellID : String
  request : CellRequest
  status : ProvisionStatus
  createdAt : Time
  updatedAt : Time
  deriving DecidableEq

/-- The background run of one cell's `Apply`; `ended` has its output or error. -/
inductive ApplyPhase where
  | queued
  | running
  | ended (out : Except String String)
  | returned

def ApplyPhase.unfinished : ApplyPhase → Bool
  | queued | running => true
  | ended _ | returned => false

/-- One cell: its row in the sink, the goroutine of its `Apply`, the `Destroy` goroutines that have not
called Terraform yet, the `Destroy` runs that have been started, and whether a `DecommissionCell` has
returned success. -/
structure Cell where
  row : Option CellStatus := none
  apply : Option ApplyPhase := none
  destroys : Nat := 0
  destroyed : Nat := 0
  decommissioned : Bool := false

namespace Cell

structure SinkFaults where
  get : Option String := none
  update : Option String := none

def status (c : Cell) : Option ProvisionStatus := c.row.map (·.status)

def updateCellStatus (c : Cell) (status : ProvisionStatus) : Cell :=
  { c with row := c.row.map fun row => { row with status := status } }

/-- The cell's row has been inserted and its `Apply` has not ended. -/
def applying (c : Cell) : Bool := c.apply.any (·.unfinished)

def provisionCell (c : Cell) (id : String) (req : CellRequest) (now : Time)
    (fault : Option String) : Except String CellStatus × Cell :=
  match req.validate, fault with
  | .error message, _ => (.error message, c)
  | .ok _, some message => (.error ("cellops: persist cell: " ++ message), c)
  | .ok _, none =>
    let row : CellStatus := ⟨id, req, .provisioning, now, now⟩
    (.ok row, { c with row := some row, apply := some .queued })

/-- The end of the goroutine that has run `Apply`: the row is read again before it is flipped. -/
def settleApply (detector : Option (String → Option String)) (c : Cell) (x : SinkFaults)
    (out : Except String String) : Cell :=
  let returned := { c with apply := some .returned }
  match out with
  | .error _ => returned
  | .ok out =>
    if detector.any (fun detect => (detect out).isNone) ∨ x.get.isSome then returned
    else if c.status = some .provisioning ∧ x.update = none then returned.updateCellStatus .active
    else returned

inductive DecommissionError where
  | cellIDRequired
  | loadCell (message : String)
  | notFound (cellID : String)
  | updateCellStatus (message : String)
  deriving DecidableEq, Repr

/-- Idempotent: a cell that is decommissioning already is not destroyed again. -/
def decommissionCell (c : Cell) (cellID : String) (x : SinkFaults) :
    Except DecommissionError Unit × Cell :=
  if cellID = "" then (.error .cellIDRequired, c)
  else
    match x.get, c.status, x.update with
    | some message, _, _ => (.error (.loadCell message), c)
    | none, none, _ => (.error (.notFound cellID), c)
    | none, some .decommissioning, _ => (.ok (), c)
    | none, some _, some message => (.error (.updateCellStatus message), c)
    | none, some _, none =>
      (.ok (), { c.updateCellStatus .decommissioning with destroys := c.destroys + 1 })

inductive Move where
  | provision (req : CellRequest) (now : Time) (fault : Option String)
  | applyBegins
  | applyEnds (out : Except String String)
  | applySettles (x : SinkFaults)
  | decommission (x : SinkFaults)
  | destroyBegins

/-- One step of any of the calls and goroutines; a goroutine that is not where the move says stays
where it is. -/
def step (detector : Option (String → Option String)) (id : String) (c : Cell) : Move → Cell
  | .provision req now fault => (c.provisionCell id req now fault).2
  | .applyBegins =>
    match c.apply with
    | some .queued => { c with apply := some .running }
    | _ => c
  | .applyEnds out =>
    match c.apply with
    | some .running => { c with apply := some (.ended out) }
    | _ => c
  | .applySettles x =>
    match c.apply with
    | some (.ended out) => settleApply detector c x out
    | _ => c
  | .decommission x =>
    let (answer, c') := c.decommissionCell id x
    { c' with decommissioned := c'.decommissioned || answer.isOk }
  | .destroyBegins =>
    if c.destroys = 0 then c
    else { c with destroys := c.destroys - 1, destroyed := c.destroyed + 1 }

/-- The ID generator draws 16 random bytes: it does not return the ID of a cell there is. -/
def fresh (c : Cell) : Move → Bool
  | .provision _ _ _ => c.row.isNone
  | _ => true

/-- A cell is not decommissioned, unless it has been already, while its `Apply` has not ended. -/
def afterApply (c : Cell) : Move → Bool
  | .decommission _ => c.status = some .decommissioning || !c.applying
  | _ => true

/-- A decommissioned cell is not active, no `Destroy` has been started twice, and none before the
`Apply` of the cell has ended. -/
structure Orderly (c : Cell) : Prop where
  inactive : c.decommissioned = true → c.status ≠ some .active
  once : c.destroyed ≤ 1
  ended : 0 < c.destroyed → c.applying = false

/-! ## 1. The row decides -/

/-- What has been decommissioned, or is to be destroyed, has its row in that state for good; there
is at most one `Destroy` of it, and no `Apply` under way. -/
structure Settled (c : Cell) : Prop where
  stored : c.apply.isSome = true → c.row.isSome = true
  down : c.decommissioned = true ∨ 0 < c.destroys + c.destroyed → c.status = some .decommissioning
  once : c.destroys + c.destroyed ≤ 1
  ended : 0 < c.destroys + c.destroyed → c.applying = false

theorem Settled.orderly {c : Cell} (h : Settled c) : Orderly c where
  inactive hdown hactive := by
    rw [h.down (.inl hdown)] at hactive
    cases hactive
  once := by
    have := h.once
    omega
  ended hstarted := h.ended (by omega)

/-- Nothing has been started for a cell whose row is not decommissioning. -/
theorem Settled.none_of_up {c : Cell} (h : Settled c) (hup : c.status ≠ some .decommissioning) :
    c.decommissioned = false ∧ c.destroys = 0 ∧ c.destroyed = 0 := by
  have hnot : ¬(c.decommissioned = true ∨ 0 < c.destroys + c.destroyed) := fun h' => hup (h.down h')
  rw [not_or, Bool.not_eq_true] at hnot
  exact ⟨hnot.1, by omega, by omega⟩

/-- The row and the `Apply` of a cell that is not decommissioning change. -/
theorem Settled.of_up {c : Cell} (h : Settled c) (hup : c.status ≠ some .decommissioning)
    {row : Option CellStatus} {apply : Option ApplyPhase}
    (hstored : apply.isSome = true → row.isSome = true) :
    Settled { c with row := row, apply := apply } := by
  obtain ⟨hdown, hdestroys, hdestroyed⟩ := h.none_of_up hup
  refine ⟨hstored, fun hor => ?_, h.once, fun hsome => ?_⟩
  · simp [hdown, hdestroys, hdestroyed] at hor
  · simp [hdestroys, hdestroyed] at hsome

/-- The `Apply` of a cell moves on. -/
theorem Settled.advance {c : Cell} (h : Settled c) {p p' : ApplyPhase} (hfound : c.apply = some p)
    (hnext : p'.unfinished = true → p.unfinished = true) :
    Settled { c with apply := some p' } := by
  refine ⟨fun _ => h.stored (by rw [hfound]; rfl), h.down, h.once, fun hsome => ?_⟩
  have hended := h.ended hsome
  rw [applying, hfound] at hended
  exact Bool.eq_false_iff.mpr fun hunfinished => by simp [hnext hunfinished] at hended

theorem decommissionCell_cases (c : Cell) (id : String) (x : SinkFaults) :
    (∃ e, c.decommissionCell id x = (.error e, c)) ∨
    (c.status = some .decommissioning ∧ c.decommissionCell id x = (.ok (), c)) ∨
    (c.row.isSome = true ∧ c.status ≠ some .decommissioning ∧ c.decommissionCell id x =
      (.ok (), { c.updateCellStatus .decommissioning with destroys := c.destroys + 1 })) := by
  unfold decommissionCell
  split
  · exact .inl ⟨_, rfl⟩
  split
  · exact .inl ⟨_, rfl⟩
  · exact .inl ⟨_, rfl⟩
  · exact .inr (.inl ⟨‹_›, rfl⟩)
  · exact .inl ⟨_, rfl⟩
  · rename_i status hnot _ hstatus _
    refine .inr (.inr ⟨?_, ?_, rfl⟩)
    · obtain ⟨row, hrow, -⟩ := Option.map_eq_some_iff.mp hstatus
      rw [hrow]
      rfl
    · rw [hstatus]
      exact fun heq => hnot (Option.some.inj heq)

theorem Settled.decommission {c : Cell} (h : Settled c)
    (detector : Option (String → Option String)) (id : String) (x : SinkFaults)
    (hafter : c.status = some .decommissioning ∨ c.applying = false) :
    Settled (c.step detector id (.decommission x)) := by
  simp only [Cell.step]
  rcases c.decommissionCell_cases id x with ⟨e, hres⟩ | ⟨hdown, hres⟩ | ⟨hrow, hup, hres⟩
  · rw [hres]
    simpa [Except.isOk, Except.toBool] using h
  · rw [hres]
    exact ⟨h.stored, fun _ => hdown, h.once, h.ended⟩
  rw [hres]
  obtain ⟨-, hdestroys, hdestroyed⟩ := h.none_of_up hup
  refine ⟨fun _ => ?_, fun _ => ?_, ?_, fun _ => hafter.resolve_left hup⟩
  · simpa [updateCellStatus] using hrow
  · obtain ⟨row, hrow⟩ := Option.isSome_iff_exists.mp hrow
    simp [Cell.status, updateCellStatus, hrow]
  · show c.destroys + 1 + c.destroyed ≤ 1
    omega

theorem Settled.step {c : Cell} (h : Settled c) (detector : Option (String → Option String))
    (id : String) (m : Move) (hfresh : c.fresh m = true) (hafter : c.afterApply m = true) :
    Settled (c.step detector id m) := by
  cases m with
  | provision req now fault =>
    have hup : c.status ≠ some .decommissioning := by
      simp [status, Option.isNone_iff_eq_none.mp hfresh]
    simp only [Cell.step, provisionCell]
    split
    · exact h
    · exact h
    · exact h.of_up hup (fun _ => rfl)
  | applyBegins | applyEnds =>
    simp only [Cell.step]
    split
    · exact h.advance ‹_› (fun _ => rfl)
    · exact h
  | applySettles x =>
    simp only [Cell.step]
    split
    · rename_i out hfound
      have hover : Settled { c with apply := some .returned } := h.advance hfound (fun hno => hno)
      unfold settleApply
      split
      · exact hover
      split
      · exact hover
      split
      · rename_i hrow
        refine hover.of_up ?_ (fun hsome => ?_)
        · show c.status ≠ some .decommissioning
          rw [hrow.1]
          exact nofun
        · simpa using hover.stored hsome
      · exact hover
    · exact h
  | decommission x => exact h.decommission detector id x (by simpa [afterApply] using hafter)
  | destroyBegins => ?_
  simp only [Cell.step]
  split
  · exact h
  · -- the same `Destroy`, now under way
    have hsame : c.destroys - 1 + (c.destroyed + 1) = c.destroys + c.destroyed := by omega
    exact ⟨h.stored, fun hor => h.down (hsame ▸ hor), hsame ▸ h.once, fun hsome => h.ended (hsame ▸ hsome)⟩

end Cell

/-! ## 2. Interleavings -/

abbrev Cells := String → Cell

section

variable (detector : Option (String → Option String))

def Cells.step (s : Cells) (m : String × Cell.Move) : Cells :=
  Function.update s m.1 ((s m.1).step detector m.1 m.2)

def Cells.run (s : Cells) (moves : List (String × Cell.Move)) : Cells :=
  moves.foldl (Cells.step detector) s

def allMeet (P : Cell → Cell.Move → Bool) : Cells → List (String × Cell.Move) → Bool
  | _, [] => true
  | s, m :: moves => P (s m.1) m.2 && allMeet P (s.step detector m) moves

theorem settled_run {s : Cells} (h : ∀ id, (s id).Settled) (moves : List (String × Cell.Move))
    (hmeet : allMeet detector (fun c m => c.fresh m && c.afterApply m) s moves = true) (id : String) :
    (s.run detector moves id).Settled := by
  induction moves generalizing s with
  | nil => exact h id
  | cons m moves ih => ?_
  simp only [allMeet, Bool.and_eq_true] at hmeet
  refine ih (fun id' => ?_) hmeet.2
  unfold Cells.step
  by_cases hid : id' = m.1
  · rw [hid, Function.update_self]
    exact (h m.1).step detector m.1 m.2 hmeet.1.1 hmeet.1.2
  · rw [Function.update_of_ne hid]
    exact h id'

/-- Whatever rows there are at the start: when no cell is decommissioned while its `Apply` has not
ended, every cell is in order in every state reached. -/
theorem orderly_run (rows : String → Option CellStatus) (moves : List (String × Cell.Move))
    (hmeet : allMeet detector (fun c m => c.fresh m && c.afterApply m)
      (fun id => { row := rows id }) moves = true) (id : String) :
    (Cells.run detector (fun id => { row := rows id }) moves id).Orderly := by
  have hstart : ∀ id, Cell.Settled { row := rows id } :=
    fun _ => ⟨nofun, fun h => by simp at h, Nat.zero_le _, nofun⟩
  exact (settled_run detector hstart moves hmeet id).orderly

end

/-- A cell is provisioned; its `Apply` begins. -/
def bringUp : List (String × Cell.Move) :=
  [("c", .provision ⟨"t", "r", "DE", 0, "", 0⟩ 0 none), ("c", .applyBegins)]

def tearDown : List (String × Cell.Move) := [("c", .decommission {}), ("c", .destroyBegins)]

theorem orderly_run_bringUp : (Cells.run none (fun _ => {})
    (bringUp ++ ("c", .applyEnds (.ok "")) :: tearDown) "c").Orderly :=
  orderly_run none (fun _ => none) _ (by decide +kernel) "c"

/-- Decommissioned while Terraform is still applying: `Destroy` is started beside `Apply`, which then
goes on to its end. -/
theorem destroy_during_apply :
    let s := Cells.run none (fun _ => {}) (bringUp ++ tearDown)
    let after := s.step none ("c", .applyEnds (.ok "cell endpoint: https://c\n"))
    allMeet none Cell.fresh (fun _ => {}) (bringUp ++ tearDown) = true ∧
      (s "c").destroyed = 1 ∧ (s "c").applying = true ∧ ¬ (s "c").Orderly ∧
      (after "c").destroyed = 1 ∧ (after "c").applying = false := by
  refine ⟨by decide +kernel, by decide +kernel, by decide +kernel, fun h => ?_, by decide +kernel,
    by decide +kernel⟩
  have hended := h.ended (by decide +kernel)
  exact absurd hended (by decide +kernel)

end CellOps

end ObjectFabric
