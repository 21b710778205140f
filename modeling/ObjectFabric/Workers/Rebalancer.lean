import ObjectFabric.Workers.ReadRepair

/-!
# Rebalancer — the background copy of a migrating bucket

`migration/background_rebalancer/rebalancer.go` and `migration/state.go`.  A pass lists the latest
versions of each target, copies the pieces that still lie on the source backend, and moves the
manifest one phase forward when all of its pieces are on the primary.  Both changes are written with
`Put`, from the manifest of the listed page.  The loop over the pages is cut off after `pages` of
them; the bandwidth limit only delays.
-/

namespace ObjectFabric

open Interleaving

/-! ## 1. Phases -/

inductive MigrationPhase where
  | wasabiPrimary
  | dualWrite
  | localPrimaryWasabiBackup
  | localPrimaryWasabiDrain
  | localOnly
  deriving DecidableEq, Repr

namespace MigrationPhase

def text : MigrationPhase → String
  | .wasabiPrimary => "wasabi_primary"
  | .dualWrite => "dual_write"
  | .localPrimaryWasabiBackup => "local_primary_wasabi_backup"
  | .localPrimaryWasabiDrain => "local_primary_wasabi_drain"
  | .localOnly => "local_only"

def allowedTransitions : MigrationPhase → List MigrationPhase
  | .wasabiPrimary => [.dualWrite]
  | .dualWrite => [.localPrimaryWasabiBackup, .wasabiPrimary]
  | .localPrimaryWasabiBackup => [.localPrimaryWasabiDrain, .dualWrite]
  | .localPrimaryWasabiDrain => [.localOnly, .localPrimaryWasabiBackup]
  | .localOnly => []

def validateTransition (source target : MigrationPhase) : Except String Unit :=
  if source = target then
    .error ("migration: no-op transition from \"" ++ source.text ++ "\" to itself")
  else if target ∈ source.allowedTransitions then
    .ok ()
  else
    .error ("migration: illegal transition \"" ++ source.text ++ "\" → \"" ++ target.text ++ "\"")

def nextPhase : MigrationPhase → Option MigrationPhase
  | .wasabiPrimary => some .dualWrite
  | .dualWrite => some .localPrimaryWasabiBackup
  | .localPrimaryWasabiBackup => some .localPrimaryWasabiDrain
  | .localPrimaryWasabiDrain => some .localOnly
  | .localOnly => none

/-- `applyPhase` -/
def apply (state : MigrationState) : MigrationPhase → MigrationState
  | .wasabiPrimary => state
  | .dualWrite => { state with generation := 2, cloudCopy := "wasabi" }
  | .localPrimaryWasabiBackup => { state with generation := 3, cloudCopy := "wasabi" }
  | .localPrimaryWasabiDrain => { state with generation := 4, cloudCopy := "wasabi" }
  | .localOnly => { state with generation := 5, cloudCopy := "" }

end MigrationPhase

def MigrationState.phaseOf (s : MigrationState) : MigrationPhase :=
  if s.generation ≤ 1 then .wasabiPrimary
  else if s.cloudCopy = "" then .localOnly
  else if s.generation = 2 then .dualWrite
  else if s.generation = 3 then .localPrimaryWasabiBackup
  else .localPrimaryWasabiDrain

def ObjectManifest.rebalanceable (m : ObjectManifest) : Bool :=
  match m.migrationState.phaseOf with
  | .dualWrite | .localPrimaryWasabiBackup | .localPrimaryWasabiDrain => true
  | .wasabiPrimary | .localOnly => false

/-! ## 2. One manifest -/

structure TenantTarget where
  tenantID : String
  bucket : String
  sourceBackend : String
  primaryBackend : String
  deriving DecidableEq, Repr

structure RebalanceStats where
  manifestsScanned : Nat := 0
  piecesCopied : Nat := 0
  bytesCopied : Nat := 0
  phasesAdvanced : Nat := 0
  errors : Nat := 0
  deriving DecidableEq, Repr

section

variable (target : TenantTarget)

/-- Copy the pieces on the source backend; `done` are the pieces so far. -/
def copyPieces : List Piece → List Piece → RebalanceStats →
    Proc Call (Except String (List Piece) × RebalanceStats)
  | [], done, stats => return (.ok done, stats)
  | p :: ps, done, stats =>
    if p.backend ≠ target.sourceBackend then
      copyPieces ps (done ++ [p]) stats
    else do
      match ← ask (.getPiece ⟨target.sourceBackend, p.pieceID⟩) with
      | .error e =>
        return (.error ("get piece " ++ p.pieceID ++ " from " ++ target.sourceBackend ++ ": " ++
          e.text), stats)
      | .ok body =>
        match ← ask (.putPiece ⟨target.primaryBackend, p.pieceID⟩ body) with
        | .error e =>
          return (.error ("put piece " ++ p.pieceID ++ " to " ++ target.primaryBackend ++ ": " ++
            e.text), stats)
        | .ok res =>
          copyPieces ps (done ++ [p.relocated target.primaryBackend res])
            { stats with
              piecesCopied := stats.piecesCopied + 1
              bytesCopied := stats.bytesCopied + body.length }

def rebalanceManifest (m : ObjectManifest) (stats : RebalanceStats) :
    Proc Call (Except String ObjectManifest × RebalanceStats) := do
  match ← copyPieces target m.pieces [] stats with
  | (.error message, stats) => return (.error message, stats)
  | (.ok pieces, stats) =>
    if m.pieces.any fun p => p.backend = target.sourceBackend then
      match ← ask (.manifestPut m.key { m with pieces }) with
      | .error e => return (.error ("persist manifest: " ++ e.text), stats)
      | .ok () => return (.ok { m with pieces }, stats)
    else
      return (.ok m, stats)

def advancePhase (m : ObjectManifest) : Proc Call (Except String Bool) :=
  if m.pieces.any fun p => p.backend ≠ target.primaryBackend then
    return .ok false
  else
    match m.migrationState.phaseOf.nextPhase with
    | none => return .ok false
    | some next =>
      match m.migrationState.phaseOf.validateTransition next with
      | .error message => return .error message
      | .ok () => do
        let advanced := { m with migrationState := next.apply m.migrationState }
        match ← ask (.manifestPut m.key advanced) with
        | .error e => return .error e.text
        | .ok () => return .ok true

/-! ## 3. The pass -/

def rebalanceOne (m : ObjectManifest) (stats : RebalanceStats) : Proc Call RebalanceStats :=
  if !m.rebalanceable then
    return stats
  else do
    match ← rebalanceManifest target m stats with
    | (.error _, stats) => return { stats with errors := stats.errors + 1 }
    | (.ok m, stats) =>
      match ← advancePhase target m with
      | .error _ => return { stats with errors := stats.errors + 1 }
      | .ok true => return { stats with phasesAdvanced := stats.phasesAdvanced + 1 }
      | .ok false => return stats

def rebalanceEach : List ObjectManifest → RebalanceStats → Proc Call RebalanceStats
  | [], stats => return stats
  | m :: ms, stats => do
    let stats ← rebalanceOne target m { stats with manifestsScanned := stats.manifestsScanned + 1 }
    rebalanceEach ms stats

def rebalancePages (pageSize : Int) :
    Nat → String → RebalanceStats → Proc Call (RebalanceStats × Option String)
  | 0, _, stats => return (stats, none)
  | pages + 1, cursor, stats => do
    match ← ask (.manifestList target.tenantID target.bucket cursor pageSize) with
    | .error e => return (stats, some ("background_rebalancer: list manifests: " ++ e.text))
    | .ok (page, next) =>
      let stats ← rebalanceEach target page stats
      if next = "" then return (stats, none) else rebalancePages pageSize pages next stats

def runTarget (cfg : Config) (pageSize : Int) (pages : Nat) (stats : RebalanceStats) :
    Proc Call (RebalanceStats × Option String) :=
  if (cfg.providers target.sourceBackend).isNone then
    return (stats, some
      ("background_rebalancer: source backend \"" ++ target.sourceBackend ++ "\" not registered"))
  else if (cfg.providers target.primaryBackend).isNone then
    return (stats, some
      ("background_rebalancer: primary backend \"" ++ target.primaryBackend ++ "\" not registered"))
  else
    rebalancePages target (if pageSize ≤ 0 then 500 else pageSize) pages "" stats

end

/-- `Run` -/
def runRebalancer (cfg : Config) (pageSize : Int) (pages : Nat) :
    List TenantTarget → RebalanceStats → Proc Call (RebalanceStats × Option String)
  | [], stats => return (stats, none)
  | target :: targets, stats => do
    match ← runTarget target cfg pageSize pages stats with
    | (stats, some e) => return (stats, some e)
    | (stats, none) => runRebalancer cfg pageSize pages targets stats

end ObjectFabric
