import ObjectFabric.Gateway.Delete
import ObjectFabric.Metadata.Lifecycle

/-!
# Evaluator — the expiration pass over one bucket

`lifecycle/evaluator/evaluator.go`, as the gateway wires it: version IDs of markers come from the
gateway's own minter, and the manifests, the index and the backends are those of the gateway.  The
pass decides on the manifests of the page it has listed.  The context is checked before each page;
`pages` is the number of pages after which it is cancelled.
-/

namespace ObjectFabric

open Interleaving

structure LifecycleEntry where
  tenantID : String
  bucket : String
  rules : List LifecycleRule

structure LifecycleStats where
  objectsScanned : Nat := 0
  objectsExpired : Nat := 0
  deleteMarkersCreated : Nat := 0
  deleteMarkersRemoved : Nat := 0
  skipped : Nat := 0
  uploadsAborted : Nat := 0
  errors : Nat := 0
  deriving DecidableEq, Repr

def objectLocked (m : ObjectManifest) (now : Time) : Bool :=
  m.legalHold || (m.retention.retainUntil ≠ 0 && now < m.retention.retainUntil)

section

variable (cfg : Config) (entry : LifecycleEntry) (m : ObjectManifest) (now : Time)

def LifecycleEntry.keyOf (versionID : String) : ManifestKey :=
  ⟨entry.tenantID, entry.bucket, m.objectKeyHash, versionID⟩

/-- `pieceBackends` leaves out pieces without an ID. -/
def pieceBackends (pieces : List Piece) : List Piece := pieces.filter fun p => p.pieceID ≠ ""

def reclaimPieces : Proc Call Unit :=
  giveBack cfg entry.tenantID m (pieceBackends m.pieces) () (fun _ => ()) fun _ => ()

def permanentlyDelete (stats : LifecycleStats) : Proc Call LifecycleStats := do
  match ← ask (.manifestDelete (entry.keyOf m m.versionID)) with
  | .error .manifestNotFound => return stats
  | .error _ => return { stats with errors := stats.errors + 1 }
  | .ok () =>
    reclaimPieces cfg entry m
    return { stats with objectsExpired := stats.objectsExpired + 1 }

def insertDeleteMarker (stats : LifecycleStats) : Proc Call LifecycleStats := do
  let markerID := cfg.newPieceID entry.tenantID entry.bucket m.objectKey now
  let marker : ObjectManifest :=
    { tenantID := entry.tenantID, bucket := entry.bucket, objectKey := m.objectKey,
      objectKeyHash := m.objectKeyHash, versionID := markerID, deleteMarker := true,
      createdAt := now }
  match ← ask (.manifestPut (entry.keyOf m markerID) marker) with
  | .error _ => return { stats with errors := stats.errors + 1 }
  | .ok () => return { stats with deleteMarkersCreated := stats.deleteMarkersCreated + 1 }

/-- Remove a delete marker that is the only version left; `true` when it was removed. -/
def removeExpiredDeleteMarker (stats : LifecycleStats) : Proc Call (Bool × LifecycleStats) := do
  match ← ask (.manifestListVersions entry.tenantID entry.bucket m.objectKeyHash) with
  | .error _ => return (false, { stats with errors := stats.errors + 1 })
  | .ok versions =>
    if versions.length ≠ 1 then
      return (false, stats)
    else
      match ← ask (.manifestDelete (entry.keyOf m m.versionID)) with
      | .ok () | .error .manifestNotFound =>
        return (true, { stats with deleteMarkersRemoved := stats.deleteMarkersRemoved + 1 })
      | .error _ => return (false, { stats with errors := stats.errors + 1 })

/-- The first rule that acts on the listed manifest ends the scan of the rules. -/
def expireOne (versioned : Bool) : LifecycleStats → List LifecycleRule → Proc Call LifecycleStats
  | stats, [] => return stats
  | stats, r :: rest =>
    match r.expiration with
    | none => expireOne versioned stats rest
    | some expiration =>
      if !r.enabled || !r.selects m.objectKey m.tags m.objectSize then
        expireOne versioned stats rest
      else if expiration.expiredObjectDeleteMarker then
        if !m.deleteMarker then
          expireOne versioned stats rest
        else do
          let (removed, stats') ← removeExpiredDeleteMarker entry m stats
          if removed then return stats' else expireOne versioned stats' rest
      else
        match r.expiresAt m.createdAt with
        | none => expireOne versioned stats rest
        | some expiresAt =>
          if now < expiresAt ∨ m.deleteMarker = true then
            expireOne versioned stats rest
          else if versioned then
            insertDeleteMarker cfg entry m now stats
          else if objectLocked m now then
            return { stats with skipped := stats.skipped + 1 }
          else
            permanentlyDelete cfg entry m stats

end

section

variable (cfg : Config) (entry : LifecycleEntry)

def expireEach (versioned : Bool) (now : Time) :
    LifecycleStats → List ObjectManifest → Proc Call LifecycleStats
  | stats, [] => return stats
  | stats, m :: ms => do
    let stats ← expireOne cfg entry m now versioned
      { stats with objectsScanned := stats.objectsScanned + 1 } entry.rules
    expireEach versioned now stats ms

def expirePages (pageSize : Int) (versioned : Bool) (now : Time) :
    Nat → String → LifecycleStats → Proc Call LifecycleStats
  | 0, _, stats => return stats
  | pages + 1, cursor, stats => do
    match ← ask (.manifestList entry.tenantID entry.bucket cursor pageSize) with
    | .error _ => return { stats with errors := stats.errors + 1 }
    | .ok (page, next) =>
      let stats ← expireEach cfg entry versioned now stats page
      if next = "" then return stats else expirePages pageSize versioned now pages next stats

/-- `evalBucket` without its multipart half: read the clock, then expire objects. -/
def evalBucket (pageSize : Int) (pages : Nat) : Proc Call LifecycleStats := do
  let now ← ask .now
  match ← ask (.getVersioning entry.tenantID entry.bucket) with
  | .error _ => return { errors := 1 }
  | .ok state => expirePages cfg entry pageSize (state = .enabled) now pages "" {}

end

end ObjectFabric
