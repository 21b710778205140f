import ObjectFabric.Gateway.Config

/-!
# OrphanGC — the sweep that drops index rows no manifest uses

`metadata/content_index/orphan_gc.go`, with a context that is never cancelled.  For each row the
sweep asks whether some manifest of the tenant names the row's piece; if none does it deletes the
piece first and then takes one reference off the row, which goes away only when that was the last.
-/

namespace ObjectFabric

open Interleaving

structure SweepStats where
  tenantsScanned : Nat := 0
  rowsScanned : Nat := 0
  rowsOrphaned : Nat := 0
  piecesDeleted : Nat := 0
  indexRowsDeleted : Nat := 0
  errors : Nat := 0
  deriving DecidableEq, Repr

section

variable (cfg : Config)

def dropRow (e : ContentIndexEntry) (stats : SweepStats) : Proc Call SweepStats := do
  match ← ask (.indexDecrementRef e.key) with
  | .error .contentNotFound =>
    return { stats with indexRowsDeleted := stats.indexRowsDeleted + 1 }
  | .error .invalidRefCount =>
    let _ ← ask (.indexDelete e.key)
    return { stats with indexRowsDeleted := stats.indexRowsDeleted + 1 }
  | .error _ => return { stats with errors := stats.errors + 1 }
  | .ok n =>
    if n = 0 then
      match ← ask (.indexDelete e.key) with
      | .ok () => return { stats with indexRowsDeleted := stats.indexRowsDeleted + 1 }
      | .error .refCountNonZero | .error .contentNotFound => return stats
      | .error _ => return { stats with errors := stats.errors + 1 }
    else
      -- taken for the mark of a concurrent uploader
      return stats

def sweepRow (e : ContentIndexEntry) (stats : SweepStats) : Proc Call SweepStats := do
  match ← ask (.hasManifestWithPieceID e.tenantID e.pieceID) with
  | .error _ => return { stats with errors := stats.errors + 1 }
  | .ok true => return stats
  | .ok false =>
    let stats := { stats with rowsOrphaned := stats.rowsOrphaned + 1 }
    match cfg.providers e.backend with
    | none => dropRow e stats
    | some _ =>
      match ← ask (.deletePiece e.addr) with
      | .error _ => return { stats with errors := stats.errors + 1 }
      | .ok () => dropRow e { stats with piecesDeleted := stats.piecesDeleted + 1 }

def sweepRows : List ContentIndexEntry → SweepStats → Proc Call SweepStats
  | [], stats => return stats
  | e :: es, stats => do
    let stats ← sweepRow cfg e stats
    sweepRows es stats

def sweepTenant (tenantID : String) : Proc Call SweepStats := do
  match ← ask (.indexScanAll tenantID) with
  | .error _ => return { errors := 1 }
  | .ok entries => sweepRows cfg entries { rowsScanned := entries.length }

def sweepTenants : List String → SweepStats → Proc Call SweepStats
  | [], stats => return stats
  | t :: ts, stats => do
    let tStats ← sweepTenant cfg t
    sweepTenants ts
      { stats with
        rowsScanned := stats.rowsScanned + tStats.rowsScanned
        rowsOrphaned := stats.rowsOrphaned + tStats.rowsOrphaned
        piecesDeleted := stats.piecesDeleted + tStats.piecesDeleted
        indexRowsDeleted := stats.indexRowsDeleted + tStats.indexRowsDeleted
        errors := stats.errors + tStats.errors }

def sweep : Proc Call (Except String SweepStats) := do
  match ← ask .indexListTenants with
  | .error e => return .error ("orphan_gc: list tenants: " ++ e.text)
  | .ok tenants => return .ok (← sweepTenants cfg tenants { tenantsScanned := tenants.length })

end

end ObjectFabric
