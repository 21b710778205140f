import ObjectFabric.Console.RefreshTokens
import ObjectFabric.Interleaving.Pool
import ObjectFabric.Interleaving.ReadCommitted

/-!
# PostgresRefresh — refresh tokens in a shared database

`api/console/postgres_refresh_store.go`, statement by statement.  `Rotate` is one transaction, begun
by a `SELECT … FOR UPDATE` of the presented token; `Revoke` and `RevokeAllForTenant` are single
`DELETE` statements.
-/

namespace ObjectFabric

open Interleaving Proc

/-- The conditions of the `DELETE` statements. -/
inductive RefreshSelector where
  | token (hash : String)
  | family (familyID : String)
  | tenant (tenantID : String)
  deriving DecidableEq, Repr

def RefreshSelector.selects : RefreshSelector → String → RefreshRow → Bool
  | token hash, k, _ => k = hash
  | family familyID, _, row => row.familyID = familyID
  | tenant tenantID, _, row => row.tenantID = tenantID

/-- The statements.  A statement that fails, or whose row another transaction has locked, answers
`none` or `false` and has no effect. -/
inductive RefreshCall : Type → Type where
  | beginTx : RefreshCall (Option Nat)
  | selectForUpdate (tx : Nat) (hash : String) : RefreshCall (Option (Option RefreshRow))
  | consume (tx : Nat) (hash : String) : RefreshCall Bool
  | insert (tx : Nat) (hash : String) (row : RefreshRow) : RefreshCall Bool
  | scan (tx : Nat) (sel : RefreshSelector) : RefreshCall (Option (List String))
  | deleteRow (tx : Nat) (sel : RefreshSelector) (hash : String) : RefreshCall Bool
  | commit (tx : Nat) : RefreshCall Bool
  | rollback (tx : Nat) : RefreshCall Unit

abbrev RefreshTable := Table String RefreshRow

namespace RefreshTable

/-- `SELECT … FOR UPDATE`: a row that is there is locked. -/
def selectForUpdate (t : RefreshTable) (tx : Nat) (hash : String) :
    Option RefreshRow × RefreshTable :=
  match t.sees tx hash with
  | none => (none, t)
  | some row => (some row, t.write tx hash (some row))

/-- `UPDATE refresh_tokens SET consumed = TRUE`. -/
def consume (t : RefreshTable) (tx : Nat) (hash : String) : RefreshTable :=
  match t.sees tx hash with
  | none => t
  | some row => t.write tx hash (some { row with consumed := true })

end RefreshTable

/-- What the database does with a statement: it may fail, and a scan finds the rows in any order. -/
structure StatementChoice where
  fails : Bool := false
  order : List String := []
  deriving DecidableEq

def refreshMachine : Machine RefreshCall RefreshTable StatementChoice where
  exec x c t :=
    match c with
    | .beginTx => if x.fails then (none, t) else (some t.nextTx, t.begin)
    | .selectForUpdate tx hash =>
      if x.fails || t.lockedFor tx hash then (none, t)
      else (some (RefreshTable.selectForUpdate t tx hash).1,
        (RefreshTable.selectForUpdate t tx hash).2)
    | .consume tx hash =>
      if x.fails || t.lockedFor tx hash then (false, t) else (true, RefreshTable.consume t tx hash)
    | .insert tx hash row =>
      -- the hash is the primary key
      if x.fails || t.lockedFor tx hash || (t.sees tx hash).isSome then (false, t)
      else (true, t.write tx hash (some row))
    | .scan tx sel => if x.fails then (none, t) else (some (t.scan tx sel.selects x.order), t)
    | .deleteRow tx sel hash =>
      if x.fails || t.lockedFor tx hash then (false, t) else (true, t.deleteRow tx sel.selects hash)
    | .commit tx => if x.fails then (false, t) else (true, t.finish tx true)
    | .rollback tx => ((), t.finish tx false)

inductive RefreshOutcome where
  | rotated (tok : RefreshToken)
  | invalid
  | reuse
  | failed
  | revoked
  deriving DecidableEq, Repr

/-- The visits of a `DELETE` to the rows of its scan. -/
def visitRows (tx : Nat) (sel : RefreshSelector) : List String → Proc RefreshCall Bool
  | [] => .ret true
  | hash :: rest => do
    match ← ask (.deleteRow tx sel hash) with
    | true => visitRows tx sel rest
    | false => return false

def deleteWhere (tx : Nat) (sel : RefreshSelector) : Proc RefreshCall Bool := do
  match ← ask (.scan tx sel) with
  | some hashes => visitRows tx sel hashes
  | none => return false

/-- The deferred `Rollback`. -/
def rolledBack (tx : Nat) (outcome : RefreshOutcome) : Proc RefreshCall RefreshOutcome := do
  let _ ← ask (.rollback tx)
  return outcome

/-- The branch of `Rotate` for a token that can be exchanged; `fresh` is the random draw. -/
def exchangeToken (cfg : RefreshConfig) (tx : Nat) (hash : String) (row : RefreshRow)
    (fresh : Option String) (now : Time) : Proc RefreshCall RefreshOutcome := do
  match ← ask (.consume tx hash) with
  | false => rolledBack tx .failed
  | true =>
    match fresh with
    | none => rolledBack tx .failed
    | some raw =>
      let expiresAt := now + cfg.ttl
      match ← ask (.insert tx (cfg.hashRefreshToken raw)
        { tenantID := row.tenantID, familyID := row.familyID, expiresAt }) with
      | false => rolledBack tx .failed
      | true =>
        match ← ask (.commit tx) with
        | false => rolledBack tx .failed
        | true => return .rotated ⟨raw, row.tenantID, expiresAt⟩

def deleteAndCommit (tx : Nat) (sel : RefreshSelector) (undone done : RefreshOutcome) :
    Proc RefreshCall RefreshOutcome := do
  match ← deleteWhere tx sel with
  | false => rolledBack tx undone
  | true =>
    match ← ask (.commit tx) with
    | false => rolledBack tx undone
    | true => return done

def dropExpired (tx : Nat) (hash : String) : Proc RefreshCall RefreshOutcome :=
  deleteAndCommit tx (.token hash) .invalid .invalid

def revokeReused (tx : Nat) (row : RefreshRow) : Proc RefreshCall RefreshOutcome :=
  deleteAndCommit tx (.family row.familyID) .failed .reuse

def pgRotate (cfg : RefreshConfig) (rawToken : String) (fresh : Option String) (now : Time) :
    Proc RefreshCall RefreshOutcome :=
  if rawToken = "" then .ret .invalid
  else do
    let hash := cfg.hashRefreshToken rawToken
    match ← ask .beginTx with
    | none => return .failed
    | some tx =>
      match ← ask (.selectForUpdate tx hash) with
      | none => rolledBack tx .failed
      | some none => rolledBack tx .invalid
      | some (some row) =>
        if row.expiresAt ≤ now then dropExpired tx hash
        else if row.consumed then revokeReused tx row
        else exchangeToken cfg tx hash row fresh now

/-- One `DELETE` statement outside a transaction. -/
def deleteStatement (sel : RefreshSelector) : Proc RefreshCall RefreshOutcome := do
  match ← ask .beginTx with
  | none => return .failed
  | some tx => deleteAndCommit tx sel .failed .revoked

def pgRevoke (cfg : RefreshConfig) (rawToken : String) : Proc RefreshCall RefreshOutcome :=
  if rawToken = "" then .ret .revoked else deleteStatement (.token (cfg.hashRefreshToken rawToken))

def pgRevokeAllForTenant (tenantID : String) : Proc RefreshCall RefreshOutcome :=
  if tenantID = "" then .ret .revoked else deleteStatement (.tenant tenantID)

inductive RefreshTask where
  | rotate (rawToken : String) (fresh : Option String) (now : Time)
  | revoke (rawToken : String)
  | revokeAllForTenant (tenantID : String)

def RefreshTask.program (cfg : RefreshConfig) : RefreshTask → Proc RefreshCall RefreshOutcome
  | rotate rawToken fresh now => pgRotate cfg rawToken fresh now
  | revoke rawToken => pgRevoke cfg rawToken
  | revokeAllForTenant tenantID => pgRevokeAllForTenant tenantID

end ObjectFabric
