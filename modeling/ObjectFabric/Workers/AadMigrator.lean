import ObjectFabric.Gateway.Reconstruct

/-!
# AadMigrator — sealing old objects again, bound to their identity

`api/s3compat/aad_migrator.go`.  The sweep scans every stored version in the order of the primary
key.  A version the gateway encrypted without binding the chunks to the object is opened and sealed
again under a new piece ID; the manifest is then stored with `Put` under its key and the old piece
is deleted.  `entropy` gives the randomness drawn for each version.
-/

namespace ObjectFabric

open Interleaving

structure AADMigratorConfig where
  pageSize : Int := 0
  /-- There is a delay after each migrated object, and the context is checked in it. -/
  delayed : Bool := false
  deriving DecidableEq, Repr

structure MigrateStats where
  scanned : Nat := 0
  migrated : Nat := 0
  skippedNotMine : Nat := 0
  skippedAlready : Nat := 0
  skippedDedup : Nat := 0
  skippedMulti : Nat := 0
  skippedTooBig : Nat := 0
  errors : Nat := 0
  deriving DecidableEq, Repr

inductive MigrateOutcome where
  | migrated
  | notMine
  | already
  | dedup
  | multi
  | tooBig
  deriving DecidableEq, Repr

def MigrateStats.count (stats : MigrateStats) : Except String MigrateOutcome → MigrateStats
  | .error _ => { stats with errors := stats.errors + 1 }
  | .ok .migrated => { stats with migrated := stats.migrated + 1 }
  | .ok .notMine => { stats with skippedNotMine := stats.skippedNotMine + 1 }
  | .ok .already => { stats with skippedAlready := stats.skippedAlready + 1 }
  | .ok .dedup => { stats with skippedDedup := stats.skippedDedup + 1 }
  | .ok .multi => { stats with skippedMulti := stats.skippedMulti + 1 }
  | .ok .tooBig => { stats with skippedTooBig := stats.skippedTooBig + 1 }

def eligibility (m : ObjectManifest) : MigrateOutcome :=
  if !m.encryption.mode.isGatewayEncrypted then
    .notMine
  else if m.encryption.aadVersion ≠ .legacy then
    .already
  else if m.contentHash ≠ "" then
    .dedup
  else if m.pieces.length ≠ 1 then
    .multi
  else if maxInMemoryObjectBytes < m.objectSize then
    .tooBig
  else
    .migrated

def ObjectManifest.resealed (m : ObjectManifest) (piece : Piece) (sizeBytes : Int)
    (wrapped : WrappedDEK) : ObjectManifest :=
  { m with
    pieces := [piece], chunkSize := sizeBytes,
    encryption :=
      { mode := m.encryption.mode, algorithm := contentAlgorithm, keyID := wrapped.keyID,
        wrappedDEK := wrapped.wrappedKey, wrapAlgorithm := wrapped.wrapAlgorithm,
        manifestEncrypted := m.encryption.manifestEncrypted, aadVersion := .v1 } }

def resealedPiece (cfg : Config) (backend : String) (ciphertext : Bytes) (pieceID : String)
    (res : PutResult) : Piece :=
  { pieceID, backend, hash := Config.formatContentHash (cfg.blake3Hex ciphertext),
    providerETag := res.etag, locator := res.locator, state := "active", sizeBytes := res.sizeBytes }

section

variable (cfg : Config)

def switchManifest (key : ManifestKey) (man : ObjectManifest) (oldPiece : Piece)
    (newCiphertext : Bytes) (wrapped : WrappedDEK) (newPieceID : String) :
    Proc Call (Except String MigrateOutcome) := do
  match ← ask (.putPiece ⟨oldPiece.backend, newPieceID⟩ newCiphertext) with
  | .error e => return .error ("put re-encrypted piece: " ++ e.text)
  | .ok res =>
    let piece := resealedPiece cfg oldPiece.backend newCiphertext newPieceID res
    match ← ask (.manifestPut key (man.resealed piece res.sizeBytes wrapped)) with
    | .error e =>
      let _ ← ask (.deletePiece ⟨oldPiece.backend, newPieceID⟩)
      return .error ("switch manifest: " ++ e.text)
    | .ok () =>
      let _ ← ask (.deletePiece oldPiece.addr)
      return .ok .migrated

def migrateOne (entropy : Nat) (key : ManifestKey) (man : ObjectManifest) :
    Proc Call (Except String MigrateOutcome) :=
  match eligibility man, man.pieces with
  | .migrated, oldPiece :: _ =>
    if (cfg.providers oldPiece.backend).isNone then
      return .error ("backend \"" ++ oldPiece.backend ++ "\" not registered")
    else do
      match ← ask (.getPiece oldPiece.addr) with
      | .error e => return .error ("get source piece: " ++ e.text)
      | .ok ciphertext =>
        if maxInMemoryObjectBytes < ciphertext.length then
          return .ok .tooBig
        else
          match cfg.decryptFromStorage ciphertext man.encryption man.aadIdentity with
          | .error message => return .error ("decrypt legacy ciphertext: " ++ message)
          | .ok plaintext =>
            match cfg.encryptForStorage entropy plaintext man.aadIdentity with
            | .error message => return .error ("re-encrypt to v1: " ++ message)
            | .ok (newCiphertext, wrapped) =>
              let now ← ask .now
              switchManifest cfg key man oldPiece newCiphertext wrapped
                (cfg.newPieceID man.tenantID man.bucket man.objectKey now)
  | outcome, _ => return .ok outcome

/-- The objects of a page.  The context is cancelled after `checks` checks; `none` says that the
sweep noticed it. -/
def sweepObjects (delayed : Bool) (entropy : ManifestKey → Nat) :
    Nat → MigrateStats → List (ManifestKey × ObjectManifest) →
      Proc Call (MigrateStats × Option Unit)
  | _, stats, [] => return (stats, some ())
  | 0, stats, _ :: _ => return (stats, none)
  | checks + 1, stats, (key, man) :: page => do
    let outcome ← migrateOne cfg (entropy key) key man
    let stats := { stats with scanned := stats.scanned + 1 }.count outcome
    if delayed ∧ outcome = .ok .migrated then
      match checks with
      | 0 => return (stats, none)
      | checks + 1 => sweepObjects delayed entropy checks stats page
    else
      sweepObjects delayed entropy checks stats page

def contextCanceled : String := "context canceled"

/-- The loop of `Sweep`.  For each page the context lets the sweep begin, `checks` gives the number
of checks it passes among the objects of the page. -/
def sweepPages (mig : AADMigratorConfig) (entropy : ManifestKey → Nat) :
    List Nat → Option ManifestKey → MigrateStats → Proc Call (MigrateStats × Option String)
  | [], _, stats => return (stats, some contextCanceled)
  | n :: checks, cursor, stats => do
    match ← ask (.manifestScan cursor mig.pageSize) with
    | .error e => return (stats, some ("aad_migrator: scan: " ++ e.text))
    | .ok (page, next) =>
      match ← sweepObjects cfg mig.delayed entropy n stats page with
      | (stats, none) => return (stats, some contextCanceled)
      | (stats, some ()) =>
        match next with
        | none => return (stats, none)
        | some k => sweepPages mig entropy checks (some k) stats

/-- `Sweep` -/
def aadSweep (mig : AADMigratorConfig) (entropy : ManifestKey → Nat) (checks : List Nat) :
    Proc Call (MigrateStats × Option String) :=
  sweepPages cfg mig entropy checks none {}

end

end ObjectFabric
