import ObjectFabric.Gateway.Reconstruct

/-!
# ReadRepair — moving a piece while it is being read

`migration/lazy_read_repair/repair.go`.  A piece of a migrating object that still lies on the old
backend is read there, checked and written to the new primary; the manifest then names the new
place and is stored again.
-/

namespace ObjectFabric

open Interleaving

structure RepairResult where
  body : Bytes
  repairedBackend : String
  sourceBackend : String
  deriving DecidableEq, Repr

def Piece.relocated (p : Piece) (backend : String) (res : PutResult) : Piece :=
  { p with backend, locator := if res.locator ≠ "" then res.locator else p.locator }

def ObjectManifest.relocate (m : ObjectManifest) (pieceIdx : Nat) (p : Piece) (backend : String)
    (res : PutResult) : ObjectManifest :=
  { m with pieces := m.pieces.set pieceIdx (p.relocated backend res) }

/-- Where `Repair` writes the piece: the primary of the migration. -/
def ObjectManifest.repairTarget (m : ObjectManifest) (p : Piece) : String :=
  if m.migrationState.primaryBackend = "" then p.backend else m.migrationState.primaryBackend

def storeRepaired (key : ManifestKey) (m : ObjectManifest) (pieceIdx : Nat) (piece : Piece)
    (body : Bytes) : Proc Call (Except String RepairResult × ObjectManifest) := do
  let target := m.repairTarget piece
  match ← ask (.putPiece ⟨target, piece.pieceID⟩ body) with
  | .error e =>
    return (.error ("lazy_read_repair: write piece to " ++ target ++ ": " ++ e.text), m)
  | .ok res =>
    let repaired := m.relocate pieceIdx piece target res
    match ← ask (.manifestPut key repaired) with
    | .error e => return (.error ("lazy_read_repair: manifest update: " ++ e.text), m)
    | .ok () => return (.ok ⟨body, target, piece.backend⟩, repaired)

/-- `ReadRepair.Repair`; the second component is the caller's manifest, which the source updates in
place. -/
def repair (cfg : Config) (key : ManifestKey) (m : ObjectManifest) (pieceIdx : Nat) :
    Proc Call (Except String RepairResult × ObjectManifest) :=
  match m.pieces[pieceIdx]? with
  | none =>
    return (.error ("lazy_read_repair: piece index " ++ toString pieceIdx ++ " out of range"), m)
  | some piece =>
    let target := m.repairTarget piece
    if piece.backend = target then
      return (.error "lazy_read_repair: no backend has the piece", m)
    else if (cfg.providers piece.backend).isNone then
      return (.error
        ("lazy_read_repair: piece backend \"" ++ piece.backend ++ "\" not registered"), m)
    else if (cfg.providers target).isNone then
      return (.error ("lazy_read_repair: target backend \"" ++ target ++ "\" not registered"), m)
    else do
      match ← ask (.getPiece piece.addr) with
      | .error e =>
        return (.error
          ("lazy_read_repair: read piece from " ++ piece.backend ++ ": " ++ e.text), m)
      | .ok body =>
        match verifyPiece cfg body piece with
        | .failed message => return (.error ("lazy_read_repair: " ++ message), m)
        | .verified | .unrecognized => storeRepaired key m pieceIdx piece body

end ObjectFabric
