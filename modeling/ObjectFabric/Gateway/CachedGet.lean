import ObjectFabric.Cache.CachedStore
import ObjectFabric.Gateway.CopyContent

/-!
# CachedGet — GET in front of the hot-object cache

`fetchPiece` and `openCiphertextStream` of `api/s3compat/handler.go`, with a cache, a publisher of
promotion signals and a bound on the bytes that are buffered at once.
-/

namespace ObjectFabric

open Interleaving

namespace Cached

section

variable (cfg : Config) (cc : CacheConfig)

/-! ## 1. Fetching a piece -/

def cachedBody (pieceID : String) : Proc CacheCall (Option Bytes) :=
  if cc.hasCache then ask (Sum.inr (.get pieceID)) else return none

def signalPromotion (p : Piece) (tenantID : String) (readBytes pieceSize : Int) :
    Proc CacheCall Unit :=
  if cc.hasPublisher then do
    let observedAt ← ask (Sum.inl .now)
    let _ ← ask (Sum.inr (.publish
      { pieceID := p.pieceID, pieceSizeBytes := pieceSize, tenantID, readBytes, readCount := 1,
        observedAt, originBackend := p.backend }))
  else
    return ()

/-- The share of a piece in the memory budget.  A piece larger than all of it never gets one. -/
def acquireBudget (pieceSize : Int) : Proc CacheCall Bool :=
  match cc.warmBudget with
  | none => return true
  | some budget =>
    if budget < pieceSize then return false else ask (Sum.inr (.tryAcquire pieceSize))

def releaseBudget (pieceSize : Int) : Proc CacheCall Unit :=
  match cc.warmBudget with
  | none => return ()
  | some _ => ask (Sum.inr (.release pieceSize))

/-- Check a piece that is buffered, put it into the cache and cut the range out of it. -/
def warmPiece (p : Piece) (range : Option ByteRange) (buf : Bytes) (preVerified : Bool) :
    Proc CacheCall (Except FetchError Bytes) :=
  match preVerified, verifyPiece cfg buf p with
  | false, .failed message => return .error (.integrity message)
  | _, _ =>
    if cc.hasCache then do
      let _ ← ask (Sum.inr (.put p.pieceID buf { sizeBytes := buf.length, hash := p.hash }))
      return sliceOr range p buf
    else
      return sliceOr range p buf

def repairedOutOfBounds (r : ByteRange) (p : Piece) (buf : Bytes) : FetchError :=
  .backend ("s3compat: range " ++ toString r.first ++ "-" ++ toString r.last ++
    " out of bounds for repaired piece " ++ p.pieceID ++ " (" ++ toString buf.length ++ " bytes)")

/-- A piece that the budget does not admit is passed on as it comes.  A range is read again from the
backend, or cut out of what a repair has buffered already. -/
def passOn (p : Piece) (range : Option ByteRange) (buf : Bytes) (preVerified : Bool) :
    Proc Call (Except FetchError Bytes) :=
  match range, preVerified with
  | none, _ => return .ok buf
  | some r, true => return (r.slice buf).elim (.error (repairedOutOfBounds r p buf)) .ok
  | some r, false => do
    match ← getRange p.addr (some r) with
    | .error e => return .error (.backend e.text)
    | .ok body => return .ok body

/-- The recorded size of the piece; older manifests record that of the object only. -/
def pieceSize (m : ObjectManifest) (p : Piece) : Int :=
  if p.sizeBytes ≤ 0 then m.objectSize else p.sizeBytes

def rangeBytes (m : ObjectManifest) (r : ByteRange) : Int :=
  (if r.last < 0 then m.objectSize - 1 else r.last) - r.first + 1

def serveWhole (tenantID : String) (p : Piece) (range : Option ByteRange) (size : Int)
    (body : Bytes) (preVerified : Bool) : Proc CacheCall (Except FetchError Bytes) := do
  if ← acquireBudget cc size then do
    let served ← warmPiece cfg cc p range body preVerified
    releaseBudget cc size
    return served
  else do
    signalPromotion cc p tenantID size size
    onStores (passOn p range body preVerified)

def fetchPiece (tenantID : String) (key : ManifestKey) (m : ObjectManifest) (p : Piece)
    (range : Option ByteRange) : Proc CacheCall (Except FetchError Bytes × ObjectManifest) := do
  match ← cachedBody cc p.pieceID with
  | some cached => return (sliceOr range p cached, m)
  | none =>
    let size := pieceSize m p
    let wantFull := range.isNone ∨ (p.hash ≠ "" ∧ size ≤ maxInMemoryObjectBytes)
    match ← onStores (getOrRepair cfg key m p (if wantFull then none else range)) with
    | (.error e, m) => return (.error e, m)
    | (.ok (body, preVerified), m) =>
      if ¬ wantFull then do
        match range with
        | none => return (.ok body, m)
        | some r =>
          signalPromotion cc p tenantID (rangeBytes m r) m.objectSize
          return (.ok body, m)
      else if maxInMemoryObjectBytes < size then
        if cc.hasCache ∧ range.isNone then do
          signalPromotion cc p tenantID size size
          return (.ok body, m)
        else
          return (.ok body, m)
      else
        return (← serveWhole cfg cc tenantID p range size body preVerified, m)

/-! ## 2. The handlers -/

def openCiphertextStream (tenantID : String) (key : ManifestKey) (m : ObjectManifest) (p : Piece) :
    Proc CacheCall (Except FetchError Bytes × ObjectManifest) := do
  match ← cachedBody cc p.pieceID with
  | some cached => return (.ok cached, m)
  | none =>
    match ← onStores (getOrRepair cfg key m p none) with
    | (.error e, m) => return (.error e, m)
    | (.ok (body, true), m) => return (.ok body, m)
    | (.ok (body, false), m) =>
      if cc.hasCache then do
        signalPromotion cc p tenantID (pieceSize m p) (pieceSize m p)
        return (.ok body, m)
      else
        return (.ok body, m)

def reads (tenantID : String) : PieceReads CacheCall where
  onStores := onStores
  fetchPiece := fetchPiece cfg cc tenantID
  openCiphertextStream := openCiphertextStream cfg cc tenantID

def getObject (req : GetRequest) : Proc CacheCall Response :=
  getObjectWith cfg (reads cfg cc req.object.tenantID) req

end

end Cached

end ObjectFabric
