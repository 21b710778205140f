import ObjectFabric.Cache.CachedStore

/-!
# Promotion — the worker that fills the hot-object cache

`cache/hot_object_cache/promotion_worker.go`.  The read path publishes a signal for a piece that it
has not cached; the worker counts the reads of the piece, and one that a policy admits is read from
its backend and put into the cache.
-/

namespace ObjectFabric

open Interleaving

def PromotionPolicy.admits (pol : PromotionPolicy) (sig : PromotionSignal) (windowCount : Nat) :
    Bool :=
  !((0 < pol.minPieceSizeBytes && sig.pieceSizeBytes < pol.minPieceSizeBytes) ||
    (0 < pol.maxPieceSizeBytes && pol.maxPieceSizeBytes < sig.pieceSizeBytes) ||
    (0 < pol.dailyReadCountThreshold && windowCount < pol.dailyReadCountThreshold))

namespace PromotionWorker

section

variable (cc : CacheConfig)

/-- `match` of the source: the first policy whose thresholds the signal crosses. -/
def matchPolicy (sig : PromotionSignal) (windowCount : Nat) : Option PromotionPolicy :=
  cc.policies.find? fun pol => pol.admits sig windowCount

/-- Read the piece from the backend that the fetcher names and cache what comes. -/
def promote (sig : PromotionSignal) (pol : PromotionPolicy) : Proc CacheCall Unit :=
  match cc.fetcher sig with
  | .error _ => return ()
  | .ok backend => do
    match ← ask (Sum.inl (.getPiece ⟨backend, sig.pieceID⟩)) with
    | .error _ => return ()
    | .ok body =>
      let _ ← ask (Sum.inr (.put sig.pieceID body
        { sizeBytes := sig.pieceSizeBytes, pinHot := pol.pinHotByDefault }))

def observedAt (sig : PromotionSignal) : Proc CacheCall Time :=
  if sig.observedAt = 0 then ask (Sum.inl .now) else return sig.observedAt

/-- A signal without a time is one of now, and one without a count is of one read. -/
def handle (sig : PromotionSignal) : Proc CacheCall Unit := do
  let observedAt ← observedAt sig
  let delta := if sig.readCount = 0 then 1 else sig.readCount
  let windowCount ← ask (Sum.inr (.observe sig.pieceID delta observedAt))
  match matchPolicy cc sig windowCount with
  | none => return ()
  | some pol => if cc.hasCache then promote cc sig pol else return ()

/-- `Run` for so many turns; in a turn without a signal the worker waits. -/
def run : Nat → Proc CacheCall Unit
  | 0 => return ()
  | n + 1 => do
    match ← ask (Sum.inr .receive) with
    | none => run n
    | some sig => do
      handle cc sig
      run n

end

end PromotionWorker

end ObjectFabric
