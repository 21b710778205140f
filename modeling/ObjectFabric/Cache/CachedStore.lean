import ObjectFabric.Cache.MemoryCache
import ObjectFabric.Gateway.Config
import ObjectFabric.Interleaving.Signatures

/-!
# CachedStore — the stores together with the hot-object cache

The calls of the read path besides those on the stores: the cache, the bus of promotion signals, the
read counter of the promotion worker, and the semaphore that bounds the bytes buffered at once.
-/

namespace ObjectFabric

open Interleaving

structure PromotionSignal where
  pieceID : String
  pieceSizeBytes : Int
  tenantID : String
  readBytes : Int
  readCount : Nat
  observedAt : Time
  originBackend : String
  deriving DecidableEq, Repr

/-- The reads of a piece in the window that began at `windowStart`. -/
structure ReadCount where
  count : Nat
  windowStart : Time
  deriving DecidableEq, Repr

inductive CacheOp : Type → Type where
  | get (pieceID : String) : CacheOp (Option Bytes)
  | put (pieceID : String) (body : Bytes) (opts : CachePutOptions) : CacheOp (Except String Unit)
  | evict (pieceID : String) : CacheOp Unit
  | publish (sig : PromotionSignal) : CacheOp Bool
  | receive : CacheOp (Option PromotionSignal)
  | observe (pieceID : String) (delta : Nat) (now : Time) : CacheOp Nat
  | tryAcquire (n : Int) : CacheOp Bool
  | release (n : Int) : CacheOp Unit

abbrev CacheCall (β : Type) : Type := Call β ⊕ CacheOp β

def onStores {α : Type} (p : Proc Call α) : Proc CacheCall α := p.lift Sum.inl

/-- Pieces are promoted to a tier by their size and by how often they are read. -/
structure PromotionPolicy where
  dailyReadCountThreshold : Nat := 0
  minPieceSizeBytes : Int := 0
  maxPieceSizeBytes : Int := 0
  pinHotByDefault : Bool := false
  deriving DecidableEq, Repr

/-- How the gateway is wired.  `warmBudget` is absent when the semaphore is; `fetcher` names the
backend that the worker reads a signalled piece from. -/
structure CacheConfig where
  hasCache : Bool := true
  hasPublisher : Bool := true
  busSize : Nat := 1024
  warmBudget : Option Int := none
  policies : List PromotionPolicy := []
  window : Int := 24 * 60 * 60 * 1000000000
  fetcher : PromotionSignal → Except String String := fun _ => .error "no provider"

structure CachedWorld where
  world : World
  cache : MemoryCache := {}
  signals : List PromotionSignal := []
  reads : FMap String ReadCount := ∅
  /-- Bytes that are buffered under the budget. -/
  warming : Int := 0

namespace CachedWorld

def withStores (s : CachedWorld) (w : World) : CachedWorld := { s with world := w }

/-- `readCounter.observe`.  The source also prunes counters whose window has elapsed, which the next
read of such a piece would start over. -/
def observe (window : Int) (s : CachedWorld) (pieceID : String) (delta : Nat) (now : Time) :
    Nat × CachedWorld :=
  let current : ReadCount :=
    match s.reads.lookup pieceID with
    | none => ⟨0, now⟩
    | some e => if window ≤ now - e.windowStart then ⟨0, now⟩ else e
  let counted : ReadCount := { current with count := current.count + delta }
  (counted.count, { s with reads := s.reads.insert pieceID counted })

def exec (cc : CacheConfig) {β : Type} (x : Choice) (c : CacheOp β) (s : CachedWorld) :
    β × CachedWorld :=
  match c with
  | .get id => ((s.cache.get x.now id).1, { s with cache := (s.cache.get x.now id).2 })
  | .put id body opts =>
    match s.cache.put x.now id body opts with
    | .error message => (.error message, s)
    | .ok cache => (.ok (), { s with cache })
  | .evict id => ((), { s with cache := s.cache.evict id })
  | .publish sig =>
    if s.signals.length < cc.busSize then (true, { s with signals := s.signals ++ [sig] })
    else (false, s)
  | .receive =>
    match s.signals with
    | [] => (none, s)
    | sig :: rest => (some sig, { s with signals := rest })
  | .observe id delta now => s.observe cc.window id delta now
  | .tryAcquire n =>
    if s.warming + n ≤ cc.warmBudget.getD 0 then (true, { s with warming := s.warming + n })
    else (false, s)
  | .release n => ((), { s with warming := s.warming - n })

@[simp] theorem exec_world (cc : CacheConfig) {β : Type} (x : Choice) (c : CacheOp β)
    (s : CachedWorld) : (exec cc x c s).2.world = s.world := by
  cases c with
  | put | publish | receive | tryAcquire =>
    unfold exec
    simp only
    split <;> rfl
  | _ => rfl

theorem mem_exec (cc : CacheConfig) {β : Type} (x : Choice) (c : CacheOp β) (s : CachedWorld)
    {e : CacheEntry} (he : e ∈ (exec cc x c s).2.cache.entries) :
    e ∈ s.cache.entries ∨ ∃ (opts : CachePutOptions) (h : β = Except String Unit),
      h ▸ c = .put e.pieceID e.body opts := by
  cases c with
  | get id => exact Or.inl (MemoryCache.mem_get he)
  | evict id => exact Or.inl (MemoryCache.mem_evict he).1
  | put id body opts =>
    unfold exec at he
    simp only at he
    split at he
    · exact Or.inl he
    rename_i cache hput
    rcases MemoryCache.mem_put hput he with ⟨hid, hbody⟩ | hold
    · rw [hid, hbody]
      exact Or.inr ⟨opts, rfl, rfl⟩
    · exact Or.inl hold
  | publish | receive | tryAcquire =>
    unfold exec at he
    simp only at he
    split at he <;> exact Or.inl he
  | observe | release => exact Or.inl he

end CachedWorld

def cachedMachine (cfg : Config) (cc : CacheConfig) : Machine CacheCall CachedWorld Choice where
  exec x c s :=
    match c with
    | .inl c => (((machine cfg.providers).exec x c s.world).1,
        { s with world := ((machine cfg.providers).exec x c s.world).2 })
    | .inr c => CachedWorld.exec cc x c s

theorem onStores_ensures {cfg : Config} {cc : CacheConfig} {ok : Choice → Prop} {α : Type}
    {p : Proc Call α} {s : CachedWorld} {Q : α → CachedWorld → Prop}
    (hp : p.Ensures (machine cfg.providers) ok s.world fun a w => Q a { s with world := w }) :
    (onStores p).Ensures (cachedMachine cfg cc) ok s Q := by
  have hlift : (p.lift Sum.inl).Ensures (cachedMachine cfg cc) ok { s with world := s.world } Q :=
    Proc.Ensures.lift CachedWorld.withStores (fun _ _ _ => rfl) hp
  exact hlift

end ObjectFabric
