import ObjectFabric.Metadata.Manifest

/-!
# MemoryCache — the in-memory hot-object cache

`cache/hot_object_cache/memory_cache.go`.  Two lists of entries, the most recently used first: the
pinned ones and the rest.  The index of the source is the search by piece ID, which the distinctness
of the IDs makes unambiguous; the byte counters agree with the lists.
-/

namespace ObjectFabric

inductive EvictionPolicyKind where
  | lru
  | lruHotPin
  deriving DecidableEq, Repr

/-- `hotLimit` is what `NewMemoryCache` makes of the hot region's fraction; zero bounds and a zero
TTL mean that there is none. -/
structure EvictionPolicy where
  kind : EvictionPolicyKind := .lru
  maxBytes : Int := 0
  hotLimit : Int := 0
  ttl : Int := 0
  deriving DecidableEq, Repr

structure CacheEntry where
  pieceID : String
  body : Bytes
  hash : String := ""
  pinned : Bool := false
  expiresAt : Option Time := none
  deriving DecidableEq, Repr

structure CachePutOptions where
  sizeBytes : Int := 0
  hash : String := ""
  ttl : Int := 0
  pinHot : Bool := false
  deriving DecidableEq, Repr

def CacheEntry.size (e : CacheEntry) : Int := e.body.length

def cachedBytes (es : List CacheEntry) : Int := (es.map CacheEntry.size).sum

@[simp] theorem cachedBytes_nil : cachedBytes [] = 0 := rfl

@[simp] theorem cachedBytes_cons (e : CacheEntry) (es : List CacheEntry) :
    cachedBytes (e :: es) = e.size + cachedBytes es := by
  simp [cachedBytes]

@[simp] theorem cachedBytes_append (es fs : List CacheEntry) :
    cachedBytes (es ++ fs) = cachedBytes es + cachedBytes fs := by
  simp [cachedBytes]

theorem cachedBytes_erase {e : CacheEntry} {es : List CacheEntry} (he : e ∈ es) :
    cachedBytes es = e.size + cachedBytes (es.erase e) :=
  ((List.perm_cons_erase he).map CacheEntry.size).sum_eq.trans (cachedBytes_cons _ _)

theorem MemoryCache.distinct_empty :
    (([] ++ [] : List CacheEntry).map CacheEntry.pieceID).Nodup :=
  List.nodup_nil

theorem MemoryCache.pinned_empty (b : Bool) : ∀ e ∈ ([] : List CacheEntry), e.pinned = b := by
  simp

theorem MemoryCache.bytesUsed_empty : (0 : Int) = cachedBytes [] + cachedBytes [] := rfl

theorem MemoryCache.hotBytes_empty : (0 : Int) = cachedBytes [] := rfl

structure MemoryCache where
  policy : EvictionPolicy := {}
  hot : List CacheEntry := []
  main : List CacheEntry := []
  bytesUsed : Int := 0
  hotBytes : Int := 0
  distinct : ((hot ++ main).map CacheEntry.pieceID).Nodup := by exact MemoryCache.distinct_empty
  hot_pinned : ∀ e ∈ hot, e.pinned = true := by exact MemoryCache.pinned_empty true
  main_unpinned : ∀ e ∈ main, e.pinned = false := by exact MemoryCache.pinned_empty false
  bytesUsed_eq : bytesUsed = cachedBytes hot + cachedBytes main := by exact MemoryCache.bytesUsed_empty
  hotBytes_eq : hotBytes = cachedBytes hot := by exact MemoryCache.hotBytes_empty

variable {c : MemoryCache} {e : CacheEntry} {pieceID : String} {now : Time} {body : Bytes}
  {opts : CachePutOptions}

namespace MemoryCache

/-! ## 1. Entries -/

def entries (c : MemoryCache) : List CacheEntry := c.hot ++ c.main

theorem mem_hot (he : e ∈ c.entries) (hpin : e.pinned = true) : e ∈ c.hot := by
  rcases List.mem_append.mp he with hhot | hmain
  · exact hhot
  · exact absurd (c.main_unpinned e hmain) (by simp [hpin])

theorem mem_main (he : e ∈ c.entries) (hpin : ¬ e.pinned = true) : e ∈ c.main := by
  rcases List.mem_append.mp he with hhot | hmain
  · exact absurd (c.hot_pinned e hhot) hpin
  · exact hmain

def removeLocked (c : MemoryCache) (e : CacheEntry) (he : e ∈ c.entries) : MemoryCache :=
  if hpin : e.pinned = true then
    { c with
      hot := c.hot.erase e
      hotBytes := c.hotBytes - e.size
      bytesUsed := c.bytesUsed - e.size
      distinct := c.distinct.sublist (((List.erase_sublist).append (.refl _)).map _)
      hot_pinned := fun e' he' => c.hot_pinned e' (List.mem_of_mem_erase he')
      hotBytes_eq := by
        rw [c.hotBytes_eq, cachedBytes_erase (mem_hot he hpin)]
        omega
      bytesUsed_eq := by
        rw [c.bytesUsed_eq, cachedBytes_erase (mem_hot he hpin)]
        omega }
  else
    { c with
      main := c.main.erase e
      bytesUsed := c.bytesUsed - e.size
      distinct := c.distinct.sublist (((List.Sublist.refl _).append List.erase_sublist).map _)
      main_unpinned := fun e' he' => c.main_unpinned e' (List.mem_of_mem_erase he')
      bytesUsed_eq := by
        rw [c.bytesUsed_eq, cachedBytes_erase (mem_main he hpin)]
        omega }

theorem entries_removeLocked (he : e ∈ c.entries) :
    (c.removeLocked e he).entries = c.entries.erase e := by
  unfold removeLocked entries
  split
  · rename_i hpin
    exact (List.erase_append_left _ (mem_hot he hpin)).symm
  · rename_i hpin
    exact (List.erase_append_right _ fun hhot => hpin (c.hot_pinned e hhot)).symm

theorem mem_removeLocked {e e' : CacheEntry} {he : e ∈ c.entries}
    (he' : e' ∈ (c.removeLocked e he).entries) : e' ∈ c.entries ∧ e'.pieceID ≠ e.pieceID := by
  rw [entries_removeLocked] at he'
  obtain ⟨hne, hmem⟩ := (List.Nodup.mem_erase_iff (c.distinct.of_map _)).mp he'
  exact ⟨hmem, fun hid => hne (List.inj_on_of_nodup_map c.distinct hmem he hid)⟩

def evict (c : MemoryCache) (pieceID : String) : MemoryCache :=
  match hfound : c.entries.find? fun e => e.pieceID = pieceID with
  | none => c
  | some e => c.removeLocked e (List.mem_of_find?_eq_some hfound)

theorem mem_evict (he : e ∈ (c.evict pieceID).entries) : e ∈ c.entries ∧ e.pieceID ≠ pieceID := by
  unfold evict at he
  split at he
  · rename_i hnone
    exact ⟨he, by simpa using List.find?_eq_none.mp hnone e he⟩
  · rename_i found hfound
    have hid : found.pieceID = pieceID := by simpa using List.find?_some hfound
    exact hid ▸ mem_removeLocked he

def push (c : MemoryCache) (e : CacheEntry) (hnew : ∀ e' ∈ c.entries, e'.pieceID ≠ e.pieceID) :
    MemoryCache :=
  have hfresh : e.pieceID ∉ (c.hot ++ c.main).map CacheEntry.pieceID := by
    intro hmem
    rcases List.mem_map.mp hmem with ⟨e', he', heq⟩
    exact hnew e' he' heq
  if hpin : e.pinned = true then
    { c with
      hot := e :: c.hot
      hotBytes := c.hotBytes + e.size
      bytesUsed := c.bytesUsed + e.size
      distinct := List.nodup_cons.mpr ⟨hfresh, c.distinct⟩
      hot_pinned := List.forall_mem_cons.mpr ⟨hpin, c.hot_pinned⟩
      hotBytes_eq := by
        rw [c.hotBytes_eq, cachedBytes_cons]
        omega
      bytesUsed_eq := by
        rw [c.bytesUsed_eq, cachedBytes_cons]
        omega }
  else
    { c with
      main := e :: c.main
      bytesUsed := c.bytesUsed + e.size
      distinct := by
        have hperm : ((c.hot ++ e :: c.main).map CacheEntry.pieceID).Perm
            ((e :: (c.hot ++ c.main)).map CacheEntry.pieceID) := List.perm_middle.map _
        exact hperm.nodup_iff.mpr (List.nodup_cons.mpr ⟨hfresh, c.distinct⟩)
      main_unpinned := List.forall_mem_cons.mpr ⟨Bool.eq_false_iff.mpr hpin, c.main_unpinned⟩
      bytesUsed_eq := by
        rw [c.bytesUsed_eq, cachedBytes_cons]
        omega }

theorem mem_push {e e' : CacheEntry}
    {hnew : ∀ e' ∈ c.entries, e'.pieceID ≠ e.pieceID} :
    e' ∈ (c.push e hnew).entries ↔ e' = e ∨ e' ∈ c.entries := by
  unfold push entries
  split
  · rw [List.cons_append, List.mem_cons]
  · rw [List.mem_append, List.mem_cons, List.mem_append]
    exact or_left_comm

theorem bytesUsed_push
    {hnew : ∀ e' ∈ c.entries, e'.pieceID ≠ e.pieceID} :
    (c.push e hnew).bytesUsed = c.bytesUsed + e.size := by
  unfold push
  split <;> rfl

/-! ## 2. Get -/

def expired (now : Time) (e : CacheEntry) : Bool := e.expiresAt.any fun t => t < now

/-- A hit moves the entry to the front; an expired entry is removed and missed. -/
def get (c : MemoryCache) (now : Time) (pieceID : String) : Option Bytes × MemoryCache :=
  match hfound : c.entries.find? fun e => e.pieceID = pieceID with
  | none => (none, c)
  | some e =>
    have he := List.mem_of_find?_eq_some hfound
    if expired now e then (none, c.removeLocked e he)
    else (some e.body, (c.removeLocked e he).push e fun _ he' => (mem_removeLocked he').2)

theorem mem_get (he : e ∈ (c.get now pieceID).2.entries) : e ∈ c.entries := by
  unfold get at he
  split at he
  · exact he
  rename_i found hfound
  dsimp only at he
  split at he <;> dsimp only at he
  · exact (mem_removeLocked he).1
  rcases mem_push.mp he with rfl | hold
  · exact List.mem_of_find?_eq_some hfound
  · exact (mem_removeLocked hold).1

theorem body_of_get
    (h : (c.get now pieceID).1 = some body) :
    ∃ e ∈ c.entries, e.pieceID = pieceID ∧ e.body = body := by
  unfold get at h
  split at h
  · exact absurd h (by simp)
  rename_i e hfound
  dsimp only at h
  split at h
  · exact absurd h (by simp)
  · have hid := List.find?_some hfound
    exact ⟨e, List.mem_of_find?_eq_some hfound, by simpa using hid, Option.some.inj h⟩

/-! ## 3. Eviction -/

/-- The loop of `evictHotLocked`. -/
def shedHot (incoming : Int) : Nat → MemoryCache → MemoryCache
  | 0, c => c
  | n + 1, c =>
    if c.policy.hotLimit < c.hotBytes + incoming then
      match hback : c.hot.getLast? with
      | none => c
      | some back =>
        shedHot incoming n (c.removeLocked back (List.mem_append_left _ (List.mem_of_getLast? hback)))
    else
      c

def evictHotLocked (c : MemoryCache) (incoming : Int) : MemoryCache :=
  if c.policy.hotLimit ≤ 0 then c else shedHot incoming c.hot.length c

/-- The entry to go next: the hot region is drawn on when the main one is empty. -/
def coldest (c : MemoryCache) : Option CacheEntry := c.main.getLast?.or c.hot.getLast?

theorem coldest_mem (h : c.coldest = some e) : e ∈ c.entries := by
  rcases Option.or_eq_some_iff.mp h with hmain | ⟨-, hhot⟩
  · exact List.mem_append_right _ (List.mem_of_getLast? hmain)
  · exact List.mem_append_left _ (List.mem_of_getLast? hhot)

theorem entries_of_coldest (h : c.coldest = none) : c.entries = [] := by
  obtain ⟨hmain, hhot⟩ := Option.or_eq_none_iff.mp h
  unfold entries
  rw [List.getLast?_eq_none_iff.mp hmain, List.getLast?_eq_none_iff.mp hhot]
  rfl

/-- The loop of `evictMainLocked`. -/
def shedMain (incoming : Int) : Nat → MemoryCache → MemoryCache
  | 0, c => c
  | n + 1, c =>
    if c.policy.maxBytes < c.bytesUsed + incoming then
      match hback : c.coldest with
      | none => c
      | some back => shedMain incoming n (c.removeLocked back (coldest_mem hback))
    else
      c

def evictMainLocked (c : MemoryCache) (incoming : Int) : MemoryCache :=
  if c.policy.maxBytes ≤ 0 then c else shedMain incoming c.entries.length c

structure Shrinks (c c' : MemoryCache) : Prop where
  policy_eq : c'.policy = c.policy
  mem : ∀ e ∈ c'.entries, e ∈ c.entries

theorem Shrinks.refl (c : MemoryCache) : Shrinks c c := ⟨rfl, fun _ he => he⟩

theorem Shrinks.trans {c c' c'' : MemoryCache} (h : Shrinks c c') (h' : Shrinks c' c'') :
    Shrinks c c'' :=
  ⟨h'.policy_eq.trans h.policy_eq, fun e he => h.mem e (h'.mem e he)⟩

theorem shrinks_removeLocked (he : e ∈ c.entries) : Shrinks c (c.removeLocked e he) := by
  refine ⟨?_, fun _ he' => (mem_removeLocked he').1⟩
  unfold removeLocked
  split <;> rfl

theorem shrinks_evict (c : MemoryCache) (pieceID : String) : Shrinks c (c.evict pieceID) := by
  unfold evict
  split
  · exact .refl c
  · exact shrinks_removeLocked _

theorem shedHot_spec (incoming : Int) {n : Nat} (hn : c.hot.length ≤ n) :
    Shrinks c (shedHot incoming n c) ∧ ((shedHot incoming n c).hot = [] ∨
      (shedHot incoming n c).hotBytes + incoming ≤ c.policy.hotLimit) := by
  induction n generalizing c with
  | zero => exact ⟨.refl c, .inl (List.eq_nil_of_length_eq_zero (Nat.le_zero.mp hn))⟩
  | succ n ih => ?_
  unfold shedHot
  split
  · split
    · rename_i hnone
      exact ⟨.refl c, .inl (List.getLast?_eq_none_iff.mp hnone)⟩
    · rename_i back hback
      have hmem := List.mem_of_getLast? hback
      have hless : (c.removeLocked back (List.mem_append_left _ hmem)).hot.length ≤ n := by
        unfold removeLocked
        rw [dif_pos (c.hot_pinned back hmem)]
        have hlen := List.length_erase_of_mem hmem
        show (c.hot.erase back).length ≤ n
        omega
      have hstep := shrinks_removeLocked (List.mem_append_left c.main hmem)
      obtain ⟨hrest, hfits⟩ := ih hless
      exact ⟨hstep.trans hrest, hstep.policy_eq ▸ hfits⟩
  · exact ⟨.refl c, .inr (by omega)⟩

theorem shedMain_spec (incoming : Int) {n : Nat} (hn : c.entries.length ≤ n) :
    Shrinks c (shedMain incoming n c) ∧ ((shedMain incoming n c).entries = [] ∨
      (shedMain incoming n c).bytesUsed + incoming ≤ c.policy.maxBytes) := by
  induction n generalizing c with
  | zero => exact ⟨.refl c, .inl (List.eq_nil_of_length_eq_zero (Nat.le_zero.mp hn))⟩
  | succ n ih => ?_
  unfold shedMain
  split
  · split
    · rename_i hnone
      exact ⟨.refl c, .inl (entries_of_coldest hnone)⟩
    · rename_i back hback
      have hmem := coldest_mem hback
      have hless : (c.removeLocked back hmem).entries.length ≤ n := by
        rw [entries_removeLocked, List.length_erase_of_mem hmem]
        omega
      have hstep := shrinks_removeLocked hmem
      obtain ⟨hrest, hfits⟩ := ih hless
      exact ⟨hstep.trans hrest, hstep.policy_eq ▸ hfits⟩
  · exact ⟨.refl c, .inr (by omega)⟩

/-! ## 4. Put -/

def makeRoom (c : MemoryCache) (e : CacheEntry) : MemoryCache :=
  let rest := c.evict e.pieceID
  (if e.pinned then rest.evictHotLocked e.size else rest).evictMainLocked e.size

theorem shrinks_evictMainLocked (incoming : Int) : Shrinks c (c.evictMainLocked incoming) := by
  unfold evictMainLocked
  split
  · exact .refl c
  · exact (shedMain_spec incoming (le_refl _)).1

theorem shrinks_evictHot (e : CacheEntry) :
    Shrinks c (if e.pinned then c.evictHotLocked e.size else c) := by
  unfold evictHotLocked
  split
  · split
    · exact .refl c
    · exact (shedHot_spec e.size (le_refl _)).1
  · exact .refl c

theorem shrinks_makeRoom (e : CacheEntry) : Shrinks (c.evict e.pieceID) (c.makeRoom e) :=
  (shrinks_evictHot e).trans (shrinks_evictMainLocked e.size)

theorem mem_makeRoom {e e' : CacheEntry} (he : e' ∈ (c.makeRoom e).entries) :
    e' ∈ c.entries ∧ e'.pieceID ≠ e.pieceID :=
  mem_evict ((shrinks_makeRoom e).mem e' he)

/-- The entry that `Put` makes of a body. -/
def newEntry (policy : EvictionPolicy) (now : Time) (pieceID : String) (body : Bytes)
    (opts : CachePutOptions) : CacheEntry where
  pieceID := pieceID
  body := body
  hash := opts.hash
  pinned := opts.pinHot && policy.kind = .lruHotPin
  expiresAt :=
    if 0 < opts.ttl then some (now + opts.ttl)
    else if 0 < policy.ttl then some (now + policy.ttl)
    else none

def put (c : MemoryCache) (now : Time) (pieceID : String) (body : Bytes) (opts : CachePutOptions) :
    Except String MemoryCache :=
  if pieceID = "" then
    .error "hot_object_cache: piece_id is required"
  else if 0 < c.policy.maxBytes ∧ c.policy.maxBytes < body.length then
    .error ("hot_object_cache: piece " ++ toString body.length ++ " bytes exceeds cache capacity " ++
      toString c.policy.maxBytes)
  else
    let e := newEntry c.policy now pieceID body opts
    .ok ((c.makeRoom e).push e fun _ he' => (mem_makeRoom he').2)

theorem put_eq_ok {c c' : MemoryCache}
    (h : c.put now pieceID body opts = .ok c') :
    (0 < c.policy.maxBytes → (body.length : Int) ≤ c.policy.maxBytes) ∧
      c' = (c.makeRoom (newEntry c.policy now pieceID body opts)).push
        (newEntry c.policy now pieceID body opts) fun _ he' => (mem_makeRoom he').2 := by
  unfold put at h
  split at h
  · exact absurd h (by simp)
  split at h
  · exact absurd h (by simp)
  rename_i hsize
  refine ⟨fun hmax => ?_, (Except.ok.inj h).symm⟩
  by_contra hlarge
  exact hsize ⟨hmax, by omega⟩

theorem mem_put {c c' : MemoryCache}
    (h : c.put now pieceID body opts = .ok c')
    (he : e ∈ c'.entries) : (e.pieceID = pieceID ∧ e.body = body) ∨ e ∈ c.entries := by
  rw [(put_eq_ok h).2] at he
  rcases mem_push.mp he with rfl | hold
  · exact Or.inl ⟨rfl, rfl⟩
  · exact Or.inr (mem_makeRoom hold).1

theorem evictMainLocked_fits {incoming : Int} (hmax : 0 < c.policy.maxBytes)
    (hsize : incoming ≤ c.policy.maxBytes) :
    (c.evictMainLocked incoming).bytesUsed + incoming ≤ c.policy.maxBytes := by
  unfold evictMainLocked
  rw [if_neg (by omega)]
  rcases (shedMain_spec incoming (le_refl c.entries.length)).2 with hnone | hfits
  · -- nothing is left
    obtain ⟨hhot, hmain⟩ := List.append_eq_nil_iff.mp hnone
    rw [bytesUsed_eq, hhot, hmain, cachedBytes_nil]
    omega
  · exact hfits

theorem makeRoom_fits (hmax : 0 < c.policy.maxBytes)
    (hsize : e.size ≤ c.policy.maxBytes) : (c.makeRoom e).bytesUsed + e.size ≤ c.policy.maxBytes := by
  have hpolicy := (shrinks_evict c e.pieceID).trans (shrinks_evictHot e)
  rw [← hpolicy.policy_eq] at hmax hsize ⊢
  exact evictMainLocked_fits hmax hsize

theorem put_fits {c c' : MemoryCache}
    (h : c.put now pieceID body opts = .ok c')
    (hmax : 0 < c.policy.maxBytes) : c'.bytesUsed ≤ c.policy.maxBytes := by
  rcases put_eq_ok h with ⟨hsize, hc'⟩
  rw [hc', bytesUsed_push]
  exact makeRoom_fits hmax (hsize hmax)

theorem cachedBytes_le {es fs : List CacheEntry} (hes : (es.map CacheEntry.pieceID).Nodup)
    (h : ∀ e ∈ es, e ∈ fs) : cachedBytes es ≤ cachedBytes fs := by
  obtain ⟨gs, hperm, hsub⟩ := (hes.of_map _).subperm h
  have hle := (hsub.map CacheEntry.size).sum_le_sum fun n hn => by
    obtain ⟨e, -, rfl⟩ := List.mem_map.mp hn
    exact Int.natCast_nonneg _
  rw [(hperm.map CacheEntry.size).sum_eq] at hle
  exact hle

theorem hot_distinct (c : MemoryCache) : (c.hot.map CacheEntry.pieceID).Nodup :=
  c.distinct.sublist ((List.sublist_append_left _ _).map _)

theorem Shrinks.hot {c c' : MemoryCache} (h : Shrinks c c') : ∀ e ∈ c'.hot, e ∈ c.hot :=
  fun e he => mem_hot (h.mem e (List.mem_append_left _ he)) (c'.hot_pinned e he)

/-- A pinned entry comes into an empty hot region, or into one that stays within its limit. -/
theorem makeRoom_hot (hpin : e.pinned = true) (hlimit : 0 < c.policy.hotLimit) :
    (c.makeRoom e).hot = [] ∨ (c.makeRoom e).hotBytes + e.size ≤ c.policy.hotLimit := by
  let rest := c.evict e.pieceID
  have hpolicy : rest.policy = c.policy := (shrinks_evict _ _).policy_eq
  have hroom : c.makeRoom e = (shedHot e.size rest.hot.length rest).evictMainLocked e.size := by
    unfold makeRoom evictHotLocked
    dsimp only
    rw [if_pos hpin, if_neg (by rw [(shrinks_evict _ _).policy_eq]; omega)]
  have hhot := (shrinks_evictMainLocked (c := shedHot e.size rest.hot.length rest) e.size).hot
  rw [hroom]
  rcases (shedHot_spec e.size (le_refl rest.hot.length)).2 with hnone | hfits
  · rw [hnone] at hhot
    exact .inl (List.eq_nil_iff_forall_not_mem.mpr fun e' he' => List.not_mem_nil (hhot e' he'))
  · have hle := cachedBytes_le (hot_distinct _) hhot
    rw [← hotBytes_eq, ← hotBytes_eq] at hle
    rw [hpolicy] at hfits
    exact .inr (by omega)

/-! ## 5. Runs -/

inductive Op where
  | get (now : Time) (pieceID : String)
  | put (now : Time) (pieceID : String) (body : Bytes) (opts : CachePutOptions)
  | evict (pieceID : String)

/-- The cache, and what its caller has stored: the body of the last `Put` of a piece that gave no
error, until an `Evict`. -/
structure Run where
  cache : MemoryCache
  stored : String → Option Bytes := fun _ => none

def Run.step (r : Run) : Op → Run
  | .get now pieceID => { r with cache := (r.cache.get now pieceID).2 }
  | .put now pieceID body opts =>
    match r.cache.put now pieceID body opts with
    | .error _ => r
    | .ok c => ⟨c, Function.update r.stored pieceID (some body)⟩
  | .evict pieceID => ⟨r.cache.evict pieceID, Function.update r.stored pieceID none⟩

/-- The pinned bytes are over their limit only when they are one entry. -/
structure Bounded (policy : EvictionPolicy) (c : MemoryCache) : Prop where
  fits : 0 < policy.maxBytes → c.bytesUsed ≤ policy.maxBytes
  hot : 0 < policy.hotLimit → c.hot.length ≤ 1 ∨ c.hotBytes ≤ policy.hotLimit

structure Run.Sound (policy : EvictionPolicy) (r : Run) : Prop where
  policy_eq : r.cache.policy = policy
  body : ∀ e ∈ r.cache.entries, r.stored e.pieceID = some e.body
  bounded : Bounded policy r.cache

theorem policy_push {hnew : ∀ e' ∈ c.entries, e'.pieceID ≠ e.pieceID} :
    (c.push e hnew).policy = c.policy := by
  unfold push
  split <;> rfl

theorem policy_get : (c.get now pieceID).2.policy = c.policy := by
  unfold get
  split
  · rfl
  rename_i e hfound
  have hpolicy := (shrinks_removeLocked (List.mem_of_find?_eq_some hfound)).policy_eq
  dsimp only
  split
  · exact hpolicy
  · rw [policy_push, hpolicy]

theorem policy_put {c c' : MemoryCache} (h : c.put now pieceID body opts = .ok c') :
    c'.policy = c.policy := by
  rw [(put_eq_ok h).2, policy_push]
  exact ((shrinks_evict _ _).trans (shrinks_makeRoom _)).policy_eq

theorem Bounded.subset {policy : EvictionPolicy} {c c' : MemoryCache} (h : Bounded policy c)
    (hsub : ∀ e ∈ c'.entries, e ∈ c.entries) : Bounded policy c' := by
  have hhot : ∀ e ∈ c'.hot, e ∈ c.hot := fun e he =>
    mem_hot (hsub e (List.mem_append_left _ he)) (c'.hot_pinned e he)
  refine ⟨fun hmax => ?_, fun hlimit => ?_⟩
  · have hle := cachedBytes_le c'.distinct hsub
    unfold entries at hle
    rw [cachedBytes_append, cachedBytes_append, ← bytesUsed_eq, ← bytesUsed_eq] at hle
    exact hle.trans (h.fits hmax)
  · have hlength := ((c'.hot_distinct.of_map _).subperm hhot).length_le
    have hle := cachedBytes_le c'.hot_distinct hhot
    rw [← hotBytes_eq, ← hotBytes_eq] at hle
    have hold := h.hot hlimit
    omega

theorem Run.Sound.step {policy : EvictionPolicy} {r : Run} (h : r.Sound policy) (op : Op) :
    (r.step op).Sound policy := by
  cases op with
  | get now pieceID =>
    exact ⟨policy_get.trans h.policy_eq, fun e he => h.body e (mem_get he),
      h.bounded.subset fun _ => mem_get⟩
  | put now pieceID body opts =>
    simp only [Run.step]
    cases hput : r.cache.put now pieceID body opts with
    | error message => exact h
    | ok c => ?_
    have hc := (put_eq_ok hput).2
    refine ⟨(policy_put hput).trans h.policy_eq, fun e he => ?_,
      h.policy_eq ▸ put_fits hput, fun hlimit => ?_⟩
    · have hmem : e ∈ c.entries := he
      rw [hc, mem_push] at hmem
      rcases hmem with rfl | hold
      · exact Function.update_self ..
      · exact (Function.update_of_ne (mem_makeRoom hold).2 ..).trans (h.body e (mem_makeRoom hold).1)
    · show c.hot.length ≤ 1 ∨ c.hotBytes ≤ policy.hotLimit
      rw [hc]
      unfold push
      split
      · rename_i hpin
        rw [← h.policy_eq] at hlimit ⊢
        rcases makeRoom_hot hpin hlimit with hnone | hfits
        · simp [hnone]
        · exact Or.inr hfits
      · exact (h.bounded.subset fun _ he => (mem_makeRoom he).1).hot hlimit
  | evict pieceID =>
    refine ⟨(shrinks_evict _ _).policy_eq.trans h.policy_eq, fun e he => ?_,
      h.bounded.subset fun _ he => (mem_evict he).1⟩
    exact (Function.update_of_ne (mem_evict he).2 ..).trans (h.body e (mem_evict he).1)

/-- Whatever the calls and the clock, the cache stays within its bounds, and a hit returns the body
that its caller stored last. -/
theorem cache_run_sound (policy : EvictionPolicy) (ops : List Op) :
    let r := ops.foldl Run.step { cache := { policy } }
    Bounded policy r.cache ∧
      ∀ now pieceID body, (r.cache.get now pieceID).1 = some body → r.stored pieceID = some body := by
  have hrun : ∀ r : Run, r.Sound policy → (ops.foldl Run.step r).Sound policy := by
    induction ops with
    | nil => exact fun _ h => h
    | cons op ops ih => exact fun _ h => ih _ (h.step op)
  have h := hrun { cache := { policy } } ⟨rfl, nofun, fun hmax => hmax.le, fun hlimit => .inr hlimit.le⟩
  refine ⟨h.bounded, fun now pieceID body hget => ?_⟩
  rcases body_of_get hget with ⟨e, he, rfl, rfl⟩
  exact h.body e he

end MemoryCache

end ObjectFabric
