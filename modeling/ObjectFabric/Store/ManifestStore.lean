import ObjectFabric.FiniteMap
import ObjectFabric.Metadata.Manifest

/-!
# ManifestStore — the in-memory manifest store

`metadata/manifest_store/memory/store.go`.  Each method runs under the store's mutex, so each is one
atomic step; the store carries its representation invariant, that the latest pointer of an object
names a stored version of that object.
-/

namespace ObjectFabric

inductive StoreError where
  | manifestNotFound
  | contentNotFound
  | alreadyExists
  | invalidRefCount
  | refCountNonZero
  | uploadNotFound
  | partNotFound
  | partETagMismatch
  | tenantMismatch
  | uploadMismatch
  | pieceNotFound
  | other (message : String)
  deriving DecidableEq, Repr

def StoreError.text : StoreError → String
  | .manifestNotFound => "manifest_store: manifest not found"
  | .contentNotFound => "content_index: entry not found"
  | .alreadyExists => "content_index: entry already exists"
  | .invalidRefCount => "content_index: invalid refcount"
  | .refCountNonZero => "content_index: ref_count not zero"
  | .uploadNotFound => "multipart: upload not found"
  | .partNotFound => "multipart: part not found"
  | .partETagMismatch => "multipart: part etag mismatch"
  | .tenantMismatch => "multipart: tenant mismatch"
  | .uploadMismatch => "multipart: bucket or object key mismatch"
  | .pieceNotFound => "piece not found"
  | .other message => message

variable {M : Type}

theorem ManifestStore.latest_stored_empty : ∀ lk k,
    (∅ : FMap LatestKey ManifestKey).lookup lk = some k →
      k.latestKey = lk ∧ ((∅ : FMap ManifestKey M).lookup k).isSome = true := by
  simp

/-- The store does not look into the manifests, so their type `M` is left open. -/
structure ManifestStore (M : Type := ObjectManifest) where
  byKey : FMap ManifestKey M := ∅
  latest : FMap LatestKey ManifestKey := ∅
  order : Nat := 0
  seq : FMap ManifestKey Nat := ∅
  latest_stored : ∀ lk k, latest.lookup lk = some k →
    k.latestKey = lk ∧ (byKey.lookup k).isSome = true := by exact ManifestStore.latest_stored_empty

variable {s : ManifestStore M} {k : ManifestKey} {m : M} {limit : Int}
  {after : Option ManifestKey}

namespace ManifestStore

/-! ## 1. Single versions -/

def resolve (s : ManifestStore M) (k : ManifestKey) : Option ManifestKey :=
  if k.versionID = "" then s.latest.lookup k.latestKey else some k

def put (s : ManifestStore M) (k : ManifestKey) (m : M) : ManifestStore M where
  byKey := s.byKey.insert k m
  latest := s.latest.insert k.latestKey k
  order := s.order + 1
  seq := s.seq.insert k (s.order + 1)
  latest_stored := by
    intro lk k' hk'
    rw [FMap.lookup_insert_ite] at hk' ⊢
    by_cases hlk : lk = k.latestKey
    · rw [if_pos hlk] at hk'
      obtain rfl := Option.some.inj hk'
      exact ⟨hlk.symm, by rw [if_pos rfl]; rfl⟩
    rw [if_neg hlk] at hk'
    obtain ⟨hkey, hstored⟩ := s.latest_stored lk k' hk'
    refine ⟨hkey, ?_⟩
    split
    · rfl
    · exact hstored

def updateManifest (s : ManifestStore M) (k : ManifestKey) (m : M) :
    Except StoreError Unit × ManifestStore M :=
  match s.byKey.lookup k with
  | none => (.error .manifestNotFound, s)
  | some _ => (.ok (), { s with
      byKey := s.byKey.insert k m
      latest_stored := by
        intro lk k' hk'
        obtain ⟨hkey, hstored⟩ := s.latest_stored lk k' hk'
        refine ⟨hkey, ?_⟩
        rw [FMap.lookup_insert_ite]
        split
        · rfl
        · exact hstored })

def get (s : ManifestStore M) (k : ManifestKey) : Except StoreError M :=
  match (s.resolve k).bind s.byKey.lookup with
  | none => .error .manifestNotFound
  | some m => .ok m

/-- Removing a version also removes the latest pointer when it names that version; no older
version is promoted. -/
def remove (s : ManifestStore M) (k : ManifestKey) : ManifestStore M where
  byKey := s.byKey.erase k
  latest := if s.latest.lookup k.latestKey = some k then s.latest.erase k.latestKey else s.latest
  order := s.order
  seq := s.seq.erase k
  latest_stored := by
    intro lk k' hk'
    have hold : s.latest.lookup lk = some k' ∧ k' ≠ k := by
      by_cases hlatest : s.latest.lookup k.latestKey = some k
      · rw [if_pos hlatest, FMap.lookup_erase_ite] at hk'
        by_cases hlk : lk = k.latestKey
        · simp [hlk] at hk'
        rw [if_neg hlk] at hk'
        refine ⟨hk', fun hkk => hlk ?_⟩
        rw [← hkk]
        exact (s.latest_stored lk k' hk').1.symm
      · rw [if_neg hlatest] at hk'
        refine ⟨hk', fun hkk => hlatest ?_⟩
        subst hkk
        rw [(s.latest_stored lk k' hk').1]
        exact hk'
    obtain ⟨hkey, hstored⟩ := s.latest_stored lk k' hold.1
    exact ⟨hkey, by rw [FMap.lookup_erase_ite, if_neg hold.2]; exact hstored⟩

def delete (s : ManifestStore M) (k : ManifestKey) : Except StoreError Unit × ManifestStore M :=
  match s.resolve k with
  | none => (.error .manifestNotFound, s)
  | some target =>
    match s.byKey.lookup target with
    | none => (.error .manifestNotFound, s)
    | some _ => (.ok (), s.remove target)

def hasManifestWithPieceID (s : ManifestStore) (tenantID pieceID : String) : Bool :=
  if tenantID = "" ∨ pieceID = "" then
    false
  else
    FMap.any (fun k m => k.tenantID = tenantID && m.pieces.any fun p => p.pieceID = pieceID) s.byKey

/-! ## 2. Listings -/

def scanTuple (k : ManifestKey) : String ×ₗ String ×ₗ String ×ₗ String :=
  toLex (k.tenantID, toLex (k.bucket, toLex (k.objectKeyHash, k.versionID)))

theorem scanTuple_injective : Function.Injective scanTuple := by
  rintro ⟨t, b, h, v⟩ ⟨t', b', h', v'⟩ heq
  simp only [scanTuple, EmbeddingLike.apply_eq_iff_eq, Prod.mk.injEq] at heq
  obtain ⟨rfl, rfl, rfl, rfl⟩ := heq
  rfl

/-- `scanKeyLess`: the order of the primary key. -/
instance : LinearOrder ManifestKey := LinearOrder.lift' scanTuple scanTuple_injective

def inSequence (s : ManifestStore M) (ks : Multiset ManifestKey) : List (Nat × ManifestKey) :=
  (ks.map fun k => toLex ((s.seq.lookup k).getD 0, k)).ascending.map ofLex

/-- `strconv.ParseUint(cursor, 10, 64)` -/
def parseUint (cursor : String) : Except StoreError Nat :=
  let digits := cursor.toList
  let n := digits.foldl (fun n c => 10 * n + (c.toNat - '0'.toNat)) 0
  if digits = [] ∨ !digits.all Char.isDigit then
    .error (.other ("strconv.ParseUint: parsing \"" ++ cursor ++ "\": invalid syntax"))
  else if 2 ^ 64 ≤ n then
    .error (.other ("strconv.ParseUint: parsing \"" ++ cursor ++ "\": value out of range"))
  else
    .ok n

/-- The latest versions of a bucket written after the given one, at most `limit` of them, and the
cursor of the next page. -/
def page (s : ManifestStore M) (tenantID bucket : String) (after limit : Nat) :
    List M × String :=
  let latest := (s.latest.entries.map Sigma.snd).filter fun k =>
    k.tenantID = tenantID ∧ k.bucket = bucket
  let rows := (s.inSequence latest).filter fun row => after < row.1
  let taken := rows.take limit
  let next := if limit < rows.length then (taken.getLast?.map fun row => toString row.1).getD "" else ""
  (taken.filterMap fun row => s.byKey.lookup row.2, next)

def list (s : ManifestStore M) (tenantID bucket cursor : String) (limit : Int) :
    Except StoreError (List M × String) :=
  let limit := if limit ≤ 0 then 1000 else limit.toNat
  if cursor = "" then
    .ok (s.page tenantID bucket 0 limit)
  else
    match parseUint cursor with
    | .error e => .error e
    | .ok after => .ok (s.page tenantID bucket after limit)

def listVersions (s : ManifestStore M) (tenantID bucket objectKeyHash : String) :
    List M :=
  let versions := (s.byKey.entries.map Sigma.fst).filter fun k =>
    k.latestKey = ⟨tenantID, bucket, objectKeyHash⟩
  (s.inSequence versions).reverse.filterMap fun row => s.byKey.lookup row.2

def scanKeys (s : ManifestStore M) (after : Option ManifestKey) : List ManifestKey :=
  (s.byKey.keySet.filter fun k => ∀ a ∈ after, a < k).ascending

def scanLimit (limit : Int) : Nat := if limit ≤ 0 then 1000 else limit.toNat

/-- `ScanManifests`: versions of all tenants in the order of the primary key, and the key after which
the next page starts. -/
def scanManifests (s : ManifestStore M) (after : Option ManifestKey) (limit : Int) :
    List (ManifestKey × M) × Option ManifestKey :=
  let page := (s.scanKeys after).take (scanLimit limit)
  (page.filterMap fun k => (s.byKey.lookup k).map (Prod.mk k),
    if scanLimit limit < (s.scanKeys after).length then page.getLast? else none)

/-! ## 3. What the operations do to the stored versions -/

theorem resolve_of_version (hk : k.versionID ≠ "") :
    s.resolve k = some k := by
  unfold resolve
  rw [if_neg hk]

theorem resolve_latestKey {k target : ManifestKey}
    (h : s.resolve k = some target) : target.latestKey = k.latestKey := by
  unfold resolve at h
  by_cases hv : k.versionID = ""
  · rw [if_pos hv] at h
    exact (s.latest_stored _ _ h).1
  · rw [if_neg hv] at h
    rw [Option.some.inj h]

theorem get_eq_ok
    (h : s.get k = .ok m) : ∃ target, s.resolve k = some target ∧ s.byKey.lookup target = some m := by
  unfold get at h
  cases hb : (s.resolve k).bind s.byKey.lookup with
  | none => simp [hb] at h
  | some m' =>
    rw [hb] at h
    obtain rfl := Except.ok.inj h
    exact Option.bind_eq_some_iff.mp hb

theorem lookup_put (s : ManifestStore M) (k k' : ManifestKey) (m : M) :
    (s.put k m).byKey.lookup k' = if k' = k then some m else s.byKey.lookup k' :=
  FMap.lookup_insert_ite s.byKey k k' m

theorem lookup_remove (s : ManifestStore M) (k k' : ManifestKey) :
    (s.remove k).byKey.lookup k' = if k' = k then none else s.byKey.lookup k' :=
  FMap.lookup_erase_ite s.byKey k k'

theorem resolve_remove {k k' target : ManifestKey}
    (h : (s.remove k).resolve k' = some target) : s.resolve k' = some target := by
  unfold resolve at h ⊢
  by_cases hv : k'.versionID = ""
  · rw [if_pos hv] at h ⊢
    change (if s.latest.lookup k.latestKey = some k then s.latest.erase k.latestKey
      else s.latest).lookup k'.latestKey = some target at h
    by_cases hlatest : s.latest.lookup k.latestKey = some k
    · rw [if_pos hlatest, FMap.lookup_erase_ite] at h
      by_cases hk : k'.latestKey = k.latestKey
      · simp [hk] at h
      · rwa [if_neg hk] at h
    · rwa [if_neg hlatest] at h
  · rw [if_neg hv] at h ⊢
    exact h

theorem resolve_updateManifest (s : ManifestStore M) (k k' : ManifestKey) (m : M) :
    (s.updateManifest k m).2.resolve k' = s.resolve k' := by
  unfold updateManifest
  cases s.byKey.lookup k <;> rfl

theorem updateManifest_cases (s : ManifestStore M) (k : ManifestKey) (m : M) :
    (s.byKey.lookup k = none ∧ s.updateManifest k m = (.error .manifestNotFound, s)) ∨
    ((s.byKey.lookup k).isSome = true ∧ (s.updateManifest k m).1 = .ok () ∧
      ∀ k', (s.updateManifest k m).2.byKey.lookup k' =
        if k' = k then some m else s.byKey.lookup k') := by
  unfold updateManifest
  cases hk : s.byKey.lookup k with
  | none => exact Or.inl ⟨rfl, rfl⟩
  | some m' => exact Or.inr ⟨rfl, rfl, fun k' => FMap.lookup_insert_ite s.byKey k k' m⟩

theorem delete_cases (s : ManifestStore M) (k : ManifestKey) :
    s.delete k = (.error .manifestNotFound, s) ∨
    ∃ target m, s.resolve k = some target ∧ s.byKey.lookup target = some m ∧
      s.delete k = (.ok (), s.remove target) := by
  unfold delete
  cases hr : s.resolve k with
  | none => exact Or.inl rfl
  | some target =>
    cases hm : s.byKey.lookup target with
    | none => exact Or.inl (by simp only [hm])
    | some m => exact Or.inr ⟨target, m, rfl, hm, by simp only [hm]⟩

theorem mem_of_mem_inSequence {ks : Multiset ManifestKey}
    {row : Nat × ManifestKey} (h : row ∈ s.inSequence ks) : row.2 ∈ ks := by
  unfold inSequence at h
  rw [List.mem_map] at h
  obtain ⟨entry, hentry, rfl⟩ := h
  rw [Multiset.mem_ascending, Multiset.mem_map] at hentry
  obtain ⟨k, hk, rfl⟩ := hentry
  exact hk

theorem stored_of_mem_page {tenantID bucket : String} {after limit : Nat}
    (hm : m ∈ (s.page tenantID bucket after limit).1) :
    ∃ k, s.byKey.lookup k = some m ∧ k.tenantID = tenantID ∧ k.bucket = bucket := by
  unfold page at hm
  rw [List.mem_filterMap] at hm
  obtain ⟨row, hrow, hlook⟩ := hm
  have hseq := (List.mem_filter.mp (List.mem_of_mem_take hrow)).1
  have hbucket := (Multiset.mem_filter.mp (mem_of_mem_inSequence hseq)).2
  exact ⟨row.2, hlook, hbucket⟩

theorem stored_of_list {tenantID bucket cursor : String}
    {res : List M × String} (h : s.list tenantID bucket cursor limit = .ok res)
    (hm : m ∈ res.1) :
    ∃ k, s.byKey.lookup k = some m ∧ k.tenantID = tenantID ∧ k.bucket = bucket := by
  unfold list at h
  by_cases hc : cursor = ""
  · simp only [if_pos hc, Except.ok.injEq] at h
    rw [← h] at hm
    exact stored_of_mem_page hm
  simp only [if_neg hc] at h
  cases hp : parseUint cursor with
  | error e => simp [hp] at h
  | ok after =>
    simp only [hp, Except.ok.injEq] at h
    rw [← h] at hm
    exact stored_of_mem_page hm

theorem nodup_inSequence {ks : Multiset ManifestKey} (hks : ks.Nodup) :
    ((s.inSequence ks).map Prod.snd).Nodup := by
  have hkeys : (((s.inSequence ks).map Prod.snd : List ManifestKey) : Multiset ManifestKey) = ks := by
    unfold inSequence
    rw [List.map_map, ← Multiset.map_coe, Multiset.coe_ascending, Multiset.map_map]
    exact Multiset.map_id' ks
  rw [← Multiset.coe_nodup, hkeys]
  exact hks

theorem latest_of_mem_page {tenantID bucket : String} {after limit : Nat}
    (hm : m ∈ (s.page tenantID bucket after limit).1) :
    ∃ k, s.byKey.lookup k = some m ∧ s.latest.lookup k.latestKey = some k := by
  unfold page at hm
  rw [List.mem_filterMap] at hm
  obtain ⟨row, hrow, hlook⟩ := hm
  have hseq := (List.mem_filter.mp (List.mem_of_mem_take hrow)).1
  have hvalue := (Multiset.mem_filter.mp (mem_of_mem_inSequence hseq)).1
  rw [Multiset.mem_map] at hvalue
  obtain ⟨⟨lk, k⟩, hentry, hk⟩ := hvalue
  have hlatest : s.latest.lookup lk = some row.2 := by
    rw [← hk]
    exact Finmap.mem_lookup_iff.mpr hentry
  refine ⟨row.2, hlook, ?_⟩
  rw [(s.latest_stored lk row.2 hlatest).1]
  exact hlatest

theorem nodup_latest (s : ManifestStore M) : (s.latest.entries.map Sigma.snd).Nodup := by
  -- the object of a latest version is the key of its entry, and those differ
  have hobjects : (s.latest.entries.map Sigma.snd).map ManifestKey.latestKey = s.latest.keySet := by
    rw [Multiset.map_map]
    apply Multiset.map_congr rfl
    intro e he
    exact (s.latest_stored e.1 e.2 (Finmap.mem_lookup_iff.mpr he)).1
  apply Multiset.Nodup.of_map ManifestKey.latestKey
  rw [hobjects]
  exact s.latest.nodup_keySet

theorem mem_scanKeys :
    k ∈ s.scanKeys after ↔ (s.byKey.lookup k).isSome = true ∧ ∀ a ∈ after, a < k := by
  rw [scanKeys, Multiset.mem_ascending, Multiset.mem_filter, FMap.mem_keySet]

theorem pairwise_scanKeys (s : ManifestStore M) (after : Option ManifestKey) :
    (s.scanKeys after).Pairwise (· < ·) := by
  have hnodup : (s.scanKeys after).Nodup := by
    rw [← Multiset.coe_nodup, scanKeys, Multiset.coe_ascending]
    exact s.byKey.nodup_keySet.filter _
  exact ((Multiset.pairwise_ascending _).and hnodup).imp fun ⟨hle, hne⟩ => lt_of_le_of_ne hle hne

theorem length_scanKeys_lt {n : ManifestKey}
    (hn : n ∈ s.scanKeys after) : (s.scanKeys (some n)).length < (s.scanKeys after).length := by
  have hnodup : (n :: s.scanKeys (some n)).Nodup := by
    refine List.nodup_cons.mpr ⟨fun hmem => ?_, ?_⟩
    · exact lt_irrefl n ((mem_scanKeys.mp hmem).2 n rfl)
    · exact (s.pairwise_scanKeys (some n)).imp fun hlt => ne_of_lt hlt
  have hsub : n :: s.scanKeys (some n) ⊆ s.scanKeys after := by
    intro a ha
    rcases List.mem_cons.mp ha with rfl | hmem
    · exact hn
    · obtain ⟨hstored, hbeyond⟩ := mem_scanKeys.mp hmem
      refine mem_scanKeys.mpr ⟨hstored, fun c hc => ?_⟩
      exact lt_trans ((mem_scanKeys.mp hn).2 c hc) (hbeyond n rfl)
  have hlen := (List.subperm_of_subset hnodup hsub).length_le
  rw [List.length_cons] at hlen
  omega

theorem mem_scanManifests
    (h : (k, m) ∈ (s.scanManifests after limit).1) :
    s.byKey.lookup k = some m ∧ ∀ a ∈ after, a < k := by
  unfold scanManifests at h
  simp only [List.mem_filterMap, Option.map_eq_some_iff, Prod.mk.injEq] at h
  obtain ⟨k', hk', m', hm', rfl, rfl⟩ := h
  exact ⟨hm', (mem_scanKeys.mp (List.mem_of_mem_take hk')).2⟩

theorem keys_scanManifests (s : ManifestStore M) (after : Option ManifestKey) (limit : Int) :
    (s.scanManifests after limit).1.map Prod.fst =
      (s.scanKeys after).take (scanLimit limit) := by
  have hall : ∀ k ∈ s.scanKeys after, ((s.byKey.lookup k).map (Prod.mk k)).map Prod.fst = some k := by
    intro k hk
    obtain ⟨m, hm⟩ := Option.isSome_iff_exists.mp (mem_scanKeys.mp hk).1
    rw [hm]
    rfl
  unfold scanManifests
  simp only [List.map_filterMap]
  rw [List.filterMap_congr fun k hk => hall k (List.mem_of_mem_take hk), List.filterMap_some]

theorem nodup_scanManifests (s : ManifestStore M) (after : Option ManifestKey) (limit : Int) :
    ((s.scanManifests after limit).1.map Prod.fst).Nodup := by
  rw [keys_scanManifests]
  exact ((s.pairwise_scanKeys after).imp fun h => ne_of_lt h).sublist (List.take_sublist _ _)

theorem next_scanManifests
    {n : ManifestKey} (h : (s.scanManifests after limit).2 = some n) :
    n ∈ s.scanKeys after ∧ ∀ k ∈ (s.scanManifests after limit).1.map Prod.fst, k ≤ n := by
  rw [keys_scanManifests]
  unfold scanManifests at h
  simp only at h
  split at h
  · have hsorted := (s.pairwise_scanKeys after).sublist
      (List.take_sublist (scanLimit limit) _)
    obtain ⟨l, hl⟩ := List.getLast?_eq_some_iff.mp h
    have hn : n ∈ (s.scanKeys after).take (scanLimit limit) := by
      rw [hl]
      simp
    refine ⟨List.mem_of_mem_take hn, fun k hk => ?_⟩
    rw [hl] at hk hsorted
    rcases List.mem_append.mp hk with hkl | hkn
    · exact le_of_lt ((List.pairwise_append.mp hsorted).2.2 k hkl n (by simp))
    · exact le_of_eq (List.mem_singleton.mp hkn)
  · simp at h

theorem scanManifests_reaches (limit : Int)
    (hk : k ∈ s.scanKeys after) :
    k ∈ (s.scanManifests after limit).1.map Prod.fst ∨
      ∃ n, (s.scanManifests after limit).2 = some n ∧ n < k := by
  by_cases hpage : k ∈ (s.scanManifests after limit).1.map Prod.fst
  · exact Or.inl hpage
  right
  rw [keys_scanManifests] at hpage
  unfold scanManifests
  simp only
  have hpos : 0 < scanLimit limit := by
    unfold scanLimit
    split <;> omega
  generalize scanLimit limit = size at hpage hpos ⊢
  have hdrop : k ∈ (s.scanKeys after).drop size := by
    have hsplit : k ∈ (s.scanKeys after).take size ++ (s.scanKeys after).drop size := by
      rw [List.take_append_drop]
      exact hk
    exact (List.mem_append.mp hsplit).resolve_left hpage
  have hlen : size < (s.scanKeys after).length := by
    by_contra hge
    rw [List.drop_eq_nil_of_le (by omega)] at hdrop
    simp at hdrop
  have hne : (s.scanKeys after).take size ≠ [] := by
    intro hnil
    have hzero := congrArg List.length hnil
    rw [List.length_take, List.length_nil] at hzero
    omega
  rw [if_pos hlen, List.getLast?_eq_some_getLast hne]
  refine ⟨_, rfl, ?_⟩
  have hsorted := s.pairwise_scanKeys after
  rw [← List.take_append_drop size (s.scanKeys after), List.pairwise_append] at hsorted
  exact hsorted.2.2 _ (List.getLast_mem hne) k hdrop

theorem hasManifestWithPieceID_iff (s : ManifestStore) {tenantID pieceID : String}
    (ht : tenantID ≠ "") (hp : pieceID ≠ "") :
    s.hasManifestWithPieceID tenantID pieceID = true ↔
      ∃ k m, s.byKey.lookup k = some m ∧ k.tenantID = tenantID ∧
        ∃ p ∈ m.pieces, p.pieceID = pieceID := by
  unfold hasManifestWithPieceID
  rw [if_neg (by simp [ht, hp]), FMap.any_iff]
  simp

/-- The two stores agree on every object but `lk`. -/
def AgreeOutside (lk : LatestKey) (s s' : ManifestStore M) : Prop :=
  ∀ k : ManifestKey, k.latestKey ≠ lk →
    s'.byKey.lookup k = s.byKey.lookup k ∧ s'.latest.lookup k.latestKey = s.latest.lookup k.latestKey

theorem agreeOutside_put (s : ManifestStore M) (k : ManifestKey) (m : M) :
    AgreeOutside k.latestKey s (s.put k m) := by
  intro k' hne
  have hk : k' ≠ k := fun h => hne (by rw [h])
  refine ⟨by rw [lookup_put, if_neg hk], ?_⟩
  show (s.latest.insert k.latestKey k).lookup k'.latestKey = _
  rw [FMap.lookup_insert_ite, if_neg hne]

theorem agreeOutside_updateManifest (s : ManifestStore M) (k : ManifestKey) (m : M) :
    AgreeOutside k.latestKey s (s.updateManifest k m).2 := by
  intro k' hne
  have hk : k' ≠ k := fun h => hne (by rw [h])
  unfold updateManifest
  cases s.byKey.lookup k with
  | none => exact ⟨rfl, rfl⟩
  | some old =>
    refine ⟨?_, rfl⟩
    show (s.byKey.insert k m).lookup k' = _
    rw [FMap.lookup_insert_ite, if_neg hk]

theorem agreeOutside_remove (s : ManifestStore M) (k : ManifestKey) :
    AgreeOutside k.latestKey s (s.remove k) := by
  intro k' hne
  have hk : k' ≠ k := fun h => hne (by rw [h])
  refine ⟨by rw [lookup_remove, if_neg hk], ?_⟩
  show (if s.latest.lookup k.latestKey = some k then s.latest.erase k.latestKey
    else s.latest).lookup k'.latestKey = _
  split
  · rw [FMap.lookup_erase_ite, if_neg hne]
  · rfl

theorem agreeOutside_delete (s : ManifestStore M) (k : ManifestKey) :
    AgreeOutside k.latestKey s (s.delete k).2 := by
  rcases s.delete_cases k with hsame | ⟨target, m, hres, -, hdel⟩
  · rw [hsame]
    exact fun _ _ => ⟨rfl, rfl⟩
  · rw [hdel, ← resolve_latestKey hres]
    exact s.agreeOutside_remove target

/-! ## 4. Manifests under their own keys -/

variable {s : ManifestStore}

def Keyed (s : ManifestStore) : Prop := ∀ k m, s.byKey.lookup k = some m → m.key = k

theorem Keyed.nodup_page (hs : s.Keyed) (tenantID bucket : String)
    (after limit : Nat) :
    ((s.page tenantID bucket after limit).1.map ObjectManifest.key).Nodup := by
  have hsub : ∀ rows : List (Nat × ManifestKey),
      ((rows.filterMap fun row => s.byKey.lookup row.2).map ObjectManifest.key).Sublist
        (rows.map Prod.snd) := by
    intro rows
    induction rows with
    | nil => exact List.Sublist.refl _
    | cons row rows ih => ?_
    cases hlook : s.byKey.lookup row.2 with
    | none =>
      simp only [List.filterMap_cons, hlook, List.map_cons]
      exact ih.cons _
    | some m =>
      simp only [List.filterMap_cons, hlook, List.map_cons, hs row.2 m hlook]
      exact ih.cons_cons _
  apply List.Nodup.sublist (hsub _)
  apply List.Nodup.sublist (((List.take_sublist _ _).trans List.filter_sublist).map Prod.snd)
  exact nodup_inSequence (s.nodup_latest.filter _)

theorem Keyed.listed (hs : s.Keyed) {tenantID bucket cursor : String}
    {res : List ObjectManifest × String}
    (h : s.list tenantID bucket cursor limit = .ok res) :
    (res.1.map ObjectManifest.key).Nodup ∧ ∀ m ∈ res.1, s.byKey.lookup m.key = some m ∧
      s.latest.lookup m.key.latestKey = some m.key := by
  have hpage : ∃ after limit, s.page tenantID bucket after limit = res := by
    unfold list at h
    by_cases hc : cursor = ""
    · simp only [if_pos hc, Except.ok.injEq] at h
      exact ⟨_, _, h⟩
    simp only [if_neg hc] at h
    cases hp : parseUint cursor with
    | error e => simp [hp] at h
    | ok after =>
      simp only [hp, Except.ok.injEq] at h
      exact ⟨_, _, h⟩
  rcases hpage with ⟨after, size, rfl⟩
  refine ⟨hs.nodup_page tenantID bucket after size, fun m hm => ?_⟩
  rcases latest_of_mem_page hm with ⟨k, hlook, hlatest⟩
  rw [hs k m hlook]
  exact ⟨hlook, hlatest⟩

theorem Keyed.put (hs : s.Keyed) (m : ObjectManifest) :
    (s.put m.key m).Keyed := by
  intro k m' hm'
  rw [lookup_put] at hm'
  by_cases hk : k = m.key
  · rw [if_pos hk] at hm'
    rw [hk, Option.some.inj hm']
  · rw [if_neg hk] at hm'
    exact hs k m' hm'

theorem Keyed.updateManifest (hs : s.Keyed) (m : ObjectManifest) :
    (s.updateManifest m.key m).2.Keyed := by
  intro k m' hm'
  rcases s.updateManifest_cases m.key m with ⟨-, hsame⟩ | ⟨-, -, hlook⟩
  · rw [hsame] at hm'
    exact hs k m' hm'
  rw [hlook] at hm'
  by_cases hk : k = m.key
  · rw [if_pos hk] at hm'
    rw [hk, Option.some.inj hm']
  · rw [if_neg hk] at hm'
    exact hs k m' hm'

theorem Keyed.delete (hs : s.Keyed) (k : ManifestKey) :
    (s.delete k).2.Keyed := by
  intro k' m' hm'
  rcases s.delete_cases k with hsame | ⟨target, m, -, -, hdel⟩
  · rw [hsame] at hm'
    exact hs k' m' hm'
  rw [hdel, lookup_remove] at hm'
  by_cases hk : k' = target
  · simp [hk] at hm'
  · rw [if_neg hk] at hm'
    exact hs k' m' hm'

end ManifestStore

end ObjectFabric
