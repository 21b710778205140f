import ObjectFabric.Store.SqliteManifests

/-!
# PostgresManifests — the manifest store over a Postgres table

`metadata/manifest_store/postgres/store.go`.  The latest version of an object is the row with the
highest `updated_at`, which a `Put` sets to the start of its transaction; `now` gives the reading of
the `n`-th one.  Which of several rows with one `updated_at` comes first is up to the database, here
to `tie`.  Unlike the other stores this one does not delete without a version ID.
-/

namespace ObjectFabric

structure PostgresManifestRow where
  body : ObjectManifest
  updatedAt : Time

structure PostgresManifestStore where
  rows : FMap ManifestKey PostgresManifestRow := ∅
  /-- The number of `Put` transactions so far. -/
  puts : Nat := 0

namespace PostgresManifestStore

/-! ## 1. Single versions -/

def validateKey (k : ManifestKey) : Except StoreError Unit :=
  if k.tenantID = "" then .error (.other "postgres: tenant_id is required")
  else if k.bucket = "" then .error (.other "postgres: bucket is required")
  else if k.objectKeyHash = "" then .error (.other "postgres: object_key_hash is required")
  else if k.versionID = "" then .error (.other "postgres: version_id is required")
  else .ok ()

def requireObject (k : LatestKey) : Except StoreError Unit :=
  if k.tenantID = "" ∨ k.bucket = "" ∨ k.objectKeyHash = "" then
    .error (.other "postgres: tenant_id, bucket, and object_key_hash are required")
  else
    .ok ()

section

variable (now : Nat → Time) (tie : ManifestKey → Nat)

/-- `INSERT … ON CONFLICT … DO UPDATE`; a new row gets the same time as its default. -/
def put (s : PostgresManifestStore) (k : ManifestKey) (m : ObjectManifest) :
    Except StoreError Unit × PostgresManifestStore :=
  match validateKey k with
  | .error e => (.error e, s)
  | .ok () =>
    match m.fromJSON with
    | .error e => (.error (.other ("postgres: marshal manifest: " ++ e)), s)
    | .ok body => (.ok (), { rows := s.rows.insert k ⟨body, now s.puts⟩, puts := s.puts + 1 })

def updateManifest (s : PostgresManifestStore) (k : ManifestKey) (m : ObjectManifest) :
    Except StoreError Unit × PostgresManifestStore :=
  match validateKey k with
  | .error e => (.error e, s)
  | .ok () =>
    match m.fromJSON with
    | .error e => (.error (.other ("postgres: marshal manifest: " ++ e)), s)
    | .ok body =>
      match s.rows.lookup k with
      | none => (.error .manifestNotFound, s)
      | some row => (.ok (), { s with rows := s.rows.insert k { row with body } })

def updatedAtOf (s : PostgresManifestStore) (k : ManifestKey) : Time :=
  ((s.rows.lookup k).map PostgresManifestRow.updatedAt).getD 0

def versionsOf (s : PostgresManifestStore) (lk : LatestKey) : Multiset ManifestKey :=
  s.rows.keySet.filter fun k => k.latestKey = lk

/-- `ORDER BY updated_at`, the oldest first. -/
def byAge (s : PostgresManifestStore) (lk : LatestKey) : List ManifestKey :=
  ((s.versionsOf lk).map fun k => toLex (s.updatedAtOf k, toLex (tie k, k))).ascending.map
    fun row => (ofLex (ofLex row).2).2

/-- `ORDER BY updated_at DESC LIMIT 1` -/
def latest (s : PostgresManifestStore) (lk : LatestKey) : Option ManifestKey :=
  (s.byAge tie lk).getLast?

def get (s : PostgresManifestStore) (k : ManifestKey) : Except StoreError ObjectManifest :=
  match requireObject k.latestKey with
  | .error e => .error e
  | .ok () =>
    let target := if k.versionID = "" then s.latest tie k.latestKey else some k
    match target.bind s.rows.lookup with
    | none => .error .manifestNotFound
    | some row => .ok row.body

def delete (s : PostgresManifestStore) (k : ManifestKey) :
    Except StoreError Unit × PostgresManifestStore :=
  match validateKey k with
  | .error e => (.error e, s)
  | .ok () =>
    match s.rows.lookup k with
    | none => (.error .manifestNotFound, s)
    | some _ => (.ok (), { s with rows := s.rows.erase k })

/-! ## 2. Listings -/

def splitCursor (c : String) : String := String.ofList (c.toList.takeWhile (· ≠ '/'))

def joinCursor (hash version : String) : String := hash ++ "/" ++ version

/-- `SELECT DISTINCT ON (object_key_hash)`: the latest row of each object after the cursor. -/
def latestRows (s : PostgresManifestStore) (tenantID bucket after : String) : List ManifestKey :=
  let keys := s.rows.keySet.filter fun k => k.tenantID = tenantID ∧ k.bucket = bucket
  let hashes := (keys.map ManifestKey.objectKeyHash).dedup.ascending.filter fun hash => after < hash
  hashes.filterMap fun hash => s.latest tie ⟨tenantID, bucket, hash⟩

def list (s : PostgresManifestStore) (tenantID bucket cursor : String) (limit : Int) :
    Except StoreError (List ObjectManifest × String) :=
  if tenantID = "" ∨ bucket = "" then
    .error (.other "postgres: tenant_id and bucket are required")
  else
    let limit := if limit ≤ 0 then 1000 else limit.toNat
    let rows := s.latestRows tie tenantID bucket (splitCursor cursor)
    let taken := rows.take limit
    let next := if limit < rows.length then
      (taken.getLast?.map fun k => joinCursor k.objectKeyHash k.versionID).getD "" else ""
    .ok (taken.filterMap fun k => (s.rows.lookup k).map PostgresManifestRow.body, next)

def listVersions (s : PostgresManifestStore) (tenantID bucket objectKeyHash : String) :
    Except StoreError (List ObjectManifest) :=
  let lk : LatestKey := ⟨tenantID, bucket, objectKeyHash⟩
  match requireObject lk with
  | .error e => .error e
  | .ok () => .ok ((s.byAge tie lk).reverse.filterMap fun k =>
      (s.rows.lookup k).map PostgresManifestRow.body)

end

/-! ## 3. The latest row -/

variable {s : PostgresManifestStore} {tie : ManifestKey → Nat} {lk : LatestKey}

theorem mem_versionsOf {k : ManifestKey} :
    k ∈ s.versionsOf lk ↔ (s.rows.lookup k).isSome = true ∧ k.latestKey = lk := by
  rw [versionsOf, Multiset.mem_filter, FMap.mem_keySet]

theorem mem_byAge {k : ManifestKey} : k ∈ s.byAge tie lk ↔ k ∈ s.versionsOf lk := by
  unfold byAge
  rw [List.mem_map]
  constructor
  · rintro ⟨row, hrow, rfl⟩
    rcases Multiset.mem_map.mp (Multiset.mem_ascending.mp hrow) with ⟨k, hk, rfl⟩
    exact hk
  · intro hk
    exact ⟨_, Multiset.mem_ascending.mpr (Multiset.mem_map_of_mem _ hk), rfl⟩

theorem mem_of_latest {k : ManifestKey} (h : s.latest tie lk = some k) : k ∈ s.versionsOf lk :=
  mem_byAge.mp (List.mem_of_getLast? h)

theorem latest_eq_none : s.latest tie lk = none ↔ ∀ k, k ∉ s.versionsOf lk := by
  unfold latest
  rw [List.getLast?_eq_none_iff, List.eq_nil_iff_forall_not_mem]
  exact forall_congr' fun k => not_congr mem_byAge

theorem updatedAtOf_le_latest {k k' : ManifestKey} (h : s.latest tie lk = some k)
    (hk' : k' ∈ s.versionsOf lk) : s.updatedAtOf k' ≤ s.updatedAtOf k := by
  have hsorted : (s.byAge tie lk).Pairwise fun a b => s.updatedAtOf a ≤ s.updatedAtOf b := by
    unfold byAge
    rw [List.pairwise_map]
    apply (Multiset.pairwise_ascending _).imp_of_mem
    intro a b ha hb hle
    rcases Multiset.mem_map.mp (Multiset.mem_ascending.mp ha) with ⟨ka, -, rfl⟩
    rcases Multiset.mem_map.mp (Multiset.mem_ascending.mp hb) with ⟨kb, -, rfl⟩
    rcases Prod.Lex.le_iff.mp hle with hlt | ⟨heq, -⟩
    · exact le_of_lt hlt
    · exact le_of_eq heq
  rcases List.getLast?_eq_some_iff.mp h with ⟨older, hsplit⟩
  have hmem : k' ∈ s.byAge tie lk := mem_byAge.mpr hk'
  rw [hsplit] at hsorted hmem
  rcases List.mem_append.mp hmem with holder | hself
  · exact (List.pairwise_append.mp hsorted).2.2 k' holder k (List.mem_singleton_self k)
  · rw [List.mem_singleton.mp hself]

end PostgresManifestStore

end ObjectFabric
