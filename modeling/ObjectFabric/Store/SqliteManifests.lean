import ObjectFabric.Store.ManifestStore

/-!
# SqliteManifests — the manifest store over a SQLite table

`metadata/manifest_store/sqlite/store.go`.  Each method is one SQL statement.  There is no latest
pointer: the latest version of an object is the row with the highest `write_seq`, a number that
every `Put` takes anew as one more than the highest in the table.  A row's body is the JSON of its
manifest; the row here holds the manifest that this JSON decodes to.
-/

namespace ObjectFabric

def Time.year (t : Time) : Int := (civilFromDays (t / nanosPerDay)).1

/-- `json.Marshal` and `json.Unmarshal`: a year of more than four digits cannot be written, and an
empty map is left out and read as `nil`. -/
def ObjectManifest.fromJSON (m : ObjectManifest) : Except String ObjectManifest :=
  if ∀ t ∈ [m.retention.retainUntil, m.createdAt], 0 ≤ Time.year t ∧ Time.year t ≤ 9999 then
    .ok { m with
      tags := m.tags.filter fun t => t ≠ ∅
      metadata := { m.metadata with
        userMetadata := m.metadata.userMetadata.filter fun u => u ≠ ∅ } }
  else
    .error ("json: error calling MarshalJSON for type time.Time: " ++
      "Time.MarshalJSON: year outside of range [0,9999]")

variable {M : Type}

structure SqliteRow (M : Type := ObjectManifest) where
  body : M
  writeSeq : Nat

theorem SqliteStore.writeSeq_inj_empty : ∀ k k' row row',
    (∅ : FMap ManifestKey (SqliteRow M)).lookup k = some row →
    (∅ : FMap ManifestKey (SqliteRow M)).lookup k' = some row' →
      row.writeSeq = row'.writeSeq → k = k' := by
  simp

structure SqliteStore (M : Type := ObjectManifest) where
  rows : FMap ManifestKey (SqliteRow M) := ∅
  writeSeq_inj : ∀ k k' row row', rows.lookup k = some row → rows.lookup k' = some row' →
    row.writeSeq = row'.writeSeq → k = k' := by exact SqliteStore.writeSeq_inj_empty

namespace SqliteStore

/-! ## 1. Single versions -/

def validateKey (k : ManifestKey) : Except StoreError Unit :=
  if k.tenantID = "" then .error (.other "sqlite: tenant_id is required")
  else if k.bucket = "" then .error (.other "sqlite: bucket is required")
  else if k.objectKeyHash = "" then .error (.other "sqlite: object_key_hash is required")
  else if k.versionID = "" then .error (.other "sqlite: version_id is required")
  else .ok ()

/-- The check of the methods that take the empty version ID for the latest version. -/
def requireObject (k : LatestKey) : Except StoreError Unit :=
  if k.tenantID = "" ∨ k.bucket = "" ∨ k.objectKeyHash = "" then
    .error (.other "sqlite: tenant_id, bucket, and object_key_hash are required")
  else
    .ok ()

/-- `COALESCE(MAX(write_seq), 0)` -/
def maxSeq (s : SqliteStore M) : Nat := (s.rows.entries.map fun e => e.2.writeSeq).sup

theorem writeSeq_le_maxSeq {s : SqliteStore M} {k : ManifestKey} {row : SqliteRow M}
    (h : s.rows.lookup k = some row) : row.writeSeq ≤ s.maxSeq := by
  have hmem : (⟨k, row⟩ : Sigma fun _ : ManifestKey => SqliteRow M) ∈ s.rows.entries :=
    Finmap.mem_lookup_iff.mp h
  exact Multiset.le_sup (Multiset.mem_map_of_mem _ hmem)

theorem maxSeq_le {s : SqliteStore M} {n : Nat}
    (h : ∀ k row, s.rows.lookup k = some row → row.writeSeq ≤ n) : s.maxSeq ≤ n := by
  refine Multiset.sup_le.mpr fun seq hseq => ?_
  rcases Multiset.mem_map.mp hseq with ⟨⟨k, row⟩, hmem, rfl⟩
  exact h k row (Finmap.mem_lookup_iff.mpr hmem)

/-- `INSERT … ON CONFLICT … DO UPDATE` -/
def upsert (s : SqliteStore M) (k : ManifestKey) (body : M) : SqliteStore M where
  rows := s.rows.insert k ⟨body, s.maxSeq + 1⟩
  writeSeq_inj := by
    intro k₁ k₂ row₁ row₂ h₁ h₂ hseq
    rw [FMap.lookup_insert_ite] at h₁ h₂
    split at h₁ <;> split at h₂
    · rename_i hk₁ hk₂
      exact hk₁.trans hk₂.symm
    · -- the new number is above all others
      rename_i hk₁ hk₂
      have hle := s.writeSeq_le_maxSeq h₂
      rw [← hseq, ← Option.some.inj h₁] at hle
      exact absurd hle (Nat.not_succ_le_self _)
    · rename_i hk₁ hk₂
      have hle := s.writeSeq_le_maxSeq h₁
      rw [hseq, ← Option.some.inj h₂] at hle
      exact absurd hle (Nat.not_succ_le_self _)
    · exact s.writeSeq_inj k₁ k₂ row₁ row₂ h₁ h₂ hseq

/-- `json` is what comes back from the JSON of a manifest. -/
def put (json : M → Except String M) (s : SqliteStore M) (k : ManifestKey) (m : M) :
    Except StoreError Unit × SqliteStore M :=
  match validateKey k with
  | .error e => (.error e, s)
  | .ok () =>
    match json m with
    | .error e => (.error (.other ("sqlite: marshal manifest: " ++ e)), s)
    | .ok body => (.ok (), s.upsert k body)

/-- `UPDATE … SET body`, on a row that is there. -/
def setBody (s : SqliteStore M) (k : ManifestKey) (row : SqliteRow M) (hrow : s.rows.lookup k = some row)
    (body : M) : SqliteStore M where
  rows := s.rows.insert k { row with body }
  writeSeq_inj := by
    have hold : ∀ k' row', (s.rows.insert k { row with body }).lookup k' = some row' →
        ∃ row'', s.rows.lookup k' = some row'' ∧ row''.writeSeq = row'.writeSeq := by
      intro k' row' h
      rw [FMap.lookup_insert_ite] at h
      split at h
      · rename_i hk
        rw [hk, ← Option.some.inj h]
        exact ⟨row, hrow, rfl⟩
      · exact ⟨row', h, rfl⟩
    intro k₁ k₂ row₁ row₂ h₁ h₂ hseq
    rcases hold k₁ row₁ h₁ with ⟨old₁, hold₁, hseq₁⟩
    rcases hold k₂ row₂ h₂ with ⟨old₂, hold₂, hseq₂⟩
    exact s.writeSeq_inj k₁ k₂ old₁ old₂ hold₁ hold₂ (hseq₁.trans (hseq.trans hseq₂.symm))

def updateManifest (json : M → Except String M) (s : SqliteStore M) (k : ManifestKey) (m : M) :
    Except StoreError Unit × SqliteStore M :=
  match validateKey k with
  | .error e => (.error e, s)
  | .ok () =>
    match json m with
    | .error e => (.error (.other ("sqlite: marshal manifest: " ++ e)), s)
    | .ok body =>
      match hrow : s.rows.lookup k with
      | none => (.error .manifestNotFound, s)
      | some row => (.ok (), s.setBody k row hrow body)

def writeSeqOf (s : SqliteStore M) (k : ManifestKey) : Nat :=
  ((s.rows.lookup k).map SqliteRow.writeSeq).getD 0

def versionsOf (s : SqliteStore M) (lk : LatestKey) : Multiset ManifestKey :=
  s.rows.keySet.filter fun k => k.latestKey = lk

/-- `ORDER BY write_seq DESC LIMIT 1` -/
def latest (s : SqliteStore M) (lk : LatestKey) : Option ManifestKey :=
  ((s.versionsOf lk).rankedBy s.writeSeqOf).getLast?.map Prod.snd

def resolve (s : SqliteStore M) (k : ManifestKey) : Option ManifestKey :=
  if k.versionID = "" then s.latest k.latestKey else some k

def get (s : SqliteStore M) (k : ManifestKey) : Except StoreError M :=
  match requireObject k.latestKey with
  | .error e => .error e
  | .ok () =>
    match (s.resolve k).bind s.rows.lookup with
    | none => .error .manifestNotFound
    | some row => .ok row.body

def remove (s : SqliteStore M) (k : ManifestKey) : SqliteStore M where
  rows := s.rows.erase k
  writeSeq_inj := by
    intro k₁ k₂ row₁ row₂ h₁ h₂
    rw [FMap.lookup_erase_ite] at h₁ h₂
    split at h₁
    · simp at h₁
    · split at h₂
      · simp at h₂
      · exact s.writeSeq_inj k₁ k₂ row₁ row₂ h₁ h₂

def delete (s : SqliteStore M) (k : ManifestKey) : Except StoreError Unit × SqliteStore M :=
  match requireObject k.latestKey with
  | .error e => (.error e, s)
  | .ok () =>
    match s.resolve k with
    | none => (.error .manifestNotFound, s)
    | some target =>
      match s.rows.lookup target with
      | none => (.error .manifestNotFound, s)
      | some _ => (.ok (), s.remove target)

/-! ## 2. Listings -/

def cutSign : List Char → Bool × List Char
  | '-' :: rest => (true, rest)
  | '+' :: rest => (false, rest)
  | rest => (false, rest)

/-- `strconv.ParseInt(c, 10, 64)`, with one message for all its errors. -/
def parseCursor (c : String) : Except StoreError Int :=
  let signed := cutSign c.toList
  match ManifestStore.parseUint (String.ofList signed.2) with
  | .error _ => .error (.other "sqlite: invalid list cursor")
  | .ok n =>
    if signed.1 ∧ n ≤ 2 ^ 63 then .ok (-n)
    else if ¬ signed.1 ∧ n < 2 ^ 63 then .ok n
    else .error (.other "sqlite: invalid list cursor")

/-- `SELECT MAX(write_seq)` over the rows of one object. -/
def latestSeq (s : SqliteStore M) (lk : LatestKey) : Nat := ((s.versionsOf lk).map s.writeSeqOf).sup

def latestRows (s : SqliteStore M) (tenantID bucket : String) : Multiset ManifestKey :=
  s.rows.keySet.filter fun k =>
    (k.tenantID = tenantID ∧ k.bucket = bucket) ∧ s.writeSeqOf k = s.latestSeq k.latestKey

/-- One row more than the page holds is asked for, to know whether there is a next page. -/
def page (s : SqliteStore M) (tenantID bucket : String) (after : Int) (limit : Nat) :
    List M × String :=
  let rows := (((s.latestRows tenantID bucket).rankedBy s.writeSeqOf).filter fun row =>
    after < row.1).take (limit + 1)
  let taken := rows.take limit
  let next := if limit < rows.length then (taken.getLast?.map fun row => toString row.1).getD "" else ""
  (taken.filterMap fun row => (s.rows.lookup row.2).map SqliteRow.body, next)

def list (s : SqliteStore M) (tenantID bucket cursor : String) (limit : Int) :
    Except StoreError (List M × String) :=
  if tenantID = "" ∨ bucket = "" then
    .error (.other "sqlite: tenant_id and bucket are required")
  else
    let limit := if limit ≤ 0 then 1000 else limit.toNat
    if cursor = "" then
      .ok (s.page tenantID bucket 0 limit)
    else
      match parseCursor cursor with
      | .error e => .error e
      | .ok after => .ok (s.page tenantID bucket after limit)

def listVersions (s : SqliteStore M) (tenantID bucket objectKeyHash : String) :
    Except StoreError (List M) :=
  let lk : LatestKey := ⟨tenantID, bucket, objectKeyHash⟩
  match requireObject lk with
  | .error e => .error e
  | .ok () => .ok (((s.versionsOf lk).rankedBy s.writeSeqOf).reverse.filterMap fun row =>
      (s.rows.lookup row.2).map SqliteRow.body)

end SqliteStore

end ObjectFabric
