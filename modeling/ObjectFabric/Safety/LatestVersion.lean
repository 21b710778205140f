import ObjectFabric.Safety.StoreEquivalence

/-!
# LatestVersion — which version of an object is the latest, store by store

The in-memory store keeps a pointer to the latest version, which goes when that version is deleted.
In the SQL stores the latest version is the newest row that is left.  The conditions on a PUT and on
a DELETE below are those under which the three behave alike on one object.
-/

namespace ObjectFabric

inductive StoreKind where
  | memory
  | sqlite
  | postgres (now : Nat → Time) (tie : ManifestKey → Nat)

namespace StoreKind

def State : StoreKind → Type
  | .memory => ManifestStore
  | .sqlite => SqliteStore
  | .postgres _ _ => PostgresManifestStore

def impl : (b : StoreKind) → StoreImpl b.State
  | .memory => memoryStore id
  | .sqlite => sqliteStore ObjectManifest.fromJSON
  | .postgres now tie => postgresStore now tie

def stored : (b : StoreKind) → b.State → ManifestKey → Option ObjectManifest
  | .memory => fun (s : ManifestStore) k => s.byKey.lookup k
  | .sqlite => fun (s : SqliteStore) k => (s.rows.lookup k).map SqliteRow.body
  | .postgres _ _ => fun (s : PostgresManifestStore) k =>
    (s.rows.lookup k).map PostgresManifestRow.body

def latest : (b : StoreKind) → b.State → LatestKey → Option ManifestKey
  | .memory => fun (s : ManifestStore) lk => s.latest.lookup lk
  | .sqlite => fun (s : SqliteStore) lk => s.latest lk
  | .postgres _ tie => fun (s : PostgresManifestStore) lk => s.latest tie lk

def current (b : StoreKind) (s : b.State) (lk : LatestKey) : Option ObjectManifest :=
  (b.latest s lk).bind (b.stored s)

/-- What is stored of a manifest. -/
def kept : StoreKind → ObjectManifest → Except String ObjectManifest
  | .memory, m => .ok m
  | .sqlite, m | .postgres _ _, m => m.fromJSON

def KeyedAt (b : StoreKind) (s : b.State) (lk : LatestKey) : Prop :=
  ∀ k m, b.stored s k = some m → k.latestKey = lk → m.key = k

/-- The condition on a PUT: the database's clock has moved on since the rows of the object. -/
def PutInOrder : (b : StoreKind) → b.State → LatestKey → Prop
  | .memory => fun _ _ => True
  | .sqlite => fun _ _ => True
  | .postgres now _ => fun (s : PostgresManifestStore) lk =>
    ∀ k row, s.rows.lookup k = some row → k.latestKey = lk → row.updatedAt < now s.puts

/-- The condition on a DELETE: the SQL stores have at most one version of the object. -/
def DeletesLast : (b : StoreKind) → b.State → LatestKey → Prop
  | .memory => fun _ _ => True
  | .sqlite => fun (s : SqliteStore) lk => ∀ k k', (s.rows.lookup k).isSome = true →
    (s.rows.lookup k').isSome = true → k.latestKey = lk → k'.latestKey = lk → k = k'
  | .postgres _ _ => fun (s : PostgresManifestStore) lk => ∀ k k', (s.rows.lookup k).isSome = true →
    (s.rows.lookup k').isSome = true → k.latestKey = lk → k'.latestKey = lk → k = k'

end StoreKind

structure LatestKey.Named (lk : LatestKey) : Prop where
  tenantID : lk.tenantID ≠ ""
  bucket : lk.bucket ≠ ""
  objectKeyHash : lk.objectKeyHash ≠ ""

/-! ## 1. In memory -/

namespace ManifestStore

variable {s : ManifestStore} {k : ManifestKey}

theorem get_latest (hv : k.versionID = "") :
    s.get k = ((s.latest.lookup k.latestKey).bind s.byKey.lookup).elim
      (.error .manifestNotFound) .ok := by
  unfold get resolve
  rw [if_pos hv]
  cases (s.latest.lookup k.latestKey).bind s.byKey.lookup <;> rfl

theorem delete_latest (hv : k.versionID ≠ "") (hlatest : s.latest.lookup k.latestKey = some k) :
    s.delete k = (.ok (), s.remove k) ∧ (s.remove k).latest.lookup k.latestKey = none := by
  rcases Option.isSome_iff_exists.mp (s.latest_stored _ k hlatest).2 with ⟨m, hm⟩
  constructor
  · unfold delete
    rw [resolve_of_version hv]
    simp only [hm]
  · show (if s.latest.lookup k.latestKey = some k then s.latest.erase k.latestKey
      else s.latest).lookup k.latestKey = none
    rw [if_pos hlatest, FMap.lookup_erase_ite, if_pos rfl]

end ManifestStore

/-! ## 2. SQLite -/

namespace SqliteStore

variable {s : SqliteStore} {k : ManifestKey}

theorem get_latest (hlk : k.latestKey.Named) (hv : k.versionID = "") :
    s.get k = ((s.latest k.latestKey).bind fun k => (s.rows.lookup k).map SqliteRow.body).elim
      (.error .manifestNotFound) .ok := by
  unfold get resolve
  rw [requireObject_ok ⟨hlk.tenantID, hlk.bucket, hlk.objectKeyHash⟩, if_pos hv]
  cases s.latest k.latestKey with
  | none => rfl
  | some target =>
    simp only [Option.bind_some]
    cases s.rows.lookup target <;> rfl

theorem put_cases (m : ObjectManifest) (hlk : k.latestKey.Named) (hv : k.versionID ≠ "") :
    (∃ body, m.fromJSON = .ok body ∧ s.put ObjectManifest.fromJSON k m = (.ok (), s.upsert k body)) ∨
      ∃ e, s.put ObjectManifest.fromJSON k m = (.error e, s) := by
  unfold put
  rw [validateKey_ok ⟨hlk.tenantID, hlk.bucket, hlk.objectKeyHash, hv⟩]
  cases m.fromJSON with
  | error e => exact Or.inr ⟨_, rfl⟩
  | ok body => exact Or.inl ⟨body, rfl, rfl⟩

theorem latest_upsert (m : ObjectManifest) : (s.upsert k m).latest k.latestKey = some k := by
  have hrows : ∀ k', (s.upsert k m).rows.lookup k' =
      if k' = k then some ⟨m, s.maxSeq + 1⟩ else s.rows.lookup k' :=
    fun k' => FMap.lookup_insert_ite s.rows k k' _
  have hself : (s.upsert k m).rows.lookup k = some ⟨m, s.maxSeq + 1⟩ := by
    rw [hrows, if_pos rfl]
  refine latest_eq_some.mpr ⟨⟨by rw [Stored, hself]; rfl, fun k' hk' _ => ?_⟩, rfl⟩
  unfold writeSeqOf
  rw [hself, hrows]
  by_cases hkk : k' = k
  · rw [if_pos hkk]
  -- the new number is above all the others
  rw [if_neg hkk]
  have hstored : s.Stored k' := by
    rw [Stored, hrows, if_neg hkk] at hk'
    exact hk'
  have hle := writeSeqOf_le_maxSeq hstored
  show s.writeSeqOf k' ≤ s.maxSeq + 1
  omega

theorem delete_latest (hlk : k.latestKey.Named) (hv : k.versionID ≠ "")
    (hlatest : s.latest k.latestKey = some k)
    (hlast : ∀ k₁ k₂, (s.rows.lookup k₁).isSome = true → (s.rows.lookup k₂).isSome = true →
      k₁.latestKey = k.latestKey → k₂.latestKey = k.latestKey → k₁ = k₂) :
    s.delete k = (.ok (), s.remove k) ∧ (s.remove k).latest k.latestKey = none := by
  have hstored : s.Stored k := (latest_eq_some.mp hlatest).1.stored
  rcases Option.isSome_iff_exists.mp hstored with ⟨row, hrow⟩
  constructor
  · unfold delete resolve
    rw [requireObject_ok ⟨hlk.tenantID, hlk.bucket, hlk.objectKeyHash⟩, if_neg hv]
    simp only [hrow]
  rcases hrest : (s.remove k).latest k.latestKey with _ | k₀
  · rfl
  rcases latest_eq_some.mp hrest with ⟨hlatest₀, hobj⟩
  have hleft : ((s.rows.erase k).lookup k₀).isSome = true := hlatest₀.stored
  rw [FMap.lookup_erase_ite] at hleft
  by_cases hk : k₀ = k
  · rw [if_pos hk] at hleft
    exact absurd hleft (by simp)
  · rw [if_neg hk] at hleft
    exact absurd (hlast k₀ k hleft hstored hobj rfl) hk

end SqliteStore

/-! ## 3. Postgres -/

namespace PostgresManifestStore

variable {now : Nat → Time} {tie : ManifestKey → Nat} {s : PostgresManifestStore} {k : ManifestKey}

theorem validateKey_ok (hlk : k.latestKey.Named) (hv : k.versionID ≠ "") :
    validateKey k = .ok () := by
  have htenant : k.tenantID ≠ "" := hlk.tenantID
  have hbucket : k.bucket ≠ "" := hlk.bucket
  have hhash : k.objectKeyHash ≠ "" := hlk.objectKeyHash
  unfold validateKey
  rw [if_neg htenant, if_neg hbucket, if_neg hhash, if_neg hv]

theorem requireObject_ok {lk : LatestKey} (hlk : lk.Named) : requireObject lk = .ok () := by
  unfold requireObject
  rw [if_neg]
  rintro (h | h | h)
  · exact hlk.tenantID h
  · exact hlk.bucket h
  · exact hlk.objectKeyHash h

theorem get_latest (hlk : k.latestKey.Named) (hv : k.versionID = "") :
    s.get tie k = ((s.latest tie k.latestKey).bind fun k =>
      (s.rows.lookup k).map PostgresManifestRow.body).elim (.error .manifestNotFound) .ok := by
  unfold get
  rw [requireObject_ok hlk]
  simp only [if_pos hv]
  cases s.latest tie k.latestKey with
  | none => rfl
  | some target =>
    simp only [Option.bind_some]
    cases s.rows.lookup target <;> rfl

/-- The store after a `Put`. -/
def written (now : Nat → Time) (s : PostgresManifestStore) (k : ManifestKey) (m : ObjectManifest) :
    PostgresManifestStore :=
  { rows := s.rows.insert k ⟨m, now s.puts⟩, puts := s.puts + 1 }

theorem put_cases (m : ObjectManifest) (hlk : k.latestKey.Named) (hv : k.versionID ≠ "") :
    (∃ body, m.fromJSON = .ok body ∧ s.put now k m = (.ok (), s.written now k body)) ∨
      ∃ e, s.put now k m = (.error e, s) := by
  unfold put
  rw [validateKey_ok hlk hv]
  cases m.fromJSON with
  | error e => exact Or.inr ⟨_, rfl⟩
  | ok body => exact Or.inl ⟨body, rfl, rfl⟩

theorem latest_written (tie : ManifestKey → Nat) (m : ObjectManifest)
    (horder : ∀ k' row, s.rows.lookup k' = some row → k'.latestKey = k.latestKey →
      row.updatedAt < now s.puts) : (s.written now k m).latest tie k.latestKey = some k := by
  have hrows : ∀ k', (s.written now k m).rows.lookup k' =
      if k' = k then some ⟨m, now s.puts⟩ else s.rows.lookup k' :=
    fun k' => FMap.lookup_insert_ite s.rows k k' _
  have hself : (s.written now k m).rows.lookup k = some ⟨m, now s.puts⟩ := by
    rw [hrows, if_pos rfl]
  have hmem : k ∈ (s.written now k m).versionsOf k.latestKey :=
    mem_versionsOf.mpr ⟨by rw [hself]; rfl, rfl⟩
  rcases hlatest : (s.written now k m).latest tie k.latestKey with _ | k₀
  · exact absurd hmem (latest_eq_none.mp hlatest k)
  by_cases hk : k₀ = k
  · rw [hk]
  -- an older row cannot come after the new one
  have hle := updatedAtOf_le_latest hlatest hmem
  rcases mem_versionsOf.mp (mem_of_latest hlatest) with ⟨hstored, hobj⟩
  rcases Option.isSome_iff_exists.mp hstored with ⟨row, hrow⟩
  have hold : s.rows.lookup k₀ = some row := by
    rw [hrows, if_neg hk] at hrow
    exact hrow
  have hlt := horder k₀ row hold hobj
  unfold updatedAtOf at hle
  rw [hself, hrow] at hle
  exact absurd (lt_of_le_of_lt hle hlt) (lt_irrefl _)

theorem delete_latest (hlk : k.latestKey.Named) (hv : k.versionID ≠ "")
    (hlatest : s.latest tie k.latestKey = some k)
    (hlast : ∀ k₁ k₂, (s.rows.lookup k₁).isSome = true → (s.rows.lookup k₂).isSome = true →
      k₁.latestKey = k.latestKey → k₂.latestKey = k.latestKey → k₁ = k₂) :
    s.delete k = (.ok (), { s with rows := s.rows.erase k }) ∧
      latest tie { s with rows := s.rows.erase k } k.latestKey = none := by
  have hstored := (mem_versionsOf.mp (mem_of_latest hlatest)).1
  rcases Option.isSome_iff_exists.mp hstored with ⟨row, hrow⟩
  constructor
  · unfold delete
    rw [validateKey_ok hlk hv]
    simp only [hrow]
  apply latest_eq_none.mpr
  intro k₀ hmem
  rcases mem_versionsOf.mp hmem with ⟨hleft, hobj⟩
  have hleft : ((s.rows.erase k).lookup k₀).isSome = true := hleft
  rw [FMap.lookup_erase_ite] at hleft
  by_cases hk : k₀ = k
  · rw [if_pos hk] at hleft
    exact absurd hleft (by simp)
  · rw [if_neg hk] at hleft
    exact hk (hlast k₀ k hleft hstored hobj rfl)

end PostgresManifestStore

/-! ## 4. All of them -/

theorem map_lookup_ite {α γ : Type} (f : α → γ) {p : Prop} [Decidable p] {x y z : Option α}
    (h : x = if p then y else z) : x.map f = if p then y.map f else z.map f := by
  rw [h]
  split <;> rfl

namespace StoreKind

variable {b : StoreKind} {s : b.State} {lk : LatestKey} {k : ManifestKey}

theorem latestKey_of_latest (h : b.latest s lk = some k) : k.latestKey = lk := by
  cases b with
  | memory => exact (ManifestStore.latest_stored s lk k h).1
  | sqlite => exact (SqliteStore.latest_eq_some.mp h).2
  | postgres now tie =>
    exact (PostgresManifestStore.mem_versionsOf.mp (PostgresManifestStore.mem_of_latest h)).2

theorem get_current (hlk : k.latestKey.Named) (hv : k.versionID = "") :
    b.impl.get s k = (b.current s k.latestKey).elim (.error .manifestNotFound) .ok := by
  cases b with
  | memory => exact ManifestStore.get_latest hv
  | sqlite => exact SqliteStore.get_latest hlk hv
  | postgres now tie => exact PostgresManifestStore.get_latest hlk hv

/-- A PUT makes its version the latest one; a manifest that cannot be kept is refused. -/
theorem put_current (m : ObjectManifest) (hlk : k.latestKey.Named) (hv : k.versionID ≠ "")
    (horder : b.PutInOrder s k.latestKey) :
    (∃ m' s', b.kept m = .ok m' ∧ b.impl.put s k m = (.ok (), s') ∧
      b.latest s' k.latestKey = some k ∧
      ∀ k', b.stored s' k' = if k' = k then some m' else b.stored s k') ∨
    ∃ e, b.impl.put s k m = (.error e, s) := by
  cases b with
  | memory =>
    refine Or.inl ⟨m, ManifestStore.put s k m, rfl, rfl, ?_, fun k' => ManifestStore.lookup_put s k k' m⟩
    exact (FMap.lookup_insert_ite (ManifestStore.latest s) _ _ k).trans (if_pos rfl)
  | sqlite =>
    refine (SqliteStore.put_cases (s := s) m hlk hv).imp_left ?_
    rintro ⟨body, hjson, hput⟩
    refine ⟨body, _, hjson, hput, SqliteStore.latest_upsert body, fun k' => ?_⟩
    exact map_lookup_ite SqliteRow.body (FMap.lookup_insert_ite (SqliteStore.rows s) k k' _)
  | postgres now tie =>
    refine (PostgresManifestStore.put_cases (s := s) m hlk hv).imp_left ?_
    rintro ⟨body, hjson, hput⟩
    refine ⟨body, _, hjson, hput, PostgresManifestStore.latest_written tie body horder,
      fun k' => ?_⟩
    exact map_lookup_ite PostgresManifestRow.body
      (FMap.lookup_insert_ite (PostgresManifestStore.rows s) k k' _)

theorem delete_current (hlk : k.latestKey.Named) (hv : k.versionID ≠ "")
    (hlatest : b.latest s k.latestKey = some k) (hlast : b.DeletesLast s k.latestKey) :
    ∃ s', b.impl.delete s k = (.ok (), s') ∧ b.latest s' k.latestKey = none ∧
      ∀ k', b.stored s' k' = if k' = k then none else b.stored s k' := by
  cases b with
  | memory =>
    have hdel := ManifestStore.delete_latest (s := s) hv hlatest
    exact ⟨_, hdel.1, hdel.2, fun k' => ManifestStore.lookup_remove s k k'⟩
  | sqlite =>
    have hdel := SqliteStore.delete_latest (s := s) hlk hv hlatest hlast
    refine ⟨_, hdel.1, hdel.2, fun k' => ?_⟩
    exact map_lookup_ite SqliteRow.body (FMap.lookup_erase_ite (SqliteStore.rows s) k k')
  | postgres now tie => ?_
  have hdel := PostgresManifestStore.delete_latest (s := s) hlk hv hlatest hlast
  refine ⟨_, hdel.1, hdel.2, fun k' => ?_⟩
  exact map_lookup_ite PostgresManifestRow.body
    (FMap.lookup_erase_ite (PostgresManifestStore.rows s) k k')

end StoreKind

end ObjectFabric
