import ObjectFabric.Store.Implementation

/-!
# StoreEquivalence — the in-memory and the SQLite store side by side

Both number the versions in the order of writing, but only one of them keeps a latest pointer, and
only the other takes a number anew when the highest one has been deleted.  `Simulates` relates their
states: the same versions under the same keys, numbered in the same order, a latest pointer wherever
a version is left, and cursors that cut the versions at the same place.  It is kept by every call
that does not take away the latest version of several, does not let the numbers fall back behind a
cursor, and writes a manifest whose JSON gives back what the in-memory store keeps of it.
-/

namespace ObjectFabric

/-! ## 1. Cursors -/

theorem ManifestStore.parseUint_toString_eq (n : Nat) :
    ManifestStore.parseUint (toString n) = if 2 ^ 64 ≤ n then
      .error (.other ("strconv.ParseUint: parsing \"" ++ toString n ++ "\": value out of range"))
    else .ok n := by
  have hdigits : (toString n).toList = Nat.toDigits 10 n := Nat.toList_repr
  have hall : (Nat.toDigits 10 n).all Char.isDigit = true := by
    rw [List.all_eq_true]
    exact fun c hc => Nat.isDigit_of_mem_toDigits (by decide) (by decide) hc
  have hvalue : (Nat.toDigits 10 n).foldl (fun n c => 10 * n + (c.toNat - '0'.toNat)) 0 = n := by
    rw [← Nat.ofDigitChars_eq_foldl]
    exact Nat.ofDigitChars_ten_toDigits
  unfold parseUint
  simp only [hdigits, hall, hvalue]
  rw [if_neg (by simp [Nat.toDigits_ne_nil])]

theorem ManifestStore.parseUint_toString {n : Nat} (hn : n < 2 ^ 64) :
    ManifestStore.parseUint (toString n) = .ok n := by
  rw [parseUint_toString_eq, if_neg (by omega)]

theorem SqliteStore.parseCursor_toString_eq (n : Nat) :
    SqliteStore.parseCursor (toString n) =
      if n < 2 ^ 63 then .ok (n : Int) else .error (.other "sqlite: invalid list cursor") := by
  have hdigits : (toString n).toList = Nat.toDigits 10 n := Nat.toList_repr
  -- a number begins with a digit and not with a sign
  have hsplit : cutSign (toString n).toList = (false, (toString n).toList) := by
    rw [hdigits]
    have hdigit : ∀ c ∈ Nat.toDigits 10 n, c.isDigit = true := fun c hc =>
      Nat.isDigit_of_mem_toDigits (by decide) (by decide) hc
    unfold cutSign
    split
    · rename_i heq
      exact absurd (hdigit '-' (heq ▸ List.mem_cons_self)) (by decide)
    · rename_i heq
      exact absurd (hdigit '+' (heq ▸ List.mem_cons_self)) (by decide)
    · rfl
  unfold parseCursor
  simp only [hsplit, String.ofList_toList, ManifestStore.parseUint_toString_eq]
  by_cases hwide : 2 ^ 64 ≤ n
  · rw [if_pos hwide, if_neg (by omega)]
  · rw [if_neg hwide]
    simp

theorem SqliteStore.parseCursor_toString {n : Nat} (hn : n < 2 ^ 63) :
    SqliteStore.parseCursor (toString n) = .ok (n : Int) := by
  rw [parseCursor_toString_eq, if_pos hn]

theorem toString_ne_empty (n : Nat) : toString n ≠ "" := by
  intro h
  have hdigits : (toString n).toList = Nat.toDigits 10 n := Nat.toList_repr
  rw [h] at hdigits
  exact Nat.toDigits_ne_nil hdigits.symm

variable {M : Type} {k : ManifestKey}

/-! ## 2. The latest row -/

namespace SqliteStore

def Stored (s : SqliteStore M) (k : ManifestKey) : Prop := (s.rows.lookup k).isSome = true

/-- `k` has the highest number among the stored versions of its object. -/
structure IsLatest (s : SqliteStore M) (k : ManifestKey) : Prop where
  stored : s.Stored k
  le : ∀ k', s.Stored k' → k'.latestKey = k.latestKey → s.writeSeqOf k' ≤ s.writeSeqOf k

variable {s : SqliteStore M}

theorem mem_versionsOf {lk : LatestKey} :
    k ∈ s.versionsOf lk ↔ s.Stored k ∧ k.latestKey = lk := by
  rw [versionsOf, Multiset.mem_filter, FMap.mem_keySet]
  rfl

theorem writeSeqOf_inj {k k' : ManifestKey} (hk : s.Stored k) (hk' : s.Stored k')
    (h : s.writeSeqOf k = s.writeSeqOf k') : k = k' := by
  rcases Option.isSome_iff_exists.mp hk with ⟨row, hrow⟩
  rcases Option.isSome_iff_exists.mp hk' with ⟨row', hrow'⟩
  rw [writeSeqOf, writeSeqOf, hrow, hrow'] at h
  exact s.writeSeq_inj k k' row row' hrow hrow' h

theorem writeSeqOf_le_maxSeq (hk : s.Stored k) : s.writeSeqOf k ≤ s.maxSeq := by
  rcases Option.isSome_iff_exists.mp hk with ⟨row, hrow⟩
  rw [writeSeqOf, hrow]
  exact writeSeq_le_maxSeq hrow

theorem latest_eq_some {lk : LatestKey} :
    s.latest lk = some k ↔ s.IsLatest k ∧ k.latestKey = lk := by
  have hlast : ∀ k₀, s.latest lk = some k₀ → s.IsLatest k₀ ∧ k₀.latestKey = lk := by
    intro k₀ h
    rcases Option.map_eq_some_iff.mp h with ⟨row, hrow, rfl⟩
    have hmem := Multiset.mem_rankedBy.mp (List.mem_of_getLast? hrow)
    rcases mem_versionsOf.mp hmem.1 with ⟨hstored, hkey⟩
    refine ⟨⟨hstored, fun k' hk' hobj => ?_⟩, hkey⟩
    -- every other version comes before the last one
    have hrow' : (s.writeSeqOf k', k') ∈ (s.versionsOf lk).rankedBy s.writeSeqOf :=
      Multiset.mem_rankedBy.mpr ⟨mem_versionsOf.mpr ⟨hk', hobj.trans hkey⟩, rfl⟩
    rw [← hmem.2]
    rcases List.getLast?_eq_some_iff.mp hrow with ⟨before, hsplit⟩
    have hsorted := Multiset.pairwise_rankedBy s.writeSeqOf (s.versionsOf lk)
    rw [hsplit] at hrow' hsorted
    rcases List.mem_append.mp hrow' with hbefore | hself
    · exact (List.pairwise_append.mp hsorted).2.2 _ hbefore _ (List.mem_singleton_self _)
    · exact Nat.le_of_eq (congrArg Prod.fst (List.mem_singleton.mp hself))
  refine ⟨hlast k, ?_⟩
  rintro ⟨hlatest, hkey⟩
  have hmem : k ∈ s.versionsOf lk := mem_versionsOf.mpr ⟨hlatest.stored, hkey⟩
  rcases h : s.latest lk with _ | k₀
  · rw [latest, Option.map_eq_none_iff, List.getLast?_eq_none_iff] at h
    have hrow : (s.writeSeqOf k, k) ∈ (s.versionsOf lk).rankedBy s.writeSeqOf :=
      Multiset.mem_rankedBy.mpr ⟨hmem, rfl⟩
    rw [h] at hrow
    exact absurd hrow List.not_mem_nil
  rcases hlast k₀ h with ⟨hlatest₀, hkey₀⟩
  have hle := hlatest.le k₀ hlatest₀.stored (hkey₀.trans hkey.symm)
  have hge := hlatest₀.le k hlatest.stored (hkey.trans hkey₀.symm)
  rw [writeSeqOf_inj hlatest₀.stored hlatest.stored (by omega)]

theorem mem_latestRows {tenantID bucket : String} :
    k ∈ s.latestRows tenantID bucket ↔ s.IsLatest k ∧ k.tenantID = tenantID ∧ k.bucket = bucket := by
  rw [latestRows, Multiset.mem_filter, FMap.mem_keySet]
  constructor
  · rintro ⟨hstored, hbucket, hseq⟩
    refine ⟨⟨hstored, fun k' hk' hobj => ?_⟩, hbucket⟩
    rw [hseq]
    exact Multiset.le_sup (Multiset.mem_map_of_mem _ (mem_versionsOf.mpr ⟨hk', hobj⟩))
  · rintro ⟨hlatest, hbucket⟩
    refine ⟨hlatest.stored, hbucket, Nat.le_antisymm ?_ ?_⟩
    · exact Multiset.le_sup (Multiset.mem_map_of_mem _ (mem_versionsOf.mpr ⟨hlatest.stored, rfl⟩))
    refine Multiset.sup_le.mpr fun seq hseq => ?_
    rcases Multiset.mem_map.mp hseq with ⟨k', hk', rfl⟩
    rcases mem_versionsOf.mp hk' with ⟨hstored', hobj⟩
    exact hlatest.le k' hstored' hobj

end SqliteStore

/-! ## 3. The simulation -/

def ManifestStore.seqOf (s : ManifestStore M) (k : ManifestKey) : Nat := (s.seq.lookup k).getD 0

/-- The numbers `n` and `n'` cut the stored versions at the same place. -/
def SameCut (mem : ManifestStore M) (sql : SqliteStore M) (n n' : Nat) : Prop :=
  ∀ k, sql.Stored k → (n < mem.seqOf k ↔ n' < sql.writeSeqOf k)

def SameCursor (mem : ManifestStore M) (sql : SqliteStore M) (c c' : String) : Prop :=
  (c = "" ∧ c' = "") ∨ (c ≠ "" ∧ c' ≠ "" ∧ ∃ n n' : Nat, ManifestStore.parseUint c = .ok n ∧
    SqliteStore.parseCursor c' = .ok (n' : Int) ∧ n ≤ mem.order ∧ SameCut mem sql n n')

structure Simulates (mem : StoreSession (ManifestStore M)) (sql : StoreSession (SqliteStore M)) :
    Prop where
  rows : ∀ k, mem.store.byKey.lookup k = (sql.store.rows.lookup k).map SqliteRow.body
  /-- Versions are numbered in the same order, from 1 on. -/
  order : ∀ k k', sql.store.Stored k → sql.store.Stored k' →
    (mem.store.seqOf k ≤ mem.store.seqOf k' ↔ sql.store.writeSeqOf k ≤ sql.store.writeSeqOf k')
  seq_pos : ∀ k, sql.store.Stored k → 0 < mem.store.seqOf k ∧ 0 < sql.store.writeSeqOf k
  seq_le : ∀ k, sql.store.Stored k →
    mem.store.seqOf k ≤ mem.store.order ∧ sql.store.writeSeqOf k ≤ mem.store.order
  order_lt : mem.store.order < 2 ^ 63
  latest : ∀ lk k, mem.store.latest.lookup lk = some k ↔ sql.store.IsLatest k ∧ k.latestKey = lk
  issued : mem.cursors.length = sql.cursors.length
  cursors : ∀ n, SameCursor mem.store sql.store (mem.cursors.getD n "") (sql.cursors.getD n "")

/-- The keys that a call names are not empty; where a version is written, neither is its ID. -/
def StoreCall.Named : StoreCall M → Prop
  | .put k _ | .updateManifest k _ =>
    k.tenantID ≠ "" ∧ k.bucket ≠ "" ∧ k.objectKeyHash ≠ "" ∧ k.versionID ≠ ""
  | .get k | .delete k => k.tenantID ≠ "" ∧ k.bucket ≠ "" ∧ k.objectKeyHash ≠ ""
  | .list tenantID bucket _ _ => tenantID ≠ "" ∧ bucket ≠ ""
  | .listVersions tenantID bucket hash => tenantID ≠ "" ∧ bucket ≠ "" ∧ hash ≠ ""

variable (clone : M → M) (json : M → Except String M)

/-- The condition on a call: the JSON of a manifest gives back its clone; a write comes while the
highest number in the table is not below any cursor given out, and the numbers fit the column; a
version that is deleted as the latest is the only one. -/
def Undivided (mem : StoreSession (ManifestStore M)) (sql : StoreSession (SqliteStore M)) :
    StoreCall M → Prop
  | .put _ m => json m = .ok (clone m) ∧ mem.store.order + 1 < 2 ^ 63 ∧
      ∀ c ∈ sql.cursors, ∀ i ∈ (SqliteStore.parseCursor c).toOption, i ≤ sql.store.maxSeq
  | .updateManifest _ m => json m = .ok (clone m)
  | .delete k => sql.store.resolve k = sql.store.latest k.latestKey →
      ∀ k' ∈ sql.store.versionsOf k.latestKey, sql.store.resolve k = some k'
  | .get _ | .list _ _ _ _ | .listVersions _ _ _ => True

variable {clone json} {row : SqliteRow M}

section

variable {mem : StoreSession (ManifestStore M)} {sql : StoreSession (SqliteStore M)}

section

variable (h : Simulates mem sql)
include h

theorem Simulates.byKey_isSome (k : ManifestKey) :
    (mem.store.byKey.lookup k).isSome = true ↔ sql.store.Stored k := by
  rw [h.rows, Option.isSome_map]
  rfl

theorem Simulates.resolve (k : ManifestKey) :
    mem.store.resolve k = sql.store.resolve k := by
  unfold ManifestStore.resolve SqliteStore.resolve
  split
  · ext target
    rw [h.latest, SqliteStore.latest_eq_some]
  · rfl

theorem Simulates.lookup_none :
    mem.store.byKey.lookup k = none ↔ sql.store.rows.lookup k = none := by
  rw [h.rows, Option.map_eq_none_iff]

/-! ### Reading -/

omit h in
theorem SqliteStore.requireObject_ok {k : LatestKey}
    (hk : k.tenantID ≠ "" ∧ k.bucket ≠ "" ∧ k.objectKeyHash ≠ "") : requireObject k = .ok () := by
  rw [requireObject, if_neg (by simp [hk])]

theorem Simulates.get (hk : k.tenantID ≠ "" ∧ k.bucket ≠ "" ∧ k.objectKeyHash ≠ "") :
    mem.store.get k = sql.store.get k := by
  have hbind : (mem.store.resolve k).bind mem.store.byKey.lookup =
      ((sql.store.resolve k).bind sql.store.rows.lookup).map SqliteRow.body := by
    rw [h.resolve]
    cases sql.store.resolve k with
    | none => rfl
    | some target => exact h.rows target
  unfold ManifestStore.get SqliteStore.get
  rw [SqliteStore.requireObject_ok (k := k.latestKey) hk, hbind]
  cases (sql.store.resolve k).bind sql.store.rows.lookup <;> rfl

theorem Simulates.exists_listing (ks : Multiset ManifestKey) (hks : ∀ k ∈ ks, sql.store.Stored k) :
    ∃ l : List ManifestKey, (l : Multiset ManifestKey) = ks ∧
      mem.store.inSequence ks = l.map (fun k => (mem.store.seqOf k, k)) ∧
      ks.rankedBy sql.store.writeSeqOf = l.map (fun k => (sql.store.writeSeqOf k, k)) :=
  Multiset.exists_rankedBy fun k hk k' hk' => h.order k k' (hks k hk) (hks k' hk')

theorem Simulates.versionsOf (lk : LatestKey) :
    ((mem.store.byKey.entries.map Sigma.fst).filter fun k => k.latestKey = lk) =
      sql.store.versionsOf lk := by
  refine (Multiset.Nodup.ext ?_ ?_).mpr fun k => ?_
  · exact mem.store.byKey.nodup_keySet.filter _
  · exact sql.store.rows.nodup_keySet.filter _
  · rw [SqliteStore.mem_versionsOf, Multiset.mem_filter, ← h.byKey_isSome, ← FMap.mem_keySet]
    rfl

theorem Simulates.listVersions {tenantID bucket hash : String}
    (hk : tenantID ≠ "" ∧ bucket ≠ "" ∧ hash ≠ "") :
    Except.ok (mem.store.listVersions tenantID bucket hash) =
      sql.store.listVersions tenantID bucket hash := by
  rcases h.exists_listing (sql.store.versionsOf ⟨tenantID, bucket, hash⟩)
    (fun k hk => (SqliteStore.mem_versionsOf.mp hk).1) with ⟨l, -, hmem, hsql⟩
  unfold ManifestStore.listVersions SqliteStore.listVersions
  simp only [SqliteStore.requireObject_ok (k := ⟨tenantID, bucket, hash⟩) hk, h.versionsOf, hmem,
    hsql, ← List.map_reverse, List.filterMap_map, Except.ok.injEq]
  exact List.filterMap_congr fun k _ => h.rows k

theorem Simulates.latestRows (tenantID bucket : String) :
    ((mem.store.latest.entries.map Sigma.snd).filter fun k =>
      k.tenantID = tenantID ∧ k.bucket = bucket) = sql.store.latestRows tenantID bucket := by
  have hentry : ∀ e, e ∈ mem.store.latest.entries ↔ mem.store.latest.lookup e.1 = some e.2 :=
    fun e => Finmap.mem_lookup_iff.symm
  refine (Multiset.Nodup.ext ?_ ?_).mpr fun k => ?_
  · -- a version is the latest of one object only
    refine Multiset.Nodup.filter _ (Multiset.Nodup.map_on ?_ mem.store.latest.nodup_entries)
    rintro ⟨lk, k⟩ he ⟨lk', k'⟩ he' hkk
    have hlk := ((h.latest lk k).mp ((hentry _).mp he)).2
    have hlk' := ((h.latest lk' k').mp ((hentry _).mp he')).2
    have hkk' : k = k' := hkk
    subst hkk'
    rw [← hlk, ← hlk']
  · exact sql.store.rows.nodup_keySet.filter _
  · rw [SqliteStore.mem_latestRows, Multiset.mem_filter, Multiset.mem_map]
    constructor
    · rintro ⟨⟨⟨lk, k'⟩, he, rfl⟩, hbucket⟩
      exact ⟨((h.latest lk k').mp ((hentry _).mp he)).1, hbucket⟩
    · rintro ⟨hlatest, hbucket⟩
      exact ⟨⟨⟨k.latestKey, k⟩, (hentry _).mpr ((h.latest _ k).mpr ⟨hlatest, rfl⟩), rfl⟩, hbucket⟩

theorem Simulates.page (tenantID bucket : String) {n n' limit : Nat}
    (hcut : SameCut mem.store sql.store n n') (hlimit : 0 < limit) :
    ∃ ms c c', mem.store.page tenantID bucket n limit = (ms, c) ∧
      sql.store.page tenantID bucket n' limit = (ms, c') ∧ SameCursor mem.store sql.store c c' := by
  have hstored : ∀ k ∈ sql.store.latestRows tenantID bucket, sql.store.Stored k :=
    fun k hk => (SqliteStore.mem_latestRows.mp hk).1.stored
  rcases h.exists_listing _ hstored with ⟨l, hl, hmem, hsql⟩
  have hlstored : ∀ k ∈ l, sql.store.Stored k := fun k hk =>
    hstored k (hl ▸ Multiset.mem_coe.mpr hk)
  -- the keys after the cut, the same on both sides
  let rows := l.filter fun k => decide (n < mem.store.seqOf k)
  have hrows : l.filter (fun k => decide ((n' : Int) < (sql.store.writeSeqOf k : Int))) = rows := by
    refine List.filter_congr fun k hk => ?_
    have := hcut k (hlstored k hk)
    rw [decide_eq_decide]
    omega
  have hmemRows : (mem.store.inSequence (sql.store.latestRows tenantID bucket)).filter
      (fun row => decide (n < row.1)) = rows.map fun k => (mem.store.seqOf k, k) := by
    rw [hmem, List.filter_map]
    rfl
  have hsqlRows : ((sql.store.latestRows tenantID bucket).rankedBy sql.store.writeSeqOf).filter
      (fun row => decide ((n' : Int) < (row.1 : Int))) =
        rows.map fun k => (sql.store.writeSeqOf k, k) := by
    rw [hsql, List.filter_map, ← hrows]
    rfl
  have htake : (rows.take (limit + 1)).take limit = rows.take limit := by
    rw [List.take_take, Nat.min_eq_left (Nat.le_succ limit)]
  have hlen : limit < (rows.take (limit + 1)).length ↔ limit < rows.length := by
    rw [List.length_take]
    omega
  unfold ManifestStore.page SqliteStore.page
  simp only [h.latestRows, hmemRows, hsqlRows, htake, hlen, List.length_map, ← List.map_take,
    List.filterMap_map, List.getLast?_map, Option.map_map]
  refine ⟨_, _, _, rfl, Prod.ext ?_ rfl, ?_⟩
  · exact List.filterMap_congr fun k _ => (h.rows k).symm
  by_cases hmore : limit < rows.length
  · rw [if_pos hmore, if_pos hmore]
    rcases hlast : (rows.take limit).getLast? with _ | k
    · rw [List.getLast?_eq_none_iff, List.take_eq_nil_iff] at hlast
      rcases hlast with hzero | hnil
      · omega
      · rw [hnil] at hmore
        exact absurd hmore (Nat.not_lt_zero _)
    have hk : sql.store.Stored k := hlstored k
      (List.mem_of_mem_filter (List.mem_of_mem_take (List.mem_of_getLast? hlast)))
    have hle := h.seq_le k hk
    have hlt := h.order_lt
    have hparse : ManifestStore.parseUint (toString (mem.store.seqOf k)) =
        .ok (mem.store.seqOf k) := ManifestStore.parseUint_toString (by omega)
    have hparse' : SqliteStore.parseCursor (toString (sql.store.writeSeqOf k)) =
        .ok (sql.store.writeSeqOf k : Int) := SqliteStore.parseCursor_toString (by omega)
    refine Or.inr ⟨toString_ne_empty _, toString_ne_empty _, _, _, hparse, hparse', hle.1,
      fun k' hk' => ?_⟩
    have := h.order k' k hk' hk
    omega
  · rw [if_neg hmore, if_neg hmore]
    exact Or.inl ⟨rfl, rfl⟩

theorem Simulates.sameCut_zero : SameCut mem.store sql.store 0 0 :=
  fun k hk => iff_of_true (h.seq_pos k hk).1 (h.seq_pos k hk).2

theorem Simulates.list {tenantID bucket c c' : String} (limit : Int)
    (hbucket : tenantID ≠ "" ∧ bucket ≠ "") (hc : SameCursor mem.store sql.store c c') :
    ∃ ms next next', mem.store.list tenantID bucket c limit = .ok (ms, next) ∧
      sql.store.list tenantID bucket c' limit = .ok (ms, next') ∧
      SameCursor mem.store sql.store next next' := by
  have hlimit : 0 < if limit ≤ 0 then 1000 else limit.toNat := by
    split <;> omega
  have hnamed : ¬ (tenantID = "" ∨ bucket = "") := by simp [hbucket]
  unfold ManifestStore.list SqliteStore.list
  rw [if_neg hnamed]
  rcases hc with ⟨hc, hc'⟩ | ⟨hc, hc', n, n', hn, hn', -, hcut⟩
  · rcases h.page tenantID bucket h.sameCut_zero hlimit with ⟨ms, next, next', hm, hs, hnext⟩
    refine ⟨ms, next, next', ?_, ?_, hnext⟩
    · simp only [if_pos hc, hm]
    · simp only [if_pos hc', ← hs]
      rfl
  · rcases h.page tenantID bucket hcut hlimit with ⟨ms, next, next', hm, hs, hnext⟩
    refine ⟨ms, next, next', ?_, ?_, hnext⟩
    · simp only [if_neg hc, hn, hm]
    · simp only [if_neg hc', hn', hs]

theorem Simulates.issue {c c' : String}
    (hc : SameCursor mem.store sql.store c c') : Simulates (mem.issue c) (sql.issue c') where
  rows := h.rows
  order := h.order
  seq_pos := h.seq_pos
  seq_le := h.seq_le
  order_lt := h.order_lt
  latest := h.latest
  issued := by
    show (mem.cursors ++ [c]).length = (sql.cursors ++ [c']).length
    rw [List.length_append, List.length_append, h.issued]
    rfl
  cursors := by
    intro n
    show SameCursor _ _ ((mem.cursors ++ [c]).getD n "") ((sql.cursors ++ [c']).getD n "")
    by_cases hn : n < sql.cursors.length
    · have hn' : n < mem.cursors.length := h.issued ▸ hn
      rw [List.getD_append _ _ _ _ hn, List.getD_append _ _ _ _ hn']
      exact h.cursors n
    have hn' : ¬ n < mem.cursors.length := h.issued ▸ hn
    rw [List.getD_append_right _ _ _ _ (Nat.not_lt.mp hn),
      List.getD_append_right _ _ _ _ (Nat.not_lt.mp hn'), h.issued]
    cases n - sql.cursors.length with
    | zero => exact hc
    | succ n => exact Or.inl ⟨rfl, rfl⟩

end

/-! ### Writing -/

theorem ManifestStore.seqOf_put (s : ManifestStore M) (k k' : ManifestKey) (m : M) :
    (s.put k m).seqOf k' = if k' = k then s.order + 1 else s.seqOf k' := by
  show ((s.seq.insert k (s.order + 1)).lookup k').getD 0 = _
  rw [FMap.lookup_insert_ite]
  split <;> rfl

theorem ManifestStore.seqOf_remove {s : ManifestStore M} {k k' : ManifestKey} (hk : k' ≠ k) :
    (s.remove k).seqOf k' = s.seqOf k' := by
  show ((s.seq.erase k).lookup k').getD 0 = _
  rw [FMap.lookup_erase_ite, if_neg hk]
  rfl

namespace SqliteStore

variable {s : SqliteStore M} {k k' : ManifestKey} {m : M}

theorem stored_upsert : (s.upsert k m).Stored k' ↔ k' = k ∨ s.Stored k' := by
  show ((s.rows.insert k _).lookup k').isSome = true ↔ _
  rw [FMap.lookup_insert_ite]
  split
  · rename_i hk
    exact iff_of_true rfl (Or.inl hk)
  · rename_i hk
    exact ⟨Or.inr, fun h => h.resolve_left hk⟩

theorem writeSeqOf_upsert :
    (s.upsert k m).writeSeqOf k' = if k' = k then s.maxSeq + 1 else s.writeSeqOf k' := by
  show (((s.rows.insert k _).lookup k').map _).getD 0 = _
  rw [FMap.lookup_insert_ite]
  split <;> rfl

theorem stored_setBody {hrow : s.rows.lookup k = some row} :
    (s.setBody k row hrow m).Stored k' ↔ s.Stored k' := by
  show ((s.rows.insert k _).lookup k').isSome = true ↔ _
  rw [FMap.lookup_insert_ite]
  split
  · rename_i hk
    rw [hk, Stored, hrow]
    exact iff_of_true rfl rfl
  · rfl

theorem writeSeqOf_setBody {hrow : s.rows.lookup k = some row} :
    (s.setBody k row hrow m).writeSeqOf k' = s.writeSeqOf k' := by
  show (((s.rows.insert k _).lookup k').map _).getD 0 = _
  rw [FMap.lookup_insert_ite]
  split
  · rename_i hk
    rw [hk, writeSeqOf, hrow]
    rfl
  · rfl

theorem stored_remove : (s.remove k).Stored k' ↔ k' ≠ k ∧ s.Stored k' := by
  show ((s.rows.erase k).lookup k').isSome = true ↔ _
  rw [FMap.lookup_erase_ite]
  split
  · rename_i hk
    exact iff_of_false (by simp) fun h => h.1 hk
  · rename_i hk
    exact ⟨fun h => ⟨hk, h⟩, And.right⟩

theorem writeSeqOf_remove (hk : k' ≠ k) : (s.remove k).writeSeqOf k' = s.writeSeqOf k' := by
  show (((s.rows.erase k).lookup k').map _).getD 0 = _
  rw [FMap.lookup_erase_ite, if_neg hk]
  rfl

theorem isLatest_upsert :
    (s.upsert k m).IsLatest k' ↔ k' = k ∨ s.IsLatest k' ∧ k'.latestKey ≠ k.latestKey := by
  have htop : ∀ k', s.Stored k' → s.writeSeqOf k' < s.maxSeq + 1 := fun k' hk' =>
    Nat.lt_succ_of_le (writeSeqOf_le_maxSeq hk')
  have hself : (s.upsert k m).writeSeqOf k = s.maxSeq + 1 := by
    rw [writeSeqOf_upsert, if_pos rfl]
  have hother : ∀ k', k' ≠ k → (s.upsert k m).writeSeqOf k' = s.writeSeqOf k' := by
    intro k' hk'
    rw [writeSeqOf_upsert, if_neg hk']
  constructor
  · intro h
    by_cases hk : k' = k
    · exact Or.inl hk
    have hstored : s.Stored k' := (stored_upsert.mp h.stored).resolve_left hk
    have hobj : k'.latestKey ≠ k.latestKey := by
      intro hobj
      have hle := h.le k (stored_upsert.mpr (Or.inl rfl)) hobj.symm
      rw [hself, hother k' hk] at hle
      have := htop k' hstored
      omega
    refine Or.inr ⟨⟨hstored, fun k'' hk'' hobj'' => ?_⟩, hobj⟩
    have hne : k'' ≠ k := fun heq => hobj (heq ▸ hobj''.symm)
    have hle := h.le k'' (stored_upsert.mpr (Or.inr hk'')) hobj''
    rwa [hother k' hk, hother k'' hne] at hle
  · rintro (rfl | ⟨h, hobj⟩)
    · refine ⟨stored_upsert.mpr (Or.inl rfl), fun k'' hk'' _ => ?_⟩
      rw [hself]
      by_cases hk : k'' = k'
      · rw [hk, hself]
      · rw [hother k'' hk]
        exact Nat.le_of_lt (htop k'' ((stored_upsert.mp hk'').resolve_left hk))
    · have hne : ∀ k'', k''.latestKey = k'.latestKey → k'' ≠ k := fun k'' hobj'' heq =>
        hobj (heq ▸ hobj''.symm)
      refine ⟨stored_upsert.mpr (Or.inr h.stored), fun k'' hk'' hobj'' => ?_⟩
      rw [hother k' (hne k' rfl), hother k'' (hne k'' hobj'')]
      exact h.le k'' ((stored_upsert.mp hk'').resolve_left (hne k'' hobj'')) hobj''

/-- A removal of a version that is not the latest, or of the only one, changes nothing for the
versions that are left. -/
theorem isLatest_remove
    (hlast : s.IsLatest k → ∀ k', s.Stored k' → k'.latestKey = k.latestKey → k' = k) :
    (s.remove k).IsLatest k' ↔ k' ≠ k ∧ s.IsLatest k' := by
  constructor
  · intro h
    rcases stored_remove.mp h.stored with ⟨hne, hstored⟩
    refine ⟨hne, hstored, fun k'' hk'' hobj => ?_⟩
    by_cases hk : k'' = k
    · -- otherwise the removed version would have been the latest of several
      subst hk
      by_contra hlt
      have hlatest : s.IsLatest k'' := by
        refine ⟨hk'', fun j hj hobj' => ?_⟩
        by_cases hjk : j = k''
        · rw [hjk]
        · have hle := h.le j (stored_remove.mpr ⟨hjk, hj⟩) (hobj'.trans hobj)
          rw [writeSeqOf_remove hjk, writeSeqOf_remove hne] at hle
          omega
      exact hne (hlast hlatest k' hstored hobj.symm)
    · have hle := h.le k'' (stored_remove.mpr ⟨hk, hk''⟩) hobj
      rwa [writeSeqOf_remove hk, writeSeqOf_remove hne] at hle
  · rintro ⟨hne, h⟩
    refine ⟨stored_remove.mpr ⟨hne, h.stored⟩, fun k'' hk'' hobj => ?_⟩
    rcases stored_remove.mp hk'' with ⟨hne'', hstored''⟩
    rw [writeSeqOf_remove hne'', writeSeqOf_remove hne]
    exact h.le k'' hstored'' hobj

theorem validateKey_ok
    (hk : k.tenantID ≠ "" ∧ k.bucket ≠ "" ∧ k.objectKeyHash ≠ "" ∧ k.versionID ≠ "") :
    validateKey k = .ok () := by
  rw [validateKey, if_neg hk.1, if_neg hk.2.1, if_neg hk.2.2.1, if_neg hk.2.2.2]

end SqliteStore

theorem SameCursor.imp {m m' : ManifestStore M} {s s' : SqliteStore M} {c c' : String}
    (h : SameCursor m s c c') (horder : m.order ≤ m'.order)
    (hcut : ∀ n n' : Nat, c' ≠ "" → SqliteStore.parseCursor c' = .ok (n' : Int) → n ≤ m.order →
      SameCut m s n n' → SameCut m' s' n n') : SameCursor m' s' c c' := by
  rcases h with hnone | ⟨hc, hc', n, n', hn, hn', hle, hsame⟩
  · exact Or.inl hnone
  · exact Or.inr ⟨hc, hc', n, n', hn, hn', hle.trans horder, hcut n n' hc' hn' hle hsame⟩

section

variable (h : Simulates mem sql)
include h

theorem Simulates.put {m : M} (hroom : mem.store.order + 1 < 2 ^ 63)
    (hcursors : ∀ c ∈ sql.cursors, ∀ i ∈ (SqliteStore.parseCursor c).toOption,
      i ≤ sql.store.maxSeq) :
    Simulates { mem with store := mem.store.put k m } { sql with store := sql.store.upsert k m } := by
  have hmax : sql.store.maxSeq ≤ mem.store.order := SqliteStore.maxSeq_le fun k row hrow => by
    have hle := (h.seq_le k (by rw [SqliteStore.Stored, hrow]; rfl)).2
    rwa [SqliteStore.writeSeqOf, hrow] at hle
  have hle := h.seq_le
  have htop : ∀ k', sql.store.Stored k' → sql.store.writeSeqOf k' ≤ sql.store.maxSeq :=
    fun k' hk' => SqliteStore.writeSeqOf_le_maxSeq hk'
  -- the numbers after the write
  have hseq := mem.store.seqOf_put k (m := m)
  have hwseq : ∀ k', (sql.store.upsert k m).writeSeqOf k' = _ := fun k' =>
    SqliteStore.writeSeqOf_upsert
  have hold : ∀ k', k' ≠ k → (sql.store.upsert k m).Stored k' → sql.store.Stored k' :=
    fun k' hk' hs => (SqliteStore.stored_upsert.mp hs).resolve_left hk'
  constructor
  · intro k'
    show (mem.store.byKey.insert k m).lookup k' = _
    rw [FMap.lookup_insert_ite]
    show _ = ((sql.store.rows.insert k ⟨m, _⟩).lookup k').map SqliteRow.body
    rw [FMap.lookup_insert_ite]
    split
    · rfl
    · exact h.rows k'
  · intro k₁ k₂ hk₁ hk₂
    show (mem.store.put k m).seqOf k₁ ≤ (mem.store.put k m).seqOf k₂ ↔
      (sql.store.upsert k m).writeSeqOf k₁ ≤ (sql.store.upsert k m).writeSeqOf k₂
    rw [hseq, hseq, hwseq, hwseq]
    split <;> split
    · exact iff_of_true (Nat.le_refl _) (Nat.le_refl _)
    · rename_i hne
      have h₂ := hold k₂ hne hk₂
      have := hle k₂ h₂
      have := htop k₂ h₂
      omega
    · rename_i hne _
      have h₁ := hold k₁ hne hk₁
      have := hle k₁ h₁
      have := htop k₁ h₁
      omega
    · rename_i hne₁ hne₂
      exact h.order k₁ k₂ (hold k₁ hne₁ hk₁) (hold k₂ hne₂ hk₂)
  · intro k' hk'
    show 0 < (mem.store.put k m).seqOf k' ∧ 0 < (sql.store.upsert k m).writeSeqOf k'
    rw [hseq, hwseq]
    split
    · exact ⟨Nat.succ_pos _, Nat.succ_pos _⟩
    · rename_i hne
      exact h.seq_pos k' (hold k' hne hk')
  · intro k' hk'
    show (mem.store.put k m).seqOf k' ≤ mem.store.order + 1 ∧
      (sql.store.upsert k m).writeSeqOf k' ≤ mem.store.order + 1
    rw [hseq, hwseq]
    split
    · omega
    · rename_i hne
      have := hle k' (hold k' hne hk')
      omega
  · exact hroom
  · intro lk k'
    show (mem.store.latest.insert k.latestKey k).lookup lk = some k' ↔ _
    rw [FMap.lookup_insert_ite, SqliteStore.isLatest_upsert]
    split
    · rename_i hlk
      rw [hlk, Option.some.injEq]
      constructor
      · rintro rfl
        exact ⟨Or.inl rfl, rfl⟩
      · rintro ⟨rfl | ⟨-, hne⟩, hobj⟩
        · rfl
        · exact absurd hobj hne
    · rename_i hlk
      rw [h.latest]
      constructor
      · rintro ⟨hlatest, hobj⟩
        exact ⟨Or.inr ⟨hlatest, fun heq => hlk (hobj ▸ heq)⟩, hobj⟩
      · rintro ⟨rfl | ⟨hlatest, -⟩, hobj⟩
        · exact absurd hobj.symm hlk
        · exact ⟨hlatest, hobj⟩
  · exact h.issued
  · intro n
    refine (h.cursors n).imp (Nat.le_succ _) fun i i' hc hparse hi hcut k' hk' => ?_
    show i < (mem.store.put k m).seqOf k' ↔ i' < (sql.store.upsert k m).writeSeqOf k'
    rw [hseq, hwseq]
    split
    · -- the new version comes after every cursor on both sides
      have hissued : sql.cursors.getD n "" ∈ sql.cursors := by
        by_cases hn : n < sql.cursors.length
        · rw [List.getD_eq_getElem _ _ hn]
          exact List.getElem_mem hn
        · exact absurd (List.getD_eq_default _ _ (Nat.not_lt.mp hn)) hc
      have htopped : (i' : Int) ≤ sql.store.maxSeq :=
        hcursors _ hissued i' (by rw [hparse]; rfl)
      omega
    · rename_i hne
      exact hcut k' (hold k' hne hk')

theorem Simulates.setBody {m : M} (hrow : sql.store.rows.lookup k = some row)
    {store : ManifestStore M} (hbyKey : store.byKey = mem.store.byKey.insert k m)
    (hseq : store.seq = mem.store.seq) (horder : store.order = mem.store.order)
    (hlatest : store.latest = mem.store.latest) :
    Simulates { mem with store := store } { sql with store := sql.store.setBody k row hrow m } := by
  have hseqOf : ∀ k', store.seqOf k' = mem.store.seqOf k' := by
    intro k'
    rw [ManifestStore.seqOf, hseq]
    rfl
  have hstored : ∀ k', (sql.store.setBody k row hrow m).Stored k' ↔ sql.store.Stored k' :=
    fun k' => SqliteStore.stored_setBody
  have hwseq : ∀ k', (sql.store.setBody k row hrow m).writeSeqOf k' = sql.store.writeSeqOf k' :=
    fun k' => SqliteStore.writeSeqOf_setBody
  constructor
  · intro k'
    show store.byKey.lookup k' = ((sql.store.rows.insert k _).lookup k').map SqliteRow.body
    rw [hbyKey, FMap.lookup_insert_ite, FMap.lookup_insert_ite]
    split
    · rfl
    · exact h.rows k'
  · intro k₁ k₂ hk₁ hk₂
    show store.seqOf k₁ ≤ store.seqOf k₂ ↔ _
    rw [hseqOf, hseqOf, hwseq, hwseq]
    exact h.order k₁ k₂ ((hstored k₁).mp hk₁) ((hstored k₂).mp hk₂)
  · intro k' hk'
    show 0 < store.seqOf k' ∧ _
    rw [hseqOf, hwseq]
    exact h.seq_pos k' ((hstored k').mp hk')
  · intro k' hk'
    show store.seqOf k' ≤ store.order ∧ _ ≤ store.order
    rw [hseqOf, hwseq, horder]
    exact h.seq_le k' ((hstored k').mp hk')
  · show store.order < 2 ^ 63
    rw [horder]
    exact h.order_lt
  · intro lk k'
    show store.latest.lookup lk = some k' ↔ _
    have hsame : (sql.store.setBody k row hrow m).IsLatest k' ↔ sql.store.IsLatest k' := by
      constructor
      · rintro ⟨hs, hle⟩
        refine ⟨(hstored k').mp hs, fun k'' hk'' hobj => ?_⟩
        have := hle k'' ((hstored k'').mpr hk'') hobj
        rwa [hwseq, hwseq] at this
      · rintro ⟨hs, hle⟩
        refine ⟨(hstored k').mpr hs, fun k'' hk'' hobj => ?_⟩
        rw [hwseq, hwseq]
        exact hle k'' ((hstored k'').mp hk'') hobj
    rw [hlatest, hsame]
    exact h.latest lk k'
  · exact h.issued
  · intro n
    refine (h.cursors n).imp (Nat.le_of_eq horder.symm) fun i i' _ _ _ hcut k' hk' => ?_
    rw [hseqOf, hwseq]
    exact hcut k' ((hstored k').mp hk')

theorem Simulates.remove
    (hlast : sql.store.IsLatest k → ∀ k', sql.store.Stored k' → k'.latestKey = k.latestKey → k' = k) :
    Simulates { mem with store := mem.store.remove k } { sql with store := sql.store.remove k } := by
  have hseq : ∀ k', k' ≠ k → (mem.store.remove k).seqOf k' = mem.store.seqOf k' :=
    fun k' hk' => ManifestStore.seqOf_remove hk'
  have hwseq : ∀ k', k' ≠ k → (sql.store.remove k).writeSeqOf k' = sql.store.writeSeqOf k' :=
    fun k' hk' => SqliteStore.writeSeqOf_remove hk'
  have hold : ∀ k', (sql.store.remove k).Stored k' → k' ≠ k ∧ sql.store.Stored k' :=
    fun k' hk' => SqliteStore.stored_remove.mp hk'
  constructor
  · intro k'
    show (mem.store.byKey.erase k).lookup k' = ((sql.store.rows.erase k).lookup k').map SqliteRow.body
    rw [FMap.lookup_erase_ite, FMap.lookup_erase_ite]
    split
    · rfl
    · exact h.rows k'
  · intro k₁ k₂ hk₁ hk₂
    rcases hold k₁ hk₁ with ⟨hne₁, hs₁⟩
    rcases hold k₂ hk₂ with ⟨hne₂, hs₂⟩
    rw [hseq k₁ hne₁, hseq k₂ hne₂, hwseq k₁ hne₁, hwseq k₂ hne₂]
    exact h.order k₁ k₂ hs₁ hs₂
  · intro k' hk'
    rcases hold k' hk' with ⟨hne, hs⟩
    rw [hseq k' hne, hwseq k' hne]
    exact h.seq_pos k' hs
  · intro k' hk'
    rcases hold k' hk' with ⟨hne, hs⟩
    rw [hseq k' hne, hwseq k' hne]
    exact h.seq_le k' hs
  · exact h.order_lt
  · intro lk k'
    rw [SqliteStore.isLatest_remove hlast]
    show (if mem.store.latest.lookup k.latestKey = some k then mem.store.latest.erase k.latestKey
      else mem.store.latest).lookup lk = some k' ↔ _
    have hpointer : mem.store.latest.lookup k.latestKey = some k ↔ sql.store.IsLatest k := by
      rw [h.latest]
      exact and_iff_left rfl
    split
    · -- the only version of its object is gone
      rename_i hlatest
      rw [FMap.lookup_erase_ite]
      split
      · rename_i hlk
        refine iff_of_false (by simp) ?_
        rintro ⟨⟨hne, hlatest'⟩, hobj⟩
        exact hne (hlast (hpointer.mp hlatest) k' hlatest'.stored (hobj.trans hlk))
      · rename_i hlk
        rw [h.latest]
        constructor
        · rintro ⟨hlatest', hobj⟩
          exact ⟨⟨fun heq => hlk (heq ▸ hobj.symm), hlatest'⟩, hobj⟩
        · rintro ⟨⟨-, hlatest'⟩, hobj⟩
          exact ⟨hlatest', hobj⟩
    · rename_i hnot
      rw [h.latest]
      constructor
      · rintro ⟨hlatest', hobj⟩
        exact ⟨⟨fun heq => hnot (hpointer.mpr (heq ▸ hlatest')), hlatest'⟩, hobj⟩
      · rintro ⟨⟨-, hlatest'⟩, hobj⟩
        exact ⟨hlatest', hobj⟩
  · exact h.issued
  · intro n
    refine (h.cursors n).imp (Nat.le_refl _) fun i i' _ _ _ hcut k' hk' => ?_
    rcases hold k' hk' with ⟨hne, hs⟩
    rw [hseq k' hne, hwseq k' hne]
    exact hcut k' hs

/-! ## 4. Calls and sequences of calls -/

theorem Simulates.step {c : StoreCall M} (hnamed : c.Named)
    (hcond : Undivided clone json mem sql c) :
    ((memoryStore clone).step mem c).1 = ((sqliteStore json).step sql c).1 ∧
      Simulates ((memoryStore clone).step mem c).2 ((sqliteStore json).step sql c).2 := by
  cases c with
  | put k m =>
    rcases hcond with ⟨hjson, hroom, hcursors⟩
    simp only [StoreImpl.step, memoryStore, sqliteStore, SqliteStore.put,
      SqliteStore.validateKey_ok hnamed, hjson]
    exact ⟨trivial, h.put hroom hcursors⟩
  | updateManifest k m =>
    have hjson : json m = .ok (clone m) := hcond
    simp only [StoreImpl.step, memoryStore, sqliteStore, SqliteStore.updateManifest,
      SqliteStore.validateKey_ok hnamed, hjson, ManifestStore.updateManifest]
    split
    · -- no such version
      rename_i hnone
      have hnone' := h.lookup_none.mp hnone
      split
      · exact ⟨rfl, h⟩
      · rename_i row hrow
        rw [hrow] at hnone'
        simp at hnone'
    · rename_i old hold
      split
      · rename_i hnone
        rw [h.lookup_none.mpr hnone] at hold
        simp at hold
      · rename_i row hrow
        exact ⟨rfl, h.setBody hrow rfl rfl rfl rfl⟩
  | get k =>
    simp only [StoreImpl.step, memoryStore, sqliteStore, h.get hnamed]
    exact ⟨trivial, h⟩
  | delete k =>
    simp only [StoreImpl.step, memoryStore, sqliteStore, SqliteStore.delete,
      SqliteStore.requireObject_ok (k := k.latestKey) hnamed, ManifestStore.delete, h.resolve]
    rcases hres : sql.store.resolve k with _ | target
    · exact ⟨rfl, h⟩
    rcases hrow : sql.store.rows.lookup target with _ | row
    · simp only [h.lookup_none.mpr hrow, hrow]
      exact ⟨trivial, h⟩
    have hstored : mem.store.byKey.lookup target = some row.body := by
      rw [h.rows, hrow]
      rfl
    have hobj : target.latestKey = k.latestKey :=
      ManifestStore.resolve_latestKey (h.resolve k ▸ hres)
    simp only [hstored, hrow]
    refine ⟨trivial, h.remove fun hlatest k' hk' hobj' => ?_⟩
    have honly : sql.store.resolve k = some k' := by
      apply hcond
      · rw [hres, SqliteStore.latest_eq_some.mpr ⟨hlatest, hobj⟩]
      · exact SqliteStore.mem_versionsOf.mpr ⟨hk', hobj'.trans hobj⟩
    exact Option.some.inj (honly.symm.trans hres)
  | list tenantID bucket page limit =>
    have hcursor : SameCursor mem.store sql.store (mem.cursor page) (sql.cursor page) := by
      cases page with
      | none => exact Or.inl ⟨rfl, rfl⟩
      | some n => exact h.cursors n
    rcases h.list limit hnamed hcursor with ⟨ms, next, next', hm, hs, hnext⟩
    simp only [StoreImpl.step, memoryStore, sqliteStore, hm, hs]
    refine ⟨?_, h.issue hnext⟩
    have hiff : next ≠ "" ↔ next' ≠ "" := by
      rcases hnext with ⟨hn, hn'⟩ | ⟨hn, hn', -⟩
      · exact iff_of_false (fun hne => hne hn) fun hne => hne hn'
      · exact iff_of_true hn hn'
    rw [decide_eq_decide.mpr hiff]
  | listVersions tenantID bucket hash =>
    simp only [StoreImpl.step, memoryStore, sqliteStore, h.listVersions hnamed]
    exact ⟨trivial, h⟩

end

end

/-- Every call of a sequence meets the condition in the states that the calls before it leave. -/
def UndividedRun (clone : M → M) (json : M → Except String M) :
    StoreSession (ManifestStore M) → StoreSession (SqliteStore M) → List (StoreCall M) → Prop
  | _, _, [] => True
  | mem, sql, c :: cs => Undivided clone json mem sql c ∧ UndividedRun clone json
      ((memoryStore clone).step mem c).2 ((sqliteStore json).step sql c).2 cs

theorem Simulates.answers {mem : StoreSession (ManifestStore M)} {sql : StoreSession (SqliteStore M)}
    (h : Simulates mem sql) {calls : List (StoreCall M)} (hnamed : ∀ c ∈ calls, c.Named)
    (hcond : UndividedRun clone json mem sql calls) :
    (memoryStore clone).answers mem calls = (sqliteStore json).answers sql calls := by
  induction calls generalizing mem sql with
  | nil => rfl
  | cons c cs ih =>
    rcases h.step (hnamed c List.mem_cons_self) hcond.1 with ⟨hanswer, hnext⟩
    rw [StoreImpl.answers, StoreImpl.answers, hanswer,
      ih hnext (fun c' hc' => hnamed c' (List.mem_cons_of_mem c hc')) hcond.2]

theorem simulates_empty :
    Simulates (⟨{}, []⟩ : StoreSession (ManifestStore M)) (⟨{}, []⟩ : StoreSession (SqliteStore M)) where
  rows _ := rfl
  order k _ hk := absurd hk (by simp [SqliteStore.Stored])
  seq_pos k hk := absurd hk (by simp [SqliteStore.Stored])
  seq_le k hk := absurd hk (by simp [SqliteStore.Stored])
  order_lt := Nat.two_pow_pos 63
  latest lk k := iff_of_false (by simp) fun h => absurd h.1.stored (by simp [SqliteStore.Stored])
  issued := rfl
  cursors _ := Or.inl ⟨rfl, rfl⟩

/-- From empty stores on, both give the same answers to every sequence of calls that meets the
condition, whatever the in-memory store's clone and the JSON make of a manifest. -/
theorem stores_agree_of_undivided (clone : M → M) (json : M → Except String M)
    (calls : List (StoreCall M)) (hnamed : ∀ c ∈ calls, c.Named)
    (hcond : UndividedRun clone json ⟨{}, []⟩ ⟨{}, []⟩ calls) :
    (memoryStore clone).answers ⟨{}, []⟩ calls = (sqliteStore json).answers ⟨{}, []⟩ calls :=
  simulates_empty.answers hnamed hcond

/-! ## 5. Where they agree and where not -/

instance : DecidablePred (StoreCall.Named (M := M)) := fun c =>
  match c with
  | .put k _ | .updateManifest k _ => inferInstanceAs
      (Decidable (k.tenantID ≠ "" ∧ k.bucket ≠ "" ∧ k.objectKeyHash ≠ "" ∧ k.versionID ≠ ""))
  | .get k | .delete k => inferInstanceAs
      (Decidable (k.tenantID ≠ "" ∧ k.bucket ≠ "" ∧ k.objectKeyHash ≠ ""))
  | .list tenantID bucket _ _ => inferInstanceAs (Decidable (tenantID ≠ "" ∧ bucket ≠ ""))
  | .listVersions tenantID bucket hash => inferInstanceAs
      (Decidable (tenantID ≠ "" ∧ bucket ≠ "" ∧ hash ≠ ""))

section

variable [DecidableEq M] (clone : M → M) (json : M → Except String M)

instance (mem : StoreSession (ManifestStore M)) (sql : StoreSession (SqliteStore M)) :
    DecidablePred (Undivided clone json mem sql) := fun c =>
  match c with
  | .put _ m => inferInstanceAs (Decidable (json m = .ok (clone m) ∧ mem.store.order + 1 < 2 ^ 63 ∧
      ∀ c ∈ sql.cursors, ∀ i ∈ (SqliteStore.parseCursor c).toOption, i ≤ sql.store.maxSeq))
  | .updateManifest _ m => inferInstanceAs (Decidable (json m = .ok (clone m)))
  | .delete k => inferInstanceAs (Decidable (sql.store.resolve k = sql.store.latest k.latestKey →
      ∀ k' ∈ sql.store.versionsOf k.latestKey, sql.store.resolve k = some k'))
  | .get _ | .list _ _ _ _ | .listVersions _ _ _ => instDecidableTrue

def UndividedRun.decidable : (mem : StoreSession (ManifestStore M)) →
    (sql : StoreSession (SqliteStore M)) → (calls : List (StoreCall M)) →
      Decidable (UndividedRun clone json mem sql calls)
  | _, _, [] => instDecidableTrue
  | mem, sql, c :: cs =>
    have := UndividedRun.decidable ((memoryStore clone).step mem c).2 ((sqliteStore json).step sql c).2 cs
    inferInstanceAs (Decidable (Undivided clone json mem sql c ∧ _))

instance (mem : StoreSession (ManifestStore M)) (sql : StoreSession (SqliteStore M))
    (calls : List (StoreCall M)) : Decidable (UndividedRun clone json mem sql calls) :=
  UndividedRun.decidable clone json mem sql calls

end

def plainVersion (hash versionID : String) : ObjectManifest :=
  { tenantID := "tenant", bucket := "bucket", objectKeyHash := hash, versionID }

def putVersion (hash versionID : String) : StoreCall :=
  .put (plainVersion hash versionID).key (plainVersion hash versionID)

def getLatest (hash : String) : StoreCall := .get ⟨"tenant", "bucket", hash, ""⟩

def deleteLatest (hash : String) : StoreCall := .delete ⟨"tenant", "bucket", hash, ""⟩

/-- Two objects, a page and the one after it, an overwritten version deleted by its ID, and the only
version of an object deleted as its latest. -/
def agreeingCalls : List StoreCall :=
  [putVersion "a" "v1", putVersion "b" "w1", .list "tenant" "bucket" none 1, putVersion "a" "v2",
    .list "tenant" "bucket" (some 0) 1, .delete (plainVersion "a" "v1").key, getLatest "a",
    deleteLatest "b", getLatest "b", .listVersions "tenant" "bucket" "a"]

def memoryAnswers (calls : List StoreCall) : List StoreAnswer :=
  (memoryStore id).answers ⟨{}, []⟩ calls

def sqliteAnswers (calls : List StoreCall) : List StoreAnswer :=
  (sqliteStore ObjectManifest.fromJSON).answers ⟨{}, []⟩ calls

theorem stores_agree_across_pages : memoryAnswers agreeingCalls = sqliteAnswers agreeingCalls :=
  stores_agree_of_undivided id ObjectManifest.fromJSON agreeingCalls (by decide) (by decide +kernel)

def promotingCalls : List StoreCall :=
  [putVersion "a" "v1", putVersion "a" "v2", deleteLatest "a", getLatest "a"]

def renumberingCalls : List StoreCall :=
  [putVersion "a" "v1", putVersion "b" "w1", .list "tenant" "bucket" none 1, deleteLatest "a",
    deleteLatest "b", putVersion "c" "x1", .list "tenant" "bucket" (some 0) 1]

def emptyTagsCalls : List StoreCall :=
  [.put (plainVersion "a" "v1").key { plainVersion "a" "v1" with tags := some ∅ }, getLatest "a"]

/-- Locked until the year 10000. -/
def retainedCalls : List StoreCall :=
  [.put (plainVersion "a" "v1").key { plainVersion "a" "v1" with
    retention := ⟨.governance, addDate 0 9999 0⟩ }]

/-- The last answers differ: after the latest version is deleted only SQLite falls back on the one
before; only SQLite numbers a new version behind an old cursor; only SQLite drops an empty map, and
only SQLite cannot write a year with five digits. -/
theorem stores_differ :
    (∀ c ∈ promotingCalls ++ renumberingCalls ++ emptyTagsCalls ++ retainedCalls, c.Named) ∧
    (memoryAnswers promotingCalls).getLast? = some (.manifest (.error .manifestNotFound)) ∧
    (sqliteAnswers promotingCalls).getLast? = some (.manifest (.ok (plainVersion "a" "v1"))) ∧
    (memoryAnswers renumberingCalls).getLast? =
      some (.page (.ok ([plainVersion "c" "x1"], false))) ∧
    (sqliteAnswers renumberingCalls).getLast? = some (.page (.ok ([], false))) ∧
    memoryAnswers emptyTagsCalls ≠ sqliteAnswers emptyTagsCalls ∧
    memoryAnswers retainedCalls ≠ sqliteAnswers retainedCalls := by
  decide +kernel

end ObjectFabric
