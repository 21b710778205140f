import ObjectFabric.Store.ManifestStore

/-!
# ScanCursor — the cursor of a scan over all manifests

`EncodeScanCursor` and `DecodeScanCursor` of `metadata/manifest_store/store.go` and the paging of
`ScanManifests` in the memory and SQLite stores, over keys of arbitrary bytes.  The text of a cursor
is the base64 form of a JSON object, so a cursor is modelled by the four strings the object holds.
`json.Marshal` puts U+FFFD in the place of every byte that is not part of valid UTF-8.
-/

namespace ObjectFabric

/-! ## 1. Valid UTF-8 -/

/-- The length of the rune that begins with `a`, as `utf8.DecodeRune` reads it; 0 when `a` begins
none. -/
def runeLength (a : UInt8) (rest : Bytes) : Nat :=
  let cont (b : UInt8) : Bool := 0x80 ≤ b && b ≤ 0xBF
  let low : UInt8 := if a = 0xE0 then 0xA0 else if a = 0xF0 then 0x90 else 0x80
  let high : UInt8 := if a = 0xED then 0x9F else if a = 0xF4 then 0x8F else 0xBF
  let second : Bool := low ≤ rest.getD 0 0 && rest.getD 0 0 ≤ high
  if a < 0x80 then 1
  else if 0xC2 ≤ a && a ≤ 0xDF && second then 2
  else if 0xE0 ≤ a && a ≤ 0xEF && second && cont (rest.getD 1 0) then 3
  else if 0xF0 ≤ a && a ≤ 0xF4 && second && cont (rest.getD 1 0) && cont (rest.getD 2 0) then 4
  else 0

/-- `pending` bytes of the current rune are still to come. -/
def validUTF8 (pending : Nat) : Bytes → Bool
  | [] => true
  | a :: rest =>
    match pending, runeLength a rest with
    | n + 1, _ => validUTF8 n rest
    | 0, n + 1 => validUTF8 n rest
    | 0, 0 => false

def coerceUTF8 (pending : Nat) : Bytes → Bytes
  | [] => []
  | a :: rest =>
    match pending, runeLength a rest with
    | n + 1, _ => a :: coerceUTF8 n rest
    | 0, n + 1 => a :: coerceUTF8 n rest
    | 0, 0 => 0xEF :: 0xBF :: 0xBD :: coerceUTF8 0 rest

theorem coerceUTF8_eq_iff (pending : Nat) (b : Bytes) :
    coerceUTF8 pending b = b ↔ validUTF8 pending b = true := by
  induction b generalizing pending with
  | nil => exact ⟨fun _ => rfl, fun _ => rfl⟩
  | cons a rest ih => ?_
  cases pending with
  | succ n => simp [coerceUTF8, validUTF8, ih]
  | zero => ?_
  cases hlen : runeLength a rest with
  | succ n => simp [coerceUTF8, validUTF8, hlen, ih]
  | zero => ?_
  simp only [coerceUTF8, validUTF8, hlen, Bool.false_eq_true, iff_false]
  -- the bytes put in would have been a rune themselves
  intro h
  obtain ⟨rfl, hrest⟩ := List.cons.inj h
  rw [← hrest] at hlen
  revert hlen
  simp [runeLength]

/-! ## 2. Keys and cursors -/

structure ScanKey where
  tenantID : Bytes
  bucket : Bytes
  objectKeyHash : Bytes
  versionID : Bytes
  deriving DecidableEq

namespace ScanKey

def tuple (k : ScanKey) : List Nat ×ₗ List Nat ×ₗ List Nat ×ₗ List Nat :=
  toLex (k.tenantID.map UInt8.toNat, toLex (k.bucket.map UInt8.toNat,
    toLex (k.objectKeyHash.map UInt8.toNat, k.versionID.map UInt8.toNat)))

theorem tuple_injective : Function.Injective tuple := by
  have hbytes : Function.Injective (List.map UInt8.toNat) :=
    List.map_injective_iff.mpr fun _ _ => UInt8.toNat.inj
  rintro ⟨t, b, h, v⟩ ⟨t', b', h', v'⟩ heq
  simp only [tuple, EmbeddingLike.apply_eq_iff_eq, Prod.mk.injEq, hbytes.eq_iff] at heq
  obtain ⟨rfl, rfl, rfl, rfl⟩ := heq
  rfl

/-- `scanKeyLess`, which is also the order of SQLite's primary key. -/
instance : LinearOrder ScanKey := LinearOrder.lift' tuple tuple_injective

def valid (k : ScanKey) : Bool :=
  validUTF8 0 k.tenantID && validUTF8 0 k.bucket && validUTF8 0 k.objectKeyHash &&
    validUTF8 0 k.versionID

end ScanKey

/-- A cursor that is not empty; the empty one is `none`. -/
def encodeScanCursor (k : ScanKey) : Option ScanKey :=
  some ⟨coerceUTF8 0 k.tenantID, coerceUTF8 0 k.bucket, coerceUTF8 0 k.objectKeyHash,
    coerceUTF8 0 k.versionID⟩

def decodeScanCursor (cursor : Option ScanKey) : ScanKey := cursor.getD ⟨[], [], [], []⟩

theorem decodeScanCursor_encode (k : ScanKey) :
    decodeScanCursor (encodeScanCursor k) = k ↔ k.valid = true := by
  cases k
  simp [decodeScanCursor, encodeScanCursor, ScanKey.valid, coerceUTF8_eq_iff, and_assoc]

/-! ## 3. Pages -/

inductive ScanStore where
  | memory
  | sqlite
  deriving DecidableEq

def ScanStore.admits (store : ScanStore) (cursor : Option ScanKey) (k : ScanKey) : Bool :=
  (store = .memory && cursor.isNone) || decodeScanCursor cursor < k

def scanPage (store : ScanStore) (keys : Finset ScanKey) (limit : Nat) (cursor : Option ScanKey) :
    List ScanKey × Option ScanKey :=
  let rows := (keys.filter fun k => store.admits cursor k).val.ascending
  if limit < rows.length then
    (rows.take limit, (rows.take limit).getLast?.bind encodeScanCursor)
  else
    (rows, none)

/-- The keys that following the cursor visits, if it comes to an end in that many pages. -/
def scanAll (store : ScanStore) (keys : Finset ScanKey) (limit : Nat) :
    Nat → Option ScanKey → Option (List ScanKey)
  | 0, _ => none
  | pages + 1, cursor =>
    match scanPage store keys limit cursor with
    | (rows, none) => some rows
    | (rows, some next) => (scanAll store keys limit pages (some next)).map (rows ++ ·)

section

variable {store : ScanStore} {keys : Finset ScanKey} {limit : Nat} {cursor : Option ScanKey}

theorem pairwise_ascending_lt (keys : Finset ScanKey) : keys.val.ascending.Pairwise (· < ·) := by
  have hnodup : keys.val.ascending.Nodup := by
    rw [← Multiset.coe_nodup, Multiset.coe_ascending]
    exact keys.nodup
  exact ((Multiset.pairwise_ascending _).and hnodup).imp fun ⟨hle, hne⟩ => lt_of_le_of_ne hle hne

/-- What follows the last key of a page is what was left out of it. -/
theorem rows_after_page {rows : List ScanKey} {last : ScanKey} (hvalid : last.valid = true)
    (hrows : (keys.filter fun k => store.admits cursor k).val.ascending = rows)
    (hlast : (rows.take limit).getLast? = some last) :
    (keys.filter fun k => store.admits (encodeScanCursor last) k).val.ascending =
      rows.drop limit := by
  have hadmits : ∀ k, store.admits (encodeScanCursor last) k = true ↔ last < k := by
    intro k
    rw [ScanStore.admits, (decodeScanCursor_encode last).mpr hvalid]
    simp [encodeScanCursor]
  have hmem : ∀ k, k ∈ rows ↔ k ∈ keys ∧ store.admits cursor k = true := by
    intro k
    rw [← hrows, Multiset.mem_ascending, Finset.mem_val, Finset.mem_filter]
  have hsorted : (rows.take limit ++ rows.drop limit).Pairwise (· < ·) := by
    rw [List.take_append_drop, ← hrows]
    exact pairwise_ascending_lt _
  rcases List.getLast?_eq_some_iff.mp hlast with ⟨page, hpage⟩
  rw [List.pairwise_append, hpage, List.pairwise_append] at hsorted
  rcases hsorted with ⟨⟨-, -, hbefore⟩, hdrop, hbeyond⟩
  apply Multiset.ascending_eq
  · have hnodup : (rows.drop limit : Multiset ScanKey).Nodup :=
      Multiset.coe_nodup.mpr (hdrop.imp fun hlt => ne_of_lt hlt)
    refine (Multiset.Nodup.ext hnodup (Finset.nodup _)).mpr fun k => ?_
    rw [Multiset.mem_coe, Finset.mem_val, Finset.mem_filter, hadmits]
    constructor
    · intro hk
      exact ⟨((hmem k).mp (List.mem_of_mem_drop hk)).1, hbeyond last (by simp) k hk⟩
    rintro ⟨hk, hlt⟩
    have hlastmem : last ∈ rows := List.mem_of_mem_take (by rw [hpage]; simp)
    have hadm : store.admits cursor k = true := by
      have hadm := ((hmem last).mp hlastmem).2
      simp only [ScanStore.admits, Bool.or_eq_true, decide_eq_true_eq] at hadm ⊢
      exact hadm.imp_right fun h => lt_trans h hlt
    have hsplit := (hmem k).mpr ⟨hk, hadm⟩
    rw [← List.take_append_drop limit rows, hpage, List.mem_append, List.mem_append,
      List.mem_singleton] at hsplit
    rcases hsplit with (hin | rfl) | hin
    · exact absurd (hbefore k hin last (by simp)) (lt_asymm hlt)
    · exact absurd hlt (lt_irrefl k)
    · exact hin
  · exact hdrop.imp fun hlt => le_of_lt hlt

theorem scanAll_rows (hlimit : 0 < limit) (hvalid : ∀ k ∈ keys, k.valid = true) (pages : Nat) :
    ∀ (cursor : Option ScanKey) (rows : List ScanKey),
      (keys.filter fun k => store.admits cursor k).val.ascending = rows → rows.length < pages →
        scanAll store keys limit pages cursor = some rows := by
  induction pages with
  | zero => exact fun _ _ _ hlen => absurd hlen (by omega)
  | succ pages ih => ?_
  intro cursor rows hrows hlen
  rw [scanAll, scanPage, hrows]
  by_cases hmore : limit < rows.length
  · have hne : rows.take limit ≠ [] := by
      intro hnil
      rw [List.take_eq_nil_iff] at hnil
      rcases hnil with hzero | hnil
      · omega
      · rw [hnil] at hmore
        cases hmore
    have hlast := List.getLast?_eq_some_getLast hne
    generalize (rows.take limit).getLast hne = last at hlast
    have hkey : last ∈ keys := by
      have hin := List.mem_of_mem_take (List.mem_of_getLast? hlast)
      rw [← hrows, Multiset.mem_ascending] at hin
      exact (Finset.mem_filter.mp hin).1
    have hnext := ih (encodeScanCursor last) _ (rows_after_page (hvalid _ hkey) hrows hlast)
      (by rw [List.length_drop]; omega)
    simp only [if_pos hmore, hlast, Option.bind_some]
    show Option.map _ (scanAll store keys limit pages (encodeScanCursor last)) = _
    rw [hnext, Option.map_some, List.take_append_drop]
  · simp only [if_neg hmore]

/-- Following the cursor visits all keys once, in their order, and comes to an end; and a cursor is
decoded to the key it was made from. -/
def ScansAll (store : ScanStore) (keys : Finset ScanKey) (limit : Nat) : Prop :=
  (∃ pages, scanAll store keys limit pages none = some keys.val.ascending) ∧
    ∀ k ∈ keys, decodeScanCursor (encodeScanCursor k) = k

end

/-- SQLite has no row with an empty tenant. -/
theorem scansAll_iff (store : ScanStore) (keys : Finset ScanKey) (limit : Nat) (hlimit : 0 < limit)
    (hrows : store = .sqlite → ∀ k ∈ keys, k.tenantID ≠ []) :
    ScansAll store keys limit ↔ ∀ k ∈ keys, k.valid = true := by
  constructor
  · intro h k hk
    exact (decodeScanCursor_encode k).mp (h.2 k hk)
  intro hvalid
  have hall : ∀ k ∈ keys, store.admits none k = true := by
    intro k hk
    cases store with
    | memory => rfl
    | sqlite => ?_
    have htenant := hrows rfl k hk
    simp only [ScanStore.admits, reduceCtorEq, decide_false, Bool.false_and, Bool.false_or,
      decide_eq_true_eq]
    rcases k with ⟨_ | ⟨a, t⟩, b, h, v⟩
    · exact absurd rfl htenant
    · exact Prod.Lex.left _ _ (List.nil_lt_cons _ _)
  refine ⟨⟨keys.card + 1, scanAll_rows hlimit hvalid _ none _ ?_ ?_⟩,
    fun k hk => (decodeScanCursor_encode k).mpr (hvalid k hk)⟩
  · rw [Finset.filter_true_of_mem hall]
  · rw [← Multiset.coe_card, Multiset.coe_ascending]
    exact Nat.lt_succ_self _

def keyIn (bucket : Bytes) (version : UInt8) : ScanKey := ⟨[0x74], bucket, [0x68], [version]⟩

theorem scansAll_iff_latin : ScansAll .sqlite {keyIn [0x62] 1, keyIn [0x62] 2} 1 :=
  (scansAll_iff .sqlite _ 1 (by decide) (by decide)).mpr (by decide +kernel)

/-- Behind a bucket of the byte 0xFF the scan returns the same page for ever; behind one of the byte
0x80 it misses a manifest. -/
theorem scan_repeats_or_misses :
    scanPage .memory {keyIn [0xFF] 1, keyIn [0xFF] 2} 1 none =
      ([keyIn [0xFF] 1], some (keyIn [0xEF, 0xBF, 0xBD] 1)) ∧
    scanPage .memory {keyIn [0xFF] 1, keyIn [0xFF] 2} 1 (some (keyIn [0xEF, 0xBF, 0xBD] 1)) =
      ([keyIn [0xFF] 1], some (keyIn [0xEF, 0xBF, 0xBD] 1)) ∧
    scanAll .memory {keyIn [0x80] 1, keyIn [0x80] 2} 1 2 none = some [keyIn [0x80] 1] ∧
    decodeScanCursor (encodeScanCursor (keyIn [0x80] 1)) ≠ keyIn [0x80] 1 := by
  decide +kernel

end ObjectFabric
