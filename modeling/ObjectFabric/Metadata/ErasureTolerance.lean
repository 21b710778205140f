import ObjectFabric.Metadata.ErasureRecovery

/-!
# ErasureTolerance — losing shards of an encoded body

A codec is MDS when any `DataShards` shards of a stripe determine it.  Then `Decode` gives the body
back from every list made of its shards in which each stripe still has that many, and refuses all
others: too few shards in a stripe, a stripe lost in the middle, and also one lost at the end, for
which the length header vouches.
-/

namespace ObjectFabric.ErasureCoding

open Streams

/-- The codec recovers the data from any `k` of the `k + m` shards it made. -/
structure Codec.Mds (codec : Codec) (k m : Nat) : Prop where
  encode : ∀ size shards coded, 0 < size → shards.length = k + m →
    (∀ b ∈ shards, b.length = size) → codec.encode shards = .ok coded →
    coded.length = k + m ∧ (∀ b ∈ coded, b.length = size) ∧ coded.take k = shards.take k
  reconstruct : ∀ size shards coded stripe, 0 < size → shards.length = k + m →
    (∀ b ∈ shards, b.length = size) → codec.encode shards = .ok coded →
    stripe.length = k + m → (∀ i : Nat, stripe[i]? = some [] ∨ stripe[i]? = coded[i]?) →
    k ≤ Encoder.present stripe →
    ∃ stripe', codec.reconstructData stripe = .ok stripe' ∧ stripe'.take k = shards.take k

variable {framed : Bytes} {s : Nat} {shards : List Shard} {body : Bytes} {orig : List Shard}
  {sh : Shard}

namespace Encoder

variable {rs : ReedSolomon} (e : Encoder rs)

/-! ## 1. What `Encode` returns -/

structure Coding (body : Bytes) (orig : List Shard) where
  size : Nat
  count : Nat
  coded : Nat → List Bytes
  size_pos : 0 < size
  count_pos : 0 < count
  shardSize_eq : e.shardSize = size
  stripeLength_eq : e.stripeLength = (e.dataShards * size : Nat)
  framed_le : (frame body).length ≤ count * (e.dataShards * size)
  lt_framed : (count - 1) * (e.dataShards * size) < (frame body).length
  framed_fits : (frame body).length ≤ maxAlloc
  fits : ((count * (e.dataShards * size) : Nat) : Int) ≤ maxAlloc
  coded_eq : ∀ s < count, e.codec.encode (e.rawStripe (frame body) s) = .ok (coded s)
  orig_eq : orig = (List.range count).flatMap fun s => e.numbered s (coded s)

/-- The rounding up of the stripe size overflows, and with it the stripe length is far below zero, or
the shards have a size. -/
theorem stripeLength_cases :
    (0 < e.shardSize ∧ e.stripeLength = e.shardSize * e.profile.dataShards) ∨
      e.stripeLength < -2 ^ 62 := by
  have hvalid := ErasureCodingProfile.validate_eq_ok e.valid
  have hle := rs.total_le _ _ _ e.codec_eq
  have hlt := e.profile.stripeSize_lt
  have hsize := e.shardSize_eq
  unfold stripeLength at *
  generalize e.profile.dataShards = k at *
  generalize e.profile.stripeSize = n at *
  by_cases hover : n + k - 1 < 2 ^ 63
  · left
    rw [wrap64_eq (by omega) hover, Int.tdiv_eq_ediv_of_nonneg (by omega)] at hsize
    have hpos : 0 < e.shardSize := by
      rw [hsize]
      exact Int.le_ediv_of_mul_le (by omega) (by omega)
    have hmul : e.shardSize * k ≤ n + k - 1 := by
      rw [hsize]
      exact Int.ediv_mul_le _ (by omega)
    have hnonneg : 0 ≤ e.shardSize * k := Int.mul_nonneg (by omega) (by omega)
    exact ⟨hpos, wrap64_eq (by omega) (by omega)⟩
  · right
    have hwrap : wrap64 (n + k - 1) = -(2 ^ 64 - (n + k - 1)) := by
      unfold wrap64
      omega
    rw [hwrap, Int.neg_tdiv, Int.tdiv_eq_ediv_of_nonneg (by omega)] at hsize
    have hmul := Int.ediv_mul_le (2 ^ 64 - (n + k - 1)) (show k ≠ 0 by omega)
    have hlow := Int.lt_ediv_add_one_mul_self (2 ^ 64 - (n + k - 1)) (show 0 < k by omega)
    rw [Int.add_mul, Int.one_mul] at hlow
    rw [hsize, Int.neg_mul, wrap64_eq (by omega) (by omega)]
    omega

theorem encodeStripe_eq_ok
    (h : e.encodeStripe framed s = .ok shards) :
    0 ≤ e.stripeLength ∧ e.stripeLength ≤ maxAlloc ∧ ∃ coded, e.codec.encode (e.rawStripe framed s) = .ok coded ∧
      shards = e.numbered s coded := by
  rcases bind_eq_ok h with ⟨_, hmake, hcode⟩
  have hlength := makeSlice_eq_ok hmake
  rw [Int.mul_one] at hlength
  refine ⟨hlength.1, hlength.2, ?_⟩
  cases hcodec : e.codec.encode (e.rawStripe framed s) with
  | error message => simp [hcodec] at hcode
  | ok coded =>
    simp only [hcodec, Except.ok.injEq] at hcode
    exact ⟨coded, rfl, hcode.symm⟩

theorem length_frame (body : Bytes) : (frame body).length = objectHeaderSize + body.length := by
  unfold frame
  rw [List.length_append, length_bigEndian]

theorem stripeCount_eq {n : Nat} (hn : e.stripeLength = n) (hpos : 0 < n)
    (hne : framed ≠ []) (hframed : framed.length ≤ maxAlloc) (hstripe : (n : Int) ≤ maxAlloc) :
    ∃ count : Nat, e.stripeCount framed = count ∧ 0 < count ∧ framed.length ≤ count * n ∧
      (count - 1) * n < framed.length := by
  have hlen : 0 < framed.length := List.length_pos_of_ne_nil hne
  have hquot : (wrap64 (framed.length + e.stripeLength - 1)).tdiv e.stripeLength =
      ((framed.length + n - 1) / n : Nat) := by
    unfold maxAlloc at *
    rw [hn, wrap64_eq (by omega) (by omega), Int.tdiv_eq_ediv_of_nonneg (by omega)]
    rw [Int.natCast_ediv]
    congr 1
    omega
  have hge := Nat.lt_div_mul_add hpos (a := framed.length + n - 1)
  have hle := Nat.div_mul_le_self (framed.length + n - 1) n
  have hone : 1 ≤ (framed.length + n - 1) / n := (Nat.le_div_iff_mul_le hpos).mpr (by omega)
  refine ⟨(framed.length + n - 1) / n, ?_, hone, by omega, ?_⟩
  · unfold stripeCount
    simp only [hquot]
    rw [if_neg (by omega)]
  · rw [Nat.sub_mul, Nat.one_mul]
    omega

theorem stripeCount_of_too_long (hlen : 0 < framed.length)
    (hframed : framed.length ≤ maxAlloc)
    (h : e.stripeLength < -2 ^ 62 ∨ maxAlloc < e.stripeLength) :
    0 < e.stripeCount framed ∨ e.stripeCount framed = -1 := by
  have hrange : -2 ^ 63 ≤ e.stripeLength ∧ e.stripeLength < 2 ^ 63 := by
    unfold stripeLength wrap64
    omega
  have hquot : -1 ≤ (wrap64 (framed.length + e.stripeLength - 1)).tdiv e.stripeLength := by
    unfold maxAlloc at *
    by_cases hneg : e.stripeLength < 0
    · rw [wrap64_eq (by omega) (by omega)]
      exact le_trans (by decide) (Int.tdiv_nonneg_of_nonpos_of_nonpos (by omega) (by omega))
    by_cases hwrap : framed.length + e.stripeLength - 1 < 2 ^ 63
    · rw [wrap64_eq (by omega) hwrap]
      exact le_trans (by decide) (Int.tdiv_nonneg (by omega) (by omega))
    -- the sum wraps to a number below twice the length
    have hvalue : wrap64 (framed.length + e.stripeLength - 1) =
        -(2 ^ 64 - (framed.length + e.stripeLength - 1)) := by
      unfold wrap64
      omega
    rw [hvalue, Int.neg_tdiv, Int.tdiv_eq_ediv_of_nonneg (by omega)]
    have hlt : (2 ^ 64 - (framed.length + e.stripeLength - 1)) / e.stripeLength < 2 :=
      Int.ediv_lt_of_lt_mul (by omega) (by omega)
    omega
  unfold stripeCount
  simp only
  split <;> omega

theorem exists_coding (h : e.encode body = .ok orig) :
    Nonempty (e.Coding body orig) := by
  rcases bind_eq_ok h with ⟨_, hframed, h⟩
  rcases bind_eq_ok h with ⟨_, -, h⟩
  rcases bind_eq_ok h with ⟨_, htotal, h⟩
  rcases bind_eq_ok h with ⟨_, hmemory, h⟩
  rcases bind_eq_ok h with ⟨stripes, hloop, horig⟩
  have hframed := (makeSlice_eq_ok hframed).2
  have htotal := (makeSlice_eq_ok htotal).1
  have hmemory := panicIf_eq_ok hmemory
  rw [Int.mul_one] at hframed
  have hlen : 0 < (frame body).length := by
    rw [length_frame]
    exact Nat.add_pos_left (by decide) _
  have hk := e.dataShards_pos
  rcases mapM_cases (e.encodeStripe (frame body)) (List.range (e.stripeCount (frame body)).toNat)
    with ⟨g, hg, hall⟩ | ⟨s, -, err, -, herr⟩
  · rw [hall] at hloop
    by_cases hlong : e.stripeLength < -2 ^ 62 ∨ maxAlloc < e.stripeLength
    · exfalso
      rcases e.stripeCount_of_too_long hlen hframed hlong with hcount | hcount
      · -- the first stripe cannot be allocated
        have hfirst := e.encodeStripe_eq_ok (hg 0 (List.mem_range.mpr (by omega)))
        omega
      -- nor can the list of the shards
      have hle := rs.total_le _ _ _ e.codec_eq
      rw [e.dataShards_eq, e.parityShards_eq] at hle
      rw [hcount, e.profile_totalShards_eq, wrap64_eq (by omega) (by omega)] at htotal
      omega
    · rcases e.stripeLength_cases with ⟨hpos, hstripe⟩ | hover
      · have hsize : e.shardSize = (e.shardSize.toNat : Int) := by omega
        have hstripe' : e.stripeLength = ((e.dataShards * e.shardSize.toNat : Nat) : Int) := by
          rw [hstripe, e.dataShards_eq, Int.natCast_mul, ← hsize, Int.mul_comm]
        have hnpos : 0 < e.dataShards * e.shardSize.toNat := Nat.mul_pos hk (by omega)
        rcases e.stripeCount_eq hstripe' hnpos (List.ne_nil_of_length_pos hlen) hframed (by omega)
          with ⟨count, hcount, hcountpos, hle, hlt⟩
        rw [hcount] at hg hloop hmemory
        have hcoded : ∀ s, ∃ coded, s < count →
            e.codec.encode (e.rawStripe (frame body) s) = .ok coded ∧ g s = e.numbered s coded := by
          intro s
          by_cases hs : s < count
          · rcases (e.encodeStripe_eq_ok (hg s (List.mem_range.mpr (by omega)))).2.2 with
              ⟨coded, hcode, hnumbered⟩
            exact ⟨coded, fun _ => ⟨hcode, hnumbered⟩⟩
          · exact ⟨[], fun hlt => absurd hlt hs⟩
        choose coded hcoded using hcoded
        refine ⟨{
          size := e.shardSize.toNat, count, coded, size_pos := by omega, count_pos := hcountpos
          shardSize_eq := hsize, stripeLength_eq := hstripe', framed_le := hle, lt_framed := hlt
          framed_fits := hframed, fits := ?_, coded_eq := fun s hs => (hcoded s hs).1
          orig_eq := ?_ }⟩
        · -- the data shards are some of the shards in memory
          have hmul : count * (e.dataShards * e.shardSize.toNat) ≤
              count * ((e.dataShards + e.parityShards) * e.shardSize.toNat) :=
            Nat.mul_le_mul_left _ (Nat.mul_le_mul_right _ (Nat.le_add_right _ _))
          have hcast : (count : Int) * e.profile.totalShards * e.shardSize =
              ((count * ((e.dataShards + e.parityShards) * e.shardSize.toNat) : Nat) : Int) := by
            rw [e.profile_totalShards_eq, hsize]
            push_cast
            rw [Int.mul_assoc]
            rfl
          rw [hcast] at hmemory
          omega
        · rw [← Except.ok.inj horig, ← Except.ok.inj hloop, List.flatMap_def]
          congr 1
          apply List.map_congr_left
          intro s hs
          exact (hcoded s (by simpa using hs)).2
      · exact absurd (Or.inl hover) hlong
  · rw [herr] at hloop
    exact absurd hloop (by simp)

/-! ## 2. The stripes -/

theorem length_rawStripe (framed : Bytes) (s : Nat) :
    (e.rawStripe framed s).length = e.dataShards + e.parityShards := by
  unfold rawStripe
  rw [List.length_append, List.length_map, List.length_range, List.length_replicate]

section

variable {e} {body : Bytes} {orig : List Shard} (c : e.Coding body orig)

/-- The data of stripe `s`. -/
def Coding.data (s : Nat) : Bytes := block 0 (e.dataShards * c.size) s (frame body)

theorem Coding.slice_eq {s i : Nat} (hi : i < e.dataShards) :
    e.slice (block 0 e.stripeLength.toNat s (frame body)) i = block 0 c.size i (c.data s) := by
  have hfits : (i + 1) * c.size ≤ (c.data s).length := by
    unfold Coding.data
    rw [length_block]
    exact Nat.mul_le_mul_right _ hi
  rw [block_of_le hfits]
  unfold slice Coding.data
  rw [c.stripeLength_eq, c.shardSize_eq, Int.toNat_natCast, Int.toNat_natCast]

theorem Coding.take_rawStripe (s : Nat) : (e.rawStripe (frame body) s).take e.dataShards =
    (List.range e.dataShards).map fun i => block 0 c.size i (c.data s) := by
  unfold rawStripe
  rw [List.take_left' (by rw [List.length_map, List.length_range])]
  apply List.map_congr_left
  intro i hi
  exact c.slice_eq (List.mem_range.mp hi)

theorem Coding.rawStripe_sizes (s : Nat) : ∀ b ∈ e.rawStripe (frame body) s, b.length = c.size := by
  intro b hb
  rcases List.mem_append.mp hb with hdata | hparity
  · rcases List.mem_map.mp hdata with ⟨i, hi, rfl⟩
    rw [c.slice_eq (List.mem_range.mp hi), length_block]
  · rw [List.eq_of_mem_replicate hparity, List.length_replicate, c.shardSize_eq,
      Int.toNat_natCast]

theorem Coding.flatten_take_rawStripe (s : Nat) :
    ((e.rawStripe (frame body) s).take e.dataShards).flatten = c.data s := by
  have hlen : (c.data s).length = e.dataShards * c.size := length_block _ _ _ _
  rw [c.take_rawStripe, flatten_blocks_of_ge (by omega), ← hlen, List.take_length]

variable (hmds : e.codec.Mds e.dataShards e.parityShards)

include hmds

theorem Coding.coded_spec (hs : s < c.count) :
    (c.coded s).length = e.totalShards ∧ (∀ b ∈ c.coded s, b.length = c.size) ∧
      ((c.coded s).take e.dataShards).flatten = c.data s := by
  have hspec := hmds.encode c.size _ _ c.size_pos (e.length_rawStripe _ s)
    (c.rawStripe_sizes s) (c.coded_eq s hs)
  refine ⟨hspec.1.trans e.totalShards_eq.symm, hspec.2.1, ?_⟩
  rw [hspec.2.2, c.flatten_take_rawStripe]

theorem Coding.recoverStripe_eq (hs : s < c.count) {stripe : List Bytes}
    (hlen : stripe.length = e.totalShards)
    (hslots : ∀ i : Nat, stripe[i]? = some [] ∨ stripe[i]? = (c.coded s)[i]?)
    (hpresent : e.dataShards ≤ present stripe) : e.recoverStripe s stripe = .ok (c.data s) := by
  unfold recoverStripe
  rw [if_neg (by omega)]
  split
  · have hlen' : stripe.length = e.dataShards + e.parityShards := hlen.trans e.totalShards_eq
    rcases hmds.reconstruct c.size _ _ stripe c.size_pos (e.length_rawStripe _ s)
      (c.rawStripe_sizes s) (c.coded_eq s hs) hlen' hslots hpresent with ⟨stripe', hrec, htake⟩
    rw [hrec]
    simp only [htake, c.flatten_take_rawStripe]
  · -- no shard is missing
    rename_i hfull
    have hall : ∀ b ∈ stripe, decide (b ≠ []) = true := by
      have hle : stripe.countP (· ≠ []) ≤ stripe.length := List.countP_le_length
      have hcount : stripe.countP (· ≠ []) = stripe.length := by
        unfold present at hfull
        omega
      exact List.countP_eq_length.mp hcount
    have hsame : stripe = c.coded s := by
      apply List.ext_getElem?
      intro i
      rcases hslots i with hnil | hcoded
      · have hmem := List.mem_of_getElem? hnil
        exact absurd (hall _ hmem) (by simp)
      · exact hcoded
    rw [hsame, (c.coded_spec hmds hs).2.2]

end

/-! ## 3. Lists made from the shards of a body -/

/-- Some of the shards, in any order and number, with the bytes of some of them lost. -/
def Derived (orig shards : List Shard) : Prop :=
  ∀ sh ∈ shards, ∃ o ∈ orig, sh = o ∨ sh = { o with bytes := [] }

def kept (shards : List Shard) (s : Int) : Nat :=
  ((shards.filter fun sh => sh.stripeIndex = s ∧ sh.bytes ≠ []).map Shard.shardIndex).toFinset.card

def Recoverable (orig shards : List Shard) : Prop :=
  ∀ o ∈ orig, e.dataShards ≤ kept shards o.stripeIndex

theorem named_of_kept {s : Int} (h : 0 < kept shards s) : Named shards s := by
  rcases Finset.card_pos.mp h with ⟨i, hi⟩
  rcases List.mem_map.mp (List.mem_toFinset.mp hi) with ⟨sh, hmem, -⟩
  rw [List.mem_filter, decide_eq_true_iff] at hmem
  exact ⟨sh, hmem.1, hmem.2.1⟩

theorem present_slots (hfits : ∀ sh ∈ shards, e.Fits sh) (s : Int) :
    present (e.slots shards s) = kept shards s := by
  -- the numbers of the slots with bytes
  have hset : ((shards.filter fun sh => sh.stripeIndex = s ∧ sh.bytes ≠ []).map
      Shard.shardIndex).toFinset =
        ((Finset.range e.totalShards).filter fun i => slot shards s i ≠ []).image Nat.cast := by
    ext j
    rw [List.mem_toFinset, List.mem_map, Finset.mem_image]
    constructor
    · rintro ⟨sh, hmem, rfl⟩
      rw [List.mem_filter, decide_eq_true_iff] at hmem
      have hsh := hfits sh hmem.1
      have hlow := hsh.1
      have hhigh := hsh.2.1
      have htotal : e.profile.totalShards = (e.totalShards : Int) := by
        rw [e.profile_totalShards_eq, e.totalShards_eq, Int.natCast_add]
      refine ⟨sh.shardIndex.toNat, ?_, Int.toNat_of_nonneg hsh.1⟩
      rw [Finset.mem_filter, Finset.mem_range]
      refine ⟨by omega, fun hnil => ?_⟩
      rcases slot_cases shards s sh.shardIndex.toNat with ⟨-, hall⟩ | ⟨sh', -, -, -, hne, hslot⟩
      · exact hmem.2.2 (hall sh hmem.1 hmem.2.1 (Int.toNat_of_nonneg hsh.1).symm)
      · exact hne (hslot.symm.trans hnil)
    · rintro ⟨i, hi, rfl⟩
      rw [Finset.mem_filter] at hi
      rcases slot_cases shards s i with ⟨hnil, -⟩ | ⟨sh, hmem, hs, hindex, hne, -⟩
      · exact absurd hnil hi.2
      · exact ⟨sh, List.mem_filter.mpr ⟨hmem, decide_eq_true ⟨hs, hne⟩⟩, hindex⟩
  unfold kept present slots
  have hcast : Function.Injective (Nat.cast : Nat → Int) := fun i j h => Int.ofNat.inj h
  rw [hset, Finset.card_image_of_injective _ hcast, List.countP_map, List.countP_eq_length_filter]
  rfl

section

variable {e} {body : Bytes} {orig shards : List Shard} (c : e.Coding body orig)

theorem Coding.mem_orig (h : sh ∈ orig) :
    ∃ s < c.count, ∃ i : Nat, sh.stripeIndex = s ∧ sh.shardIndex = i ∧
      (c.coded s)[i]? = some sh.bytes := by
  rw [c.orig_eq, List.mem_flatMap] at h
  rcases h with ⟨s, hs, hmem⟩
  rcases List.mem_mapIdx.mp hmem with ⟨i, hi, hsh⟩
  refine ⟨s, List.mem_range.mp hs, i, ?_, ?_, ?_⟩
  · rw [← hsh]
  · rw [← hsh]
  · rw [← hsh, List.getElem?_eq_getElem hi]

variable (hmds : e.codec.Mds e.dataShards e.parityShards) (hderived : Derived orig shards)

include c hmds hderived

theorem Coding.mem_derived (h : sh ∈ shards) :
    ∃ s < c.count, ∃ i < e.totalShards, sh.stripeIndex = s ∧ sh.shardIndex = i ∧
      (sh.bytes = [] ∨ (c.coded s)[i]? = some sh.bytes) := by
  rcases hderived sh h with ⟨o, ho, heq⟩
  rcases c.mem_orig ho with ⟨s, hs, i, hstripe, hindex, hbytes⟩
  have hi : i < e.totalShards := by
    rw [← (c.coded_spec hmds hs).1]
    exact (List.getElem?_eq_some_iff.mp hbytes).1
  rcases heq with rfl | rfl
  · exact ⟨s, hs, i, hi, hstripe, hindex, Or.inr hbytes⟩
  · exact ⟨s, hs, i, hi, hstripe, hindex, Or.inl rfl⟩

theorem Coding.fits_derived (h : sh ∈ shards) : e.Fits sh := by
  rcases c.mem_derived hmds hderived h with ⟨s, hs, i, hi, -, hindex, hbytes⟩
  have htotal : e.profile.totalShards = (e.totalShards : Int) := by
    rw [e.profile_totalShards_eq, e.totalShards_eq, Int.natCast_add]
  refine ⟨by omega, by omega, ?_⟩
  rcases hbytes with hnil | hbytes
  · exact Or.inl hnil
  · right
    rw [(c.coded_spec hmds hs).2.1 _ (List.mem_of_getElem? hbytes), c.shardSize_eq]

theorem Coding.slots_derived (hs : s < c.count) (i : Nat) :
    (e.slots shards s)[i]? = some [] ∨ (e.slots shards s)[i]? = (c.coded s)[i]? := by
  rw [e.getElem?_slots]
  by_cases hi : i < e.totalShards
  · rw [if_pos hi]
    rcases slot_cases shards s i with ⟨hnil, -⟩ | ⟨sh, hmem, hstripe, hindex, hne, hslot⟩
    · exact Or.inl (congrArg some hnil)
    right
    rcases c.mem_derived hmds hderived hmem with ⟨s', -, i', -, hstripe', hindex', hbytes⟩
    have hsame : s' = s ∧ i' = i := by omega
    rw [hslot, ← hsame.1, ← hsame.2, hbytes.resolve_left hne]
  · right
    rw [if_neg hi, List.getElem?_eq_none]
    rw [(c.coded_spec hmds hs).1]
    omega

theorem Coding.recovered_eq (hs : s < c.count)
    (hkept : e.dataShards ≤ kept shards s) : e.recovered shards s = .ok (c.data s) := by
  have hfits : ∀ sh ∈ shards, e.Fits sh := fun sh hmem => c.fits_derived hmds hderived hmem
  have hpresent : e.dataShards ≤ present (e.slots shards s) := by rwa [e.present_slots hfits]
  have hnamed : Named shards s := named_of_kept (Nat.lt_of_lt_of_le e.dataShards_pos hkept)
  unfold recovered
  rw [if_pos hnamed]
  exact c.recoverStripe_eq hmds hs (e.length_slots shards s) (c.slots_derived hmds hderived hs)
    hpresent

theorem Coding.recovered_error (hkept : kept shards s < e.dataShards) :
    ∃ message, e.recovered shards s = .error (.error message) := by
  have hfits : ∀ sh ∈ shards, e.Fits sh := fun sh hmem => c.fits_derived hmds hderived hmem
  unfold recovered recoverStripe
  split
  · rw [e.present_slots hfits, if_pos hkept]
    exact ⟨_, rfl⟩
  · exact ⟨_, rfl⟩

theorem Coding.numStripes_le : numStripes shards ≤ c.count := by
  have hsubset : (shards.map Shard.stripeIndex).toFinset ⊆
      (Finset.range c.count).image (Nat.cast : Nat → Int) := by
    intro s hs
    rw [List.mem_toFinset, List.mem_map] at hs
    rcases hs with ⟨sh, hmem, rfl⟩
    rcases c.mem_derived hmds hderived hmem with ⟨s, hs, i, -, hstripe, -, -⟩
    exact Finset.mem_image.mpr ⟨s, Finset.mem_range.mpr hs, hstripe.symm⟩
  calc numStripes shards ≤ ((Finset.range c.count).image (Nat.cast : Nat → Int)).card :=
        Finset.card_le_card hsubset
    _ ≤ (Finset.range c.count).card := Finset.card_image_le
    _ = c.count := Finset.card_range _

theorem Coding.numStripes_eq (hall : ∀ s < c.count, Named shards s) :
    numStripes shards = c.count := by
  apply le_antisymm (c.numStripes_le hmds hderived)
  have hsubset : (Finset.range c.count).image (Nat.cast : Nat → Int) ⊆
      (shards.map Shard.stripeIndex).toFinset := by
    intro s hs
    rcases Finset.mem_image.mp hs with ⟨s, hrange, rfl⟩
    rcases hall s (Finset.mem_range.mp hrange) with ⟨sh, hmem, hstripe⟩
    exact List.mem_toFinset.mpr (List.mem_map.mpr ⟨sh, hmem, hstripe⟩)
  have hcast : Function.Injective (Nat.cast : Nat → Int) := fun i j h => Int.ofNat.inj h
  calc c.count = ((Finset.range c.count).image (Nat.cast : Nat → Int)).card := by
        rw [Finset.card_image_of_injective _ hcast, Finset.card_range]
    _ ≤ numStripes shards := Finset.card_le_card hsubset

theorem Coding.makeSlice_eq :
    makeSlice "cap" (wrap64 (numStripes shards * e.stripeLength)) 1 = .ok () := by
  have hle := c.numStripes_le hmds hderived
  have hmul : numStripes shards * (e.dataShards * c.size) ≤ c.count * (e.dataShards * c.size) :=
    Nat.mul_le_mul_right _ hle
  have hfits := c.fits
  have hcast : (numStripes shards : Int) * e.stripeLength =
      ((numStripes shards * (e.dataShards * c.size) : Nat) : Int) := by
    rw [c.stripeLength_eq]
    exact (Int.natCast_mul _ _).symm
  unfold maxAlloc at hfits
  rw [hcast, wrap64_eq (by omega) (by omega)]
  apply makeSlice_of_fits
  · omega
  · unfold maxAlloc
    omega

end

/-! ## 4. The length header -/

section

variable (h : (frame body).length ≤ maxAlloc)
include h

theorem ofBigEndian_frame :
    ofBigEndian ((frame body).take objectHeaderSize) = body.length := by
  rw [length_frame] at h
  unfold maxAlloc at h
  unfold frame
  rw [List.take_left' (length_bigEndian _ _), ofBigEndian_bigEndian]
  apply Nat.mod_eq_of_lt
  unfold objectHeaderSize at *
  omega

theorem unframe_frame (padding : Bytes) :
    unframe (frame body ++ padding) = .ok body := by
  have hlen := length_frame body
  have hheader := ofBigEndian_frame h
  have hframe : (frame body).drop objectHeaderSize = body := by
    exact List.drop_left' (length_bigEndian _ _)
  have htake : (frame body ++ padding).take objectHeaderSize = (frame body).take objectHeaderSize :=
    List.take_append_of_le_length (by omega)
  have hend : (objectHeaderSize + body.length) % 2 ^ 64 = (frame body).length := by
    unfold maxAlloc at h
    omega
  unfold unframe
  simp only [htake, hheader, hend]
  rw [List.length_append, if_neg (by omega), if_neg (by omega), if_neg (by omega), List.take_left',
    hframe]
  rfl

theorem unframe_take {n : Nat}
    (hn : n < (frame body).length) : ∃ message, unframe ((frame body).take n) = .error (.error message) := by
  have hlen := length_frame body
  have hcut : ((frame body).take n).length = n := List.length_take_of_le (by omega)
  unfold unframe
  rw [hcut]
  by_cases hshort : n < objectHeaderSize
  · rw [if_pos hshort]
    exact ⟨_, rfl⟩
  have htake : ((frame body).take n).take objectHeaderSize =
      (frame body).take objectHeaderSize := by
    rw [List.take_take]
    congr 1
    omega
  have hend : (objectHeaderSize + body.length) % 2 ^ 64 = (frame body).length := by
    unfold maxAlloc at h
    omega
  simp only [htake, ofBigEndian_frame h, hend]
  rw [if_neg hshort, if_pos hn]
  exact ⟨_, rfl⟩

end

/-! ## 5. Tolerance -/

section

variable {e} {body : Bytes} {orig shards : List Shard} (c : e.Coding body orig)
  (hmds : e.codec.Mds e.dataShards e.parityShards)

include hmds

theorem Coding.recoverable_iff :
    e.Recoverable orig shards ↔ ∀ s < c.count, e.dataShards ≤ kept shards s := by
  constructor
  · intro h s hs
    -- the first shard of the stripe
    have hlen : 0 < (c.coded s).length := by
      have hk := e.dataShards_pos
      rw [(c.coded_spec hmds hs).1, e.totalShards_eq]
      omega
    let o : Shard := ⟨s, (0 : Nat), if e.dataShards ≤ 0 then .parity else .data, (c.coded s)[0]⟩
    have ho : o ∈ orig := by
      rw [c.orig_eq, List.mem_flatMap]
      exact ⟨s, List.mem_range.mpr hs, List.mem_mapIdx.mpr ⟨0, hlen, rfl⟩⟩
    exact h o ho
  · intro h o ho
    rcases c.mem_orig ho with ⟨s, hs, -, hstripe, -, -⟩
    rw [hstripe]
    exact h s hs

variable (hderived : Derived orig shards)

include hderived

theorem Coding.decode_eq (hkept : ∀ s < c.count, e.dataShards ≤ kept shards s) :
    e.decode shards = .ok body := by
  have hfits : ∀ sh ∈ shards, e.Fits sh := fun sh hmem => c.fits_derived hmds hderived hmem
  have hnamed : ∀ s < c.count, Named shards s := fun s hs =>
    named_of_kept (Nat.lt_of_lt_of_le e.dataShards_pos (hkept s hs))
  have hne : shards ≠ [] := by
    rcases hnamed 0 c.count_pos with ⟨sh, hmem, -⟩
    exact List.ne_nil_of_mem hmem
  have hcount := c.numStripes_eq hmds hderived hnamed
  have hloop : (List.range c.count).mapM (e.recovered shards) =
      .ok ((List.range c.count).map c.data) :=
    mapM_of_ok fun s hs => by
      have hs := List.mem_range.mp hs
      exact c.recovered_eq hmds hderived hs (hkept s hs)
  rw [e.decode_of_fits hne hfits, c.makeSlice_eq hmds hderived, hcount, hloop]
  show unframe ((List.range c.count).map c.data).flatten = .ok body
  unfold Coding.data
  rw [flatten_blocks_of_le c.framed_le]
  exact unframe_frame c.framed_fits _

theorem Coding.decode_error (hlost : ¬ ∀ s < c.count, e.dataShards ≤ kept shards s) :
    ∃ message, e.decode shards = .error (.error message) := by
  have hfits : ∀ sh ∈ shards, e.Fits sh := fun sh hmem => c.fits_derived hmds hderived hmem
  by_cases hne : shards = []
  · refine ⟨"erasure_coding: no shards supplied", ?_⟩
    unfold decode
    rw [if_pos hne]
    rfl
  · rw [e.decode_of_fits hne hfits, c.makeSlice_eq hmds hderived]
    show ∃ message, (do
      let blocks ← (List.range (numStripes shards)).mapM (e.recovered shards)
      unframe blocks.flatten) = _
    rcases mapM_cases (e.recovered shards) (List.range (numStripes shards)) with
      ⟨g, hg, hloop⟩ | ⟨s, hs, err, herr, hloop⟩
    · -- all stripes named are there, so those that lack shards come behind them
      have hle := c.numStripes_le hmds hderived
      have hdata : ∀ s < numStripes shards, g s = c.data s ∧ e.dataShards ≤ kept shards s := by
        intro s hs
        have hok := hg s (List.mem_range.mpr hs)
        by_cases hkept : e.dataShards ≤ kept shards s
        · rw [c.recovered_eq hmds hderived (by omega) hkept] at hok
          exact ⟨(Except.ok.inj hok).symm, hkept⟩
        · rcases c.recovered_error hmds hderived (Nat.lt_of_not_le hkept) with ⟨message, herr⟩
          rw [herr] at hok
          exact absurd hok (by simp)
      have hfewer : numStripes shards ≤ c.count - 1 := by
        by_contra hnot
        exact hlost fun s hs => (hdata s (by omega)).2
      have hmul : numStripes shards * (e.dataShards * c.size) ≤
          (c.count - 1) * (e.dataShards * c.size) := Nat.mul_le_mul_right _ hfewer
      have hcut : numStripes shards * (e.dataShards * c.size) < (frame body).length :=
        Nat.lt_of_le_of_lt hmul c.lt_framed
      have hblocks : (List.range (numStripes shards)).map g =
          (List.range (numStripes shards)).map c.data :=
        List.map_congr_left fun s hs => (hdata s (List.mem_range.mp hs)).1
      rw [hloop]
      show ∃ message, unframe ((List.range (numStripes shards)).map g).flatten = _
      rw [hblocks]
      unfold Coding.data
      rw [flatten_blocks_of_ge (Nat.le_of_lt hcut)]
      exact unframe_take c.framed_fits hcut
    · rcases e.recovered_cases shards s with ⟨data, hok⟩ | ⟨message, hbad⟩
      · rw [herr] at hok
        exact absurd hok (by simp)
      · have herror : err = .error message := Except.error.inj (herr.symm.trans hbad)
        rw [hloop, herror]
        exact ⟨message, rfl⟩

end

/-- The body comes back exactly when every stripe of it keeps enough shards, and otherwise an
error. -/
theorem decode_derived (hmds : e.codec.Mds e.dataShards e.parityShards) (body : Bytes)
    (orig : List Shard) (horig : e.encode body = .ok orig) (shards : List Shard)
    (hderived : Derived orig shards) :
    (e.Recoverable orig shards → e.decode shards = .ok body) ∧
      (¬ e.Recoverable orig shards → ∃ message, e.decode shards = .error (.error message)) := by
  rcases e.exists_coding horig with ⟨c⟩
  rw [c.recoverable_iff hmds]
  exact ⟨c.decode_eq hmds hderived, c.decode_error hmds hderived⟩

theorem eq_of_decode (hmds : e.codec.Mds e.dataShards e.parityShards)
    {orig shards : List Shard} (horig : e.encode body = .ok orig) (hderived : Derived orig shards)
    {plain : Bytes} (h : e.decode shards = .ok plain) : plain = body := by
  rcases e.exists_coding horig with ⟨c⟩
  by_cases hkept : ∀ s < c.count, e.dataShards ≤ kept shards s
  · rw [c.decode_eq hmds hderived hkept] at h
    exact (Except.ok.inj h).symm
  · rcases c.decode_error hmds hderived hkept with ⟨message, herror⟩
    rw [herror] at h
    exact absurd h (by simp)

theorem map_shardIndex_numbered (s : Nat) (shards : List Bytes) :
    (e.numbered s shards).map Shard.shardIndex = (List.range shards.length).map Nat.cast := by
  unfold numbered
  apply List.ext_getElem?
  intro i
  rw [List.getElem?_map, List.getElem?_mapIdx, List.getElem?_map]
  by_cases hi : i < shards.length
  · rw [List.getElem?_eq_getElem hi, List.getElem?_range hi]
    rfl
  · rw [List.getElem?_eq_none (by omega), List.getElem?_eq_none (by rw [List.length_range]; omega)]
    rfl

theorem Coding.kept_blanked {e : Encoder rs}
    (c : e.Coding body orig) (hmds : e.codec.Mds e.dataShards e.parityShards) (lost : Shard → Bool)
    (hs : s < c.count) :
    e.totalShards ≤ orig.countP (fun o => o.stripeIndex = (s : Int) ∧ lost o = true) +
      kept (orig.map fun o => if lost o then { o with bytes := [] } else o) s := by
  have hspec := c.coded_spec hmds hs
  generalize hstripe : e.numbered s (c.coded s) = stripe
  have hlen : stripe.length = e.totalShards := by
    rw [← hstripe, numbered, List.length_mapIdx, hspec.1]
  have hsub : stripe.Sublist orig := by
    rw [c.orig_eq, List.flatMap_def, ← hstripe]
    exact List.sublist_flatten_of_mem
      (List.mem_map.mpr ⟨s, List.mem_range.mpr hs, rfl⟩)
  have hmem : ∀ o ∈ stripe, o.stripeIndex = (s : Int) ∧ o.bytes ≠ [] := by
    intro o ho
    rw [← hstripe] at ho
    rcases List.mem_mapIdx.mp ho with ⟨i, hi, rfl⟩
    refine ⟨rfl, fun hnil => ?_⟩
    have hsize := hspec.2.1 _ (List.getElem_mem hi)
    have hpos := c.size_pos
    have hzero : ((c.coded s)[i]).length = 0 := congrArg List.length hnil
    omega
  -- those lost among the shards of the stripe
  have hlost : stripe.countP lost ≤
      orig.countP fun o => o.stripeIndex = (s : Int) ∧ lost o = true := by
    have hcount : stripe.countP lost =
        stripe.countP fun o => o.stripeIndex = (s : Int) ∧ lost o = true := by
      apply List.countP_congr
      intro o ho
      simp [(hmem o ho).1]
    rw [hcount]
    exact hsub.countP_le
  -- and those that are not
  have hkept : (stripe.filter fun o => !lost o).length ≤
      kept (orig.map fun o => if lost o then { o with bytes := [] } else o) s := by
    have hnodup : ((stripe.filter fun o => !lost o).map Shard.shardIndex).Nodup := by
      have hall : (stripe.map Shard.shardIndex).Nodup := by
        rw [← hstripe, e.map_shardIndex_numbered]
        exact List.nodup_range.map fun i j h => Int.ofNat.inj h
      exact hall.sublist (List.filter_sublist.map _)
    rw [← List.length_map Shard.shardIndex, ← List.toFinset_card_of_nodup hnodup]
    apply Finset.card_le_card
    intro i hi
    rw [List.mem_toFinset, List.mem_map] at hi ⊢
    rcases hi with ⟨o, ho, hindex⟩
    rw [List.mem_filter, Bool.not_eq_true'] at ho
    refine ⟨o, List.mem_filter.mpr ⟨List.mem_map.mpr ⟨o, hsub.subset ho.1, ?_⟩, ?_⟩, hindex⟩
    · rw [ho.2]
      rfl
    · exact decide_eq_true (hmem o ho.1)
  have hsplit : stripe.length = stripe.countP lost + (stripe.filter fun o => !lost o).length := by
    rw [← List.countP_eq_length_filter, List.length_eq_countP_add_countP lost]
    simp only [Bool.not_eq_true, Bool.decide_eq_false]
  omega

theorem decode_blanked (hmds : e.codec.Mds e.dataShards e.parityShards)
    (horig : e.encode body = .ok orig) (lost : Shard → Bool)
    (hlost : ∀ s : Int, orig.countP (fun o => o.stripeIndex = s ∧ lost o = true) ≤ e.parityShards) :
    e.decode (orig.map fun o => if lost o then { o with bytes := [] } else o) = .ok body := by
  rcases e.exists_coding horig with ⟨c⟩
  have hderived : Derived orig (orig.map fun o => if lost o then { o with bytes := [] } else o) := by
    intro sh hsh
    rcases List.mem_map.mp hsh with ⟨o, ho, rfl⟩
    refine ⟨o, ho, ?_⟩
    cases lost o with
    | true => exact Or.inr rfl
    | false => exact Or.inl rfl
  apply c.decode_eq hmds hderived
  intro s hs
  have htotal := e.totalShards_eq
  have hkept := c.kept_blanked hmds lost hs
  have hfew := hlost s
  omega

end Encoder

/-! ## 6. A run -/

theorem mirrorCodec_mds : mirrorCodec.Mds 1 1 := by
  constructor
  · intro size shards coded _ hlen hsize hcode
    match shards with
    | [data, parity] =>
      have hcoded : coded = [data, data] := (Except.ok.inj hcode).symm
      have hdata : data.length = size := hsize data List.mem_cons_self
      rw [hcoded]
      exact ⟨rfl, by simpa using hdata, rfl⟩
  · intro size shards coded stripe hpos hlen hsize hcode hstripe hslots hpresent
    match shards, stripe with
    | [data, parity], [x, y] =>
      have hcoded : coded = [data, data] := (Except.ok.inj hcode).symm
      have hx : x = [] ∨ x = data := by
        have h := hslots 0
        rw [hcoded] at h
        simpa using h
      have hy : y = [] ∨ y = data := by
        have h := hslots 1
        rw [hcoded] at h
        simpa using h
      cases x with
      | cons b x => exact ⟨[b :: x, y], rfl, by rw [hx.resolve_left (by simp)]; rfl⟩
      | nil =>
        cases y with
        | cons b y => exact ⟨[b :: y, b :: y], rfl, by rw [hy.resolve_left (by simp)]; rfl⟩
        | nil => exact absurd hpresent (by decide)

/-- The header takes the first stripe, and the body `ab` the second; each keeps one shard. -/
theorem decode_derived_mirror :
    let header : Bytes := [0, 0, 0, 0, 0, 0, 0, 2]
    let padded : Bytes := [97, 98, 0, 0, 0, 0, 0, 0]
    let orig : List Shard := [⟨0, 0, .data, header⟩, ⟨0, 1, .parity, header⟩,
      ⟨1, 0, .data, padded⟩, ⟨1, 1, .parity, padded⟩]
    let shards : List Shard := [⟨1, 1, .parity, padded⟩, ⟨0, 1, .parity, []⟩, ⟨0, 0, .data, header⟩]
    mirrorEncoder.encode [97, 98] = .ok orig ∧ mirrorEncoder.Recoverable orig shards ∧
      mirrorEncoder.decode shards = .ok [97, 98] := by
  intro header padded orig shards
  have hencode : mirrorEncoder.encode [97, 98] = .ok orig := by decide +kernel
  have hderived : Encoder.Derived orig shards := by
    unfold Encoder.Derived
    decide +kernel
  have hkept : mirrorEncoder.Recoverable orig shards := by
    unfold Encoder.Recoverable
    decide +kernel
  exact ⟨hencode, hkept,
    (mirrorEncoder.decode_derived mirrorCodec_mds [97, 98] orig hencode shards hderived).1 hkept⟩

end ObjectFabric.ErasureCoding
