import ObjectFabric.Metadata.ErasureCoding

/-!
# ErasureRecovery — what `Decode` makes of a list of shards

The shards are grouped by stripe, and in each slot the last shard with bytes stays
(`foldlM_addShard`).  With a codec that recovers a stripe from any `DataShards` of its shards, a
list made from the shards of a body gives back the body or an error, and nothing else.
-/

namespace ObjectFabric.ErasureCoding

open Streams

variable {shards : List Shard} {stripes : FMap Int (List Bytes)} {sh : Shard}

namespace Encoder

variable {rs : ReedSolomon} (e : Encoder rs)

/-! ## 1. The shape of a profile -/

theorem dataShards_eq : e.profile.dataShards = e.dataShards := by
  have hvalid := ErasureCodingProfile.validate_eq_ok e.valid
  unfold dataShards
  omega

theorem parityShards_eq : e.profile.parityShards = e.parityShards := by
  have hvalid := ErasureCodingProfile.validate_eq_ok e.valid
  unfold parityShards
  omega

theorem dataShards_pos : 0 < e.dataShards := by
  have hvalid := ErasureCodingProfile.validate_eq_ok e.valid
  unfold dataShards
  omega

theorem profile_totalShards_eq : e.profile.totalShards = e.dataShards + e.parityShards := by
  have hvalid := ErasureCodingProfile.validate_eq_ok e.valid
  have hle := rs.total_le _ _ _ e.codec_eq
  unfold ErasureCodingProfile.totalShards
  rw [wrap64_eq (by omega) (by omega), e.dataShards_eq, e.parityShards_eq]

theorem totalShards_eq : e.totalShards = e.dataShards + e.parityShards := by
  unfold totalShards
  rw [e.profile_totalShards_eq]
  omega

/-! ## 2. Grouping -/

def Named (shards : List Shard) (s : Int) : Prop := ∃ sh ∈ shards, sh.stripeIndex = s

instance (shards : List Shard) (s : Int) : Decidable (Named shards s) :=
  inferInstanceAs (Decidable (∃ sh ∈ shards, sh.stripeIndex = s))

/-- The shard passes the checks of `Decode`. -/
def Fits (sh : Shard) : Prop :=
  0 ≤ sh.shardIndex ∧ sh.shardIndex < e.profile.totalShards ∧
    (sh.bytes = [] ∨ (sh.bytes.length : Int) = e.shardSize)

def slot (shards : List Shard) (s : Int) (i : Nat) : Bytes :=
  shards.foldl (fun b sh =>
    if sh.stripeIndex = s ∧ sh.shardIndex = (i : Int) ∧ sh.bytes ≠ [] then sh.bytes else b) []

def slots (shards : List Shard) (s : Int) : List Bytes :=
  (List.range e.totalShards).map (slot shards s)

theorem slot_append (shards : List Shard) (sh : Shard) (s : Int) (i : Nat) :
    slot (shards ++ [sh]) s i =
      if sh.stripeIndex = s ∧ sh.shardIndex = i ∧ sh.bytes ≠ [] then sh.bytes
      else slot shards s i := by
  unfold slot
  rw [List.foldl_append]
  rfl

theorem named_append (shards : List Shard) (sh : Shard) (s : Int) :
    Named (shards ++ [sh]) s ↔ Named shards s ∨ sh.stripeIndex = s := by
  constructor
  · rintro ⟨sh', hmem, hs⟩
    rcases List.mem_append.mp hmem with hmem | hmem
    · exact Or.inl ⟨sh', hmem, hs⟩
    · rw [List.mem_singleton.mp hmem] at hs
      exact Or.inr hs
  · rintro (⟨sh', hmem, hs⟩ | hs)
    · exact ⟨sh', List.mem_append_left _ hmem, hs⟩
    · exact ⟨sh, List.mem_append_right _ List.mem_cons_self, hs⟩

theorem slot_cases (shards : List Shard) (s : Int) (i : Nat) :
    (slot shards s i = [] ∧ ∀ sh ∈ shards, sh.stripeIndex = s → sh.shardIndex = i → sh.bytes = []) ∨
      ∃ sh ∈ shards, sh.stripeIndex = s ∧ sh.shardIndex = i ∧ sh.bytes ≠ [] ∧
        slot shards s i = sh.bytes := by
  induction shards using List.reverseRecOn with
  | nil => exact Or.inl ⟨rfl, fun sh hmem => absurd hmem List.not_mem_nil⟩
  | append_singleton shards sh ih => ?_
  rw [slot_append]
  split
  · rename_i hsh
    exact Or.inr ⟨sh, List.mem_append_right _ List.mem_cons_self, hsh.1, hsh.2.1, hsh.2.2, rfl⟩
  rename_i hsh
  rcases ih with ⟨hnil, hall⟩ | ⟨sh', hmem, hs, hi, hne, hslot⟩
  · refine Or.inl ⟨hnil, fun sh' hmem hs hi => ?_⟩
    rcases List.mem_append.mp hmem with hmem | hmem
    · exact hall sh' hmem hs hi
    · rw [List.mem_singleton.mp hmem] at hs hi ⊢
      by_contra hne
      exact hsh ⟨hs, hi, hne⟩
  · exact Or.inr ⟨sh', List.mem_append_left _ hmem, hs, hi, hne, hslot⟩

theorem length_slots (shards : List Shard) (s : Int) : (e.slots shards s).length = e.totalShards := by
  unfold slots
  rw [List.length_map, List.length_range]

theorem getElem?_slots (shards : List Shard) (s : Int) (i : Nat) :
    (e.slots shards s)[i]? = if i < e.totalShards then some (slot shards s i) else none := by
  unfold slots
  rw [List.getElem?_map]
  split
  · rename_i hi
    rw [List.getElem?_range hi]
    rfl
  · rename_i hi
    rw [List.getElem?_eq_none (by rw [List.length_range]; omega)]
    rfl

theorem slots_of_not_named {s : Int} (h : ¬ Named shards s) :
    e.slots shards s = List.replicate e.totalShards [] := by
  have hslot : ∀ i, slot shards s i = [] := by
    intro i
    rcases slot_cases shards s i with ⟨hnil, -⟩ | ⟨sh, hmem, hs, -⟩
    · exact hnil
    · exact absurd ⟨sh, hmem, hs⟩ h
  apply List.ext_getElem?
  intro i
  rw [getElem?_slots, List.getElem?_replicate, hslot]

structure Grouped (shards : List Shard) (stripes : FMap Int (List Bytes)) : Prop where
  lookup : ∀ s, stripes.lookup s = if Named shards s then some (e.slots shards s) else none

theorem Grouped.getD
    (h : e.Grouped shards stripes) (s : Int) :
    (stripes.lookup s).getD (List.replicate e.totalShards []) = e.slots shards s := by
  rw [h.lookup]
  split
  · rfl
  · rename_i hnot
    exact (e.slots_of_not_named hnot).symm

theorem slots_append_set (hlow : 0 ≤ sh.shardIndex)
    (hne : sh.bytes ≠ []) : e.slots (shards ++ [sh]) sh.stripeIndex =
      (e.slots shards sh.stripeIndex).set sh.shardIndex.toNat sh.bytes := by
  apply List.ext_getElem?
  intro i
  rw [getElem?_slots, slot_append, List.getElem?_set, getElem?_slots, length_slots]
  by_cases hi : sh.shardIndex.toNat = i
  · have hmatch : sh.stripeIndex = sh.stripeIndex ∧ sh.shardIndex = (i : Int) ∧ sh.bytes ≠ [] :=
      ⟨rfl, by omega, hne⟩
    rw [if_pos hi, if_pos hmatch, hi]
  · have hindex : ¬ (sh.stripeIndex = sh.stripeIndex ∧ sh.shardIndex = (i : Int) ∧ sh.bytes ≠ []) := by
      omega
    rw [if_neg hi, if_neg hindex]

theorem slots_append_of_ne {s : Int}
    (h : sh.stripeIndex ≠ s ∨ sh.bytes = []) : e.slots (shards ++ [sh]) s = e.slots shards s := by
  apply List.map_congr_left
  intro i _
  rw [slot_append, if_neg]
  rintro ⟨hs, -, hne⟩
  cases h with
  | inl h => exact h hs
  | inr h => exact hne h

theorem Grouped.insert
    (h : e.Grouped shards stripes) :
    e.Grouped (shards ++ [sh])
      (stripes.insert sh.stripeIndex (e.slots (shards ++ [sh]) sh.stripeIndex)) := by
  constructor
  intro s
  rw [FMap.lookup_insert_ite]
  by_cases hs : s = sh.stripeIndex
  · rw [if_pos hs, if_pos ((named_append shards sh s).mpr (Or.inr hs.symm)), hs]
  have hne : sh.stripeIndex ≠ s := fun heq => hs heq.symm
  have hnamed : Named (shards ++ [sh]) s ↔ Named shards s := by
    rw [named_append]
    exact or_iff_left hne
  rw [if_neg hs, h.lookup, e.slots_append_of_ne (Or.inl hne)]
  by_cases hn : Named shards s
  · rw [if_pos hn, if_pos (hnamed.mpr hn)]
  · rw [if_neg hn, if_neg fun hn' => hn (hnamed.mp hn')]

theorem addShard_grouped
    (h : e.Grouped shards stripes) (hfits : e.Fits sh) :
    ∃ stripes', e.addShard stripes sh = .ok stripes' ∧ e.Grouped (shards ++ [sh]) stripes' := by
  rcases hfits with ⟨hlow, hhigh, hsize⟩
  refine ⟨_, ?_, h.insert⟩
  unfold addShard
  rw [if_neg (by omega)]
  simp only [h.getD]
  by_cases hblank : sh.bytes = []
  · rw [if_pos hblank, e.slots_append_of_ne (Or.inr hblank)]
  · rw [if_neg hblank, if_neg fun hne => hne (hsize.resolve_left hblank),
      e.slots_append_set hlow hblank]

theorem foldlM_addShard (hfits : ∀ sh ∈ shards, e.Fits sh) :
    ∃ stripes, shards.foldlM e.addShard ∅ = .ok stripes ∧ e.Grouped shards stripes := by
  induction shards using List.reverseRecOn with
  | nil =>
    refine ⟨∅, rfl, ⟨fun s => ?_⟩⟩
    rw [if_neg (by rintro ⟨sh, hmem, -⟩; exact absurd hmem List.not_mem_nil)]
    exact Finmap.lookup_empty s
  | append_singleton shards sh ih => ?_
  rcases ih fun sh' hmem => hfits sh' (List.mem_append_left _ hmem) with ⟨stripes, hfold, hgroup⟩
  rcases e.addShard_grouped hgroup (hfits sh (List.mem_append_right _ List.mem_cons_self)) with
    ⟨stripes', hadd, hgroup'⟩
  refine ⟨stripes', ?_, hgroup'⟩
  rw [List.foldlM_append, hfold]
  show List.foldlM e.addShard stripes [sh] = _
  rw [List.foldlM_cons, hadd]
  rfl

theorem addShard_of_not_fits (h : ¬ e.Fits sh) (stripes : FMap Int (List Bytes)) :
    ∃ message, e.addShard stripes sh = .error (.error message) := by
  unfold addShard
  split
  · exact ⟨_, rfl⟩
  rename_i hindex
  split
  · rename_i hblank
    exact absurd ⟨by omega, by omega, Or.inl hblank⟩ h
  split
  · exact ⟨_, rfl⟩
  · rename_i hsize
    exact absurd ⟨by omega, by omega, Or.inr (not_not.mp hsize)⟩ h

theorem addShard_cases (stripes : FMap Int (List Bytes)) (sh : Shard) :
    (∃ stripes', e.addShard stripes sh = .ok stripes') ∨
      ∃ message, e.addShard stripes sh = .error (.error message) := by
  unfold addShard
  split
  · exact Or.inr ⟨_, rfl⟩
  split
  · exact Or.inl ⟨_, rfl⟩
  · split
    · exact Or.inr ⟨_, rfl⟩
    · exact Or.inl ⟨_, rfl⟩

theorem foldlM_addShard_error (h : ∃ sh ∈ shards, ¬ e.Fits sh)
    (stripes : FMap Int (List Bytes)) :
    ∃ message, shards.foldlM e.addShard stripes = .error (.error message) := by
  induction shards generalizing stripes with
  | nil =>
    rcases h with ⟨sh, hmem, -⟩
    exact absurd hmem List.not_mem_nil
  | cons sh shards ih => ?_
  rw [List.foldlM_cons]
  rcases e.addShard_cases stripes sh with ⟨stripes', hadd⟩ | ⟨message, hadd⟩
  · rw [hadd]
    apply ih
    rcases h with ⟨sh', hmem, hnot⟩
    rcases List.mem_cons.mp hmem with rfl | hmem
    · -- the shard was put into its stripe
      rcases e.addShard_of_not_fits hnot stripes with ⟨message, hbad⟩
      rw [hadd] at hbad
      exact absurd hbad (by simp)
    · exact ⟨sh', hmem, hnot⟩
  · rw [hadd]
    exact ⟨message, rfl⟩

/-! ## 3. Decoding -/

def numStripes (shards : List Shard) : Nat := (shards.map Shard.stripeIndex).toFinset.card

/-- The data of stripe `s` as the list gives it. -/
def recovered (shards : List Shard) (s : Nat) : Except Halt Bytes :=
  if Named shards s then e.recoverStripe s (e.slots shards s)
  else .error (.error ("erasure_coding: missing stripe " ++ toString s))

theorem Grouped.card_keys
    (h : e.Grouped shards stripes) : stripes.keys.card = numStripes shards := by
  congr 1
  ext s
  rw [Finmap.mem_keys, ← Finmap.lookup_isSome, h.lookup, List.mem_toFinset, List.mem_map]
  by_cases hn : Named shards s
  · rw [if_pos hn]
    exact ⟨fun _ => hn, fun _ => rfl⟩
  · rw [if_neg hn]
    exact ⟨fun h => absurd h (by simp), fun hmem => absurd hmem hn⟩

theorem Grouped.stripeData
    (h : e.Grouped shards stripes) : e.stripeData stripes = e.recovered shards := by
  funext s
  unfold Encoder.stripeData recovered
  rw [h.lookup]
  by_cases hn : Named shards s
  · rw [if_pos hn, if_pos hn]
  · rw [if_neg hn, if_neg hn]

theorem decode_of_fits (hne : shards ≠ [])
    (hfits : ∀ sh ∈ shards, e.Fits sh) :
    e.decode shards = (do
      makeSlice "cap" (wrap64 (numStripes shards * e.stripeLength)) 1
      let blocks ← (List.range (numStripes shards)).mapM (e.recovered shards)
      unframe blocks.flatten) := by
  rcases e.foldlM_addShard hfits with ⟨stripes, hfold, hgroup⟩
  unfold decode
  rw [if_neg hne, hfold]
  show (do
    makeSlice "cap" (wrap64 (stripes.keys.card * e.stripeLength)) 1
    let blocks ← (List.range stripes.keys.card).mapM (e.stripeData stripes)
    unframe blocks.flatten) = _
  rw [hgroup.card_keys, hgroup.stripeData]

theorem decode_of_not_fits (h : ∃ sh ∈ shards, ¬ e.Fits sh) :
    ∃ message, e.decode shards = .error (.error message) := by
  have hne : shards ≠ [] := by
    rcases h with ⟨sh, hmem, -⟩
    exact List.ne_nil_of_mem hmem
  rcases e.foldlM_addShard_error h ∅ with ⟨message, hfold⟩
  refine ⟨message, ?_⟩
  unfold decode
  rw [if_neg hne, hfold]
  rfl

theorem recovered_cases (shards : List Shard) (s : Nat) :
    (∃ data, e.recovered shards s = .ok data) ∨
      ∃ message, e.recovered shards s = .error (.error message) := by
  unfold recovered recoverStripe
  split
  · split
    · exact Or.inr ⟨_, rfl⟩
    split
    · split
      · exact Or.inr ⟨_, rfl⟩
      · exact Or.inl ⟨_, rfl⟩
    · exact Or.inl ⟨_, rfl⟩
  · exact Or.inr ⟨_, rfl⟩

/-! ## 4. When `Decode` panics -/

/-- The length that the recovered data declare leaves room for the header in 64 bits. -/
def DeclaresLength (framed : Bytes) : Prop :=
  objectHeaderSize ≤ framed.length →
    ofBigEndian (framed.take objectHeaderSize) + objectHeaderSize < 2 ^ 64

theorem unframe_panics_iff (framed : Bytes) :
    (∃ message, unframe framed = .error (.panic message)) ↔ ¬ DeclaresLength framed := by
  unfold unframe DeclaresLength
  by_cases hshort : framed.length < objectHeaderSize
  · rw [if_pos hshort]
    constructor
    · rintro ⟨message, h⟩
      exact absurd h (by simp)
    · intro h
      exact absurd (fun hlong => absurd hlong (by omega)) h
  · rw [if_neg hshort]
    have hlong : objectHeaderSize ≤ framed.length := by omega
    have hheader : ofBigEndian (framed.take objectHeaderSize) < 2 ^ 64 := by
      have hlt := ofBigEndian_lt (framed.take objectHeaderSize)
      rwa [List.length_take_of_le hlong] at hlt
    generalize ofBigEndian (framed.take objectHeaderSize) = plaintextLen at *
    unfold objectHeaderSize at *
    simp only
    by_cases hwrap : plaintextLen + 8 < 2 ^ 64
    · -- the end lies behind the header
      have hend : ¬ (8 + plaintextLen) % 2 ^ 64 < 8 := by omega
      rw [if_neg hend]
      constructor
      · rintro ⟨message, h⟩
        split at h
        · simp at h
        · simp at h
      · intro h
        exact absurd (fun _ => hwrap) h
    · have hend : (8 + plaintextLen) % 2 ^ 64 < 8 := by omega
      rw [if_neg (by omega : ¬ framed.length < (8 + plaintextLen) % 2 ^ 64), if_pos hend]
      exact ⟨fun _ h => hwrap (h hlong), fun _ => ⟨_, rfl⟩⟩

/-- The buffer for the stripes that the list names can be allocated, and the length header of the
data in them, if they can be recovered, is below the top eight values. -/
def Decodable (shards : List Shard) : Prop :=
  shards ≠ [] → (∀ sh ∈ shards, e.Fits sh) →
    0 ≤ wrap64 (numStripes shards * e.stripeLength) ∧
    wrap64 (numStripes shards * e.stripeLength) ≤ maxAlloc ∧
    ∀ data : Nat → Bytes, (∀ s < numStripes shards, e.recovered shards s = .ok (data s)) →
      DeclaresLength ((List.range (numStripes shards)).map data).flatten

theorem loop_returns_iff (shards : List Shard) :
    (∀ message, (do
      let blocks ← (List.range (numStripes shards)).mapM (e.recovered shards)
      unframe blocks.flatten) ≠ .error (.panic message)) ↔
    ∀ data : Nat → Bytes, (∀ s < numStripes shards, e.recovered shards s = .ok (data s)) →
      DeclaresLength ((List.range (numStripes shards)).map data).flatten := by
  rcases mapM_cases (e.recovered shards) (List.range (numStripes shards)) with
    ⟨g, hg, hloop⟩ | ⟨s, hs, err, herr, hloop⟩
  · rw [hloop]
    show (∀ message, unframe ((List.range (numStripes shards)).map g).flatten ≠ _) ↔ _
    have hpanics := unframe_panics_iff ((List.range (numStripes shards)).map g).flatten
    constructor
    · intro h data hdata
      have hsame : (List.range (numStripes shards)).map data =
          (List.range (numStripes shards)).map g := by
        apply List.map_congr_left
        intro s hs
        have hok := hdata s (List.mem_range.mp hs)
        rw [hg s hs] at hok
        exact (Except.ok.inj hok).symm
      rw [hsame]
      by_contra hnot
      rcases hpanics.mpr hnot with ⟨message, hpanic⟩
      exact h message hpanic
    · intro h message hpanic
      exact hpanics.mp ⟨message, hpanic⟩ (h g fun s hs => hg s (List.mem_range.mpr hs))
  · -- a stripe that is not recovered ends the call with an error
    rcases e.recovered_cases shards s with ⟨data, hok⟩ | ⟨message, hbad⟩
    · rw [herr] at hok
      exact absurd hok (by simp)
    have herror : err = .error message := Except.error.inj (herr.symm.trans hbad)
    rw [hloop, herror]
    refine ⟨fun _ data hdata => ?_, fun _ message' h => ?_⟩
    · have hok := hdata s (List.mem_range.mp hs)
      rw [hbad] at hok
      exact absurd hok (by simp)
    · have hsame : Halt.error message = Halt.panic message' := Except.error.inj h
      exact absurd hsame (by simp)

theorem decode_returns_iff (shards : List Shard) :
    (∀ message, e.decode shards ≠ .error (.panic message)) ↔ e.Decodable shards := by
  by_cases hne : shards = []
  · have hdecode : e.decode shards = .error (.error "erasure_coding: no shards supplied") := by
      unfold decode
      rw [if_pos hne]
      rfl
    rw [hdecode]
    exact ⟨fun _ h => absurd hne h, fun _ message h => by simp at h⟩
  · by_cases hfits : ∀ sh ∈ shards, e.Fits sh
    · rw [e.decode_of_fits hne hfits]
      by_cases hcap : 0 ≤ wrap64 (numStripes shards * e.stripeLength) ∧
          wrap64 (numStripes shards * e.stripeLength) ≤ maxAlloc
      · rw [makeSlice_of_fits hcap.1 (by omega)]
        exact (e.loop_returns_iff shards).trans
          ⟨fun h _ _ => ⟨hcap.1, hcap.2, h⟩, fun h => (h hne hfits).2.2⟩
      -- the buffer cannot be allocated
      have hmake : makeSlice "cap" (wrap64 (numStripes shards * e.stripeLength)) 1 =
          .error (.panic "runtime error: makeslice: cap out of range") := by
        unfold makeSlice panicIf
        rw [if_pos (by omega)]
        rfl
      rw [hmake]
      refine ⟨fun h => absurd rfl (h _), fun h => ?_⟩
      have hsafe := h hne hfits
      exact absurd ⟨hsafe.1, hsafe.2.1⟩ hcap
    · have hbad : ∃ sh ∈ shards, ¬ e.Fits sh := by
        by_contra hall
        exact hfits fun sh hmem => by_contra fun hnot => hall ⟨sh, hmem, hnot⟩
      rcases e.decode_of_not_fits hbad with ⟨message, hdecode⟩
      rw [hdecode]
      exact ⟨fun _ _ h => absurd h hfits, fun _ message h => by simp at h⟩

end Encoder

/-! ## 5. A run -/

def mirrorCodec : Codec where
  encode
    | [data, _] => .ok [data, data]
    | _ => .error "too few shards given"
  reconstructData
    | [[], []] => .error "too few shards given"
    | [data, parity] => .ok [if data = [] then parity else data, parity]
    | _ => .error "too few shards given"
  length_reconstructData := by
    intro shards shards' h
    split at h
    · simp at h
    · rw [← Except.ok.inj h]
      rfl
    · simp at h

def mirrorRS : ReedSolomon where
  new dataShards parityShards :=
    if dataShards = 1 ∧ parityShards = 1 then .ok mirrorCodec
    else .error "cannot create Encoder with these shard numbers"
  total_le := by
    intro dataShards parityShards codec h
    split at h
    · omega
    · simp at h

def mirrorEncoder : Encoder mirrorRS where
  profile := { name := "1+1", dataShards := 1, parityShards := 1, stripeSize := 8 }
  codec := mirrorCodec
  shardSize := 8
  valid := rfl
  codec_eq := rfl
  shardSize_eq := by decide

/-- The header declares eight bytes less than the buffer would need in 64 bits. -/
theorem decode_panics :
    mirrorEncoder.decode [⟨0, 0, .data, List.replicate 8 0xff⟩] =
      .error (.panic "runtime error: slice bounds out of range [8:7]") := by
  decide +kernel

end ObjectFabric.ErasureCoding
