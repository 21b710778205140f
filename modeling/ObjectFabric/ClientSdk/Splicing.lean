import ObjectFabric.ClientSdk.RoundTrip

/-!
# Splicing — frames bound to their place

The additional data of a frame is the object's own context and the number of the chunk.  With an
AEAD that opens nothing but what was sealed, a decrypting reader in one object's context can only
take that object's frames, in their order from the first on, whatever bytes it is given.
-/

namespace ObjectFabric

open Streams

/-! ## 1. The additional data -/

theorem chunkAADBytes_inj {a b : Bytes} {i j : UInt64} (ha : a ≠ []) (hb : b ≠ [])
    (h : chunkAADBytes a i = chunkAADBytes b j) : a = b ∧ i = j := by
  rw [chunkAADBytes, chunkAADBytes, if_neg ha, if_neg hb] at h
  have hlen : (bigEndian 8 i.toNat).length = (bigEndian 8 j.toNat).length := by
    rw [length_bigEndian, length_bigEndian]
  rcases List.append_inj' h hlen with ⟨hcontext, hindex⟩
  have hbound : ∀ k : UInt64, k.toNat < 256 ^ 8 := by
    intro k
    have hk := k.toNat_lt
    rwa [show 256 ^ 8 = 2 ^ 64 from rfl]
  refine ⟨List.append_cancel_right hcontext, UInt64.toNat_inj.mp ?_⟩
  exact bigEndian_inj (hbound i) (hbound j) hindex

/-! ## 2. What was sealed -/

section

variable {sdk : Sdk}

theorem EncryptReader.frames_get_reader {fuel m : Nat} {r : EncryptReader} {f : Frame}
    (h : (r.frames sdk fuel)[m]? = some f) :
    ∃ rm : EncryptReader,
      f = rm.sealChunk sdk ((r.src.contents.drop (m * r.chunkSize)).take r.chunkSize) ∧
      rm.chunkIndex = r.chunkIndex + UInt64.ofNat m ∧ rm.chunkAAD = r.chunkAAD ∧
      rm.dek = r.dek ∧ rm.convergent = r.convergent ∧
      m * r.chunkSize ≤ r.src.contents.length := by
  induction fuel generalizing m r with
  | zero => simp [frames] at h
  | succ fuel ih => ?_
  rw [frames] at h
  rcases hnext : r.sealNext sdk with e | result
  · simp [hnext] at h
  rcases result with ⟨frame, last, r'⟩
  simp only [hnext] at h
  rcases sealNext_ok hnext with ⟨hnone, hlast⟩ | ⟨hsome, hlong, src, hsrc, hr'⟩
  · simp [hnone, hlast] at h
  rw [hsome] at h
  cases m with
  | zero =>
    -- the chunk that this step seals
    have hf : r.sealChunk sdk (r.src.contents.take r.chunkSize) = f := Option.some.inj h
    have hindex : r.chunkIndex = r.chunkIndex + UInt64.ofNat 0 :=
      (UInt64.add_zero r.chunkIndex).symm
    rw [Nat.zero_mul]
    exact ⟨r, hf.symm, hindex, rfl, rfl, rfl, Nat.zero_le _⟩
  | succ m => ?_
  cases last with
  | true => simp at h
  | false => ?_
  have hrest : (r'.frames sdk fuel)[m]? = some f := h
  have hfull := hlong rfl
  rw [hr'] at hrest
  rcases ih hrest with ⟨rm, hf, hindex, haad, hdek, hconv, hsize⟩
  have hplain : f = rm.sealChunk sdk
      ((src.contents.drop (m * r.chunkSize)).take r.chunkSize) := hf
  have hindex' : rm.chunkIndex = r.chunkIndex + 1 + UInt64.ofNat m := hindex
  have hsize' : m * r.chunkSize ≤ src.contents.length := hsize
  have hmul : (m + 1) * r.chunkSize = r.chunkSize + m * r.chunkSize := by
    rw [Nat.add_mul, Nat.one_mul, Nat.add_comm]
  refine ⟨rm, ?_, ?_, haad, hdek, hconv, ?_⟩
  · rw [hplain, hsrc, List.drop_drop, hmul]
  · rw [hindex', UInt64.ofNat_add, UInt64.add_assoc, UInt64.add_comm 1]
    rfl
  · rw [hsrc, List.length_drop] at hsize'
    omega

theorem EncryptReader.frames_get {fuel m : Nat} {r : EncryptReader} {f : Frame}
    (h : (r.frames sdk fuel)[m]? = some f) :
    f.aad = chunkAADBytes r.chunkAAD (r.chunkIndex + UInt64.ofNat m) ∧
      f.plaintext = (r.src.contents.drop (m * r.chunkSize)).take r.chunkSize ∧
      m * r.chunkSize ≤ r.src.contents.length := by
  rcases frames_get_reader h with ⟨rm, hf, hindex, haad, -, -, hsize⟩
  rw [hf]
  refine ⟨?_, rfl, hsize⟩
  show chunkAADBytes rm.chunkAAD rm.chunkIndex = _
  rw [hindex, haad]

/-- An object under the key: a call of `EncryptObject` that was accepted, with a context. -/
structure SealedObject (dek : Bytes) where
  src : Source UInt8
  opts : Options
  rand : Nat → Nonce
  reader : Buffered EncryptReader UInt8
  encrypted : encryptObject src dek opts rand = .ok reader
  context : opts.chunkAAD ≠ []
  /-- Object sizes are `int64` numbers. -/
  size_le : src.contents.length ≤ maxInt64

namespace SealedObject

variable {dek : Bytes}

def Seals (sdk : Sdk) (o : SealedObject dek) (f : Frame) : Prop :=
  ∃ fuel, f ∈ o.reader.inner.frames sdk fuel

def chunkSize (o : SealedObject dek) : Nat := o.opts.chunkSizeOrDefault

theorem Seals.exists_index {o : SealedObject dek} {f : Frame} (h : o.Seals sdk f) :
    ∃ m : Nat, f.aad = chunkAADBytes o.opts.chunkAAD (UInt64.ofNat m) ∧
      f.plaintext = (o.src.contents.drop (m * o.chunkSize)).take o.chunkSize ∧
      m * o.chunkSize ≤ o.src.contents.length := by
  rcases h with ⟨fuel, hmem⟩
  rcases List.mem_iff_getElem?.mp hmem with ⟨m, hm⟩
  rcases encryptObject_eq_ok o.encrypted with ⟨-, -, hreader⟩
  rw [hreader] at hm
  rcases EncryptReader.frames_get hm with ⟨haad, hplain, hsize⟩
  refine ⟨m, ?_, hplain, hsize⟩
  rw [haad]
  show chunkAADBytes o.opts.chunkAAD (0 + UInt64.ofNat m) = _
  rw [UInt64.zero_add]

end SealedObject

/-- `Open` succeeds only on the nonce, additional data and ciphertext of a frame of one of the
objects, and gives its plaintext. -/
def Sdk.Ideal (sdk : Sdk) {dek : Bytes} {ι : Type} (objects : ι → SealedObject dek) : Prop :=
  ∀ nonce ct aad pt, sdk.aead.openWith dek nonce ct aad = some pt →
    ∃ i f, (objects i).Seals sdk f ∧ f.nonce.bytes = nonce ∧ f.aad = aad ∧ f.sealed = ct ∧
      f.plaintext = pt

/-! ## 3. What a reader delivers -/

section

variable {dek : Bytes} {ι : Type} {objects : ι → SealedObject dek}

theorem Sdk.Ideal.open_eq (hideal : sdk.Ideal objects)
    (hinj : Function.Injective fun i => (objects i).opts.chunkAAD) {i : ι} {k : UInt64}
    {nonce ct pt : Bytes} (hopen : sdk.aead.openWith dek nonce ct
      (chunkAADBytes (objects i).opts.chunkAAD k) = some pt) :
    pt = ((objects i).src.contents.drop (k.toNat * (objects i).chunkSize)).take
        (objects i).chunkSize ∧ k.toNat ≤ maxInt64 := by
  rcases hideal nonce ct _ pt hopen with ⟨i', f, hseals, -, haad, -, hpt⟩
  rcases hseals.exists_index with ⟨m, haad', hplain, hsize⟩
  rcases chunkAADBytes_inj (objects i').context (objects i).context (haad'.symm.trans haad) with
    ⟨hcontext, hindex⟩
  have hi : i' = i := hinj hcontext
  subst hi
  -- an object has too few chunks for the index to wrap around
  have hm : m ≤ maxInt64 := by
    have hpos : 1 ≤ (objects i').chunkSize := (objects i').opts.chunkSizeOrDefault_pos
    have hlen := (objects i').size_le
    have hmul : m * 1 ≤ m * (objects i').chunkSize := Nat.mul_le_mul_left m hpos
    omega
  have hk : k.toNat = m := by
    rw [← hindex, UInt64.toNat_ofNat']
    apply Nat.mod_eq_of_lt
    unfold maxInt64 at hm
    omega
  rw [hk]
  exact ⟨hpt.symm.trans hplain, hm⟩

theorem DecryptReader.yields_chunks (hideal : sdk.Ideal objects)
    (hinj : Function.Injective fun i => (objects i).opts.chunkAAD) (i : ι) (r : DecryptReader)
    (hdek : r.dek = dek) (hcontext : r.chunkAAD = (objects i).opts.chunkAAD) :
    ∃ j e, Yields (nextFrame sdk) r
      (((objects i).src.contents.drop (r.chunkIndex.toNat * (objects i).chunkSize)).take
        (j * (objects i).chunkSize)) e := by
  -- each frame takes some bytes of the stream
  induction hlen : r.src.contents.length using Nat.strongRecOn generalizing r with
  | ind len ih => ?_
  rcases r.nextFrame_cases with ⟨e, hnext⟩ | ⟨r', hnext⟩ | ⟨nonce, ct, pt, src, hshort, hopen, hnext⟩
  · refine ⟨0, e, ?_⟩
    rw [Nat.zero_mul, List.take_zero]
    exact .fails hnext
  · refine ⟨0, .eof, ?_⟩
    rw [Nat.zero_mul, List.take_zero]
    exact .ends hnext
  · rw [hdek, hcontext] at hopen
    rcases hideal.open_eq hinj hopen with ⟨hpt, hindex⟩
    by_cases hlast : pt.length < r.chunkSize
    · -- a short frame ends the stream
      rw [decide_eq_true hlast] at hnext
      refine ⟨1, .eof, ?_⟩
      rw [Nat.one_mul, ← hpt]
      exact .ends hnext
    · rw [decide_eq_false hlast] at hnext
      rcases ih src.contents.length (by omega)
        { r with src, chunkIndex := r.chunkIndex + 1 } hdek hcontext rfl with ⟨j, e, hrest⟩
      have hsucc : (r.chunkIndex + 1).toNat = r.chunkIndex.toNat + 1 := by
        rw [UInt64.toNat_add]
        apply Nat.mod_eq_of_lt
        show r.chunkIndex.toNat + 1 < 2 ^ 64
        unfold maxInt64 at hindex
        omega
      simp only [hsucc] at hrest
      refine ⟨j + 1, e, ?_⟩
      rw [Nat.add_mul j, Nat.one_mul, Nat.add_comm (j * _), List.take_add, ← hpt, List.drop_drop,
        ← Nat.succ_mul]
      exact .more hnext hrest

end

/-- Whatever the stream, its end and the caller's buffers, what is delivered is the first `j` chunks
of the object whose context the reader is in. -/
theorem decrypt_delivers_chunks (sdk : Sdk) (dek : Bytes) (ι : Type)
    (objects : ι → SealedObject dek)
    (hinj : Function.Injective fun i => (objects i).opts.chunkAAD) (hideal : sdk.Ideal objects)
    (i : ι) (src : Source UInt8) (opts : Options) (hopts : opts.chunkAAD = (objects i).opts.chunkAAD)
    (sizes : Nat → Nat) (hsizes : ∀ n, 0 < sizes n) :
    ∃ dec, decryptObject src dek opts = .ok dec ∧ ∃ fuel j e,
      dec.drain (DecryptReader.nextFrame sdk) fuel sizes =
        ((objects i).src.contents.take (j * (objects i).chunkSize), some e) := by
  have hkey : dek.length = 32 := (encryptObject_eq_ok (objects i).encrypted).1
  rcases DecryptReader.yields_chunks hideal hinj i (decryptReader src dek opts) rfl hopts with
    ⟨j, e, hyields⟩
  rcases Buffered.drain_of_yields DecryptReader.nextFrame_productive hyields sizes hsizes with
    ⟨fuel, hfuel⟩
  refine ⟨_, decryptObject_of_key hkey opts, fuel, j, e, ?_⟩
  rw [hfuel]
  show ((List.drop (0 * _) _).take _, _) = _
  rw [Nat.zero_mul, List.drop_zero]

end

def idealAead : Aead where
  sealWith := sampleAead.sealWith
  openWith key nonce ciphertext aad :=
    if key = sampleDek ∧ nonce = sampleNonce.bytes ∧ ciphertext = sampleSealed ∧
        aad = sampleAAD then
      some [97]
    else
      none

def idealSdk : Sdk where
  aead := idealAead
  deriveConvergentNonce _ _ := sampleNonce

def sampleObject : SealedObject sampleDek where
  src := { segments := [[97]] }
  opts := sampleOptions
  rand _ := sampleNonce
  reader := ⟨encryptReader { segments := [[97]] } sampleDek sampleOptions fun _ => sampleNonce, [],
    false⟩
  encrypted := rfl
  context := by decide
  size_le := by decide

theorem idealSdk_ideal : idealSdk.Ideal fun _ : Unit => sampleObject := by
  intro nonce ct aad pt hopen
  simp only [idealSdk, idealAead] at hopen
  split at hopen
  · rename_i hsample
    rcases hsample with ⟨-, hnonce, hct, haad⟩
    refine ⟨(), ⟨sampleNonce, [97], sampleAAD, sampleSealed⟩, ⟨1, ?_⟩, hnonce.symm, haad.symm,
      hct.symm, Option.some.inj hopen⟩
    exact List.mem_singleton.mpr rfl
  · simp at hopen

/-- The stream repeats the object's frame. -/
theorem decrypt_delivers_chunks_repeated :
    let wire := (Frame.mk sampleNonce [97] sampleAAD sampleSealed).wire
    ∃ dec, decryptObject { segments := [wire, wire] } sampleDek { sampleOptions with chunkSize := 1 } =
        .ok dec ∧ ∃ fuel j e, dec.drain (DecryptReader.nextFrame idealSdk) fuel (fun _ => 1) =
          (sampleObject.src.contents.take (j * sampleObject.chunkSize), some e) :=
  decrypt_delivers_chunks idealSdk sampleDek Unit (fun _ => sampleObject) (fun _ _ _ => rfl)
    idealSdk_ideal () _ { sampleOptions with chunkSize := 1 } rfl (fun _ => 1) fun _ => Nat.one_pos

end ObjectFabric
