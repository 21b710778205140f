import ObjectFabric.ClientSdk.Splicing

/-!
# Convergent — keys and nonces derived from the content

`DeriveConvergentDEK` of `encryption/client_sdk/keygen.go` and `deriveConvergentNonce` of `sdk.go`.
Two calls that encrypt one plaintext for one tenant share the key and, chunk number by chunk number,
the nonces.  The chunk size takes no part in the derivation, so a nonce is safe only while the
callers cut the plaintext alike.
-/

namespace ObjectFabric

open Streams

/-! ## 1. Derivation -/

structure Kdf where
  hkdf (secret salt info : Bytes) (size : Nat) : Bytes
  length_hkdf : ∀ secret salt info size, (hkdf secret salt info size).length = size
  blake3 : Bytes → Bytes

def stringBytes (s : String) : Bytes := s.toUTF8.data.toList

def convergentDEKInfo : String := "zkof-convergent-dek-v1"

def convergentNonceInfo : String := "zkof-nonce-v1"

/-- `chacha20poly1305.KeySize` -/
def keySize : Nat := 32

section

variable (kdf : Kdf)

def deriveConvergentDEK (contentHash : Bytes) (tenantID : String) : Except String Bytes :=
  if contentHash = [] then
    .error "client_sdk: convergent DEK: contentHash is required"
  else if tenantID = "" then
    .error "client_sdk: convergent DEK: tenantID is required"
  else
    .ok (kdf.hkdf contentHash (stringBytes tenantID) (stringBytes convergentDEKInfo) keySize)

def nonceInfo (chunkIndex : UInt64) : Bytes :=
  stringBytes convergentNonceInfo ++ bigEndian 8 chunkIndex.toNat

def deriveConvergentNonce (dek : Bytes) (chunkIndex : UInt64) : Nonce :=
  ⟨kdf.hkdf dek [] (nonceInfo chunkIndex) nonceSizeX, kdf.length_hkdf _ _ _ _⟩

def convergentSdk (aead : Aead) : Sdk := ⟨aead, deriveConvergentNonce kdf⟩

end

theorem deriveConvergentDEK_eq_ok {kdf : Kdf} {contentHash dek : Bytes} {tenantID : String}
    (h : deriveConvergentDEK kdf contentHash tenantID = .ok dek) :
    dek = kdf.hkdf contentHash (stringBytes tenantID) (stringBytes convergentDEKInfo) keySize := by
  unfold deriveConvergentDEK at h
  split at h
  · simp at h
  · split at h
    · simp at h
    · exact (Except.ok.inj h).symm

/-! ## 2. Calls -/

/-- A call of `EncryptObject` in the convergent mode, under the key of its plaintext. -/
structure ConvergentCall (kdf : Kdf) where
  tenantID : String
  src : Source UInt8
  opts : Options
  rand : Nat → Nonce
  dek : Bytes
  reader : Buffered EncryptReader UInt8
  convergent : opts.convergentNonce = true
  derived : deriveConvergentDEK kdf (kdf.blake3 src.contents) tenantID = .ok dek
  encrypted : encryptObject src dek opts rand = .ok reader
  finish : src.finish = .eof
  /-- BLAKE3 hashes at most `2 ^ 64 - 1` bytes. -/
  size_lt : src.contents.length < 2 ^ 64

namespace ConvergentCall

variable {kdf : Kdf} (aead : Aead)

def Seals (c : ConvergentCall kdf) (f : Frame) : Prop :=
  ∃ fuel, f ∈ c.reader.inner.frames (convergentSdk kdf aead) fuel

def plaintext (c : ConvergentCall kdf) : Bytes := c.src.contents

def chunkSize (c : ConvergentCall kdf) : Nat := c.opts.chunkSizeOrDefault

structure NoCollision (a b : ConvergentCall kdf) : Prop where
  blake3 : kdf.blake3 a.plaintext = kdf.blake3 b.plaintext → a.plaintext = b.plaintext
  dek : a.dek = b.dek →
    kdf.blake3 a.plaintext = kdf.blake3 b.plaintext ∧ a.tenantID = b.tenantID
  nonce : ∀ i j, kdf.hkdf a.dek [] (nonceInfo i) nonceSizeX =
    kdf.hkdf a.dek [] (nonceInfo j) nonceSizeX → i = j

def ReusesNonce (a b : ConvergentCall kdf) : Prop :=
  ∃ f g, a.Seals aead f ∧ b.Seals aead g ∧ a.dek = b.dek ∧ f.nonce.bytes = g.nonce.bytes ∧
    f.plaintext ≠ g.plaintext

variable {aead}

theorem reader_eq (c : ConvergentCall kdf) :
    c.reader = ⟨encryptReader c.src c.dek c.opts c.rand, [], false⟩ :=
  (encryptObject_eq_ok c.encrypted).2.2

theorem Seals.exists_index {c : ConvergentCall kdf} {f : Frame} (h : c.Seals aead f) :
    ∃ m : Nat, f.nonce.bytes = kdf.hkdf c.dek [] (nonceInfo (UInt64.ofNat m)) nonceSizeX ∧
      f.plaintext = (c.plaintext.drop (m * c.chunkSize)).take c.chunkSize ∧
      m * c.chunkSize ≤ c.plaintext.length := by
  rcases h with ⟨fuel, hmem⟩
  rcases List.mem_iff_getElem?.mp hmem with ⟨m, hm⟩
  rw [c.reader_eq] at hm
  rcases EncryptReader.frames_get_reader hm with ⟨rm, hf, hindex, -, hdek, hconv, hsize⟩
  have hindex' : rm.chunkIndex = UInt64.ofNat m := hindex.trans (UInt64.zero_add _)
  have hdek' : rm.dek = c.dek := hdek
  have hconv' : rm.convergent = true := hconv.trans c.convergent
  refine ⟨m, ?_, ?_, hsize⟩
  · rw [hf]
    show (rm.nonce (convergentSdk kdf aead)).bytes = _
    unfold EncryptReader.nonce
    rw [hconv', if_pos rfl, hindex', hdek']
    rfl
  · rw [hf]
    rfl

theorem seals_first (aead : Aead) (c : ConvergentCall kdf) (hne : c.plaintext ≠ []) :
    ∃ f, c.Seals aead f ∧ f.nonce.bytes = kdf.hkdf c.dek [] (nonceInfo 0) nonceSizeX ∧
      f.plaintext = c.plaintext.take c.chunkSize := by
  have hcases := @EncryptReader.sealNext_cases (convergentSdk kdf aead)
    (encryptReader c.src c.dek c.opts c.rand) c.finish
  have hreader : c.reader.inner = encryptReader c.src c.dek c.opts c.rand := by rw [c.reader_eq]
  have hconv : (encryptReader c.src c.dek c.opts c.rand).convergent = true := c.convergent
  have hplain : (encryptReader c.src c.dek c.opts c.rand).src.contents = c.plaintext := rfl
  have hsize : (encryptReader c.src c.dek c.opts c.rand).chunkSize = c.chunkSize := rfl
  have hdek : (encryptReader c.src c.dek c.opts c.rand).dek = c.dek := rfl
  have hindex : (encryptReader c.src c.dek c.opts c.rand).chunkIndex = 0 := rfl
  generalize encryptReader c.src c.dek c.opts c.rand = r at *
  rw [hplain] at hcases
  refine ⟨r.sealChunk (convergentSdk kdf aead) (c.plaintext.take c.chunkSize), ⟨1, ?_⟩, ?_, rfl⟩
  · rw [hreader, EncryptReader.frames]
    rcases hcases with ⟨src, -, -, ⟨hnil, -⟩ | ⟨-, hshort, hnext⟩ | ⟨-, hnext⟩⟩
    · exact absurd hnil hne
    · rw [hnext, List.take_of_length_le (by omega)]
      exact List.mem_cons_self
    · rw [hnext, hsize]
      exact List.mem_cons_self
  · show (r.nonce (convergentSdk kdf aead)).bytes = _
    unfold EncryptReader.nonce
    rw [hconv, if_pos rfl, hdek, hindex]
    rfl

/-! ## 3. When a nonce is safe -/

/-- Chunks of one plaintext with one number agree when the chunk sizes do, and when the plaintext is
a single chunk for both. -/
theorem chunk_eq {p : Bytes} {m c c' : Nat} (h : c = c' ∨ p.length ≤ min c c') :
    (p.drop (m * c)).take c = (p.drop (m * c')).take c' := by
  rcases h with h | h
  · rw [h]
  cases m with
  | zero =>
    rw [Nat.zero_mul, Nat.zero_mul, List.drop_zero, List.take_of_length_le (by omega),
      List.take_of_length_le (by omega)]
  | succ m => ?_
  have hc : p.length ≤ (m + 1) * c := by
    rw [Nat.add_mul, Nat.one_mul]
    omega
  have hc' : p.length ≤ (m + 1) * c' := by
    rw [Nat.add_mul, Nat.one_mul]
    omega
  rw [List.drop_of_length_le hc, List.drop_of_length_le hc', List.take_nil, List.take_nil]

theorem index_lt (c : ConvergentCall kdf) {m : Nat} (h : m * c.chunkSize ≤ c.plaintext.length) :
    m < 2 ^ 64 := by
  have hpos : 0 < c.chunkSize := c.opts.chunkSizeOrDefault_pos
  have hsize : c.plaintext.length < 2 ^ 64 := c.size_lt
  have hle : m ≤ m * c.chunkSize := Nat.le_mul_of_pos_right m hpos
  omega

/-- Nonces are not reused exactly when two calls on one plaintext of one tenant use one chunk size
or have the whole plaintext in one chunk. -/
theorem not_reusesNonce_iff (aead : Aead) (a b : ConvergentCall kdf) (hkdf : a.NoCollision b) :
    ¬ a.ReusesNonce aead b ↔ (a.tenantID = b.tenantID → a.plaintext = b.plaintext →
      a.chunkSize = b.chunkSize ∨ a.plaintext.length ≤ min a.chunkSize b.chunkSize) := by
  constructor
  · intro hsafe htenant hplain
    by_contra hsizes
    have hne : a.plaintext ≠ [] := by
      intro hnil
      exact hsizes (Or.inr (by rw [hnil]; exact Nat.zero_le _))
    have hdek : a.dek = b.dek := by
      have hplain' : a.src.contents = b.src.contents := hplain
      rw [deriveConvergentDEK_eq_ok a.derived, deriveConvergentDEK_eq_ok b.derived, hplain',
        htenant]
    rcases a.seals_first aead hne with ⟨f, hf, hfn, hfp⟩
    rcases b.seals_first aead (by rw [← hplain]; exact hne) with ⟨g, hg, hgn, hgp⟩
    apply hsafe
    refine ⟨f, g, hf, hg, hdek, by rw [hfn, hgn, hdek], ?_⟩
    -- the first chunks have different lengths
    intro heq
    rw [hfp, hgp, ← hplain] at heq
    have hlen := congrArg List.length heq
    rw [List.length_take, List.length_take] at hlen
    omega
  · rintro hcond ⟨f, g, hf, hg, hdek, hnonce, hdiff⟩
    rcases hf.exists_index with ⟨m, hfn, hfp, hm⟩
    rcases hg.exists_index with ⟨n, hgn, hgp, hn⟩
    have hsame := hkdf.dek hdek
    have hplain := hkdf.blake3 hsame.1
    -- equal nonces under the key: the chunks have one number
    have hindex : UInt64.ofNat m = UInt64.ofNat n := by
      apply hkdf.nonce
      rw [← hfn, hnonce, hgn, hdek]
    have hmn : m = n := by
      have hnat := congrArg UInt64.toNat hindex
      rwa [UInt64.toNat_ofNat_of_lt' (a.index_lt hm), UInt64.toNat_ofNat_of_lt' (b.index_lt hn)]
        at hnat
    apply hdiff
    rw [hfp, hgp, ← hplain, hmn]
    exact chunk_eq (hcond hsame.2 hplain)

end ConvergentCall

/-! ## 4. Runs -/

/-- BLAKE3 of `ab`. -/
def sampleDigest : Bytes :=
  [0x2d, 0xc9, 0x99, 0x99, 0xa6, 0xaa, 0xef, 0x3f, 0x20, 0x34, 0x9d, 0x2e, 0xd4, 0x05, 0x7a, 0x2b,
    0x54, 0x41, 0x95, 0x45, 0xda, 0xbb, 0x80, 0x9e, 0x63, 0x81, 0xde, 0x1b, 0xad, 0x83, 0x37, 0xe2]

/-- The key derived from it for the tenant `tenant`. -/
def convergentDek : Bytes :=
  [0x44, 0xfd, 0xf8, 0x4e, 0xa9, 0x74, 0x79, 0xe9, 0x4e, 0xf7, 0x81, 0x3d, 0xfb, 0xc0, 0xb4, 0x3e,
    0xf0, 0x34, 0x7f, 0x96, 0x50, 0x84, 0x31, 0x9d, 0x87, 0xcd, 0x69, 0x99, 0x47, 0xd7, 0x16, 0xab]

def convergentNonces : List Bytes :=
  [[0xa2, 0x37, 0x7c, 0x32, 0x1a, 0x0c, 0xf6, 0x49, 0xfe, 0xd9, 0x2c, 0x77, 0x72, 0x15, 0xda, 0x28,
    0x88, 0x9a, 0x28, 0xa6, 0x5b, 0x98, 0xe0, 0x43],
   [0xc0, 0xc7, 0x2c, 0x2b, 0xe8, 0x57, 0x6e, 0x35, 0xe5, 0x2f, 0xa1, 0xb4, 0x23, 0x27, 0xe0, 0x1f,
    0xdf, 0x26, 0x55, 0x81, 0x5c, 0xc9, 0xf8, 0x0c]]

def sampleHkdf (secret salt info : Bytes) (size : Nat) : Bytes :=
  if size = keySize ∧ secret = sampleDigest ∧ salt = stringBytes "tenant" ∧
      info = stringBytes convergentDEKInfo then
    convergentDek
  else if size = nonceSizeX ∧ secret = convergentDek ∧ salt = [] ∧ info = nonceInfo 0 then
    convergentNonces[0]
  else if size = nonceSizeX ∧ secret = convergentDek ∧ salt = [] ∧ info = nonceInfo 1 then
    convergentNonces[1]
  else
    (List.replicate size 0 ++ info).drop info.length

def sampleKdf : Kdf where
  hkdf := sampleHkdf
  length_hkdf := by
    intro secret salt info size
    unfold sampleHkdf
    split
    · rename_i h
      rw [h.1]
      rfl
    split
    · rename_i h
      rw [h.1]
      rfl
    split
    · rename_i h
      rw [h.1]
      rfl
    · rw [List.length_drop, List.length_append, List.length_replicate, Nat.add_sub_cancel]
  blake3 := fun b => if b = [97, 98] then sampleDigest else b

def convergentAead : Aead where
  sealWith key nonce plaintext aad :=
    if key = convergentDek ∧ nonce = convergentNonces[0] ∧ plaintext = [97] ∧ aad = [] then
      [0xe9, 0x40, 0x23, 0x8d, 0xed, 0x3e, 0x9d, 0xad, 0x6e, 0x4f, 0x73, 0xb1, 0x59, 0xb3, 0xd1, 0xe0,
        0xd3]
    else if key = convergentDek ∧ nonce = convergentNonces[0] ∧ plaintext = [97, 98] ∧ aad = [] then
      [0xe9, 0x84, 0x8a, 0x2b, 0xed, 0x5d, 0xdb, 0xa0, 0xc1, 0x9e, 0x72, 0x84, 0xf6, 0x16, 0x59, 0x71,
        0x25, 0xf1]
    else if key = convergentDek ∧ nonce = convergentNonces[1] ∧ plaintext = [98] ∧ aad = [] then
      [0xb7, 0xe6, 0x65, 0xdd, 0xda, 0xac, 0xc3, 0x7e, 0xcc, 0x12, 0x69, 0x25, 0x47, 0x5f, 0x5e, 0xc1,
        0xed]
    else
      plaintext ++ List.replicate 16 0
  openWith _ _ _ _ := none

/-- The tenant encrypts `ab` in chunks of the given size. -/
def sampleCall (chunkSize : Int) : ConvergentCall sampleKdf where
  tenantID := "tenant"
  src := { segments := [[97, 98]] }
  opts := { chunkSize, convergentNonce := true }
  rand := fun _ => sampleNonce
  dek := convergentDek
  reader := ⟨encryptReader { segments := [[97, 98]] } convergentDek
    { chunkSize, convergentNonce := true } fun _ => sampleNonce, [], false⟩
  convergent := rfl
  derived := by decide
  encrypted := rfl
  finish := rfl
  size_lt := by decide

theorem nonceInfo_injective : Function.Injective nonceInfo := by
  intro i j h
  have hbytes := List.append_cancel_left h
  exact UInt64.toNat_inj.mp (bigEndian_inj i.toNat_lt j.toNat_lt hbytes)

theorem sampleKdf_nonce (i : UInt64) :
    sampleKdf.hkdf convergentDek [] (nonceInfo i) nonceSizeX =
      if i = 0 then convergentNonces[0] else if i = 1 then convergentNonces[1]
      else [0, 0, 0] ++ nonceInfo i := by
  show sampleHkdf convergentDek [] (nonceInfo i) nonceSizeX = _
  have hsize : ¬ nonceSizeX = keySize := by decide
  have hlen : (nonceInfo i).length = 21 := by
    unfold nonceInfo
    rw [List.length_append, length_bigEndian]
    rfl
  unfold sampleHkdf
  simp only [hsize, false_and, if_false, true_and, nonceInfo_injective.eq_iff, hlen]
  split
  · rfl
  split
  · rfl
  · show ((List.replicate 21 0 ++ [0, 0, 0]) ++ nonceInfo i).drop 21 = _
    rw [List.append_assoc, List.drop_left' (by rw [List.length_replicate])]

theorem sampleKdf_nonce_injective (i j : UInt64)
    (h : sampleKdf.hkdf convergentDek [] (nonceInfo i) nonceSizeX =
      sampleKdf.hkdf convergentDek [] (nonceInfo j) nonceSizeX) : i = j := by
  rw [sampleKdf_nonce, sampleKdf_nonce] at h
  -- the two derived nonces differ and do not start with a zero byte
  have hne : convergentNonces[0] ≠ convergentNonces[1] := by decide
  have hzero : ∀ rest : Bytes, convergentNonces[0] ≠ [0, 0, 0] ++ rest := by
    simp [convergentNonces]
  have hone : ∀ rest : Bytes, convergentNonces[1] ≠ [0, 0, 0] ++ rest := by
    simp [convergentNonces]
  have hrest : [0, 0, 0] ++ nonceInfo i = [0, 0, 0] ++ nonceInfo j → i = j := by
    intro heq
    exact nonceInfo_injective (List.append_cancel_left heq)
  split_ifs at h <;> grind

theorem not_reusesNonce_iff_sample :
    ¬ (sampleCall 1).ReusesNonce convergentAead (sampleCall 1) ∧
      ((sampleCall 1).tenantID = (sampleCall 1).tenantID →
        (sampleCall 1).plaintext = (sampleCall 1).plaintext →
        (sampleCall 1).chunkSize = (sampleCall 1).chunkSize ∨
          (sampleCall 1).plaintext.length ≤
            min (sampleCall 1).chunkSize (sampleCall 1).chunkSize) := by
  have hiff := ConvergentCall.not_reusesNonce_iff convergentAead (sampleCall 1) (sampleCall 1)
    ⟨fun _ => rfl, fun _ => ⟨rfl, rfl⟩, sampleKdf_nonce_injective⟩
  exact ⟨hiff.mpr fun _ _ => Or.inl rfl, fun _ _ => Or.inl rfl⟩

/-- With chunks of one and of two bytes the first nonce seals `a` and `ab`. -/
theorem nonce_reused_across_chunk_sizes :
    (sampleCall 1).ReusesNonce convergentAead (sampleCall 2) := by
  rcases (sampleCall 1).seals_first convergentAead (by decide) with ⟨f, hf, hfn, hfp⟩
  rcases (sampleCall 2).seals_first convergentAead (by decide) with ⟨g, hg, hgn, hgp⟩
  have hfp' : f.plaintext = [97] := hfp
  have hgp' : g.plaintext = [97, 98] := hgp
  refine ⟨f, g, hf, hg, rfl, hfn.trans hgn.symm, ?_⟩
  rw [hfp', hgp']
  decide

end ObjectFabric
