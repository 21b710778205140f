import ObjectFabric.ClientSdk.RoundTrip

/-!
# EncryptedSize — the size of a sealed stream before it is sealed

`EncryptedSize` of `encryption/client_sdk/sdk.go`.  The closed form is computed with `math/bits` in
guarded 64-bit steps.  It agrees with what the frame loop emits, and it rejects a length exactly
when that count is no `int64`.
-/

namespace ObjectFabric

open Streams

/-! ## 1. The guarded computation -/

theorem word_guard_iff (x : Nat) :
    (x / 2 ^ 64 ≠ 0 ∨ maxInt64 < x % 2 ^ 64) ↔ maxInt64 < x := by
  unfold maxInt64
  omega

theorem word_eq {x : Nat} (h : ¬ maxInt64 < x) : x % 2 ^ 64 = x := by
  unfold maxInt64 at h
  omega

/-! ## 2. The closed form -/

def numChunks (n chunk : Nat) : Nat := (n + (chunk - 1)) / chunk

def sealedSize (n chunk : Nat) : Nat :=
  n + numChunks n chunk * (chunkHeaderSize + chunkTrailerSize)

theorem numChunks_zero {chunk : Nat} (h : 0 < chunk) : numChunks 0 chunk = 0 := by
  unfold numChunks
  exact Nat.div_eq_of_lt (by omega)

theorem numChunks_last {n chunk : Nat} (hpos : 0 < n) (hle : n ≤ chunk) : numChunks n chunk = 1 := by
  unfold numChunks
  exact Nat.div_eq_of_lt_le (by omega) (by omega)

theorem numChunks_add {n chunk : Nat} (h : 0 < chunk) :
    numChunks (chunk + n) chunk = 1 + numChunks n chunk := by
  unfold numChunks
  rw [Nat.add_assoc, Nat.add_div_left _ h, Nat.add_comm]

theorem sealedSize_overflow {n chunk : Nat} (hpos : 0 < chunk)
    (hsize : chunk + chunkTrailerSize < 2 ^ 32) (h : maxInt64 < n + (chunk - 1)) :
    maxInt64 < sealedSize n chunk := by
  have hdiv := Nat.lt_mul_div_succ (n + (chunk - 1)) hpos
  have hcount : numChunks n chunk = (n + (chunk - 1)) / chunk := rfl
  rw [← hcount] at hdiv
  -- fewer than 2 ^ 30 chunks of less than 2 ^ 32 bytes do not reach 2 ^ 63
  have hmany : 2 ^ 30 ≤ numChunks n chunk := by
    by_contra hfew
    have hle : chunk * (numChunks n chunk + 1) ≤ 2 ^ 32 * 2 ^ 30 :=
      Nat.mul_le_mul (by omega) (by omega)
    unfold maxInt64 at h
    omega
  unfold sealedSize chunkHeaderSize nonceSizeX chunkTrailerSize maxInt64 at *
  omega

theorem encryptedSize_eq (n : Nat) (opts : Options)
    (hsize : opts.chunkSizeOrDefault + chunkTrailerSize < 2 ^ 32) :
    encryptedSize n opts =
      if sealedSize n opts.chunkSizeOrDefault ≤ maxInt64 then
        .ok (sealedSize n opts.chunkSizeOrDefault)
      else
        .error .overflow := by
  have hpos := opts.chunkSizeOrDefault_pos
  unfold encryptedSize add64 mul64
  rw [if_neg (by omega)]
  by_cases hzero : n = 0
  · have hsealed : sealedSize 0 opts.chunkSizeOrDefault = 0 := by
      unfold sealedSize
      rw [numChunks_zero hpos, Nat.zero_mul]
    rw [hzero, hsealed]
    rfl
  · rw [if_neg (by omega), Int.toNat_natCast]
    generalize opts.chunkSizeOrDefault = chunk at *
    simp only [word_guard_iff]
    by_cases hnum : maxInt64 < n + (chunk - 1)
    · -- the first guard
      have hover := sealedSize_overflow hpos hsize hnum
      rw [if_pos hnum, if_neg (by omega)]
    rw [if_neg hnum, word_eq hnum]
    have htotal : sealedSize n chunk = n +
        (n + (chunk - 1)) / chunk * (chunkHeaderSize + chunkTrailerSize) := rfl
    generalize (n + (chunk - 1)) / chunk * (chunkHeaderSize + chunkTrailerSize) = overhead at *
    by_cases hover : maxInt64 < overhead
    · rw [if_pos hover, if_neg (by omega)]
    rw [if_neg hover, word_eq hover, ← htotal]
    by_cases hsum : maxInt64 < sealedSize n chunk
    · rw [if_pos hsum, if_neg (by omega)]
    · rw [if_neg hsum, word_eq hsum, if_pos (by omega)]

/-! ## 3. The frame loop -/

theorem Frame.length_wire {sdk : Sdk} (hsdk : sdk.aead.Correct) {f : Frame} {dek : Bytes}
    (hsealed : f.sealed = sdk.aead.sealWith dek f.nonce.bytes f.plaintext f.aad) :
    f.wire.length = f.plaintext.length + (chunkHeaderSize + chunkTrailerSize) := by
  rw [Frame.wire, List.length_append, List.length_append, f.nonce.size, length_bigEndian, hsealed,
    hsdk.length_seal]
  unfold chunkHeaderSize
  omega

theorem Framed.length_wire {sdk : Sdk} (hsdk : sdk.aead.Correct) {dek chunkAAD : Bytes}
    {chunk : Nat} (hpos : 0 < chunk) {i : UInt64} {fs : List Frame}
    (h : Framed sdk dek chunkAAD chunk i fs) :
    (fs.flatMap Frame.wire).length = sealedSize (fs.flatMap Frame.plaintext).length chunk := by
  induction fs generalizing i with
  | nil =>
    show 0 = sealedSize 0 chunk
    unfold sealedSize
    rw [numChunks_zero hpos, Nat.zero_mul]
  | cons f fs ih => ?_
  rcases h with ⟨-, hsealed, hne, hle, hfull, hrest⟩
  rw [List.flatMap_cons, List.flatMap_cons, List.length_append, List.length_append, ih hrest,
    Frame.length_wire hsdk hsealed]
  unfold sealedSize
  by_cases hlast : fs = []
  · -- the last frame may be short
    rw [hlast, List.flatMap_nil, List.length_nil, numChunks_zero hpos, Nat.add_zero,
      numChunks_last hne hle]
    omega
  · rw [hfull hlast, numChunks_add hpos, Nat.add_mul]
    omega

/-! ## 4. Agreement -/

/-- `EncryptedSize` gives the number of bytes that `EncryptObject` emits, and the overflow error
exactly where this number is no `int64`. -/
theorem encryptedSize_counts_emitted (sdk : Sdk) (hsdk : sdk.aead.Correct) (n : Nat)
    (opts : Options) (hsize : opts.chunkSizeOrDefault + chunkTrailerSize < 2 ^ 32)
    (src : Source UInt8)
    (hsrc : src.contents.length = n) (hfin : src.finish = .eof) (dek : Bytes) (rand : Nat → Nonce)
    (enc : Buffered EncryptReader UInt8) (henc : encryptObject src dek opts rand = .ok enc)
    (sizes : Nat → Nat) (hsizes : ∀ k, 0 < sizes k) :
    ∃ fuel ct, enc.drain (EncryptReader.nextFrame sdk) fuel sizes = (ct, some .eof) ∧
      encryptedSize n opts =
        if ct.length ≤ maxInt64 then .ok ct.length else .error .overflow := by
  rcases encryptObject_frames hfin henc with ⟨fs, hframed, hplain, hdrain⟩
  rcases hdrain sizes hsizes with ⟨fuel, hfuel⟩
  refine ⟨fuel, _, hfuel, ?_⟩
  rw [hframed.length_wire hsdk opts.chunkSizeOrDefault_pos, hplain, hsrc]
  exact encryptedSize_eq n opts hsize

/-- Five bytes in two chunks take 93. -/
theorem encryptedSize_counts_emitted_sample :
    let src : Source UInt8 := { segments := [[], [97, 98, 99], [100, 101]], eager := true }
    ∃ enc, encryptObject src sampleDek sampleOptions (fun _ => sampleNonce) = .ok enc ∧
      ∃ fuel ct, enc.drain (EncryptReader.nextFrame sampleSdk) fuel (fun _ => 1) =
          (ct, some .eof) ∧
        encryptedSize 5 sampleOptions =
          if ct.length ≤ maxInt64 then .ok ct.length else .error .overflow :=
  ⟨_, rfl, encryptedSize_counts_emitted sampleSdk sampleAead_correct 5 sampleOptions
    (by decide) _ rfl rfl sampleDek _ _ rfl (fun _ => 1) fun _ => Nat.one_pos⟩

example : encryptedSize 5 sampleOptions = .ok 93 := by rfl

example : encryptedSize maxInt64 {} = .error .overflow := by rfl

end ObjectFabric
