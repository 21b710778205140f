import ObjectFabric.ClientSdk.Sdk

/-!
# RoundTrip — decrypting what was encrypted

Reading an encrypting reader to its end gives the wire form of its frames, whatever the source's
pieces and the caller's buffers; the frames cut the plaintext into chunks that all have the full
size but the last.  A decrypting reader over these bytes delivers the plaintext.
-/

namespace ObjectFabric

open Streams

/-- `Open` inverts `Seal`, and `Seal` appends the tag. -/
structure Aead.Correct (aead : Aead) : Prop where
  length_seal : ∀ key nonce plaintext aad,
    (aead.sealWith key nonce plaintext aad).length = plaintext.length + chunkTrailerSize
  open_seal : ∀ key nonce plaintext aad,
    aead.openWith key nonce (aead.sealWith key nonce plaintext aad) aad = some plaintext

/-! ## 1. Frames -/

section

variable {sdk : Sdk}

theorem Frame.wire_ne_nil (f : Frame) : f.wire ≠ [] := by
  intro hnil
  have hlen := congrArg List.length hnil
  simp only [Frame.wire, List.length_append, f.nonce.size, length_bigEndian, nonceSizeX,
    List.length_nil] at hlen
  omega

/-- A step of the reader finds the end of the plaintext or seals the next chunk, however the source
ends. -/
theorem EncryptReader.sealNext_ok {r r' : EncryptReader} {frame : Option Frame} {last : Bool}
    (h : r.sealNext sdk = .ok (frame, last, r')) :
    (frame = none ∧ last = true) ∨
      (frame = some (r.sealChunk sdk (r.src.contents.take r.chunkSize)) ∧
        (last = false → r.chunkSize ≤ r.src.contents.length) ∧
        ∃ src : Source UInt8, src.contents = r.src.contents.drop r.chunkSize ∧
          r' = r.advance src) := by
  rcases r.src.readFull_eq r.chunkSize with ⟨src, hread, hrest, -⟩
  unfold sealNext at h
  rw [hread] at h
  rcases herr : r.src.fullError r.chunkSize with _ | e
  · have hlong : r.chunkSize ≤ r.src.contents.length := Source.le_of_fullError herr
    simp only [herr, Except.ok.injEq, Prod.mk.injEq] at h
    exact Or.inr ⟨h.1.symm, fun _ => hlong, src, hrest, h.2.2.symm⟩
  rcases e with - | - | message
  · simp only [herr, Except.ok.injEq, Prod.mk.injEq] at h
    exact Or.inl ⟨h.1.symm, h.2.1.symm⟩
  · simp only [herr, Except.ok.injEq, Prod.mk.injEq] at h
    exact Or.inr ⟨h.1.symm, fun hlast => absurd (h.2.1.trans hlast) (by decide), src, hrest,
      h.2.2.symm⟩
  · simp [herr] at h

theorem EncryptReader.nextFrame_productive : (EncryptReader.nextFrame sdk).Productive := by
  intro r bytes last r' hr hempty
  unfold nextFrame at hr
  rcases hs : r.sealNext sdk with e | result
  · simp [hs] at hr
  rcases result with ⟨frame, last', r''⟩
  simp only [hs, Except.ok.injEq, Prod.mk.injEq] at hr
  rcases sealNext_ok hs with ⟨_, hlast⟩ | ⟨hframe, -, -⟩
  · exact hr.2.1.symm.trans hlast
  · -- a frame has at least its header
    rw [hframe] at hr
    exact absurd (hr.1.trans hempty) (Frame.wire_ne_nil _)

theorem EncryptReader.sealNext_cases (r : EncryptReader) (hfin : r.src.finish = .eof) :
    ∃ src : Source UInt8, src.contents = r.src.contents.drop r.chunkSize ∧ src.finish = .eof ∧
      ((r.src.contents = [] ∧ r.sealNext sdk = .ok (none, true, { r with src })) ∨
       (r.src.contents ≠ [] ∧ r.src.contents.length < r.chunkSize ∧
        r.sealNext sdk = .ok (some (r.sealChunk sdk r.src.contents), true, r.advance src)) ∨
       (r.chunkSize ≤ r.src.contents.length ∧ r.sealNext sdk =
        .ok (some (r.sealChunk sdk (r.src.contents.take r.chunkSize)), false, r.advance src))) := by
  rcases r.src.readFull_eq r.chunkSize with ⟨src, hread, hrest, hfin'⟩
  have hpos := r.chunkSize_pos
  refine ⟨src, hrest, hfin'.trans hfin, ?_⟩
  unfold sealNext
  rw [hread]
  unfold Source.fullError
  by_cases hlong : r.chunkSize ≤ r.src.contents.length
  · rw [if_pos hlong]
    exact Or.inr (Or.inr ⟨hlong, rfl⟩)
  rw [if_neg hlong]
  by_cases hnil : r.src.contents = []
  · rw [if_neg fun h => h.1 hnil, hfin]
    exact Or.inl ⟨hnil, rfl⟩
  · rw [if_pos ⟨hnil, hfin⟩, List.take_of_length_le (by omega)]
    exact Or.inr (Or.inl ⟨hnil, by omega, rfl⟩)

/-- `fs` are the frames of an object from chunk `i` on. -/
def Framed (sdk : Sdk) (dek chunkAAD : Bytes) (chunkSize : Nat) : UInt64 → List Frame → Prop
  | _, [] => True
  | i, f :: fs => f.aad = chunkAADBytes chunkAAD i ∧
      f.sealed = sdk.aead.sealWith dek f.nonce.bytes f.plaintext f.aad ∧
      0 < f.plaintext.length ∧ f.plaintext.length ≤ chunkSize ∧
      (fs ≠ [] → f.plaintext.length = chunkSize) ∧ Framed sdk dek chunkAAD chunkSize (i + 1) fs

structure EncryptReader.Sealed (sdk : Sdk) (r : EncryptReader) (fs : List Frame) : Prop where
  framed : Framed sdk r.dek r.chunkAAD r.chunkSize r.chunkIndex fs
  plaintext : fs.flatMap Frame.plaintext = r.src.contents
  yields : Yields (nextFrame sdk) r (fs.flatMap Frame.wire) .eof

theorem EncryptReader.sealed_frames (fuel : Nat) (r : EncryptReader) (hfin : r.src.finish = .eof)
    (hfuel : r.src.contents.length < fuel) : r.Sealed sdk (r.frames sdk fuel) := by
  induction fuel generalizing r with
  | zero => omega
  | succ fuel ih => ?_
  have hpos := r.chunkSize_pos
  rcases r.sealNext_cases hfin with ⟨src, hrest, hfin', hcases⟩
  rcases hcases with ⟨hnil, hnext⟩ | ⟨hne, hshort, hnext⟩ | ⟨hlong, hnext⟩
  · -- the end, and no frame
    have hframe : r.nextFrame sdk = .ok ([], true, { r with src }) := by
      rw [nextFrame, hnext]
      rfl
    rw [frames, hnext]
    exact ⟨trivial, hnil.symm, .ends hframe⟩
  · -- the last frame
    have hframe : r.nextFrame sdk =
        .ok ((r.sealChunk sdk r.src.contents).wire, true, r.advance src) := by
      rw [nextFrame, hnext]
      rfl
    have hlen : 0 < r.src.contents.length := List.length_pos_of_ne_nil hne
    rw [frames, hnext]
    refine ⟨⟨rfl, rfl, hlen, Nat.le_of_lt hshort, fun h => absurd rfl h, trivial⟩, ?_, ?_⟩
    · exact List.append_nil _
    · change Yields _ _ (_ ++ []) _
      rw [List.append_nil]
      exact .ends hframe
  · -- a full frame, and the frames of the rest
    have hframe : r.nextFrame sdk = .ok ((r.sealChunk sdk (r.src.contents.take r.chunkSize)).wire,
        false, r.advance src) := by
      rw [nextFrame, hnext]
      rfl
    have hlen : (r.src.contents.take r.chunkSize).length = r.chunkSize := by
      rw [List.length_take]
      omega
    have hih := ih (r.advance src) hfin' (by
      change src.contents.length < fuel
      rw [hrest, List.length_drop]
      omega)
    rw [frames, hnext]
    refine ⟨⟨rfl, rfl, ?_, ?_, fun _ => hlen, hih.framed⟩, ?_, .more hframe hih.yields⟩
    · change 0 < (r.src.contents.take r.chunkSize).length
      omega
    · exact Nat.le_of_eq hlen
    · have hplain : (frames sdk fuel (r.advance src)).flatMap Frame.plaintext =
          r.src.contents.drop r.chunkSize := hih.plaintext.trans hrest
      change r.src.contents.take r.chunkSize ++
        (frames sdk fuel (r.advance src)).flatMap Frame.plaintext = _
      rw [hplain, List.take_append_drop]

/-- Whatever buffers it is read with, the encrypting reader emits the frames of the plaintext. -/
theorem encryptObject_frames {src : Source UInt8} (hfin : src.finish = .eof) {dek : Bytes}
    {opts : Options} {rand : Nat → Nonce} {enc : Buffered EncryptReader UInt8}
    (henc : encryptObject src dek opts rand = .ok enc) :
    ∃ fs, Framed sdk dek opts.chunkAAD opts.chunkSizeOrDefault 0 fs ∧
      fs.flatMap Frame.plaintext = src.contents ∧
      ∀ sizes : Nat → Nat, (∀ n, 0 < sizes n) → ∃ fuel,
        enc.drain (EncryptReader.nextFrame sdk) fuel sizes = (fs.flatMap Frame.wire, some .eof) := by
  rcases encryptObject_eq_ok henc with ⟨-, -, rfl⟩
  have hsealed : (encryptReader src dek opts rand).Sealed sdk _ :=
    EncryptReader.sealed_frames (src.contents.length + 1) _ hfin (Nat.lt_succ_self _)
  exact ⟨_, hsealed.framed, hsealed.plaintext,
    Buffered.drain_of_yields EncryptReader.nextFrame_productive hsealed.yields⟩

/-! ## 2. Decryption -/

theorem DecryptReader.nextFrame_cases (r : DecryptReader) :
    (∃ e, r.nextFrame sdk = .error e) ∨ (∃ r', r.nextFrame sdk = .ok ([], true, r')) ∨
      ∃ nonce ct pt, ∃ src : Source UInt8, src.contents.length < r.src.contents.length ∧
        sdk.aead.openWith r.dek nonce ct (chunkAADBytes r.chunkAAD r.chunkIndex) = some pt ∧
        r.nextFrame sdk =
          .ok (pt, pt.length < r.chunkSize, { r with src, chunkIndex := r.chunkIndex + 1 }) := by
  rcases r.src.readFull_eq chunkHeaderSize with ⟨src, hread, hleft, -⟩
  unfold nextFrame
  rw [hread]
  cases herr : r.src.fullError chunkHeaderSize with
  | some e =>
    rcases e with - | - | message
    · exact Or.inr (Or.inl ⟨_, rfl⟩)
    · exact Or.inl ⟨_, rfl⟩
    · exact Or.inl ⟨_, rfl⟩
  | none => ?_
  -- a whole header was there
  have hheader : chunkHeaderSize ≤ r.src.contents.length := Source.le_of_fullError herr
  simp only
  split
  · exact Or.inl ⟨_, rfl⟩
  rcases src.readFull_eq (ofBigEndian ((r.src.contents.take chunkHeaderSize).drop nonceSizeX))
    with ⟨src', hread', hleft', -⟩
  unfold openBody
  simp only [hread']
  split
  · exact Or.inl ⟨_, rfl⟩
  split
  · exact Or.inl ⟨_, rfl⟩
  rename_i pt hopen
  refine Or.inr (Or.inr ⟨_, _, pt, src', ?_, hopen, rfl⟩)
  rw [hleft', List.length_drop, hleft, List.length_drop]
  unfold chunkHeaderSize nonceSizeX at *
  omega

theorem DecryptReader.nextFrame_productive : (DecryptReader.nextFrame sdk).Productive := by
  intro r bytes last r' hr hempty
  rcases r.nextFrame_cases with ⟨e, hnext⟩ | ⟨r'', hnext⟩ | ⟨_, _, pt, src, _, _, hnext⟩
  · rw [hr] at hnext
    exact absurd hnext (by simp)
  · rw [hr, Except.ok.injEq, Prod.mk.injEq, Prod.mk.injEq] at hnext
    exact hnext.2.1
  · -- an empty chunk is shorter than a full one
    rw [hr, Except.ok.injEq, Prod.mk.injEq, Prod.mk.injEq] at hnext
    rw [hnext.2.1, ← hnext.1, hempty]
    exact decide_eq_true r.chunkSize_pos

theorem DecryptReader.nextFrame_wire (hsdk : sdk.aead.Correct) (r : DecryptReader)
    (hsize : r.chunkSize + chunkTrailerSize < 2 ^ 32) {f : Frame} {rest : Bytes}
    (hsrc : r.src.contents = f.wire ++ rest)
    (haad : f.aad = chunkAADBytes r.chunkAAD r.chunkIndex)
    (hsealed : f.sealed = sdk.aead.sealWith r.dek f.nonce.bytes f.plaintext f.aad)
    (hle : f.plaintext.length ≤ r.chunkSize) :
    ∃ src : Source UInt8, src.contents = rest ∧ src.finish = r.src.finish ∧
      r.nextFrame sdk = .ok (f.plaintext, f.plaintext.length < r.chunkSize,
        { r with src, chunkIndex := r.chunkIndex + 1 }) := by
  have hlen : f.sealed.length = f.plaintext.length + chunkTrailerSize := by
    rw [hsealed, hsdk.length_seal]
  have hheader : (f.nonce.bytes ++ bigEndian 4 f.sealed.length).length = chunkHeaderSize := by
    rw [List.length_append, f.nonce.size, length_bigEndian]
    rfl
  have hcontents : r.src.contents =
      (f.nonce.bytes ++ bigEndian 4 f.sealed.length) ++ (f.sealed ++ rest) := by
    rw [hsrc, Frame.wire, List.append_assoc]
  -- the header
  rcases r.src.readFull_eq chunkHeaderSize with ⟨src, hread, hleft, hfin⟩
  have htake : r.src.contents.take chunkHeaderSize =
      f.nonce.bytes ++ bigEndian 4 f.sealed.length := by
    rw [hcontents, ← hheader, List.take_left]
  have hdrop : src.contents = f.sealed ++ rest := by
    rw [hleft, hcontents, ← hheader, List.drop_left]
  have herr : r.src.fullError chunkHeaderSize = none := by
    rw [Source.fullError, if_pos]
    rw [hcontents, List.length_append, hheader]
    omega
  have hnonce : (f.nonce.bytes ++ bigEndian 4 f.sealed.length).take nonceSizeX = f.nonce.bytes := by
    rw [← f.nonce.size, List.take_left]
  have hctLen : ofBigEndian ((f.nonce.bytes ++ bigEndian 4 f.sealed.length).drop nonceSizeX) =
      f.sealed.length := by
    rw [← f.nonce.size, List.drop_left, ofBigEndian_bigEndian]
    apply Nat.mod_eq_of_lt
    rw [show 256 ^ 4 = 2 ^ 32 from rfl]
    omega
  have hbounds : ¬ (f.sealed.length = 0 ∨
      (r.chunkSize + chunkTrailerSize) % 2 ^ 32 < f.sealed.length) := by
    rw [Nat.mod_eq_of_lt hsize]
    unfold chunkTrailerSize at *
    omega
  -- the body
  rcases src.readFull_eq f.sealed.length with ⟨src', hread', hleft', hfin'⟩
  have htake' : src.contents.take f.sealed.length = f.sealed := by rw [hdrop, List.take_left]
  have herr' : src.fullError f.sealed.length = none := by
    rw [Source.fullError, if_pos]
    rw [hdrop, List.length_append]
    omega
  refine ⟨src', ?_, hfin'.trans hfin, ?_⟩
  · rw [hleft', hdrop, List.drop_left]
  · rw [nextFrame, hread, htake, herr]
    simp only [hctLen, if_neg hbounds, hnonce, openBody, hread', htake', herr']
    rw [← haad, hsealed, hsdk.open_seal]

theorem DecryptReader.yields_frames (hsdk : sdk.aead.Correct) (fs : List Frame)
    (r : DecryptReader) (hsize : r.chunkSize + chunkTrailerSize < 2 ^ 32)
    (hframed : Framed sdk r.dek r.chunkAAD r.chunkSize r.chunkIndex fs)
    (hsrc : r.src.contents = fs.flatMap Frame.wire) (hfin : r.src.finish = .eof) :
    Yields (nextFrame sdk) r (fs.flatMap Frame.plaintext) .eof := by
  induction fs generalizing r with
  | nil =>
    rcases r.src.readFull_eq chunkHeaderSize with ⟨src, hread, -, -⟩
    have hempty : r.src.contents = [] := hsrc
    have hnext : r.nextFrame sdk = .ok ([], true, { r with src }) := by
      rw [nextFrame, hread, Source.fullError, hempty, hfin]
      rfl
    exact .ends hnext
  | cons f fs ih => ?_
  rcases hframed with ⟨haad, hsealed, -, hle, hfull, hrest⟩
  rcases r.nextFrame_wire hsdk hsize hsrc haad hsealed hle with ⟨src, hsrc', hfin', hnext⟩
  rw [List.flatMap_cons]
  by_cases hlast : f.plaintext.length < r.chunkSize
  · -- only the last chunk is short
    have hnil : fs = [] := by
      by_contra hne
      have := hfull hne
      omega
    rw [hnil, List.flatMap_nil, List.append_nil]
    rw [decide_eq_true hlast] at hnext
    exact .ends hnext
  · rw [decide_eq_false hlast] at hnext
    exact .more hnext (ih _ hsize hrest hsrc' (hfin'.trans hfin))

end

/-! ## 3. Both directions -/

/-- Whatever the pieces of the source, the nonces and the buffers on both sides: the encrypted
stream ends properly, and decrypting it gives the plaintext and then the end. -/
theorem decrypt_encrypt (sdk : Sdk) (hsdk : sdk.aead.Correct) (src : Source UInt8)
    (hfin : src.finish = .eof) (dek : Bytes) (opts : Options)
    (hsize : opts.chunkSizeOrDefault + chunkTrailerSize < 2 ^ 32) (rand : Nat → Nonce)
    (enc : Buffered EncryptReader UInt8) (henc : encryptObject src dek opts rand = .ok enc)
    (sizes sizes' : Nat → Nat) (hsizes : ∀ n, 0 < sizes n) (hsizes' : ∀ n, 0 < sizes' n) :
    ∃ fuel ct, enc.drain (EncryptReader.nextFrame sdk) fuel sizes = (ct, some .eof) ∧
      ∀ src' : Source UInt8, src'.contents = ct → src'.finish = .eof →
        ∃ dec, decryptObject src' dek opts = .ok dec ∧ ∃ fuel',
          dec.drain (DecryptReader.nextFrame sdk) fuel' sizes' = (src.contents, some .eof) := by
  rcases encryptObject_frames hfin henc with ⟨fs, hframed, hplain, hdrain⟩
  rcases hdrain sizes hsizes with ⟨fuel, hfuel⟩
  have hkey := (encryptObject_eq_ok henc).1
  refine ⟨fuel, _, hfuel, fun src' hsrc' hfin' => ⟨_, decryptObject_of_key hkey opts, ?_⟩⟩
  have hyields := DecryptReader.yields_frames hsdk fs (decryptReader src' dek opts) hsize hframed
    hsrc' hfin'
  rw [hplain] at hyields
  exact Buffered.drain_of_yields DecryptReader.nextFrame_productive hyields sizes' hsizes'

/-- XChaCha20-Poly1305 of the byte `a` under the zero key, the zero nonce and the additional data
of chunk 0 of the context `A`. -/
def sampleSealed : Bytes :=
  [0x19, 0xdc, 0xa7, 0x65, 0x75, 0xb2, 0x62, 0x03, 0x1b, 0x60, 0x56, 0xa5, 0x16, 0xe9, 0xfb, 0x33,
    0x54]

def sampleDek : Bytes := List.replicate 32 0

def sampleNonce : Nonce := ⟨List.replicate 24 0, rfl⟩

def sampleAAD : Bytes := [65, 124, 0, 0, 0, 0, 0, 0, 0, 0]

def sampleAead : Aead where
  sealWith key nonce plaintext aad :=
    if key = sampleDek ∧ nonce = sampleNonce.bytes ∧ plaintext = [97] ∧ aad = sampleAAD then
      sampleSealed
    else
      plaintext ++ List.replicate 16 0
  openWith key nonce ciphertext aad :=
    if key = sampleDek ∧ nonce = sampleNonce.bytes ∧ ciphertext = sampleSealed ∧
        aad = sampleAAD then
      some [97]
    else
      some (ciphertext.take (ciphertext.length - 16))

theorem sampleAead_correct : sampleAead.Correct := by
  constructor
  · intro key nonce plaintext aad
    simp only [sampleAead]
    split
    · rename_i hsample
      rw [hsample.2.2.1]
      rfl
    · rw [List.length_append, List.length_replicate]
      rfl
  · intro key nonce plaintext aad
    by_cases hsample : key = sampleDek ∧ nonce = sampleNonce.bytes ∧ plaintext = [97] ∧
        aad = sampleAAD
    · simp only [sampleAead, if_pos hsample]
      rw [if_pos ⟨hsample.1, hsample.2.1, trivial, hsample.2.2.2⟩, hsample.2.2.1]
    simp only [sampleAead, if_neg hsample]
    rw [if_neg]
    · rw [List.length_append, List.length_replicate, Nat.add_sub_cancel, List.take_left]
    · -- the sample's tag does not end in a zero byte
      rintro ⟨-, -, heq, -⟩
      have hlast := congrArg List.getLast? heq
      simp [sampleSealed] at hlast

def sampleSdk : Sdk where
  aead := sampleAead
  deriveConvergentNonce _ _ := sampleNonce

def sampleOptions : Options := { chunkSize := 4, chunkAAD := [65] }

/-- Five bytes in two chunks; they come after an empty read, and everything is read byte by byte. -/
theorem decrypt_encrypt_sample :
    let src : Source UInt8 := { segments := [[], [97, 98, 99], [100, 101]], eager := true }
    ∃ enc, encryptObject src sampleDek sampleOptions (fun _ => sampleNonce) = .ok enc ∧
    ∃ fuel ct, enc.drain (EncryptReader.nextFrame sampleSdk) fuel (fun _ => 1) = (ct, some .eof) ∧
      ∀ src' : Source UInt8, src'.contents = ct → src'.finish = .eof →
        ∃ dec, decryptObject src' sampleDek sampleOptions = .ok dec ∧ ∃ fuel',
          dec.drain (DecryptReader.nextFrame sampleSdk) fuel' (fun _ => 1) =
            ([97, 98, 99, 100, 101], some .eof) :=
  ⟨_, rfl, decrypt_encrypt sampleSdk sampleAead_correct _ rfl sampleDek sampleOptions (by decide) _ _
    rfl (fun _ => 1) (fun _ => 1) (fun _ => Nat.one_pos) fun _ => Nat.one_pos⟩

end ObjectFabric
