import ObjectFabric.Metadata.Manifest
import ObjectFabric.Streams.BigEndian
import ObjectFabric.Streams.Reader

/-!
# Sdk — the chunked content cipher

`encryption/client_sdk/sdk.go`.  A plaintext is cut into chunks, and each chunk is sealed on its own
into a frame: nonce, length and ciphertext.  Both directions are readers with a pending buffer whose
refill handles one frame.  XChaCha20-Poly1305, the derivation of convergent nonces and the random
source are parameters.
-/

namespace ObjectFabric

open Streams

/-! ## 1. Sizes -/

def defaultChunkSize : Nat := 16 * 1024 * 1024

/-- `chacha20poly1305.NonceSizeX` -/
def nonceSizeX : Nat := 24

def chunkHeaderSize : Nat := nonceSizeX + 4

def chunkTrailerSize : Nat := 16

inductive EncryptedSizeError where
  | negativePlaintext
  | overflow
  deriving DecidableEq, Repr

def maxInt64 : Nat := 2 ^ 63 - 1

/-! ## 2. The cipher and its options -/

structure Nonce where
  bytes : Bytes
  size : bytes.length = nonceSizeX

/-- `cipher.AEAD` under a key. -/
structure Aead where
  sealWith (key nonce plaintext aad : Bytes) : Bytes
  openWith (key nonce ciphertext aad : Bytes) : Option Bytes

structure Sdk where
  aead : Aead
  deriveConvergentNonce (dek : Bytes) (chunkIndex : UInt64) : Nonce

structure Options where
  chunkSize : Int := 0
  convergentNonce : Bool := false
  chunkAAD : Bytes := []

/-- `Options.chunkSize()` -/
def Options.chunkSizeOrDefault (opts : Options) : Nat :=
  if 0 < opts.chunkSize then opts.chunkSize.toNat else defaultChunkSize

theorem Options.chunkSizeOrDefault_pos (opts : Options) : 0 < opts.chunkSizeOrDefault := by
  unfold chunkSizeOrDefault
  split
  · omega
  · decide

/-- `bits.Add64` without a carry in: the sum modulo `2 ^ 64` and the carry out. -/
def add64 (x y : Nat) : Nat × Nat := ((x + y) % 2 ^ 64, (x + y) / 2 ^ 64)

/-- `bits.Mul64`: the high and the low word of the product. -/
def mul64 (x y : Nat) : Nat × Nat := (x * y / 2 ^ 64, x * y % 2 ^ 64)

/-- `EncryptedSize`.  `chunkSize()` is positive, so the check of the chunk size is never reached. -/
def encryptedSize (plaintextLen : Int) (opts : Options) : Except EncryptedSizeError Int :=
  if plaintextLen < 0 then
    .error .negativePlaintext
  else if plaintextLen = 0 then
    .ok 0
  else
    let chunk := opts.chunkSizeOrDefault
    let (numeratorLo, carry) := add64 plaintextLen.toNat (chunk - 1)
    if carry ≠ 0 ∨ maxInt64 < numeratorLo then
      .error .overflow
    else
      let numChunks := numeratorLo / chunk
      let (overheadHi, overheadLo) := mul64 numChunks (chunkHeaderSize + chunkTrailerSize)
      if overheadHi ≠ 0 ∨ maxInt64 < overheadLo then
        .error .overflow
      else
        let (total, carry) := add64 plaintextLen.toNat overheadLo
        if carry ≠ 0 ∨ maxInt64 < total then
          .error .overflow
        else
          .ok total

/-- `chunkAAD ‖ "|" ‖ index`, or nothing in the unbound mode. -/
def chunkAADBytes (chunkAAD : Bytes) (chunkIndex : UInt64) : Bytes :=
  if chunkAAD = [] then [] else chunkAAD ++ [124] ++ bigEndian 8 chunkIndex.toNat

def readErrorText : ReadError → String
  | .eof => "EOF"
  | .unexpectedEOF => "unexpected EOF"
  | .failed message => message

/-! ## 3. Encryption -/

/-- One call of `Seal` and its result. -/
structure Frame where
  nonce : Nonce
  plaintext : Bytes
  aad : Bytes
  sealed : Bytes

def Frame.wire (f : Frame) : Bytes := f.nonce.bytes ++ bigEndian 4 f.sealed.length ++ f.sealed

structure EncryptReader where
  src : Source UInt8
  dek : Bytes
  chunkSize : Nat
  chunkSize_pos : 0 < chunkSize
  convergent : Bool
  chunkAAD : Bytes
  chunkIndex : UInt64 := 0
  /-- The nonces that the random source will give. -/
  rand : Nat → Nonce

namespace EncryptReader

def nonce (sdk : Sdk) (r : EncryptReader) : Nonce :=
  if r.convergent then sdk.deriveConvergentNonce r.dek r.chunkIndex else r.rand 0

def sealChunk (sdk : Sdk) (r : EncryptReader) (chunk : Bytes) : Frame :=
  let aad := chunkAADBytes r.chunkAAD r.chunkIndex
  { nonce := r.nonce sdk, plaintext := chunk, aad
    sealed := sdk.aead.sealWith r.dek (r.nonce sdk).bytes chunk aad }

def advance (r : EncryptReader) (src : Source UInt8) : EncryptReader :=
  { r with src, chunkIndex := r.chunkIndex + 1,
           rand := if r.convergent then r.rand else fun n => r.rand (n + 1) }

/-- Read a chunk and seal it; the flag says that the end of the plaintext was seen. -/
def sealNext (sdk : Sdk) (r : EncryptReader) :
    Except ReadError (Option Frame × Bool × EncryptReader) :=
  let ((chunk, err), src) := r.src.readFull r.chunkSize
  match err with
  | some .eof => .ok (none, true, { r with src })
  | some (.failed message) => .error (.failed ("client_sdk: read plaintext: " ++ message))
  | some .unexpectedEOF => .ok (some (r.sealChunk sdk chunk), true, r.advance src)
  | none => .ok (some (r.sealChunk sdk chunk), false, r.advance src)

def nextFrame (sdk : Sdk) : Refill EncryptReader UInt8 := fun r =>
  match r.sealNext sdk with
  | .error e => .error e
  | .ok (frame, last, r') => .ok ((frame.map Frame.wire).getD [], last, r')

def frames (sdk : Sdk) : Nat → EncryptReader → List Frame
  | 0, _ => []
  | fuel + 1, r =>
    match r.sealNext sdk with
    | .error _ => []
    | .ok (frame, last, r') => frame.toList ++ if last then [] else frames sdk fuel r'

end EncryptReader

/-- `chacha20poly1305.NewX` takes keys of 32 bytes. -/
def checkKey (dek : Bytes) : Except String Unit :=
  if dek.length = 32 then .ok ()
  else .error "client_sdk: new xchacha20-poly1305: chacha20poly1305: bad key length"

def encryptReader (src : Source UInt8) (dek : Bytes) (opts : Options) (rand : Nat → Nonce) :
    EncryptReader :=
  { src, dek, chunkSize := opts.chunkSizeOrDefault, chunkSize_pos := opts.chunkSizeOrDefault_pos,
    convergent := opts.convergentNonce, chunkAAD := opts.chunkAAD, rand }

def encryptObject (src : Source UInt8) (dek : Bytes) (opts : Options) (rand : Nat → Nonce) :
    Except String (Buffered EncryptReader UInt8) :=
  if opts.convergentNonce ∧ opts.chunkAAD ≠ [] then
    .error ("client_sdk: ConvergentNonce and ChunkAAD are mutually exclusive: " ++
      "ConvergentNonce produces deterministic ciphertext for cross-tenant content dedup, " ++
      "while ChunkAAD binds the per-chunk tag to operator-supplied context; combining " ++
      "them yields identical ciphertext with diverging tags, which silently breaks " ++
      "dedup or authentication depending on backend behaviour. Pick one: " ++
      "ChunkAAD (Strict-ZK / Pattern B) OR ConvergentNonce (convergent / Pattern C)")
  else do
    checkKey dek
    return ⟨encryptReader src dek opts rand, [], false⟩

/-! ## 4. Decryption -/

structure DecryptReader where
  src : Source UInt8
  dek : Bytes
  chunkSize : Nat
  chunkSize_pos : 0 < chunkSize
  chunkAAD : Bytes
  chunkIndex : UInt64 := 0

namespace DecryptReader

def openBody (sdk : Sdk) (r : DecryptReader) (nonce : Bytes) (ctLen : Nat) :
    Except ReadError (Bytes × Bool × DecryptReader) :=
  let ((ct, err), src) := r.src.readFull ctLen
  match err with
  | some e => .error (.failed ("client_sdk: read frame body: " ++ readErrorText e))
  | none =>
    match sdk.aead.openWith r.dek nonce ct (chunkAADBytes r.chunkAAD r.chunkIndex) with
    | none => .error (.failed
        "client_sdk: open frame: chacha20poly1305: message authentication failed")
    | some pt => .ok (pt, pt.length < r.chunkSize, { r with src, chunkIndex := r.chunkIndex + 1 })

def nextFrame (sdk : Sdk) : Refill DecryptReader UInt8 := fun r =>
  let ((hdr, err), src) := r.src.readFull chunkHeaderSize
  match err with
  | some .eof => .ok ([], true, { r with src })
  | some e => .error (.failed ("client_sdk: read frame header: " ++ readErrorText e))
  | none =>
    let ctLen := ofBigEndian (hdr.drop nonceSizeX)
    let maxCT := (r.chunkSize + chunkTrailerSize) % 2 ^ 32
    if ctLen = 0 ∨ maxCT < ctLen then
      .error (.failed ("client_sdk: frame length " ++ toString ctLen ++ " out of bounds (max " ++
        toString maxCT ++ ")"))
    else
      { r with src }.openBody sdk (hdr.take nonceSizeX) ctLen

end DecryptReader

def decryptReader (src : Source UInt8) (dek : Bytes) (opts : Options) : DecryptReader :=
  { src, dek, chunkSize := opts.chunkSizeOrDefault, chunkSize_pos := opts.chunkSizeOrDefault_pos,
    chunkAAD := opts.chunkAAD }

def decryptObject (src : Source UInt8) (dek : Bytes) (opts : Options) :
    Except String (Buffered DecryptReader UInt8) := do
  checkKey dek
  return ⟨decryptReader src dek opts, [], false⟩

theorem decryptObject_of_key {src : Source UInt8} {dek : Bytes} (hkey : dek.length = 32)
    (opts : Options) : decryptObject src dek opts = .ok ⟨decryptReader src dek opts, [], false⟩ := by
  rw [decryptObject, checkKey, if_pos hkey]
  rfl

theorem encryptObject_eq_ok {src : Source UInt8} {dek : Bytes} {opts : Options}
    {rand : Nat → Nonce} {enc : Buffered EncryptReader UInt8}
    (h : encryptObject src dek opts rand = .ok enc) :
    dek.length = 32 ∧ (opts.convergentNonce = true → opts.chunkAAD = []) ∧
      enc = ⟨encryptReader src dek opts rand, [], false⟩ := by
  unfold encryptObject at h
  split at h
  · simp at h
  rename_i hexcl
  by_cases hkey : dek.length = 32
  · rw [checkKey, if_pos hkey] at h
    refine ⟨hkey, fun hconv => ?_, (Except.ok.inj h).symm⟩
    by_contra hne
    exact hexcl ⟨hconv, hne⟩
  · rw [checkKey, if_neg hkey] at h
    simp [bind, Except.bind] at h

end ObjectFabric
