import ObjectFabric.FiniteMap
import ObjectFabric.Metadata.Manifest
import ObjectFabric.Streams.BigEndian
import ObjectFabric.Streams.Blocks

/-!
# ErasureCoding — stripes and shards

`metadata/erasure_coding`: profiles, the registry, and the encoder that cuts a body into stripes and
each stripe into data and parity shards.  The Reed-Solomon codec is a parameter.  The arithmetic is
that of `int64`, and a slice that cannot be allocated or a bound out of range is a panic.
-/

namespace ObjectFabric

inductive ErasureShardKind where
  | data
  | parity
  deriving DecidableEq, Repr

namespace ErasureCoding

open Streams

/-! ## 1. Machine arithmetic -/

inductive Halt where
  | error (message : String)
  | panic (message : String)
  deriving DecidableEq, Repr

/-- The `int64` that an arithmetic operation leaves. -/
def wrap64 (n : Int) : Int := (n + 2 ^ 63) % 2 ^ 64 - 2 ^ 63

theorem wrap64_eq {n : Int} (hlow : -2 ^ 63 ≤ n) (hhigh : n < 2 ^ 63) : wrap64 n = n := by
  unfold wrap64
  omega

/-- `maxAlloc` of the runtime on 64-bit Linux. -/
def maxAlloc : Int := 2 ^ 48

def panicIf (c : Prop) [Decidable c] (message : String) : Except Halt Unit :=
  if c then .error (.panic message) else .ok ()

theorem panicIf_eq_ok {c : Prop} [Decidable c] {message : String} {u : Unit}
    (h : panicIf c message = .ok u) : ¬ c := by
  unfold panicIf at h
  split at h
  · simp at h
  · assumption

/-- The check of `make` for a slice of elements of the given size; `what` is `len` or `cap`. -/
def makeSlice (what : String) (size elemSize : Int) : Except Halt Unit :=
  panicIf (size < 0 ∨ maxAlloc < size * elemSize)
    ("runtime error: makeslice: " ++ what ++ " out of range")

theorem makeSlice_eq_ok {what : String} {size elemSize : Int} {u : Unit}
    (h : makeSlice what size elemSize = .ok u) : 0 ≤ size ∧ size * elemSize ≤ maxAlloc := by
  have hfits := panicIf_eq_ok h
  omega

theorem makeSlice_of_fits {what : String} {size elemSize : Int} (hpos : 0 ≤ size)
    (hfits : size * elemSize ≤ maxAlloc) : makeSlice what size elemSize = .ok () := by
  unfold makeSlice panicIf
  rw [if_neg (by omega)]

/-! ## 2. Profiles -/

structure ErasureCodingProfile where
  name : String
  dataShards : Int
  parityShards : Int
  stripeSize : Int
  stripeSize_lt : stripeSize < 2 ^ 63 := by decide

namespace ErasureCodingProfile

def totalShards (p : ErasureCodingProfile) : Int := wrap64 (p.dataShards + p.parityShards)

def validate (p : ErasureCodingProfile) : Except String Unit :=
  if p.name = "" then
    .error "erasure_coding: name is required"
  else if p.dataShards ≤ 0 then
    .error ("erasure_coding: data_shards must be > 0 (got " ++ toString p.dataShards ++ ")")
  else if p.parityShards ≤ 0 then
    .error ("erasure_coding: parity_shards must be > 0 (got " ++ toString p.parityShards ++ ")")
  else if p.stripeSize ≤ 0 then
    .error ("erasure_coding: stripe_size must be > 0 (got " ++ toString p.stripeSize ++ ")")
  else
    .ok ()

theorem validate_eq_ok {p : ErasureCodingProfile} (h : p.validate = .ok ()) :
    0 < p.dataShards ∧ 0 < p.parityShards ∧ 0 < p.stripeSize := by
  unfold validate at h
  split_ifs at h
  omega

end ErasureCodingProfile

/-! ## 3. The codec -/

/-- `reedsolomon.Encoder`.  Both calls work on the slices they are given; a shard without bytes is
missing. -/
structure Codec where
  /-- Fill in the parity shards. -/
  encode : List Bytes → Except String (List Bytes)
  /-- Fill in the missing data shards. -/
  reconstructData : List Bytes → Except String (List Bytes)
  length_reconstructData : ∀ shards shards', reconstructData shards = .ok shards' →
    shards'.length = shards.length

/-- `reedsolomon.New`, which refuses more than 65536 shards. -/
structure ReedSolomon where
  new : Int → Int → Except String Codec
  total_le : ∀ dataShards parityShards codec, new dataShards parityShards = .ok codec →
    dataShards + parityShards ≤ 65536

/-! ## 4. The encoder -/

structure Shard where
  stripeIndex : Int
  shardIndex : Int
  kind : ErasureShardKind
  bytes : Bytes
  deriving DecidableEq, Repr

/-- What `NewEncoder` returns. -/
structure Encoder (rs : ReedSolomon) where
  profile : ErasureCodingProfile
  codec : Codec
  shardSize : Int
  valid : profile.validate = .ok ()
  codec_eq : rs.new profile.dataShards profile.parityShards = .ok codec
  shardSize_eq : shardSize =
    (wrap64 (profile.stripeSize + profile.dataShards - 1)).tdiv profile.dataShards

def newEncoder (rs : ReedSolomon) (p : ErasureCodingProfile) : Except String (Encoder rs) :=
  match hvalid : p.validate with
  | .error message => .error message
  | .ok () =>
    match hcodec : rs.new p.dataShards p.parityShards with
    | .error message => .error ("erasure_coding: build rs codec: " ++ message)
    | .ok codec => .ok ⟨p, codec, _, hvalid, hcodec, rfl⟩

def objectHeaderSize : Nat := 8

/-- `unsafe.Sizeof(Shard{})` -/
def shardStructSize : Int := 48

namespace Encoder

variable {rs : ReedSolomon} (e : Encoder rs)

def dataShards : Nat := e.profile.dataShards.toNat

def parityShards : Nat := e.profile.parityShards.toNat

def totalShards : Nat := e.profile.totalShards.toNat

def stripeLength : Int := wrap64 (e.shardSize * e.profile.dataShards)

/-- Slice `i` of a stripe. -/
def slice (stripe : Bytes) (i : Nat) : Bytes :=
  (stripe.drop (i * e.shardSize.toNat)).take e.shardSize.toNat

/-- The shards that the codec is given: the slices of stripe `s` and room for the parity. -/
def rawStripe (framed : Bytes) (s : Nat) : List Bytes :=
  (List.range e.dataShards).map (e.slice (block 0 e.stripeLength.toNat s framed)) ++
    List.replicate e.parityShards (List.replicate e.shardSize.toNat 0)

def numbered (s : Nat) (shards : List Bytes) : List Shard :=
  shards.mapIdx fun i bytes => ⟨s, i, if e.dataShards ≤ i then .parity else .data, bytes⟩

def encodeStripe (framed : Bytes) (s : Nat) : Except Halt (List Shard) := do
  makeSlice "len" e.stripeLength 1
  match e.codec.encode (e.rawStripe framed s) with
  | .error message =>
    .error (.error ("erasure_coding: rs encode stripe " ++ toString s ++ ": " ++ message))
  | .ok shards => .ok (e.numbered s shards)

def frame (body : Bytes) : Bytes := bigEndian objectHeaderSize body.length ++ body

def stripeCount (framed : Bytes) : Int :=
  let numStripes := (wrap64 (framed.length + e.stripeLength - 1)).tdiv e.stripeLength
  if numStripes = 0 then 1 else numStripes

def encode (body : Bytes) : Except Halt (List Shard) := do
  let framed := frame body
  makeSlice "cap" framed.length 1
  panicIf (e.stripeLength = 0) "runtime error: integer divide by zero"
  let numStripes := e.stripeCount framed
  makeSlice "cap" (wrap64 (numStripes * e.profile.totalShards)) shardStructSize
  -- all shards are in memory when the call returns
  panicIf (maxAlloc < numStripes * e.profile.totalShards * e.shardSize) "runtime: out of memory"
  let stripes ← (List.range numStripes.toNat).mapM (e.encodeStripe framed)
  return stripes.flatten

def addShard (stripes : FMap Int (List Bytes)) (sh : Shard) :
    Except Halt (FMap Int (List Bytes)) :=
  if sh.shardIndex < 0 ∨ e.profile.totalShards ≤ sh.shardIndex then
    .error (.error ("erasure_coding: shard index " ++ toString sh.shardIndex ++
      " out of range [0," ++ toString e.profile.totalShards ++ ")"))
  else
    let stripe := (stripes.lookup sh.stripeIndex).getD (List.replicate e.totalShards [])
    if sh.bytes = [] then
      .ok (stripes.insert sh.stripeIndex stripe)
    else if sh.bytes.length ≠ e.shardSize then
      .error (.error ("erasure_coding: stripe " ++ toString sh.stripeIndex ++ " shard " ++
        toString sh.shardIndex ++ " has size " ++ toString sh.bytes.length ++ ", want " ++
        toString e.shardSize))
    else
      .ok (stripes.insert sh.stripeIndex (stripe.set sh.shardIndex.toNat sh.bytes))

def present (stripe : List Bytes) : Nat := stripe.countP (· ≠ [])

def recoverStripe (s : Nat) (stripe : List Bytes) : Except Halt Bytes :=
  if present stripe < e.dataShards then
    .error (.error ("erasure_coding: stripe " ++ toString s ++ " only has " ++
      toString (present stripe) ++ " shards, need at least " ++ toString e.dataShards))
  else if present stripe < e.totalShards then
    match e.codec.reconstructData stripe with
    | .error message =>
      .error (.error ("erasure_coding: reconstruct stripe " ++ toString s ++ ": " ++ message))
    | .ok stripe' => .ok (stripe'.take e.dataShards).flatten
  else
    .ok (stripe.take e.dataShards).flatten

def stripeData (stripes : FMap Int (List Bytes)) (s : Nat) : Except Halt Bytes :=
  match stripes.lookup (s : Int) with
  | none => .error (.error ("erasure_coding: missing stripe " ++ toString s))
  | some stripe => e.recoverStripe s stripe

/-- Cut the header and the padding off; the end of the body is computed in 64 bits. -/
def unframe (framed : Bytes) : Except Halt Bytes :=
  if framed.length < objectHeaderSize then
    .error (.error "erasure_coding: decoded output is too short to contain length header")
  else
    let plaintextLen := ofBigEndian (framed.take objectHeaderSize)
    let «end» := (objectHeaderSize + plaintextLen) % 2 ^ 64
    if framed.length < «end» then
      .error (.error ("erasure_coding: declared plaintext length " ++ toString plaintextLen ++
        " exceeds decoded buffer of " ++ toString (framed.length - objectHeaderSize) ++ " bytes"))
    else if «end» < objectHeaderSize then
      .error (.panic ("runtime error: slice bounds out of range [" ++ toString objectHeaderSize ++
        ":" ++ toString «end» ++ "]"))
    else
      .ok ((framed.take «end»).drop objectHeaderSize)

def decode (shards : List Shard) : Except Halt Bytes := do
  if shards = [] then
    .error (.error "erasure_coding: no shards supplied")
  let stripes ← shards.foldlM e.addShard ∅
  let numStripes := stripes.keys.card
  makeSlice "cap" (wrap64 (numStripes * e.stripeLength)) 1
  let blocks ← (List.range numStripes).mapM (e.stripeData stripes)
  unframe blocks.flatten

end Encoder

end ErasureCoding

end ObjectFabric
