import ObjectFabric.Gateway.World
import ObjectFabric.Metadata.ErasureCoding

/-!
# Config — the gateway's configuration and the helpers every handler shares

What lies outside the repository (SHA-256, BLAKE3, the content cipher, key wrapping, Reed-Solomon)
enters as functions of the configuration.  A handler that draws randomness passes the `entropy` of
its request.
-/

namespace ObjectFabric

open Interleaving

structure WrappedDEK where
  keyID : String := ""
  wrappedKey : Bytes := []
  wrapAlgorithm : String := ""
  deriving DecidableEq, Repr

structure AadIdentity where
  tenantID : String
  bucket : String
  objectKeyHash : String
  versionID : String
  deriving DecidableEq, Repr

structure Encryption where
  wrapDEK : Nat → Bytes → Except String WrappedDEK
  unwrapDEK : EncryptionConfig → Except String Bytes

structure Shard where
  stripeIndex : Nat
  shardIndex : Nat
  kind : ErasureShardKind
  bytes : Bytes
  deriving DecidableEq, Repr

structure ErasureEncoder where
  shardSize : Int
  parityShards : Nat
  encode : Bytes → Except String (List Shard)
  /-- A shard without bytes counts as lost. -/
  decode : List Shard → Except String Bytes

structure Config where
  /-- Hex of the SHA-256 digest of a string. -/
  sha256Hex : String → String
  /-- Hex of the SHA-256 digest of a body. -/
  sha256BodyHex : Bytes → String := fun _ => ""
  /-- Hex of the MD5 digest of a body. -/
  md5Hex : Bytes → String := fun _ => ""
  /-- The BLAKE3-256 digest. -/
  blake3 : Bytes → Bytes
  generateDEK : Nat → Except String Bytes := fun _ => .ok []
  /-- `EncryptObject` under a DEK; the manifest's configuration says whether the chunks are bound
  to the identity. -/
  encryptObject : Nat → Bytes → EncryptionConfig → AadIdentity → Bytes → Except String Bytes :=
    fun _ _ _ _ b => .ok b
  decryptObject : Bytes → EncryptionConfig → AadIdentity → Bytes → Except String Bytes :=
    fun _ _ _ b => .ok b
  deriveConvergentDEK : Bytes → String → Except String Bytes := fun _ _ => .ok []
  /-- The content cipher with nonces derived from the key. -/
  encryptConvergent : Bytes → Bytes → Except String Bytes := fun _ b => .ok b
  providers : String → Option Provider
  resolveBackend : String → String → String → Except String (String × PlacementPolicy)
  /-- `Residency.Check`, when a residency checker is wired. -/
  residency : Option (String → String → List String → Except String Unit) := none
  /-- `VerifiedCheck`: whether the tenant's e-mail address is verified, and whether that is tracked. -/
  verifiedCheck : Option (String → Bool × Bool) := none
  encryption : Option Encryption := none
  erasureCoding : Option (String → Except String ErasureEncoder) := none
  hasContentIndex : Bool := true
  hasBucketConfig : Bool := true
  hasLegalHoldStore : Bool := true
  hasReadRepair : Bool := false

namespace Config

variable (cfg : Config)

def encryptWithDEK (entropy : Nat) (plaintext dek : Bytes) (enc : EncryptionConfig)
    (id : AadIdentity) : Except String Bytes :=
  (cfg.encryptObject entropy dek enc id plaintext).mapError ("s3compat: encrypt object: " ++ ·)

def decryptWithDEK (ciphertext dek : Bytes) (enc : EncryptionConfig) (id : AadIdentity) :
    Except String Bytes :=
  (cfg.decryptObject dek enc id ciphertext).mapError ("s3compat: decrypt object: " ++ ·)

def encryptForStorage (entropy : Nat) (plaintext : Bytes) (id : AadIdentity) :
    Except String (Bytes × WrappedDEK) :=
  match cfg.encryption with
  | none => .error "s3compat: gateway encryption is not configured"
  | some enc => do
    let dek ← (cfg.generateDEK entropy).mapError ("s3compat: generate dek: " ++ ·)
    let ciphertext ← cfg.encryptWithDEK entropy plaintext dek { aadVersion := .v1 } id
    let wrapped ← (enc.wrapDEK entropy dek).mapError ("s3compat: wrap dek: " ++ ·)
    return (ciphertext, wrapped)

def decryptFromStorage (ciphertext : Bytes) (encCfg : EncryptionConfig) (id : AadIdentity) :
    Except String Bytes :=
  match cfg.encryption with
  | none => .error "s3compat: gateway encryption is not configured"
  | some enc => do
    let dek ← (enc.unwrapDEK encCfg).mapError ("s3compat: unwrap dek: " ++ ·)
    cfg.decryptWithDEK ciphertext dek encCfg id

end Config

def contentAlgorithm : String := "xchacha20-poly1305"

def maxInMemoryObjectBytes : Int := 256 * 1024 * 1024

/-! ## 1. Identifiers -/

def hexDigit (n : Nat) : Char := (Nat.toDigits 16 n).headD '0'

/-- `hex.EncodeToString` -/
def hexEncode (b : Bytes) : String :=
  String.ofList (b.flatMap fun x => [hexDigit (x.toNat / 16), hexDigit (x.toNat % 16)])

/-- `[]byte(s)`: the UTF-8 bytes of a string. -/
def utf8 (s : String) : Bytes := s.toByteArray.data.toList

def unixEpoch : Time := 719162 * nanosPerDay

def unixNano (t : Time) : Int := t - unixEpoch

namespace Config

variable (cfg : Config)

def hashObjectKey (key : String) : String := cfg.sha256Hex key

def newPieceID (tenantID bucket key : String) (now : Time) : String :=
  cfg.sha256Hex
    (tenantID ++ "\x00" ++ bucket ++ "\x00" ++ key ++ "\x00" ++ toString (unixNano now))

def blake3Hex (b : Bytes) : String := hexEncode (cfg.blake3 b)

def formatContentHash (hexDigest : String) : String := "blake3:" ++ hexDigest

def manifestKey (tenantID bucket key versionID : String) : ManifestKey :=
  ⟨tenantID, bucket, cfg.hashObjectKey key, versionID⟩

def dedupEnabled (policy : PlacementPolicy) : Bool :=
  cfg.hasContentIndex && policy.dedupPolicy.any DedupPolicy.enabled

/-! ## 2. Shared reads -/

def bucketVersioning (tenantID bucket : String) :
    Proc Call (Except StoreError VersioningState) :=
  if cfg.hasBucketConfig then ask (.getVersioning tenantID bucket) else return .ok .unset

def bucketObjectLock (tenantID bucket : String) : Proc Call (Except StoreError LockConfig) :=
  if cfg.hasBucketConfig then ask (.getObjectLock tenantID bucket) else return .ok {}

def effectiveEncryptionMode (tenantID bucket : String) (policy : PlacementPolicy) :
    Proc Call (Except String EncryptionMode) :=
  if policy.encryptionMode ≠ .unset ∨ cfg.hasBucketConfig = false then
    return .ok policy.encryptionMode
  else do
    match ← ask (.getEncryption tenantID bucket) with
    | .error e => return .error e.text
    | .ok sse =>
      if sse.algorithm = "" then
        return .ok policy.encryptionMode
      else if cfg.encryption.isNone then
        return .error ("s3compat: bucket has a default-encryption configuration " ++
          "but gateway encryption is not configured")
      else
        return .ok .managed

end Config

/-! ## 3. Calls that only look -/

def inspects {β : Type} : Call β → Prop
  | .now | .getVersioning _ _ | .getObjectLock _ _ | .getEncryption _ _ | .legalHoldActive _ _ _
  | .getPiece _ => True
  | _ => False

def consults {β : Type} : Call β → Prop
  | .manifestGet _ => True
  | c => inspects c

def readsPieces (ps : List Piece) {β : Type} : Call β → Prop
  | .getPiece a => ∃ p ∈ ps, p.addr = a
  | _ => False

theorem inspects_of_readsPieces {ps : List Piece} {β : Type} {c : Call β} (h : readsPieces ps c) :
    inspects c := by
  cases c with
  | getPiece a => trivial
  | _ => exact absurd h id

theorem exec_of_consults {providers : String → Option Provider} {β : Type} {c : Call β}
    (h : consults c) (x : Choice) (w : World) : ((machine providers).exec x c w).2 = w := by
  rcases machine_exec providers x c w with hok | ⟨e, -, hfail⟩
  · rw [hok]
    cases c with
    | now | getVersioning | getObjectLock | getEncryption | legalHoldActive | getPiece
    | manifestGet => rfl
    | _ => exact absurd h id
  · rw [hfail]

theorem consults_of_inspects {β : Type} {c : Call β} (h : inspects c) : consults c := by
  cases c with
  | manifestGet k => trivial
  | _ => exact h

theorem Config.effectiveEncryptionMode_only (cfg : Config) (tenantID bucket : String)
    (policy : PlacementPolicy) :
    (cfg.effectiveEncryptionMode tenantID bucket policy).Only inspects := by
  unfold Config.effectiveEncryptionMode
  split
  · trivial
  refine ⟨trivial, fun b => ?_⟩
  rcases b with e | sse
  · trivial
  simp only [Proc.ret_bind]
  split
  · trivial
  · split <;> trivial

/-- Run a check that answers with an error response or lets the handler go on. -/
def orRefuse (check : Proc Call (Option Response)) (rest : Handler) : Handler := do
  match ← check with
  | some response => return response
  | none => rest

end ObjectFabric
