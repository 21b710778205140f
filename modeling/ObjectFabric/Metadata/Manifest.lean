import ObjectFabric.Metadata.ObjectLock

/-!
# Manifest — the object manifest and the keys it is stored under

The records of `metadata/manifest.go`, field by field.  Go maps are finite maps; a map or pointer
that the code tests against `nil` is an `Option`.
-/

namespace ObjectFabric

abbrev Bytes := List UInt8

/-- `map[string]string`. -/
abbrev StringMap := Finmap fun _ : String => String

inductive EncryptionMode where
  | unset
  | clientSide
  | managed
  | publicDistribution
  | other (s : String)
  deriving DecidableEq, Repr

def EncryptionMode.isGatewayEncrypted : EncryptionMode → Bool
  | .managed | .publicDistribution => true
  | _ => false

inductive AADVersion where
  | legacy
  | v1
  | other (s : String)
  deriving DecidableEq, Repr

structure EncryptionConfig where
  mode : EncryptionMode := .unset
  algorithm : String := ""
  keyID : String := ""
  wrappedDEK : Bytes := []
  wrapAlgorithm : String := ""
  manifestEncrypted : Bool := false
  aadVersion : AADVersion := .legacy
  deriving DecidableEq, Repr

inductive ShardKind where
  | none
  | data
  | parity
  deriving DecidableEq, Repr

structure Piece where
  pieceID : String
  hash : String := ""
  backend : String
  locator : String := ""
  state : String := ""
  providerETag : String := ""
  partNumber : Int := 0
  sizeBytes : Int := 0
  stripeIndex : Int := 0
  shardIndex : Int := 0
  shardKind : ShardKind := .none
  deriving DecidableEq, Repr

structure PieceAddr where
  backend : String
  pieceID : String
  deriving DecidableEq, Repr

def Piece.addr (p : Piece) : PieceAddr := ⟨p.backend, p.pieceID⟩

structure DedupPolicy where
  enabled : Bool
  scope : String := "intra_tenant"
  level : String := "object"
  deriving DecidableEq, Repr

structure ReplicationPolicy where
  sourceCell : String
  destCell : String
  mode : String
  rpo : String := ""
  deriving DecidableEq, Repr

structure PlacementPolicy where
  residency : List String := []
  allowedBackends : List String := []
  minFailureDomains : Int := 0
  hotCache : Bool := false
  erasureProfile : String := ""
  encryptionMode : EncryptionMode := .unset
  dedupPolicy : Option DedupPolicy := none
  replicationPolicy : Option ReplicationPolicy := none
  deriving DecidableEq, Repr

structure MigrationState where
  generation : Int := 0
  primaryBackend : String := ""
  cloudCopy : String := ""
  deriving DecidableEq, Repr

structure ObjectMetadata where
  contentType : String := ""
  contentEncoding : String := ""
  contentDisposition : String := ""
  contentLanguage : String := ""
  cacheControl : String := ""
  expires : String := ""
  userMetadata : Option StringMap := none
  deriving DecidableEq

structure ObjectManifest where
  tenantID : String
  bucket : String
  objectKey : String := ""
  objectKeyHash : String
  versionID : String
  objectSize : Int := 0
  chunkSize : Int := 0
  contentHash : String := ""
  encryption : EncryptionConfig := {}
  placementPolicy : PlacementPolicy := {}
  pieces : List Piece := []
  migrationState : MigrationState := {}
  deleteMarker : Bool := false
  tags : Option StringMap := none
  metadata : ObjectMetadata := {}
  /-- `RetentionMode` and `RetainUntil` of the source, which every reader combines. -/
  retention : Retention := {}
  legalHold : Bool := false
  createdAt : Time := 0
  deriving DecidableEq

structure ManifestKey where
  tenantID : String
  bucket : String
  objectKeyHash : String
  versionID : String
  deriving DecidableEq, Repr

structure LatestKey where
  tenantID : String
  bucket : String
  objectKeyHash : String
  deriving DecidableEq, Repr

def ManifestKey.latestKey (k : ManifestKey) : LatestKey := ⟨k.tenantID, k.bucket, k.objectKeyHash⟩

def ObjectManifest.key (m : ObjectManifest) : ManifestKey :=
  ⟨m.tenantID, m.bucket, m.objectKeyHash, m.versionID⟩

/-- `isErasureCodedManifest` -/
def ObjectManifest.isErasureCoded (m : ObjectManifest) : Bool :=
  m.pieces.any fun p => p.shardKind ≠ .none

/-- `isMultipartManifest` -/
def ObjectManifest.isMultipart (m : ObjectManifest) : Bool :=
  2 ≤ m.pieces.length && m.pieces.all fun p => p.partNumber ≠ 0

end ObjectFabric
