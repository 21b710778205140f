import ObjectFabric.Gateway.Write

/-!
# Sample — a small concrete gateway

The configuration under which the runs of the later modules are evaluated: one backend, no
encryption, and the hash functions given by their digests of the inputs that occur in those runs.
-/

namespace ObjectFabric

def sampleSha256Hex : String → String
  | "key" => "2c70e12b7a0646f92279f427c7b38e7334d8e5389cff167a1dc30e73f826b683"
  | "tenant\x00bucket\x00key\x000" =>
    "496f2c1e6f3c276d2ff1d54b6f98ce9a6db83f762717accce163b4839d93e222"
  | "tenant\x00bucket\x00key\x001" =>
    "3505da939d0acad72ce179ea469d2c69f94b5a6c4b01464e0deac7b112b0f088"
  | "tenant\x00bucket\x00key\x002" =>
    "0d0e319ff6d0435e683f762973fcbdb2c24046636ea774f73bfb5306741061fa"
  | "tenant\x00bucket\x00key\x003" =>
    "c540d32fbd24c7acbdf50401fd8d8c499651641e4cf2cb53fb3d2af3793f885f"
  | s => s

def sampleBlake3 : Bytes → Bytes
  | [97] =>
    [0x17, 0x76, 0x2f, 0xdd, 0xd9, 0x69, 0xa4, 0x53, 0x92, 0x5d, 0x65, 0x71, 0x7a, 0xc3,
      0xee, 0xa2, 0x13, 0x20, 0xb6, 0x6b, 0x54, 0x34, 0x2f, 0xde, 0x15, 0x12, 0x8d, 0x6c,
      0xaf, 0x21, 0x21, 0x5f]
  | b => b

def sampleGateway : Config where
  sha256Hex := sampleSha256Hex
  blake3 := sampleBlake3
  providers _ := some {}
  resolveBackend _ _ _ := .ok ("backend", {})

/-- The clock `n` nanoseconds after the Unix epoch. -/
def sampleClock (n : Int) : Choice := { now := unixEpoch + n }

/-- A PUT of the one-byte body `a`, encrypted by the client. -/
def samplePut : PutRequest :=
  { tenantID := "tenant", bucket := "bucket", key := "key", body := [97], contentLength := 1,
    zkEncryption := "xchacha20-poly1305" }

def dedupPolicy : PlacementPolicy :=
  { encryptionMode := .clientSide, dedupPolicy := some { enabled := true } }

def sampleKey (versionID : String) : ManifestKey :=
  sampleGateway.manifestKey "tenant" "bucket" "key" versionID

def sampleVersion : ObjectRef := ⟨"tenant", "bucket", "key", "v1"⟩

def sampleManifest (versionID : String) : ObjectManifest :=
  { tenantID := "tenant", bucket := "bucket", objectKey := "key",
    objectKeyHash := (sampleKey versionID).objectKeyHash, versionID }

def sampleWorld : World where
  manifests := ({} : ManifestStore).put (sampleKey "v1") (sampleManifest "v1")
  buckets := ((({} : BucketConfig).setVersioning "tenant" "bucket" .enabled).2.setObjectLock
    "tenant" "bucket" { enabled := true }).2

def abandonedRow (refCount : Int) : ContentIndexEntry :=
  { tenantID := "tenant", contentHash := "blake3:61", pieceID := "piece", backend := "backend",
    refCount, sizeBytes := 1 }

def abandonedWorld (refCount : Int) : World :=
  { sampleWorld with
    index := ({} : ContentIndex).set (abandonedRow refCount)
    pieces := (∅ : FMap PieceAddr Bytes).insert (abandonedRow refCount).addr [97] }

def abandonedListing : Choice := { order := [⟨"tenant", "blake3:61"⟩] }

end ObjectFabric
