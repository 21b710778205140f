import ObjectFabric.Store.ManifestStore

/-!
# BucketConfig — per-bucket versioning state and Object Lock configuration

`metadata/bucket_config/memory_store.go`.  The two records lie in separate maps and no method
touches both.  Of the default-encryption configuration only its presence matters to the write paths;
the configurations of other features (CORS, lifecycle, notification) are not read by the operations
modelled here.
-/

namespace ObjectFabric

/-- `sse.Config`; empty when no default encryption is configured. -/
structure SseConfig where
  algorithm : String := ""
  kmsMasterKeyID : String := ""
  deriving DecidableEq, Repr

structure BucketConfig where
  versioning : FMap String VersioningState := ∅
  objectLock : FMap String LockConfig := ∅
  encryption : FMap String SseConfig := ∅

namespace BucketConfig

def memKey (tenantID bucket : String) : String := tenantID ++ "\x00" ++ bucket

def requireBucket (tenantID bucket : String) : Except StoreError Unit :=
  if tenantID = "" ∨ bucket = "" then
    .error (.other "bucket_config: tenant_id and bucket are required")
  else
    .ok ()

/-- The versioning state of a bucket; a missing record reads as the zero value. -/
def versioningOf (s : BucketConfig) (tenantID bucket : String) : VersioningState :=
  (s.versioning.lookup (memKey tenantID bucket)).getD .unset

def objectLockOf (s : BucketConfig) (tenantID bucket : String) : LockConfig :=
  (s.objectLock.lookup (memKey tenantID bucket)).getD {}

def getVersioning (s : BucketConfig) (tenantID bucket : String) :
    Except StoreError VersioningState := do
  requireBucket tenantID bucket
  return s.versioningOf tenantID bucket

def setVersioning (s : BucketConfig) (tenantID bucket : String) (state : VersioningState) :
    Except StoreError Unit × BucketConfig :=
  match requireBucket tenantID bucket with
  | .error e => (.error e, s)
  | .ok () =>
    if !state.valid then
      (.error (.other "bucket_config: state must be Enabled or Suspended"), s)
    else
      (.ok (), { s with versioning := s.versioning.insert (memKey tenantID bucket) state })

def getObjectLock (s : BucketConfig) (tenantID bucket : String) :
    Except StoreError LockConfig := do
  requireBucket tenantID bucket
  return s.objectLockOf tenantID bucket

def setObjectLock (s : BucketConfig) (tenantID bucket : String) (cfg : LockConfig) :
    Except StoreError Unit × BucketConfig :=
  match requireBucket tenantID bucket with
  | .error e => (.error e, s)
  | .ok () =>
    match cfg.validate with
    | .error message => (.error (.other message), s)
    | .ok () => (.ok (), { s with objectLock := s.objectLock.insert (memKey tenantID bucket) cfg })

def getEncryption (s : BucketConfig) (tenantID bucket : String) : Except StoreError SseConfig := do
  requireBucket tenantID bucket
  return (s.encryption.lookup (memKey tenantID bucket)).getD {}

/-! ## What the operations read and write -/

theorem getVersioning_eq_ok {s : BucketConfig} {tenantID bucket : String} {v : VersioningState}
    (h : s.getVersioning tenantID bucket = .ok v) : v = s.versioningOf tenantID bucket := by
  unfold getVersioning at h
  cases hr : requireBucket tenantID bucket with
  | error e => simp [hr] at h
  | ok u => exact (by simpa [hr] using h.symm)

theorem setVersioning_cases (s : BucketConfig) (tenantID bucket : String)
    (state : VersioningState) :
    (∃ e, s.setVersioning tenantID bucket state = (.error e, s)) ∨
    (state.valid = true ∧ s.setVersioning tenantID bucket state =
      (.ok (), { s with versioning := s.versioning.insert (memKey tenantID bucket) state })) := by
  unfold setVersioning
  cases requireBucket tenantID bucket with
  | error e => exact Or.inl ⟨e, rfl⟩
  | ok u =>
    cases hv : state.valid with
    | false => exact Or.inl ⟨_, rfl⟩
    | true => exact Or.inr ⟨rfl, rfl⟩

theorem setObjectLock_cases (s : BucketConfig) (tenantID bucket : String) (cfg : LockConfig) :
    (∃ e, s.setObjectLock tenantID bucket cfg = (.error e, s)) ∨
    s.setObjectLock tenantID bucket cfg =
      (.ok (), { s with objectLock := s.objectLock.insert (memKey tenantID bucket) cfg }) := by
  unfold setObjectLock
  cases requireBucket tenantID bucket with
  | error e => exact Or.inl ⟨e, rfl⟩
  | ok u =>
    cases cfg.validate with
    | error message => exact Or.inl ⟨_, rfl⟩
    | ok u => exact Or.inr rfl

end BucketConfig

end ObjectFabric
