import ObjectFabric.Gateway.Config

/-!
# ObjectLock — retention, legal hold and the lock checks of the write paths

`api/s3compat/object_lock_handler.go`.  `PutObjectRetention` and `PutObjectLegalHold` read a
version's manifest, check, and write the whole manifest back.  The other definitions are the checks
that a DELETE and an overwriting PUT make, and the default retention a new version inherits.
-/

namespace ObjectFabric

open Interleaving

/-- The object version a request addresses; an empty version ID means the latest. -/
structure ObjectRef where
  tenantID : String
  bucket : String
  key : String
  versionID : String := ""
  deriving DecidableEq, Repr

def ObjectRef.manifestKey (cfg : Config) (o : ObjectRef) : ManifestKey :=
  cfg.manifestKey o.tenantID o.bucket o.key o.versionID

def ObjectRef.version (o : ObjectRef) (versionID : String) : ObjectRef :=
  { o with versionID := versionID }

@[simp] theorem ObjectRef.version_self (o : ObjectRef) : o.version o.versionID = o := rfl

/-! ## 1. Checks -/

def objectLockBlocksDelete (m : ObjectManifest) (now : Time) (bypassGovernance : Bool) :
    Option String :=
  if m.legalHold then
    some "object version is under an active legal hold"
  else if !m.retention.active now then
    none
  else if m.retention.mode = .governance ∧ bypassGovernance then
    none
  else
    some "object version is protected by an active Object Lock retention"

/-- An overwrite in place is checked only on a locked bucket whose versioning is not enabled. -/
def allowObjectLockOverwrite (cfg : Config) (o : ObjectRef) (bypassGovernance : Bool) :
    Proc Call (Option Response) :=
  if !cfg.hasBucketConfig then
    return none
  else do
    match ← ask (.getObjectLock o.tenantID o.bucket) with
    | .error e => return some { status := 500, code := "ObjectLockGetFailed", message := e.text }
    | .ok lockCfg =>
      if !lockCfg.enabled then
        return none
      else
        match ← cfg.bucketVersioning o.tenantID o.bucket with
        | .error e =>
          return some { status := 500, code := "VersioningLookupFailed", message := e.text }
        | .ok versioning =>
          if versioning = .enabled then
            return none
          else
            match ← ask (.manifestGet (cfg.manifestKey o.tenantID o.bucket o.key "")) with
            | .error .manifestNotFound => return none
            | .error e =>
              return some { status := 500, code := "ObjectLockGetFailed", message := e.text }
            | .ok current =>
              let now ← ask .now
              match objectLockBlocksDelete current now bypassGovernance with
              | some message => return some { status := 403, code := "AccessDenied", message }
              | none => return none

theorem allowObjectLockOverwrite_only (cfg : Config) (o : ObjectRef) (bypass : Bool) :
    (allowObjectLockOverwrite cfg o bypass).Only consults := by
  unfold allowObjectLockOverwrite Config.bucketVersioning
  rcases cfg.hasBucketConfig with _ | _
  · trivial
  refine ⟨trivial, fun locked => ?_⟩
  rcases locked with e | lockCfg
  · trivial
  simp only [Proc.ret_bind]
  split
  · trivial
  refine ⟨trivial, fun versioning => ?_⟩
  rcases versioning with e | state
  · trivial
  simp only [Proc.ret_bind]
  split
  · trivial
  refine ⟨trivial, fun current => ?_⟩
  cases current with
  | error e => cases e <;> trivial
  | ok m =>
    refine .ask trivial fun now => ?_
    split <;> trivial

def applyDefaultObjectLockRetention (cfg : Config) (tenantID bucket : String)
    (m : ObjectManifest) : Proc Call (Except StoreError ObjectManifest) :=
  if cfg.hasBucketConfig = false ∨ m.deleteMarker ∨ m.retention.mode ≠ .unset then
    return .ok m
  else do
    match ← ask (.getObjectLock tenantID bucket) with
    | .error e => return .error e
    | .ok lockCfg =>
      if !lockCfg.hasDefaultRetention then
        return .ok m
      else
        let now ← ask .now
        return .ok { m with retention := ⟨lockCfg.defaultMode, lockCfg.defaultRetainUntil now⟩ }

def refuseWeakening (existing newRet : Retention) (now : Time) (bypassGovernance : Bool) :
    Option Response :=
  if existing.active now && weakensRetention existing newRet then
    match existing.mode with
    | .compliance => some
        { status := 403, code := "AccessDenied",
          message := "cannot shorten or remove COMPLIANCE-mode retention before it expires" }
    | .governance =>
      if bypassGovernance then
        none
      else some
        { status := 403, code := "AccessDenied",
          message := "shortening GOVERNANCE-mode retention requires " ++
            "x-amz-bypass-governance-retention:true" }
    | _ => none
  else
    none

/-! ## 2. Handlers -/

/-- Per-object retention and legal hold need Object Lock enabled on the bucket. -/
def authObjectLock (cfg : Config) (o : ObjectRef) (rest : Handler) : Handler :=
  if o.bucket = "" ∨ o.key = "" then
    writeError 400 "InvalidArgument"
      "retention and legal-hold are object-level sub-resources; path must be /\x7bbucket\x7d/\x7bkey...\x7d"
  else do
    match ← cfg.bucketObjectLock o.tenantID o.bucket with
    | .error e => writeError 500 "ObjectLockGetFailed" e.text
    | .ok lockCfg =>
      if !lockCfg.enabled then
        writeError 400 "InvalidRequest" "Bucket is missing Object Lock Configuration"
      else
        rest

def writeManifestGetError : StoreError → Handler
  | .manifestNotFound => writeError 404 "NoSuchKey" "the specified key does not exist"
  | e => writeError 500 "ManifestGetFailed" e.text

/-- Load the addressed version and hand on its manifest with the key to amend it under. -/
def loadObjectVersion (cfg : Config) (o : ObjectRef)
    (rest : ObjectManifest → ManifestKey → Handler) : Handler := do
  match ← ask (.manifestGet (o.manifestKey cfg)) with
  | .error e => writeManifestGetError e
  | .ok manifest =>
    if manifest.deleteMarker then
      writeError 405 "MethodNotAllowed" "the specified version is a delete marker"
    else
      rest manifest (cfg.manifestKey o.tenantID o.bucket o.key manifest.versionID)

/-- Write the amended manifest back and answer with `status`. -/
def storeAmended (status : Nat) (k : ManifestKey) (m : ObjectManifest) : Handler := do
  match ← ask (.manifestUpdate k m) with
  | .error e => writeError 500 "ManifestPutFailed" e.text
  | .ok () => return { status, versionID := m.versionID }

/-- `mode` and `retainUntil` are the fields of the request document, the date parsed. -/
def putObjectRetention (cfg : Config) (o : ObjectRef) (mode : String)
    (retainUntil : Except String Time) (bypassGovernance : Bool) : Handler :=
  authObjectLock cfg o <|
    match retainUntil with
    | .error message => writeError 400 "MalformedXML" message
    | .ok until_ =>
      let newRet : Retention := ⟨RetentionMode.ofString mode, until_⟩
      match newRet.validate with
      | .error message => writeError 400 "InvalidRequest" message
      | .ok () => loadObjectVersion cfg o fun manifest mkey => do
        let now ← ask .now
        match refuseWeakening manifest.retention newRet now bypassGovernance with
        | some response => return response
        | none => storeAmended 200 mkey { manifest with retention := newRet }

def putObjectLegalHold (cfg : Config) (o : ObjectRef) (status : String) : Handler :=
  authObjectLock cfg o <|
    if status ≠ "ON" ∧ status ≠ "OFF" then
      writeError 400 "MalformedXML" "LegalHold Status must be ON or OFF"
    else
      loadObjectVersion cfg o fun manifest mkey =>
        storeAmended 200 mkey { manifest with legalHold := decide (status = "ON") }

end ObjectFabric
