import ObjectFabric.Gateway.Config

/-!
# BucketSettings — setting a bucket's versioning state and Object Lock configuration

`PutBucketVersioning` and `PutObjectLockConfiguration`, from the decoded request document on.  Each
reads the other's record, decides, and then writes its own in a separate store call.
-/

namespace ObjectFabric

open Interleaving

/-- Versioning cannot be suspended while Object Lock is enabled on the bucket. -/
def refuseSuspend (cfg : Config) (tenantID bucket : String) (state : VersioningState) :
    Proc Call (Option Response) :=
  if state ≠ .suspended then
    return none
  else do
    match ← cfg.bucketObjectLock tenantID bucket with
    | .error e => return some { status := 500, code := "ObjectLockGetFailed", message := e.text }
    | .ok lockCfg =>
      if lockCfg.enabled then
        return some
          { status := 409, code := "InvalidBucketState",
            message := "cannot suspend versioning while Object Lock is enabled on the bucket" }
      else
        return none

/-- `status` is the `<Status>` of the request document. -/
def putBucketVersioning (cfg : Config) (tenantID bucket key status : String) : Handler :=
  if bucket = "" ∨ key ≠ "" then
    writeError 400 "InvalidArgument"
      "versioning is a bucket-level sub-resource; path must be /\x7bbucket\x7d?versioning"
  else if !cfg.hasBucketConfig then
    writeError 501 "NotImplemented" "bucket versioning is not configured on this gateway"
  else
    let state := VersioningState.ofString status
    if !state.valid then
      writeError 400 "IllegalVersioningConfigurationException" "Status must be Enabled or Suspended"
    else
      orRefuse (refuseSuspend cfg tenantID bucket state) do
        match ← ask (.setVersioning tenantID bucket state) with
        | .error e => writeError 500 "VersioningPutFailed" e.text
        | .ok () => return { status := 200 }

/-- The `<DefaultRetention>` of a lock configuration document. -/
structure DefaultRetention where
  mode : String := ""
  days : Int := 0
  years : Int := 0
  deriving DecidableEq, Repr

def requestedLockConfig (rule : Option DefaultRetention) : LockConfig :=
  match rule with
  | none => { enabled := true }
  | some dr =>
    { enabled := true, defaultMode := RetentionMode.ofString dr.mode,
      defaultDays := dr.days, defaultYears := dr.years }

def putObjectLockConfiguration (cfg : Config) (tenantID bucket key objectLockEnabled : String)
    (rule : Option DefaultRetention) : Handler :=
  if bucket = "" ∨ key ≠ "" then
    writeError 400 "InvalidArgument"
      "object-lock is a bucket-level sub-resource; path must be /\x7bbucket\x7d?object-lock"
  else if !cfg.hasBucketConfig then
    writeError 501 "NotImplemented" "object lock is not configured on this gateway"
  else if objectLockEnabled ≠ "Enabled" then
    writeError 400 "MalformedXML" "ObjectLockEnabled must be 'Enabled'"
  else
    let lockCfg := requestedLockConfig rule
    match lockCfg.validate with
    | .error message => writeError 400 "InvalidRequest" message
    | .ok () => do
      match ← cfg.bucketVersioning tenantID bucket with
      | .error e => writeError 500 "VersioningLookupFailed" e.text
      | .ok versioning =>
        if versioning ≠ .enabled then
          writeError 409 "InvalidBucketState" "Object Lock requires bucket versioning to be enabled"
        else
          match ← ask (.setObjectLock tenantID bucket lockCfg) with
          | .error e => writeError 500 "ObjectLockPutFailed" e.text
          | .ok () => return { status := 200 }

inductive BucketSettingsRequest where
  | putVersioning (key status : String)
  | putObjectLock (key objectLockEnabled : String) (rule : Option DefaultRetention)
  deriving DecidableEq, Repr

def BucketSettingsRequest.handle (cfg : Config) (tenantID bucket : String) :
    BucketSettingsRequest → Handler
  | .putVersioning key status => putBucketVersioning cfg tenantID bucket key status
  | .putObjectLock key on rule => putObjectLockConfiguration cfg tenantID bucket key on rule

end ObjectFabric
