import ObjectFabric.Gateway.ObjectLock

/-!
# Tagging — replacing and removing a version's tag set

`api/s3compat/tagging_handler.go`, from the decoded tag set on.  Unlike the lock handlers these do
not look at the bucket, and a delete marker can be tagged.
-/

namespace ObjectFabric

open Interleaving

def maxObjectTags : Nat := 10
def maxTagKeyLength : Nat := 128
def maxTagValueLength : Nat := 256

def invalidTag (message : String) : Response :=
  { status := 400, code := "InvalidTag", message := message }

/-- The loop of `validateTagSet`, with the tags collected so far. -/
def validateTags (tags : StringMap) : List (String × String) → Except Response StringMap
  | [] => .ok tags
  | (key, value) :: rest =>
    if key = "" ∨ key.utf8ByteSize > maxTagKeyLength then
      .error (invalidTag "The TagKey you have provided is invalid")
    else if value.utf8ByteSize > maxTagValueLength then
      .error (invalidTag "The TagValue you have provided is invalid")
    else if (tags.lookup key).isSome then
      .error (invalidTag "Cannot provide multiple Tags with the same key")
    else
      validateTags (tags.insert key value) rest

def validateTagSet (entries : List (String × String)) : Except Response StringMap :=
  if entries.length > maxObjectTags then
    .error
      { status := 400, code := "BadRequest", message := "Object tags cannot be greater than 10" }
  else
    validateTags ∅ entries

def storedTags (tags : StringMap) : Option StringMap := if tags = ∅ then none else some tags

def authObjectTagging (o : ObjectRef) (rest : Handler) : Handler :=
  if o.bucket = "" then
    writeError 400 "InvalidArgument" "path must be /\x7bbucket\x7d/\x7bkey...\x7d"
  else if o.key = "" then
    writeError 501 "NotImplemented" "bucket-level tagging is not implemented by this gateway"
  else
    rest

def putObjectTagging (cfg : Config) (o : ObjectRef) (entries : List (String × String)) : Handler :=
  authObjectTagging o <|
    match validateTagSet entries with
    | .error response => return response
    | .ok tags => do
      match ← ask (.manifestGet (o.manifestKey cfg)) with
      | .error e => writeManifestGetError e
      | .ok manifest =>
        storeAmended 200 (cfg.manifestKey o.tenantID o.bucket o.key manifest.versionID)
          { manifest with tags := storedTags tags }

def deleteObjectTagging (cfg : Config) (o : ObjectRef) : Handler :=
  authObjectTagging o do
    match ← ask (.manifestGet (o.manifestKey cfg)) with
    | .error e => writeManifestGetError e
    | .ok manifest =>
      if manifest.tags.isSome then
        storeAmended 204 (cfg.manifestKey o.tenantID o.bucket o.key manifest.versionID)
          { manifest with tags := none }
      else
        return { status := 204, versionID := manifest.versionID }

end ObjectFabric
