import ObjectFabric.FiniteMap
import ObjectFabric.Metadata.Manifest

/-!
# Lifecycle — bucket lifecycle rules

The part of `metadata/lifecycle` that the pass reads: which rules are enabled, which objects a filter
selects, when an object expires under a rule and when an upload is stale.
-/

namespace ObjectFabric

structure LifecycleFilter where
  keyPrefix : String := ""
  tags : StringMap := ∅
  objectSizeGreaterThan : Option Int := none
  objectSizeLessThan : Option Int := none

structure Expiration where
  days : Int := 0
  date : Time := 0
  expiredObjectDeleteMarker : Bool := false

structure LifecycleRule where
  status : String
  filter : LifecycleFilter := {}
  expiration : Option Expiration := none
  /-- `AbortIncompleteMultipartUpload.DaysAfterInitiation` -/
  abortDays : Option Int := none

namespace LifecycleRule

def enabled (r : LifecycleRule) : Bool := r.status = "Enabled"

def tagValue (tags : Option StringMap) (k : String) : String :=
  ((tags.bind fun ts => ts.lookup k)).getD ""

def selects (r : LifecycleRule) (key : String) (tags : Option StringMap) (size : Int) : Bool :=
  let f := r.filter
  f.keyPrefix.toList.isPrefixOf key.toList &&
    !FMap.any (fun k v => tagValue tags k ≠ v) f.tags &&
    f.objectSizeGreaterThan.all (fun n => n < size) &&
    f.objectSizeLessThan.all (fun n => size < n)

def ceilToUTCMidnight (t : Time) : Time :=
  let midnight := t - t % nanosPerDay
  if t = midnight then midnight else addDate midnight 0 1

/-- The instant an object created at `createdAt` expires, if age or date can expire it. -/
def expiresAt (r : LifecycleRule) (createdAt : Time) : Option Time :=
  match r.expiration with
  | none => none
  | some e =>
    if e.expiredObjectDeleteMarker then
      none
    else if e.date ≠ 0 then
      some e.date
    else if e.days ≤ 0 ∨ createdAt = 0 then
      none
    else
      some (ceilToUTCMidnight (addDate createdAt 0 e.days))

-- one day after 2024-02-28 10:00 is rounded up to the midnight that ends 2024-02-29
example : expiresAt { status := "Enabled", expiration := some { days := 1 } }
    (daysFromCivil 2024 2 28 * nanosPerDay + 36000000000000) =
    some (daysFromCivil 2024 3 1 * nanosPerDay) := by decide

/-- An upload initiated at this instant or before it is stale. -/
def abortStaleBefore (r : LifecycleRule) (now : Time) : Option Time :=
  (r.abortDays.filter (0 < ·)).map fun days => addDate now 0 (-days)

end LifecycleRule

end ObjectFabric
