import Mathlib

/-!
# ObjectLock — retention, legal hold and the bucket's lock configuration

The value semantics of `metadata/object_lock` and the versioning state of `metadata/bucket_config`:
which modes are settable, when a retention is in force, and the retain-until date a default rule
gives to a new version.
-/

namespace ObjectFabric

/-- Nanoseconds since Go's zero time (0001-01-01 00:00:00 UTC), so that `0` is `IsZero`. -/
abbrev Time := Int

/-! ## 1. Calendar dates -/

def nanosPerDay : Int := 86400 * 1000000000

/-- Day number (0001-01-01 is day 0) of a proleptic Gregorian date.  `day` may lie past the end of
the month, as in `time.Date`, and then counts on into the next one. -/
def daysFromCivil (year month day : Int) : Int :=
  -- years are counted from March, so that the leap day is the last of its year
  let y := if month ≤ 2 then year - 1 else year
  let shifted := if month > 2 then month - 3 else month + 9
  let yoe := y % 400
  let doy := (153 * shifted + 2) / 5 + day - 1
  y / 400 * 146097 + yoe * 365 + yoe / 4 - yoe / 100 + doy - 306

/-- The date `(year, month, day)` of a day number. -/
def civilFromDays (days : Int) : Int × Int × Int :=
  let z := days + 306
  let doe := z % 146097
  let yoe := (doe - doe / 1460 + doe / 36524 - doe / 146096) / 365
  let doy := doe - (365 * yoe + yoe / 4 - yoe / 100)
  let mp := (5 * doy + 2) / 153
  let month := if mp < 10 then mp + 3 else mp - 9
  let year := yoe + z / 146097 * 400
  (if month ≤ 2 then year + 1 else year, month, doy - (153 * mp + 2) / 5 + 1)

/-- `t.AddDate(years, 0, days)` in UTC. -/
def addDate (t : Time) (years days : Int) : Time :=
  let (y, m, d) := civilFromDays (t / nanosPerDay)
  daysFromCivil (y + years) m (d + days) * nanosPerDay + t % nanosPerDay

-- 2024-02-29 plus one year is 2025-03-01
example : addDate (daysFromCivil 2024 2 29 * nanosPerDay) 1 0 =
    daysFromCivil 2025 3 1 * nanosPerDay := by decide

/-! ## 2. Retention -/

/-- The retention mode is an open string in the source; only the two named modes are settable. -/
inductive RetentionMode where
  | unset
  | governance
  | compliance
  | other (s : String)
  deriving DecidableEq, Repr

def RetentionMode.ofString : String → RetentionMode
  | "" => .unset
  | "GOVERNANCE" => .governance
  | "COMPLIANCE" => .compliance
  | s => .other s

def RetentionMode.valid : RetentionMode → Bool
  | .governance | .compliance => true
  | _ => false

structure Retention where
  mode : RetentionMode := .unset
  retainUntil : Time := 0
  deriving DecidableEq, Repr

def Retention.active (r : Retention) (now : Time) : Bool :=
  r.mode.valid && decide (now < r.retainUntil)

def Retention.validate (r : Retention) : Except String Unit :=
  if !r.mode.valid then
    .error "object_lock: retention mode must be GOVERNANCE or COMPLIANCE"
  else if r.retainUntil = 0 then
    .error "object_lock: retention requires a RetainUntilDate"
  else
    .ok ()

/-- `weakensRetention` of the object-lock handlers: does replacing `cur` by `next` lower the
protection? -/
def weakensRetention (cur next : Retention) : Bool :=
  if !next.mode.valid then
    true
  else if cur.mode = .compliance ∧ next.mode = .governance then
    true
  else
    decide (next.retainUntil < cur.retainUntil)

/-! ## 3. Bucket configuration values -/

structure LockConfig where
  enabled : Bool := false
  defaultMode : RetentionMode := .unset
  defaultDays : Int := 0
  defaultYears : Int := 0
  deriving DecidableEq, Repr

def LockConfig.validate (c : LockConfig) : Except String Unit :=
  let hasRule := c.defaultMode ≠ .unset ∨ c.defaultDays ≠ 0 ∨ c.defaultYears ≠ 0
  if !c.enabled then
    if hasRule then
      .error "object_lock: default retention set on a disabled configuration"
    else
      .ok ()
  else if ¬ hasRule then
    .ok ()
  else if !c.defaultMode.valid then
    .error "object_lock: default retention mode must be GOVERNANCE or COMPLIANCE"
  else if c.defaultDays > 0 ↔ c.defaultYears > 0 then
    .error "object_lock: default retention requires exactly one of Days or Years"
  else if c.defaultDays < 0 ∨ c.defaultYears < 0 then
    .error "object_lock: default retention period must be positive"
  else
    .ok ()

def LockConfig.hasDefaultRetention (c : LockConfig) : Bool :=
  c.enabled && c.defaultMode.valid && (decide (c.defaultDays > 0) || decide (c.defaultYears > 0))

def LockConfig.defaultRetainUntil (c : LockConfig) (now : Time) : Time :=
  if c.defaultDays > 0 then addDate now 0 c.defaultDays else addDate now c.defaultYears 0

inductive VersioningState where
  | unset
  | enabled
  | suspended
  | other (s : String)
  deriving DecidableEq, Repr

def VersioningState.ofString : String → VersioningState
  | "" => .unset
  | "Enabled" => .enabled
  | "Suspended" => .suspended
  | s => .other s

def VersioningState.valid : VersioningState → Bool
  | .enabled | .suspended => true
  | _ => false

end ObjectFabric
