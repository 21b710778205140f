import ObjectFabric.Metadata.Manifest

/-!
# LegalHold — compliance holds on tenants, buckets and objects

`internal/auth/legal_response.go`.  A hold is on a tenant, on a bucket or on one key; it is in force
until it is released or expires.
-/

namespace ObjectFabric

structure LegalHold where
  id : String
  tenantID : String
  bucket : String := ""
  objectKey : String := ""
  expiresAt : Time := 0
  released : Bool := false
  deriving DecidableEq, Repr

namespace LegalHold

def active (h : LegalHold) (now : Time) : Bool :=
  !h.released && (h.expiresAt = 0 || now < h.expiresAt)

/-- `Matches` of the source.  A hold without a bucket is on every bucket of the tenant, and one
without a key on every key. -/
def matchesObject (h : LegalHold) (tenantID bucket objectKey : String) : Bool :=
  h.tenantID = tenantID && (h.bucket = "" || h.bucket = bucket) &&
    (h.objectKey = "" || h.objectKey = objectKey)

theorem tenantID_of_matchesObject {h : LegalHold} {tenantID bucket objectKey : String}
    (hm : h.matchesObject tenantID bucket objectKey = true) : h.tenantID = tenantID := by
  unfold matchesObject at hm
  rw [Bool.and_eq_true, Bool.and_eq_true] at hm
  exact of_decide_eq_true hm.1.1

end LegalHold

/-- `Active` of the hold store. -/
def activeHolds (holds : List LegalHold) (now : Time) (tenantID bucket objectKey : String) :
    List LegalHold :=
  holds.filter fun h => h.active now && h.matchesObject tenantID bucket objectKey

end ObjectFabric
