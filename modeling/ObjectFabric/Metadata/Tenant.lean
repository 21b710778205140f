import Mathlib

/-!
# Tenant — the record of a tenant and its checks

`Tenant.Validate` of `metadata/tenant/tenant.go`, with the fields that it reads.
-/

namespace ObjectFabric

structure Tenant where
  id : String
  name : String
  contractType : String
  licenseTier : String
  rootKeyRef : String
  dekPolicy : String
  policyRef : String
  egressTBMonth : Rat := 0
  requestsPerSec : Int := 0
  currency : String
  deriving DecidableEq, Repr

def contractTypes : List String := ["b2c_pooled", "b2b_dedicated", "sovereign", "byoc"]

def licenseTiers : List String := ["beta", "archive", "standard", "hot", "dedicated", "sovereign"]

def dekPolicies : List String := ["per_object", "per_bucket"]

namespace Tenant

def check (ok : Bool) (message : String) : Except String Unit :=
  if ok then .ok () else .error ("tenant: " ++ message)

def validate (t : Tenant) : Except String Unit := do
  check (t.id ≠ "") "id is required"
  check (t.name ≠ "") "name is required"
  check (t.contractType ∈ contractTypes) ("unknown contract_type \"" ++ t.contractType ++ "\"")
  check (t.licenseTier ∈ licenseTiers) ("unknown license_tier \"" ++ t.licenseTier ++ "\"")
  check (t.rootKeyRef ≠ "") "keys.root_key_ref is required"
  check (t.dekPolicy ∈ dekPolicies) ("unknown keys.dek_policy \"" ++ t.dekPolicy ++ "\"")
  check (t.policyRef ≠ "") "placement_default.policy_ref is required"
  check (0 ≤ t.egressTBMonth) "budgets.egress_tb_month must be non-negative"
  check (0 ≤ t.requestsPerSec) "budgets.requests_per_sec must be non-negative"
  check (t.currency ≠ "") "billing.currency is required"

theorem exists_validate_iff (id : String) : (∃ t : Tenant, t.validate = .ok () ∧ t.id = id) ↔ id ≠ "" := by
  constructor
  · rintro ⟨t, hvalid, rfl⟩ hempty
    unfold validate check at hvalid
    rw [hempty] at hvalid
    exact absurd hvalid (by simp [bind, Except.bind])
  · intro hne
    let t : Tenant :=
      { id, name := "name", contractType := "byoc", licenseTier := "beta", rootKeyRef := "cmk",
        dekPolicy := "per_object", policyRef := "policy", currency := "USD" }
    refine ⟨t, ?_, rfl⟩
    unfold validate check
    simp [t, hne, bind, Except.bind, contractTypes, licenseTiers, dekPolicies]

end Tenant

end ObjectFabric
