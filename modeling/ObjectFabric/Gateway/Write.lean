import ObjectFabric.Gateway.ObjectLock

/-!
# Write — what the object-writing handlers share

A PUT comes with its headers decoded and its body read.  Every write path ends the same way: the
manifest inherits the bucket's default retention and is stored, and if either step fails the handler
undoes what it did before.
-/

namespace ObjectFabric

open Interleaving

/-- A PUT of an object; `contentLength` is `-1` when the client declared none. -/
structure PutRequest where
  tenantID : String
  bucket : String
  key : String
  body : Bytes
  contentLength : Int
  /-- The header `X-Amz-Meta-Zk-Encryption`. -/
  zkEncryption : String := ""
  /-- What `parseObjectTaggingHeader` makes of `x-amz-tagging`. -/
  tagging : Except Response (Option StringMap) := .ok none
  metadata : ObjectMetadata := {}
  /-- The refusal of `validateRequestObjectMetadata`, if any. -/
  metadataTooLarge : Option Response := none
  bypassGovernance : Bool := false
  entropy : Nat := 0

namespace PutRequest

def object (r : PutRequest) : ObjectRef := ⟨r.tenantID, r.bucket, r.key, ""⟩

def requestObjectTags (r : PutRequest) : Option StringMap :=
  match r.tagging with
  | .error _ => none
  | .ok tags => tags

end PutRequest

/-- `strings.HasPrefix`, on the characters so that it evaluates. -/
def beginsWith (s head : String) : Bool := head.toList.isPrefixOf s.toList

def quote (s : String) : String :=
  if s = "" then ""
  else if beginsWith s "\"" ∧ s.toList.getLast? = some '"' then s
  else "\"" ++ s ++ "\""

def Piece.etag (p : Piece) : String :=
  if p.providerETag ≠ "" then p.providerETag
  else if beginsWith p.hash "blake3:" then ""
  else p.hash

/-- Stamp the default retention and store the manifest; `rollback` undoes the steps before. -/
def persistManifest (cfg : Config) (m : ObjectManifest) (rollback : Proc Call Unit)
    (stored : ObjectManifest → Handler) : Handler := do
  match ← applyDefaultObjectLockRetention cfg m.tenantID m.bucket m with
  | .error e =>
    rollback
    writeError 500 "ObjectLockGetFailed" e.text
  | .ok manifest =>
    match ← ask (.manifestPut manifest.key manifest) with
    | .error e =>
      rollback
      writeError 500 "ManifestPutFailed" e.text
    | .ok () => stored manifest

/-! ## The common end of the write paths -/

section

variable {cfg : Config} {S : Spec Call} {H : History Call → Prop} {m : ObjectManifest}
  {h : History Call}

/-- `m'` is `m` up to its retention. -/
def Stamped (m m' : ObjectManifest) : Prop := ∃ ret, m' = { m with retention := ret }

theorem applyDefaultObjectLockRetention_conforms {tenantID bucket : String}
    (hread : ∀ (h : History Call) {β : Type} (c : Call β), inspects c → H h →
      S.pre h c ∧ ∀ b, H (⟨c, b⟩ :: h))
    (hH : H h) :
    (applyDefaultObjectLockRetention cfg tenantID bucket m).Conforms S
      (fun h' r => H h' ∧ ∀ m', r = .ok m' → Stamped m m') h := by
  have hsame : ∀ m', (.ok m : Except StoreError ObjectManifest) = .ok m' → Stamped m m' :=
    fun m' hm' => ⟨m.retention, (Except.ok.inj hm').symm⟩
  unfold applyDefaultObjectLockRetention
  split
  · exact ⟨hH, hsame⟩
  have hlock := hread h (.getObjectLock tenantID bucket) trivial hH
  refine ⟨hlock.1, fun b _ => ?_⟩
  rcases b with e | lockCfg
  · exact ⟨hlock.2 _, fun m' hm' => by simp at hm'⟩
  simp only [Proc.ret_bind]
  split
  · exact ⟨hlock.2 _, hsame⟩
  · have hnow := hread _ .now trivial (hlock.2 (.ok lockCfg))
    refine ⟨hnow.1, fun now _ => ⟨hnow.2 now, fun m' hm' => ?_⟩⟩
    exact ⟨⟨lockCfg.defaultMode, lockCfg.defaultRetainUntil now⟩, (Except.ok.inj hm').symm⟩

theorem persistManifest_conforms {rollback : Proc Call Unit} {stored : ObjectManifest → Handler}
    {Q : History Call → Response → Prop} (hH : H h)
    (hread : ∀ (h : History Call) {β : Type} (c : Call β), inspects c → H h →
      S.pre h c ∧ ∀ b, H (⟨c, b⟩ :: h))
    (hQ : ∀ h r, r.status ≠ 200 → Q h r)
    (hroll : ∀ h, H h → rollback.Follows S h)
    (hput : ∀ h m', H h → Stamped m m' →
      S.pre h (.manifestPut m'.key m') ∧
      (∀ e, H (⟨.manifestPut m'.key m', .error e⟩ :: h)) ∧
      (stored m').Conforms S Q (⟨.manifestPut m'.key m', .ok ()⟩ :: h)) :
    (persistManifest cfg m rollback stored).Conforms S Q h := by
  have hfail : ∀ h code message, H h → (rollback.bind fun _ =>
      writeError 500 code message).Conforms S Q h := by
    intro h code message hH
    apply (hroll h hH).seq
    exact fun h' _ _ => hQ h' _ (by simp)
  unfold persistManifest
  apply (applyDefaultObjectLockRetention_conforms hread hH).seq
  rintro h' r ⟨hH', hr⟩
  rcases r with e | m'
  · exact hfail h' _ _ hH'
  have hstep := hput h' m' hH' (hr m' rfl)
  refine ⟨hstep.1, fun b _ => ?_⟩
  cases b with
  | error e => exact hfail _ _ _ (hstep.2.1 e)
  | ok u => exact hstep.2.2

end

end ObjectFabric
