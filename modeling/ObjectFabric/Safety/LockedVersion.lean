import ObjectFabric.Interleaving.Completions
import ObjectFabric.Workers.Evaluator
import ObjectFabric.Safety.Amendments

/-!
# LockedVersion — protection requests against removals of the same version

A retention or legal-hold request and a removal (DELETE, or the expiration pass) both read the
manifest, check it, and write in a later call.  The protection in force is what the acknowledged
requests give when they are applied in the order they were acknowledged.  A removal respects it
when the lock fields it read are still the stored ones at the step that removes the version.
-/

namespace ObjectFabric

open Interleaving

inductive LockRequest where
  | retention (versionID mode : String) (retainUntil : Except String Time)
      (bypassGovernance : Bool)
  | legalHold (versionID status : String)
  | delete (versionID : String) (bypassGovernance : Bool)
  | expire (rules : List LifecycleRule) (pageSize : Int) (pages : Nat)

namespace LockRequest

/-- The expiration pass answers nobody; its thread ends with an empty response. -/
def handle (cfg : Config) (o : ObjectRef) : LockRequest → Handler
  | .retention versionID mode retainUntil bypass =>
    putObjectRetention cfg (o.version versionID) mode retainUntil bypass
  | .legalHold versionID status => putObjectLegalHold cfg (o.version versionID) status
  | .delete versionID bypass => deleteObject cfg (o.version versionID) bypass
  | .expire rules pageSize pages => do
    let _ ← evalBucket cfg ⟨o.tenantID, o.bucket, rules⟩ pageSize pages
    return { status := 200 }

def protection : LockRequest → Option AmendRequest
  | .retention versionID mode retainUntil bypass =>
    some ⟨versionID, .setRetention mode retainUntil bypass⟩
  | .legalHold versionID status => some ⟨versionID, .setLegalHold status⟩
  | .delete _ _ | .expire _ _ _ => none

def versionID : LockRequest → Option String
  | .retention v _ _ _ | .legalHold v _ | .delete v _ => some v
  | .expire _ _ _ => none

def bypassGovernance : LockRequest → Bool
  | .delete _ bypass => bypass
  | _ => false

/-- The request removes versions for good in a bucket with the given versioning state, rather than
putting a delete marker on top. -/
def permanent (versioning : VersioningState) : LockRequest → Bool
  | .delete v _ => v ≠ "" || versioning ≠ .enabled
  | .expire _ _ _ => versioning ≠ .enabled
  | _ => true

def mayRemove (m : ObjectManifest) (now : Time) : LockRequest → Prop
  | .delete _ bypass => objectLockBlocksDelete m now bypass = none
  | .expire _ _ _ => m.deleteMarker = true ∨ objectLocked m now = false
  | _ => False

end LockRequest

/-! ## 1. The protection in force -/

def protections (reqs : List LockRequest) : List AmendRequest :=
  reqs.map fun r => r.protection.getD ⟨"", .clearTags⟩

def lockOp (reqs : List LockRequest) (stored : Option ObjectManifest) (e : Nat × History Call) :
    Option (Option ObjectManifest) :=
  match reqs[e.1]?.bind LockRequest.protection with
  | some _ => amendOp (protections reqs) e.1 e.2 stored
  | none => some stored

/-- The manifest as the acknowledged protection requests leave it, one after another. -/
def protectedManifest (reqs : List LockRequest) (initial : Option ObjectManifest)
    (acknowledged : List (Nat × History Call)) : Option (Option ObjectManifest) :=
  acknowledged.foldlM (lockOp reqs) initial

theorem protectedManifest_snoc (reqs : List LockRequest) (initial : Option ObjectManifest)
    (L : List (Nat × History Call)) (e : Nat × History Call) :
    protectedManifest reqs initial (L ++ [e]) =
      (protectedManifest reqs initial L).bind fun st => lockOp reqs st e := by
  unfold protectedManifest
  rw [List.foldlM_append]
  simp only [List.foldlM_cons, List.foldlM_nil, bind_pure]
  rfl

def inHand : History Call → List ObjectManifest
  | [] => []
  | ⟨.manifestGet _, .ok m⟩ :: _ => [m]
  | ⟨.manifestList _ _ _ _, .ok page⟩ :: _ => page.1
  | _ :: h => inHand h

/-- At the write of a protection request the manifest is undisturbed, as for any amendment; at the
removal of the version its lock fields are the ones read, and the clock has not run back. -/
def lockUndisturbed (k : ManifestKey) (reqs : List LockRequest) :
    Condition Call Choice World PUnit
  | i, h, _, .manifestUpdate k' m', x, w, R =>
    amendmentUndisturbed (protections reqs) i h (.manifestUpdate k' m') x w R
  | _, h, _, .manifestDelete k', x, w, _ =>
    k' = k → ∀ m ∈ inHand h, m.key = k → ∀ s, storedVersion k w = some s →
      s.retention = m.retention ∧ s.legalHold = m.legalHold ∧ 0 ≤ readingOf h ∧ readingOf h ≤ x.now
  | _, _, _, _, _, _, _ => True

variable {h : History Call} {β : Type} {x : Choice}

theorem amendmentUndisturbed_of_lock {k : ManifestKey} {reqs : List LockRequest} {i : Nat}
    {c : Call β} {w : World} (hc : lockUndisturbed k reqs i h c x w PUnit.unit) :
    amendmentUndisturbed (protections reqs) i h c x w PUnit.unit := by
  cases c with
  | manifestUpdate k' m' => exact hc
  | _ => trivial

variable {bypass : Bool}

theorem objectLockBlocksDelete_later {m s : ObjectManifest} {t now : Time}
    (hret : s.retention = m.retention) (hhold : s.legalHold = m.legalHold) (hle : t ≤ now)
    (h : objectLockBlocksDelete m t bypass = none) : objectLockBlocksDelete s now bypass = none := by
  unfold objectLockBlocksDelete at h ⊢
  rw [hret, hhold]
  cases hlegal : m.legalHold with
  | true => simp [hlegal] at h
  | false => ?_
  rw [hlegal] at h
  rcases hactive : m.retention.active now with _ | _
  · simp
  -- a retention still active now was active at the earlier reading
  have hearlier : m.retention.active t = true := by
    simp only [Retention.active, Bool.and_eq_true, decide_eq_true_eq] at hactive ⊢
    exact ⟨hactive.1, Int.lt_of_le_of_lt hle hactive.2⟩
  rw [hearlier] at h
  exact h

variable {m : ObjectManifest} {now : Time}

theorem objectLockBlocksDelete_of_not_locked (hnow : 0 ≤ now)
    (h : objectLocked m now = false) : objectLockBlocksDelete m now false = none := by
  unfold objectLocked at h
  rw [Bool.or_eq_false_iff] at h
  unfold objectLockBlocksDelete
  rw [h.1]
  have hinactive : m.retention.active now = false := by
    unfold Retention.active
    by_cases hlt : now < m.retention.retainUntil
    · -- only the zero date escapes the test on the date, and no reading lies before it
      have hzero : m.retention.retainUntil = 0 := by simpa [hlt] using h.2
      rw [hzero] at hlt
      exact absurd hlt (Int.not_lt.mpr hnow)
    · simp [hlt]
  rw [hinactive]
  rfl

variable {v : String} {rules : List LifecycleRule} {pageSize : Int} {pages : Nat}
  {page : List ObjectManifest}

/-! ## 2. What the requests do -/

section

variable (cfg : Config) (o : ObjectRef) (marker : Bool) (versioning : VersioningState)

structure ListedIn (m : ObjectManifest) : Prop where
  named : m.versionID ≠ ""
  inTenant : m.tenantID = o.tenantID
  inBucket : m.bucket = o.bucket
  kind : m.key = o.manifestKey cfg → m.deleteMarker = marker

/-- A removal takes the version away only after its check on a manifest it has read. -/
def removalSpec (r : LockRequest) : Spec Call where
  pre h c := match c with
    | .now | .legalHoldActive _ _ _ | .manifestListVersions _ _ _
    | .deletePiece _ | .indexDecrementRef _ | .indexDelete _ => True
    | .getVersioning t b | .manifestList t b _ _ => t = o.tenantID ∧ b = o.bucket
    | .manifestGet k => ∃ v, r.versionID = some v ∧ k = (o.version v).manifestKey cfg
    | .manifestDelete k => k.versionID ≠ "" ∧ (k = o.manifestKey cfg →
          ∃ m ∈ inHand h, m.key = k ∧ m.deleteMarker = marker ∧ r.mayRemove m (readingOf h))
    | _ => False
  post _ c b := match c, b with
    | .getVersioning _ _, b => ∀ v, b = .ok v → v = versioning
    | .manifestGet _, b => ∀ m, b = .ok m → o.versionID ≠ "" ∧
        m.key = o.manifestKey cfg ∧ m.deleteMarker = marker
    | .manifestList _ _ _ _, b => ∀ page, b = .ok page →
        ∀ m ∈ page.1, ListedIn cfg o marker m
    | _, _ => True

variable {cfg o marker versioning} {r : LockRequest}

theorem reclaim_conforms {α : Type} {p : Proc Call α} (hp : p.Only reclaims) :
    p.Conforms (removalSpec cfg o marker versioning r)
      (fun h' _ => inHand h' = inHand h ∧ readingOf h' = readingOf h) h := by
  apply hp.conforms (R := fun h' => inHand h' = inHand h ∧ readingOf h' = readingOf h)
  · intro h' β c hc hR
    cases c with
    | deletePiece | indexDecrementRef | indexDelete => exact ⟨trivial, fun _ => hR⟩
    | _ => exact hc.elim
  · exact ⟨rfl, rfl⟩

theorem deleteVersion_conforms (hr : r = .delete v bypass) :
    (deleteVersion cfg (o.version v) bypass).Follows (removalSpec cfg o marker versioning r) h := by
  refine deleteVersion_follows ⟨v, by rw [hr]; rfl, rfl⟩ (fun _ => trivial) ?_
  intro m now hfound hlock
  have hread := hfound m rfl
  have hmv : m.versionID = o.versionID := congrArg ManifestKey.versionID hread.2.1
  refine ⟨⟨by rw [hmv]; exact hread.1, fun _ => ⟨m, List.mem_singleton_self m, ?_⟩⟩, ?_⟩
  · refine ⟨by rw [hread.2.1, hmv]; rfl, hread.2.2, ?_⟩
    rw [hr]
    exact hlock
  · exact fun removed _ _ => (reclaim_conforms giveBack_only).mono fun _ _ _ => trivial

theorem deleteObject_conforms (hr : r = .delete v bypass) (hperm : r.permanent versioning = true) :
    (deleteObject cfg (o.version v) bypass).Follows (removalSpec cfg o marker versioning r) [] := by
  refine deleteObject_follows ⟨rfl, rfl⟩ (fun _ => trivial) (fun h hstate hv => ?_)
    fun h _ => deleteVersion_conforms hr
  -- a marker would be put only on an enabled bucket without a version ID
  change v = "" at hv
  rw [hr, LockRequest.permanent, ← hstate _ rfl, hv] at hperm
  exact absurd hperm (by decide)

def OnPage (page : List ObjectManifest) (now : Time) (h : History Call) : Prop :=
  inHand h = page ∧ readingOf h = now

section

variable (hm : ListedIn cfg o marker m)
include hm

theorem ListedIn.keyOf_eq :
    LifecycleEntry.keyOf ⟨o.tenantID, o.bucket, rules⟩ m m.versionID = m.key := by
  unfold LifecycleEntry.keyOf ObjectManifest.key
  rw [hm.inTenant, hm.inBucket]

theorem ListedIn.pre_delete (hmem : m ∈ page)
    (hh : OnPage page now h) (hmay : (LockRequest.expire rules pageSize pages).mayRemove m now) :
    (removalSpec cfg o marker versioning (.expire rules pageSize pages)).pre h
        (.manifestDelete (LifecycleEntry.keyOf ⟨o.tenantID, o.bucket, rules⟩ m m.versionID)) := by
  rw [hm.keyOf_eq]
  refine ⟨hm.named, fun hk => ⟨m, ?_, rfl, hm.kind hk, ?_⟩⟩
  · rw [hh.1]
    exact hmem
  · rw [hh.2]
    exact hmay

theorem removeExpiredDeleteMarker_conforms (hmem : m ∈ page)
    (hh : OnPage page now h) (hmarker : m.deleteMarker = true) (stats : LifecycleStats) :
    (removeExpiredDeleteMarker ⟨o.tenantID, o.bucket, rules⟩ m stats).Conforms
      (removalSpec cfg o marker versioning (.expire rules pageSize pages))
      (fun h' _ => OnPage page now h') h := by
  refine ⟨trivial, fun versions _ => ?_⟩
  rcases versions with e | versions
  · exact hh
  simp only [Proc.ret_bind]
  by_cases hlen : versions.length ≠ 1
  · rw [if_pos hlen]
    exact hh
  rw [if_neg hlen]
  refine ⟨hm.pre_delete hmem hh (Or.inl hmarker), fun removed _ => ?_⟩
  cases removed with
  | ok u => exact hh
  | error e => cases e <;> exact hh

theorem expireOne_conforms {rules todo : List LifecycleRule} (hmem : m ∈ page)
    (hh : OnPage page now h) (stats : LifecycleStats) :
    (expireOne cfg ⟨o.tenantID, o.bucket, rules⟩ m now false stats todo).Conforms
      (removalSpec cfg o marker versioning (.expire rules pageSize pages))
      (fun h' _ => OnPage page now h') h := by
  -- every branch either goes on to the remaining rules or ends with one action
  induction todo generalizing stats h with
  | nil => exact hh
  | cons rule rest ih => ?_
  unfold expireOne
  rcases hexp : rule.expiration with _ | expiration
  · exact ih hh stats
  simp only
  split
  · exact ih hh stats
  split
  · split
    · exact ih hh stats
    rename_i hmarker
    apply (removeExpiredDeleteMarker_conforms hm hmem hh (by simpa using hmarker) stats).seq
    rintro h' ⟨removed, stats'⟩ hh'
    cases removed with
    | true => exact hh'
    | false => exact ih hh' stats'
  · split
    · exact ih hh stats
    split
    · exact ih hh stats
    cases hlocked : objectLocked m now with
    | true => exact hh
    | false => ?_
    refine ⟨hm.pre_delete hmem hh (Or.inr hlocked), fun removed _ => ?_⟩
    rcases removed with e | u
    · cases e <;> exact hh
    apply (reclaim_conforms giveBack_only).seq
    intro h' _ hsame
    exact ⟨hsame.1.trans hh.1, hsame.2.trans hh.2⟩

end

theorem expireEach_conforms {todo : List ObjectManifest}
    (hpage : ∀ m ∈ page, ListedIn cfg o marker m)
    (htodo : ∀ m ∈ todo, m ∈ page) (hh : OnPage page now h) (stats : LifecycleStats) :
    (expireEach cfg ⟨o.tenantID, o.bucket, rules⟩ false now stats todo).Conforms
      (removalSpec cfg o marker versioning (.expire rules pageSize pages))
      (fun h' _ => OnPage page now h') h := by
  induction todo generalizing stats h with
  | nil => exact hh
  | cons m ms ih => ?_
  have hm := htodo m List.mem_cons_self
  apply (expireOne_conforms (hpage m hm) hm hh _).seq
  intro h' stats' hh'
  exact ih (fun m' hm' => htodo m' (List.mem_cons_of_mem m hm')) hh' stats'

theorem expirePages_conforms {pageSize size : Int}
    {pages left : Nat} (hnow : readingOf h = now) (cursor : String) (stats : LifecycleStats) :
    (expirePages cfg ⟨o.tenantID, o.bucket, rules⟩ size false now left cursor stats).Follows
      (removalSpec cfg o marker versioning (.expire rules pageSize pages)) h := by
  induction left generalizing cursor stats h with
  | zero => trivial
  | succ left ih => ?_
  refine ⟨⟨rfl, rfl⟩, fun b hb => ?_⟩
  rcases b with e | res
  · trivial
  have hon : OnPage res.1 now
      (⟨.manifestList o.tenantID o.bucket cursor size, .ok res⟩ :: h) := ⟨rfl, hnow⟩
  apply (expireEach_conforms (hb res rfl) (fun m hm => hm) hon stats).seq
  intro h' stats' hh'
  by_cases hnext : res.2 = ""
  · rw [if_pos hnext]
    trivial
  · rw [if_neg hnext]
    exact ih hh'.2 res.2 stats'

theorem expire_conforms
    (hr : r = .expire rules pageSize pages) (hperm : r.permanent versioning = true) :
    (r.handle cfg o).Follows (removalSpec cfg o marker versioning r) [] := by
  subst hr
  apply Proc.Conforms.bind
  refine ⟨trivial, fun now _ => ⟨⟨rfl, rfl⟩, fun b hb => ?_⟩⟩
  rcases b with e | state
  · trivial
  have hstate : decide (state = .enabled) = false := by
    rw [hb state rfl]
    simpa [LockRequest.permanent] using hperm
  simp only [Proc.ret_bind]
  rw [hstate]
  exact expirePages_conforms rfl "" {}

/-! ## 3. Steps -/

variable (cfg o marker versioning) in
def lockSpec (reqs : List LockRequest) (i : Nat) : Spec Call :=
  match reqs[i]? with
  | some (.delete v bypass) =>
    removalSpec cfg o marker versioning (.delete v bypass)
  | some (.expire rules pageSize pages) =>
    removalSpec cfg o marker versioning (.expire rules pageSize pages)
  | _ => amendSpec cfg o (protections reqs) i

def lockResult (reqs : List LockRequest) (i : Nat) (h : History Call) (a : Response) : Prop :=
  (reqs[i]?.bind LockRequest.protection).isSome = true → amendResult (protections reqs) i h a

variable (cfg o marker versioning) in
/-- The requests are about the one version; every manifest is stored under its own key. -/
structure LockAddressed (reqs : List LockRequest) (w : World) : Prop where
  keyed : w.manifests.Keyed
  named : ∀ k m, w.manifests.byKey.lookup k = some m → k.versionID ≠ ""
  kind : ∀ m, storedVersion (o.manifestKey cfg) w = some m →
    m.deleteMarker = marker
  resolves : ∀ r ∈ reqs, ∀ v, r.versionID = some v → ∀ target,
    w.manifests.resolve ((o.version v).manifestKey cfg) = some target → target = o.manifestKey cfg
  state : w.buckets.versioningOf o.tenantID o.bucket = versioning

variable (cfg o marker versioning) in
def lockProtocol (reqs : List LockRequest) : Protocol Call World Choice PUnit where
  held _ := 0
  inv w _ := LockAddressed cfg o marker versioning reqs w
  cond := lockUndisturbed (o.manifestKey cfg) reqs
  spec := lockSpec cfg o marker versioning reqs

variable {reqs : List LockRequest} {i : Nat} {w : World}

theorem lockSpec_of_removal (hi : reqs[i]? = some r) (hr : r.protection = none) :
    lockSpec cfg o marker versioning reqs i = removalSpec cfg o marker versioning r := by
  unfold lockSpec
  rw [hi]
  cases r with
  | delete | expire => rfl
  | retention | legalHold => exact absurd hr (by simp [LockRequest.protection])

theorem lockSpec_of_not_removal (hi : ∀ r, reqs[i]? = some r → r.protection ≠ none) :
    lockSpec cfg o marker versioning reqs i = amendSpec cfg o (protections reqs) i := by
  unfold lockSpec
  rcases hreq : reqs[i]? with _ | r
  · rfl
  cases r with
  | delete | expire => exact absurd rfl (hi _ hreq)
  | retention | legalHold => rfl

theorem protections_getElem {p : AmendRequest} (hi : reqs[i]? = some r)
    (hp : r.protection = some p) : (protections reqs)[i]? = some p := by
  unfold protections
  rw [List.getElem?_map, hi, Option.map_some, hp]
  rfl

theorem lockHandlers_conform {p : Handler} (hperm : ∀ r ∈ reqs, r.permanent versioning = true)
    (hp : (reqs.map (LockRequest.handle cfg o))[i]? = some p) :
    p.Conforms (lockSpec cfg o marker versioning reqs i) (lockResult reqs i) [] := by
  rw [List.getElem?_map, Option.map_eq_some_iff] at hp
  rcases hp with ⟨r, hi, rfl⟩
  have hr := hperm r (List.mem_of_getElem? hi)
  have hremoval : r.protection = none → ∀ h a, lockResult reqs i h a := by
    intro hnone h a hsome
    rw [hi, Option.bind_some, hnone] at hsome
    exact absurd hsome (by decide)
  cases hkind : r with
  | delete v bypass =>
    have hnone : r.protection = none := by
      rw [hkind]
      rfl
    rw [lockSpec_of_removal hi hnone]
    exact (deleteObject_conforms hkind hr).mono fun h a _ => hremoval hnone h a
  | expire rules pageSize pages =>
    have hnone : r.protection = none := by
      rw [hkind]
      rfl
    rw [lockSpec_of_removal hi hnone, ← hkind]
    exact (expire_conforms hkind hr).mono fun h a _ => hremoval hnone h a
  | retention v mode retainUntil bypass =>
    rw [hkind] at hi
    rw [lockSpec_of_not_removal (by simp [hi, LockRequest.protection])]
    have hreq := protections_getElem hi rfl
    exact (putObjectRetention_conforms hreq rfl).mono fun h a ha _ => ha
  | legalHold v status => ?_
  rw [hkind] at hi
  rw [lockSpec_of_not_removal (by simp [hi, LockRequest.protection])]
  have hreq := protections_getElem hi rfl
  exact (putObjectLegalHold_conforms hreq rfl).mono fun h a ha _ => ha

section

variable (hw : LockAddressed cfg o marker versioning reqs w)
include hw

theorem LockAddressed.of_same {w' : World}
    (hm : w'.manifests = w.manifests) (hb : w'.buckets = w.buckets) :
    LockAddressed cfg o marker versioning reqs w' := by
  constructor
  · rw [hm]
    exact hw.keyed
  · rw [hm]
    exact hw.named
  · unfold storedVersion
    rw [hm]
    exact hw.kind
  · rw [hm]
    exact hw.resolves
  · rw [hb]
    exact hw.state

theorem LockAddressed.update {m' : ObjectManifest} (hkey : m'.key = o.manifestKey cfg)
    (hkind : ∀ s, storedVersion (o.manifestKey cfg) w = some s → m'.deleteMarker = marker) :
    LockAddressed cfg o marker versioning reqs
      (w.onManifests (w.manifests.updateManifest (o.manifestKey cfg) m')).2 := by
  rcases w.manifests.updateManifest_cases (o.manifestKey cfg) m' with
    ⟨-, hsame⟩ | ⟨hsome, -, hlook⟩
  · rw [hsame]
    exact hw
  rcases Option.isSome_iff_exists.mp hsome with ⟨old, hold⟩
  constructor
  · have hkeyed := hw.keyed.updateManifest m'
    rw [hkey] at hkeyed
    exact hkeyed
  · intro k m hm
    change (w.manifests.updateManifest (o.manifestKey cfg) m').2.byKey.lookup k = some m at hm
    rw [hlook] at hm
    by_cases hk : k = o.manifestKey cfg
    · rw [hk]
      exact hw.named _ old hold
    · rw [if_neg hk] at hm
      exact hw.named k m hm
  · intro m hm
    change (w.manifests.updateManifest (o.manifestKey cfg) m').2.byKey.lookup _ = some m at hm
    rw [hlook, if_pos rfl] at hm
    rw [← Option.some.inj hm]
    exact hkind old hold
  · intro r hr v hv target htarget
    apply hw.resolves r hr v hv target
    rw [← w.manifests.resolve_updateManifest (o.manifestKey cfg) _ m']
    exact htarget
  · exact hw.state

theorem LockAddressed.delete (k : ManifestKey) :
    LockAddressed cfg o marker versioning reqs (w.onManifests (w.manifests.delete k)).2 := by
  rcases w.manifests.delete_cases k with hsame | ⟨target, m, -, -, hdel⟩
  · rw [hsame]
    exact hw
  -- what is stored after a removal was stored before it
  have hold : ∀ k' m', (w.manifests.remove target).byKey.lookup k' = some m' →
      w.manifests.byKey.lookup k' = some m' := by
    intro k' m' hm'
    rw [ManifestStore.lookup_remove] at hm'
    by_cases hk : k' = target
    · simp [hk] at hm'
    · rwa [if_neg hk] at hm'
  rw [hdel]
  constructor
  · exact fun k' m' hm' => hw.keyed k' m' (hold k' m' hm')
  · exact fun k' m' hm' => hw.named k' m' (hold k' m' hm')
  · exact fun m' hm' => hw.kind m' (hold _ m' hm')
  · exact fun r hr v hv t ht => hw.resolves r hr v hv t (ManifestStore.resolve_remove ht)
  · exact hw.state

theorem LockAddressed.get (hr : r ∈ reqs) (hv : r.versionID = some v)
    (hget : w.manifests.get ((o.version v).manifestKey cfg) = .ok m) :
    storedVersion (o.manifestKey cfg) w = some m := by
  rcases ManifestStore.get_eq_ok hget with ⟨target, hres, hlook⟩
  rw [hw.resolves r hr v hv target hres] at hlook
  exact hlook

end

theorem removal_step {c : Call β} (hr : r ∈ reqs)
    (hw : LockAddressed cfg o marker versioning reqs w)
    (hpre : (removalSpec cfg o marker versioning r).pre h c) :
    (removalSpec cfg o marker versioning r).post h c (World.exec cfg.providers x c w).1 ∧
      LockAddressed cfg o marker versioning reqs (World.exec cfg.providers x c w).2 := by
  cases c with
  | now | legalHoldActive | manifestListVersions => exact ⟨trivial, hw⟩
  | deletePiece | indexDecrementRef | indexDelete => exact ⟨trivial, hw.of_same rfl rfl⟩
  | getVersioning t b =>
    rcases hpre with ⟨rfl, rfl⟩
    refine ⟨fun v hv => ?_, hw⟩
    rw [← hw.state]
    exact BucketConfig.getVersioning_eq_ok hv
  | manifestList t b cursor limit =>
    rcases hpre with ⟨rfl, rfl⟩
    refine ⟨fun page hpage m hm => ?_, hw⟩
    rcases ManifestStore.stored_of_list hpage hm with ⟨k, hlook, htenant, hbucket⟩
    have hkey := hw.keyed k m hlook
    subst hkey
    exact ⟨hw.named _ m hlook, htenant, hbucket, fun hk => hw.kind m (hk ▸ hlook)⟩
  | manifestGet k =>
    rcases hpre with ⟨v, hv, rfl⟩
    refine ⟨fun m hget => ?_, hw⟩
    have hstored := hw.get hr hv hget
    exact ⟨hw.named _ m hstored, hw.keyed _ m hstored, hw.kind m hstored⟩
  | manifestDelete k => exact ⟨trivial, hw.delete k⟩
  | _ => exact hpre.elim

theorem removal_failure {c : Call β} {e : β} (hfail : World.failure c = some e) :
    (removalSpec cfg o marker versioning r).post h c e := by
  cases c with
  | getVersioning t b =>
    rw [← Option.some.inj hfail]
    exact fun v hv => absurd hv (by simp)
  | manifestGet k =>
    rw [← Option.some.inj hfail]
    exact fun m hm => absurd hm (by simp)
  | manifestList t b cursor limit =>
    rw [← Option.some.inj hfail]
    exact fun page hpage => absurd hpage (by simp)
  | _ => trivial

theorem request_of_protections {p : AmendRequest}
    (hnot : ¬ ∃ r, reqs[i]? = some r ∧ r.protection = none) (hi : (protections reqs)[i]? = some p) :
    ∃ r, reqs[i]? = some r ∧ r.protection = some p ∧ r.versionID = some p.versionID := by
  unfold protections at hi
  rw [List.getElem?_map, Option.map_eq_some_iff] at hi
  rcases hi with ⟨r, hr, hp⟩
  refine ⟨r, hr, ?_⟩
  cases r with
  | delete | expire => exact absurd ⟨_, hr, rfl⟩ hnot
  | retention | legalHold =>
    rw [← hp]
    exact ⟨rfl, rfl⟩

theorem amend_step {c : Call β} (hnot : ¬ ∃ r, reqs[i]? = some r ∧ r.protection = none)
    (hw : LockAddressed cfg o marker versioning reqs w)
    (hpre : (amendSpec cfg o (protections reqs) i).pre h c)
    (hcond : lockUndisturbed (o.manifestKey cfg) reqs i h c x w PUnit.unit) :
    (amendSpec cfg o (protections reqs) i).post h c (World.exec cfg.providers x c w).1 ∧
      LockAddressed cfg o marker versioning reqs (World.exec cfg.providers x c w).2 := by
  rcases hpre with ⟨p, hp, -, hcall⟩
  rcases request_of_protections hnot hp with ⟨r, hr, -, hv⟩
  cases c with
  | now | getObjectLock => exact ⟨trivial, hw⟩
  | manifestGet k =>
    rw [hcall]
    refine ⟨fun m hget => ?_, hw⟩
    exact hw.keyed _ m (hw.get (List.mem_of_getElem? hr) hv hget)
  | manifestUpdate k m' =>
    rcases hcall with ⟨m, hm, hkey, rfl, -, rfl⟩
    refine ⟨trivial, hw.update ?_ fun s hs => ?_⟩
    · rw [(Amendment.overwrite_identity _ m).1, hkey]
    · have hsame := (hcond p m s hp hm hs).1
      rw [← hsame, (Amendment.overwrite_identity _ s).2]
      exact hw.kind s hs
  | _ => exact hcall.elim

theorem lockProtocol_sound :
    (lockProtocol cfg o marker versioning reqs).Sound (machine cfg.providers) where
  drop _ _ _ hinv := hinv
  step i h c x w R hpre hinv hcond := by
    change LockAddressed cfg o marker versioning reqs w at hinv
    change (lockSpec cfg o marker versioning reqs i).post h c _ ∧
      LockAddressed cfg o marker versioning reqs _
    change (lockSpec cfg o marker versioning reqs i).pre h c at hpre
    by_cases hrem : ∃ r, reqs[i]? = some r ∧ r.protection = none
    · rcases hrem with ⟨r, hi, hr⟩
      rw [lockSpec_of_removal hi hr] at hpre ⊢
      rcases machine_exec cfg.providers x c w with hx | ⟨e, hfail, hx⟩
      · rw [hx]
        exact removal_step (List.mem_of_getElem? hi) hinv hpre
      · rw [hx]
        exact ⟨removal_failure hfail, hinv⟩
    · rw [lockSpec_of_not_removal fun r hi hr => hrem ⟨r, hi, hr⟩] at hpre ⊢
      rcases machine_exec cfg.providers x c w with hx | ⟨e, hfail, hx⟩
      · rw [hx]
        exact amend_step hrem hinv hpre hcond
      rw [hx]
      refine ⟨?_, hinv⟩
      cases c with
      | manifestGet k =>
        rw [← Option.some.inj hfail]
        exact fun m hm => absurd hm (by simp)
      | _ => trivial

/-! ## 4. Runs -/

variable (cfg o reqs) in
/-- What is stored is what the acknowledged protection requests have made of the version. -/
def InForce (initial : Option ObjectManifest) (L : List (Nat × History Call)) (w : World) : Prop :=
  ∀ s, storedVersion (o.manifestKey cfg) w = some s →
    protectedManifest reqs initial L = some (some s)

theorem mayRemove_later {m s : ObjectManifest} {t now : Time} (hmay : r.mayRemove m t)
    (hkind : m.deleteMarker = false) (hret : s.retention = m.retention)
    (hhold : s.legalHold = m.legalHold) (hzero : 0 ≤ t) (hle : t ≤ now) :
    objectLockBlocksDelete s now r.bypassGovernance = none := by
  cases r with
  | delete v bypass => exact objectLockBlocksDelete_later hret hhold hle hmay
  | expire rules pageSize pages =>
    rcases hmay with hmarker | hfree
    · rw [hkind] at hmarker
      exact absurd hmarker (by decide)
    · have hthen := objectLockBlocksDelete_of_not_locked hzero hfree
      exact objectLockBlocksDelete_later hret hhold hle hthen
  | retention | legalHold => exact hmay.elim

theorem stored_after_removal {c : Call β} (hpre : (removalSpec cfg o marker versioning r).pre h c)
    (hw : LockAddressed cfg o marker versioning reqs w)
    (hcond : lockUndisturbed (o.manifestKey cfg) reqs i h c x w PUnit.unit) :
    storedVersion (o.manifestKey cfg) ((machine cfg.providers).exec x c w).2 =
      storedVersion (o.manifestKey cfg) w ∨
    storedVersion (o.manifestKey cfg) ((machine cfg.providers).exec x c w).2 = none ∧
      ∀ s, storedVersion (o.manifestKey cfg) w = some s →
        s.deleteMarker = false → objectLockBlocksDelete s x.now r.bypassGovernance = none := by
  rcases machine_exec cfg.providers x c w with hx | ⟨e, hfail, hx⟩
  · rw [hx]
    cases c with
    | manifestDelete k =>
      change (w.manifests.delete k).2.byKey.lookup _ = w.manifests.byKey.lookup _ ∨
        (w.manifests.delete k).2.byKey.lookup _ = none ∧ _
      rcases w.manifests.delete_cases k with hsame | ⟨target, m, hres, -, hdel⟩
      · rw [hsame]
        exact Or.inl rfl
      -- a named version resolves to itself
      rw [ManifestStore.resolve_of_version hpre.1] at hres
      obtain rfl := Option.some.inj hres
      rw [hdel, ManifestStore.lookup_remove]
      by_cases hk : o.manifestKey cfg = k
      · rw [if_pos hk]
        refine Or.inr ⟨rfl, fun s hs hobject => ?_⟩
        rcases hpre.2 hk.symm with ⟨read, hmem, hkey, hkind, hmay⟩
        rcases hcond hk.symm read hmem (hkey.trans hk.symm) s hs with ⟨hret, hhold, hzero, hle⟩
        rw [hw.kind s hs] at hobject
        exact mayRemove_later hmay (hkind.trans hobject) hret hhold hzero hle
      · rw [if_neg hk]
        exact Or.inl rfl
    | _ => first
      | exact Or.inl rfl
      | exact hpre.elim
  · rw [hx]
    exact Or.inl rfl

theorem amendOp_none (reqs : List AmendRequest) (i : Nat) (h : History Call) :
    amendOp reqs i h none = none := by
  unfold amendOp
  cases reqs[i]? <;> rfl

variable {P : Pool Call Response World} {mv : Nat × Choice}
  (hP : (lockProtocol cfg o marker versioning reqs).Good (lockResult reqs) P)
  (hmv : P.MoveMeets (fun _ => (0 : PUnit)) (lockUndisturbed (o.manifestKey cfg) reqs) mv)

include hP hmv

/-- What one move does to the version: nothing, and then nothing to the protection; it removes it
where nothing protects it; or it is the acknowledged write of a protection request. -/
theorem lock_step_cases (initial : Option ObjectManifest) {old new : Option ObjectManifest}
    (hold : storedVersion (o.manifestKey cfg) P.shared = old)
    (hnew : storedVersion (o.manifestKey cfg) (P.step (machine cfg.providers) mv).shared = new) :
    (new = old ∧ ∀ L, protectedManifest reqs initial
      (L ++ P.completion (machine cfg.providers) Response.success mv) =
        protectedManifest reqs initial L) ∨
    (new = none ∧ ∀ s, old = some s → s.deleteMarker = false →
      objectLockBlocksDelete s mv.2.now (reqs[mv.1]?.any LockRequest.bypassGovernance) = none) ∨
    ∃ s s', old = some s ∧ new = some s' ∧ ∀ L, protectedManifest reqs initial L = some (some s) →
      protectedManifest reqs initial
        (L ++ P.completion (machine cfg.providers) Response.success mv) = some (some s') := by
  rcases P.step_or_completion (machine cfg.providers) Response.success mv with
    ⟨hstep, hnone⟩ | ⟨past, β, c, k, hthread, hstep⟩
  · rw [hstep] at hnew
    exact Or.inl ⟨hnew.symm.trans hold, fun L => by rw [hnone, List.append_nil]⟩
  rw [hstep] at hnew
  have hinv : LockAddressed cfg o marker versioning reqs P.shared := hP.inv
  have hcond : lockUndisturbed (o.manifestKey cfg) reqs mv.1 past c mv.2 P.shared PUnit.unit := by
    unfold Pool.MoveMeets at hmv
    rw [hthread] at hmv
    exact hmv
  have hconf := hP.conforms mv.1 _ hthread
  have hpost := (lockProtocol_sound.step mv.1 past c mv.2 P.shared PUnit.unit hconf.1 hinv hcond).1
  have hfinal : (k ((machine cfg.providers).exec mv.2 c P.shared).1).Conforms
      (lockSpec cfg o marker versioning reqs mv.1)
      (lockResult reqs mv.1) (⟨c, ((machine cfg.providers).exec mv.2 c P.shared).1⟩ :: past) :=
    hconf.2 _ hpost
  have hpre : (lockSpec cfg o marker versioning reqs mv.1).pre past c := hconf.1
  by_cases hrem : ∃ r, reqs[mv.1]? = some r ∧ r.protection = none
  · rcases hrem with ⟨r, hi, hr⟩
    rw [lockSpec_of_removal hi hr] at hpre
    rcases stored_after_removal hpre hinv hcond with hsame | ⟨hgone, hfree⟩
    · refine Or.inl ⟨by rw [← hnew, ← hold, hsame], fun L => ?_⟩
      -- the completion of a removal changes nothing about the protection
      rcases P.completion_of_call hthread with ⟨a, -, -, hdone⟩ | ⟨-, hdone⟩
      · rw [hdone, protectedManifest_snoc]
        unfold lockOp
        simp only [hi, Option.bind_some, hr, Option.bind_fun_some]
      · rw [hdone, List.append_nil]
    · rw [hi]
      exact Or.inr (Or.inl ⟨hnew ▸ hgone, fun s hs => hfree s (hold.trans hs)⟩)
  rw [lockSpec_of_not_removal fun r hi hr => hrem ⟨r, hi, hr⟩] at hpre hfinal
  rcases hpre.imp fun p hp => hp.1 with ⟨p, hp⟩
  rcases request_of_protections hrem hp with ⟨r, hi, hr, hv⟩
  have hacked := acked_iff_completes hp (hfinal.mono fun h a ha => ha (by simp [hi, hr]))
  rcases amend_call_effect hp hpre (fun m => hinv.get (List.mem_of_getElem? hi) hv)
    (amendmentUndisturbed_of_lock hcond) with ⟨hdone, hop⟩ | ⟨hopen, hsame⟩
  · -- the write takes effect and is the acknowledgement
    rw [hold, hnew] at hop
    rcases old with _ | s
    · rw [amendOp_none] at hop
      cases hop
    have hwritten := hop
    rw [amendOp_some hp] at hwritten
    rcases Option.map_eq_some_iff.mp hwritten with ⟨s', -, rfl⟩
    refine Or.inr (Or.inr ⟨s, s', rfl, rfl, fun L hL => ?_⟩)
    rcases P.completion_of_call hthread with ⟨a, -, -, hlist⟩ | ⟨hno, -⟩
    · rw [hlist, protectedManifest_snoc, hL, Option.bind_some]
      unfold lockOp
      simp only [hi, Option.bind_some, hr]
      exact hop
    · exact absurd (hacked.mpr hdone) hno
  · refine Or.inl ⟨by rw [← hnew, ← hold, hsame], fun L => ?_⟩
    rcases P.completion_of_call hthread with ⟨a, ha, hok, -⟩ | ⟨-, hlist⟩
    · have hdone := hacked.mp ⟨a, ha, hok⟩
      rw [hopen] at hdone
      exact absurd hdone (by decide)
    · rw [hlist, List.append_nil]

theorem inForce_step {initial : Option ObjectManifest} {L : List (Nat × History Call)}
    (hL : InForce cfg o reqs initial L P.shared) :
    InForce cfg o reqs initial (L ++ P.completion (machine cfg.providers) Response.success mv)
      (P.step (machine cfg.providers) mv).shared := by
  intro s hs
  rcases lock_step_cases hP hmv initial rfl hs with
    ⟨hsame, hkeep⟩ | ⟨hgone, -⟩ | ⟨old, new, hold, hnew, hkeep⟩
  · rw [hkeep]
    exact hL s hsame.symm
  · cases hgone
  · rw [hkeep L (hL old hold), ← hnew]

theorem lock_step_kept :
    (storedVersion (o.manifestKey cfg) P.shared = none →
      storedVersion (o.manifestKey cfg) (P.step (machine cfg.providers) mv).shared = none) ∧
    ∀ s, storedVersion (o.manifestKey cfg) P.shared = some s → s.deleteMarker = false →
      storedVersion (o.manifestKey cfg) (P.step (machine cfg.providers) mv).shared = none →
      objectLockBlocksDelete s mv.2.now (reqs[mv.1]?.any LockRequest.bypassGovernance) = none := by
  rcases lock_step_cases hP hmv none rfl rfl with
    ⟨hsame, -⟩ | ⟨hgone, hfree⟩ | ⟨old, new, hold, hnew, -⟩
  · refine ⟨hsame.trans, fun s hs _ hnone => ?_⟩
    rw [hsame, hs] at hnone
    cases hnone
  · exact ⟨fun _ => hgone, fun s hs hobject _ => hfree s hs hobject⟩
  · refine ⟨fun hnone => ?_, fun s _ _ hnone => ?_⟩
    · cases hold.symm.trans hnone
    · cases hnew.symm.trans hnone

end

/-- In every run whose writes and removals are undisturbed, the version is removed only when the
protection that the acknowledged requests have set up allows it, and no step brings a removed
version back. -/
theorem locked_version_kept_of_undisturbed (cfg : Config) (o : ObjectRef) (marker : Bool)
    (versioning : VersioningState) (w : World) (reqs : List LockRequest)
    (moves : List (Nat × Choice)) (i : Nat) (x : Choice)
    (hw : LockAddressed cfg o marker versioning reqs w)
    (hperm : ∀ r ∈ reqs, r.permanent versioning = true)
    (hmoves : (Pool.start w (reqs.map (LockRequest.handle cfg o))).Meets
      (fun _ => (0 : PUnit)) (machine cfg.providers)
      (lockUndisturbed (o.manifestKey cfg) reqs) (moves ++ [(i, x)])) :
    let start := Pool.start w (reqs.map (LockRequest.handle cfg o))
    let before := start.run (machine cfg.providers) moves
    let after := before.step (machine cfg.providers) (i, x)
    let stored := storedVersion (o.manifestKey cfg)
    (∀ s, stored before.shared = some s → s.deleteMarker = false → stored after.shared = none →
      ∃ m, protectedManifest reqs (stored w)
          (start.completions (machine cfg.providers) Response.success moves) = some (some m) ∧
        objectLockBlocksDelete m x.now (reqs[i]?.any LockRequest.bypassGovernance) = none) ∧
    (stored before.shared = none → stored after.shared = none) := by
  intro start before after stored
  have hstart : (lockProtocol cfg o marker versioning reqs).Good
      (lockResult reqs) start :=
    Protocol.good_start rfl hw fun i p hp => lockHandlers_conform hperm hp
  rcases (Pool.meets_append _ (machine cfg.providers) _ start moves [(i, x)]).mp hmoves with
    ⟨hinit, hlast⟩
  have hbefore := lockProtocol_sound.run hstart hinit
  have hkept := lock_step_kept hbefore hlast.1
  have hforce : InForce cfg o reqs (stored w)
      ([] ++ start.completions (machine cfg.providers) Response.success moves) before.shared :=
    lockProtocol_sound.run_completions hstart (fun P mv L hP hmv => inForce_step hP hmv) hinit
      fun s hs => by rw [← hs]; rfl
  refine ⟨fun s hs hobject hgone => ⟨s, hforce s hs, hkept.2 s hs hobject hgone⟩, hkept.1⟩

def holdAndDelete (status : String) : List LockRequest :=
  [.legalHold "v1" status, .delete "v1" false]

def holdAndDeletePool (status : String) : Pool Call Response World :=
  Pool.start sampleWorld
    ((holdAndDelete status).map (LockRequest.handle sampleGateway sampleVersion))

theorem holdAndDelete_addressed (status : String) :
    LockAddressed sampleGateway sampleVersion false .enabled (holdAndDelete status)
      sampleWorld := by
  -- the sample version is the only one stored
  have honly : ∀ k m, sampleWorld.manifests.byKey.lookup k = some m →
      k = sampleKey "v1" ∧ m = sampleManifest "v1" := by
    intro k m hm
    change (({} : ManifestStore).put (sampleKey "v1") (sampleManifest "v1")).byKey.lookup k =
      some m at hm
    rw [ManifestStore.lookup_put] at hm
    by_cases hk : k = sampleKey "v1"
    · rw [if_pos hk] at hm
      exact ⟨hk, (Option.some.inj hm).symm⟩
    · rw [if_neg hk] at hm
      exact absurd hm (by simp)
  constructor
  · intro k m hm
    rcases honly k m hm with ⟨rfl, rfl⟩
    rfl
  · intro k m hm
    rw [(honly k m hm).1]
    decide
  · intro m hm
    rw [(honly _ m hm).2]
    rfl
  · intro r hr v hv target htarget
    have hv1 : v = "v1" := by
      rcases List.mem_pair.mp hr with rfl | rfl
      · exact (Option.some.inj hv).symm
      · exact (Option.some.inj hv).symm
    subst hv1
    exact (Option.some.inj htarget).symm
  · rfl

/-- The hold is switched off and acknowledged, and then the DELETE removes the version. -/
theorem locked_version_kept_serial_run :
    storedVersion (sampleKey "v1") ((holdAndDeletePool "OFF").run (machine sampleGateway.providers)
      [(0, {}), (0, {}), (0, {}), (1, {}), (1, {}), (1, {}), (1, {}), (1, {})]).shared = none ∧
    ∃ m, protectedManifest (holdAndDelete "OFF") (some (sampleManifest "v1"))
        ((holdAndDeletePool "OFF").completions (machine sampleGateway.providers) Response.success
          [(0, {}), (0, {}), (0, {}), (1, {}), (1, {}), (1, {}), (1, {})]) = some (some m) ∧
      objectLockBlocksDelete m 0 false = none := by
  have hkept := locked_version_kept_of_undisturbed sampleGateway sampleVersion false .enabled
    sampleWorld (holdAndDelete "OFF")
    [(0, {}), (0, {}), (0, {}), (1, {}), (1, {}), (1, {}), (1, {})] 1 {}
    (holdAndDelete_addressed "OFF") (by decide)
    (by
      refine ⟨trivial, trivial, ?_, trivial, trivial, trivial, trivial, ?_, trivial⟩
      · intro r m s hr hm hs
        obtain rfl := Option.some.inj hr
        obtain rfl := Option.some.inj hm
        obtain rfl := Option.some.inj hs
        exact ⟨rfl, rfl⟩
      · intro _ m hm _ s hs
        obtain rfl := List.mem_singleton.mp hm
        obtain rfl := Option.some.inj hs
        exact ⟨rfl, rfl, le_refl _, le_refl _⟩)
  exact ⟨by decide, hkept.1 (sampleManifest "v1") (by decide) rfl (by decide)⟩

/-- The DELETE reads and checks the version, then the legal hold is set and acknowledged, and then
the DELETE removes the version that is under legal hold. -/
theorem held_version_removed :
    let moves : List (Nat × Choice) := [(1, {}), (1, {}), (1, {}), (1, {}), (0, {}), (0, {}), (0, {})]
    let before := (holdAndDeletePool "ON").run (machine sampleGateway.providers) moves
    before.Acked Response.success 0 ∧
    protectedManifest (holdAndDelete "ON") (some (sampleManifest "v1"))
        ((holdAndDeletePool "ON").completions (machine sampleGateway.providers) Response.success
          moves) = some (some { sampleManifest "v1" with legalHold := true }) ∧
    objectLockBlocksDelete { sampleManifest "v1" with legalHold := true } 0 false ≠ none ∧
    storedVersion (sampleKey "v1") before.shared =
      some { sampleManifest "v1" with legalHold := true } ∧
    storedVersion (sampleKey "v1")
      (before.step (machine sampleGateway.providers) (1, {})).shared = none := by
  refine ⟨⟨_, _, rfl, rfl, rfl⟩, by decide, by decide, by decide, by decide⟩

end ObjectFabric
