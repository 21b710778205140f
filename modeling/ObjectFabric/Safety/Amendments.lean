import ObjectFabric.Gateway.Sample
import ObjectFabric.Gateway.Tagging
import ObjectFabric.Interleaving.Linearize

/-!
# Amendments — concurrent changes to the manifest of one version

Retention, legal hold and tags live on the manifest, and each request rewrites the whole manifest
from its own earlier read.  The requests are linearizable when every write finds the fields it does
not set as they were read, and (for a retention) its weakening check would still pass; the
linearization point is then the request's last call.
-/

namespace ObjectFabric

open Interleaving

inductive Amendment where
  | setRetention (mode : String) (retainUntil : Except String Time) (bypassGovernance : Bool)
  | setLegalHold (status : String)
  | setTags (entries : List (String × String))
  | clearTags

structure AmendRequest where
  versionID : String := ""
  amendment : Amendment

variable {m : ObjectManifest}

namespace Amendment

def handle (cfg : Config) (o : ObjectRef) : Amendment → Handler
  | .setRetention mode retainUntil bypass => putObjectRetention cfg o mode retainUntil bypass
  | .setLegalHold status => putObjectLegalHold cfg o status
  | .setTags entries => putObjectTagging cfg o entries
  | .clearTags => deleteObjectTagging cfg o

/-! ## 1. The requests as operations on one manifest -/

def overwrite : Amendment → ObjectManifest → ObjectManifest
  | .setRetention mode (.ok retainUntil) _, m =>
    { m with retention := ⟨RetentionMode.ofString mode, retainUntil⟩ }
  | .setRetention _ (.error _) _, m => m
  | .setLegalHold status, m => { m with legalHold := decide (status = "ON") }
  | .setTags entries, m =>
    match validateTagSet entries with
    | .ok tags => { m with tags := storedTags tags }
    | .error _ => m
  | .clearTags, m => { m with tags := none }

def refuses (now : Time) : Amendment → ObjectManifest → Bool
  | .setRetention mode (.ok retainUntil) bypass, m =>
    let newRet : Retention := ⟨RetentionMode.ofString mode, retainUntil⟩
    !newRet.validate.isOk || m.deleteMarker ||
      (refuseWeakening m.retention newRet now bypass).isSome
  | .setRetention _ (.error _) _, _ => true
  | .setLegalHold status, m => (status ≠ "ON" && status ≠ "OFF") || m.deleteMarker
  | .setTags entries, _ => !(validateTagSet entries).isOk
  | .clearTags, _ => false

/-- The request run on its own against the manifest `m`. -/
def apply (now : Time) (a : Amendment) (m : ObjectManifest) : Option ObjectManifest :=
  if a.refuses now m then none else some (a.overwrite m)

theorem apply_of_not_refuses {now : Time} {a : Amendment}
    (h : a.refuses now m = false) : a.apply now m = some (a.overwrite m) := by
  unfold apply
  rw [h]
  rfl

theorem overwrite_identity (a : Amendment) (m : ObjectManifest) :
    (a.overwrite m).key = m.key ∧ (a.overwrite m).deleteMarker = m.deleteMarker := by
  cases a with
  | setRetention mode retainUntil bypass => cases retainUntil <;> exact ⟨rfl, rfl⟩
  | setLegalHold status => exact ⟨rfl, rfl⟩
  | setTags entries =>
    simp only [overwrite]
    cases validateTagSet entries <;> exact ⟨rfl, rfl⟩
  | clearTags => exact ⟨rfl, rfl⟩

end Amendment

def readingOf : History Call → Time
  | [] => 0
  | ⟨.now, t⟩ :: _ => t
  | _ :: h => readingOf h

/-- The operation of request `i` on the stored version, at the clock reading it took. -/
def amendOp (reqs : List AmendRequest) (i : Nat) (h : History Call)
    (stored : Option ObjectManifest) : Option (Option ObjectManifest) :=
  match reqs[i]?, stored with
  | some r, some m => (r.amendment.apply (readingOf h) m).map some
  | _, _ => none

def storedVersion (k : ManifestKey) (w : World) : Option ObjectManifest :=
  w.manifests.byKey.lookup k

def Response.success (r : Response) : Bool := decide (r.status < 300)

def amendHandlers (cfg : Config) (o : ObjectRef) (reqs : List AmendRequest) : List Handler :=
  reqs.map fun r => r.amendment.handle cfg (o.version r.versionID)

/-- At the write, what is stored agrees with what the request read outside the fields the request
sets, and the request's checks pass on it too. -/
def amendmentUndisturbed (reqs : List AmendRequest) : Condition Call Choice World PUnit
  | i, h, _, .manifestUpdate k _, _, w, _ =>
    ∀ r m s, reqs[i]? = some r → lastRead h = some m → storedVersion k w = some s →
      r.amendment.overwrite s = r.amendment.overwrite m ∧
        r.amendment.refuses (readingOf h) s = false
  | _, _, _, _, _, _, _ => True

/-! ## 2. What the handlers do -/

/-- The call that completes an acknowledged request: the write, or the read of a manifest that has
no tags to clear. -/
def completes (a : Amendment) : History Call → Bool
  | ⟨.manifestUpdate _ _, .ok ()⟩ :: _ => true
  | ⟨.manifestGet _, .ok m⟩ :: _ =>
    match a with
    | .clearTags => m.tags.isNone
    | _ => false
  | _ => false

variable {h : History Call} {response : Response} {entries : List (String × String)} {w : World}

section

variable (cfg : Config) (o : ObjectRef)

/-- What request `i` has read and checked when it writes; it makes no call after the one that
completes it. -/
def amendSpec (reqs : List AmendRequest) (i : Nat) : Spec Call where
  pre h c := ∃ r, reqs[i]? = some r ∧ completes r.amendment h = false ∧ match c with
    | .getObjectLock _ _ | .now => True
    | .manifestGet k => k = (o.version r.versionID).manifestKey cfg
    | .manifestUpdate k m' => ∃ m, lastRead h = some m ∧
        m.key = o.manifestKey cfg ∧ k = o.manifestKey cfg ∧
        r.amendment.refuses (readingOf h) m = false ∧ m' = r.amendment.overwrite m
    | _ => False
  post _ c b := match c, b with
    | .manifestGet _, b => ∀ m, b = .ok m → m.key = o.manifestKey cfg
    | _, _ => True

def amendResult (reqs : List AmendRequest) (i : Nat) (h : History Call) (a : Response) : Prop :=
  ∃ r, reqs[i]? = some r ∧ a.success = completes r.amendment h

variable {cfg o} {reqs : List AmendRequest} {i : Nat} {r : AmendRequest}

section

variable (hi : reqs[i]? = some r)
include hi

theorem amendResult_of_failure {a : Response}
    (ha : a.success = false) (hopen : completes r.amendment h = false) : amendResult reqs i h a := by
  refine ⟨r, hi, ?_⟩
  rw [ha, hopen]

theorem storeAmended_conforms {m m' : ObjectManifest}
    {status : Nat} (hstatus : status < 300) (hread : lastRead h = some m)
    (hkey : m.key = o.manifestKey cfg) (hopen : completes r.amendment h = false)
    (hok : r.amendment.refuses (readingOf h) m = false) (hm' : m' = r.amendment.overwrite m) :
    (storeAmended status ((o.version m.versionID).manifestKey cfg) m').Conforms
      (amendSpec cfg o reqs i) (amendResult reqs i) h := by
  have hv : m.versionID = o.versionID := congrArg ManifestKey.versionID hkey
  refine ⟨⟨r, hi, hopen, m, hread, hkey, by rw [hv, o.version_self], hok, hm'⟩, fun b _ => ?_⟩
  cases b with
  | error e => exact amendResult_of_failure hi rfl rfl
  | ok u => exact ⟨r, hi, by simp [Response.success, completes, hstatus]⟩

theorem authObjectLock_conforms {rest : Handler} {ref : ObjectRef}
    (hrest : ∀ h, completes r.amendment h = false →
      rest.Conforms (amendSpec cfg o reqs i) (amendResult reqs i) h) :
    (authObjectLock cfg ref rest).Conforms (amendSpec cfg o reqs i) (amendResult reqs i) [] := by
  unfold authObjectLock Config.bucketObjectLock
  by_cases hpath : ref.bucket = "" ∨ ref.key = ""
  · rw [if_pos hpath]
    exact amendResult_of_failure hi rfl rfl
  rw [if_neg hpath]
  rcases cfg.hasBucketConfig with _ | _
  · exact amendResult_of_failure hi rfl rfl
  refine ⟨⟨r, hi, rfl, trivial⟩, fun b _ => ?_⟩
  rcases b with e | lockCfg
  · exact amendResult_of_failure hi rfl rfl
  simp only [Proc.ret_bind]
  cases lockCfg.enabled with
  | false => exact amendResult_of_failure hi rfl rfl
  | true => exact hrest _ rfl

theorem writeManifestGetError_conforms (e : StoreError) (hopen : completes r.amendment h = false) :
    (writeManifestGetError e).Conforms (amendSpec cfg o reqs i) (amendResult reqs i) h := by
  unfold writeManifestGetError
  split <;> exact amendResult_of_failure hi rfl hopen

theorem loadObjectVersion_conforms {rest : ObjectManifest → ManifestKey → Handler}
    (hopen : completes r.amendment h = false)
    (hrest : ∀ k m, m.key = o.manifestKey cfg → m.deleteMarker = false →
      (rest m ((o.version m.versionID).manifestKey cfg)).Conforms
        (amendSpec cfg o reqs i) (amendResult reqs i)
        (⟨.manifestGet k, .ok m⟩ :: h)) (hkind : r.amendment ≠ .clearTags) :
    (loadObjectVersion cfg (o.version r.versionID) rest).Conforms
      (amendSpec cfg o reqs i) (amendResult reqs i) h := by
  refine ⟨⟨r, hi, hopen, rfl⟩, fun b hb => ?_⟩
  rcases b with e | m
  · exact writeManifestGetError_conforms hi e rfl
  simp only [Proc.ret_bind]
  cases hmarker : m.deleteMarker with
  | true =>
    have hno : completes r.amendment
        (⟨.manifestGet ((o.version r.versionID).manifestKey cfg), .ok m⟩ :: h) = false := by
      cases hr : r.amendment with
      | clearTags => exact absurd hr hkind
      | _ => rfl
    exact amendResult_of_failure hi rfl hno
  | false => exact hrest _ m (hb m rfl) hmarker

omit hi in
theorem refuseWeakening_not_success {existing newRet : Retention} {now : Time} {bypass : Bool}
    (h : refuseWeakening existing newRet now bypass = some response) :
    response.success = false := by
  unfold refuseWeakening at h
  by_cases hweak : (existing.active now && weakensRetention existing newRet) = true
  · rw [if_pos hweak] at h
    cases hm : existing.mode with
    | compliance => simp only [hm, Option.some.injEq] at h; rw [← h]; rfl
    | governance =>
      cases bypass with
      | true => simp [hm] at h
      | false => simp only [hm, Bool.false_eq_true, if_false, Option.some.injEq] at h; rw [← h]; rfl
    | unset | other => simp [hm] at h
  · rw [if_neg hweak] at h
    exact absurd h (by simp)

omit hi in
theorem validateTags_not_success {tags : StringMap}
    (h : validateTags tags entries = .error response) :
    response.success = false := by
  induction entries generalizing tags with
  | nil => exact absurd h (by simp [validateTags])
  | cons e rest ih => ?_
  unfold validateTags at h
  split at h
  · rw [← Except.error.inj h]
    rfl
  split at h
  · rw [← Except.error.inj h]
    rfl
  split at h
  · rw [← Except.error.inj h]
    rfl
  exact ih h

omit hi in
theorem validateTagSet_not_success
    (h : validateTagSet entries = .error response) : response.success = false := by
  unfold validateTagSet at h
  split at h
  · rw [← Except.error.inj h]
    rfl
  · exact validateTags_not_success h

theorem putObjectRetention_conforms {mode : String}
    {retainUntil : Except String Time} {bypass : Bool}
    (hr : r.amendment = .setRetention mode retainUntil bypass) :
    (putObjectRetention cfg (o.version r.versionID) mode retainUntil bypass).Conforms
      (amendSpec cfg o reqs i) (amendResult reqs i) [] := by
  apply authObjectLock_conforms hi
  intro h hopen
  rcases retainUntil with message | until_
  · exact amendResult_of_failure hi rfl hopen
  simp only
  rcases hvalid : (⟨RetentionMode.ofString mode, until_⟩ : Retention).validate with message | u
  · exact amendResult_of_failure hi rfl hopen
  refine loadObjectVersion_conforms hi hopen (fun k m hkey hmarker => ?_) (by simp [hr])
  refine ⟨⟨r, hi, by rw [hr]; rfl, trivial⟩, fun now _ => ?_⟩
  · simp only [Proc.ret_bind]
    cases hweak : refuseWeakening m.retention ⟨RetentionMode.ofString mode, until_⟩ now
        bypass with
    | some response =>
      exact amendResult_of_failure hi (refuseWeakening_not_success hweak) rfl
    | none =>
      have hok : r.amendment.refuses now m = false := by
        simp [hr, Amendment.refuses, hvalid, hmarker, hweak, Except.isOk, Except.toBool]
      exact storeAmended_conforms hi (by decide) rfl hkey rfl hok (by rw [hr]; rfl)

theorem putObjectLegalHold_conforms {status : String} (hr : r.amendment = .setLegalHold status) :
    (putObjectLegalHold cfg (o.version r.versionID) status).Conforms
      (amendSpec cfg o reqs i) (amendResult reqs i) [] := by
  apply authObjectLock_conforms hi
  intro h hopen
  by_cases hstatus : status ≠ "ON" ∧ status ≠ "OFF"
  · rw [if_pos hstatus]
    exact amendResult_of_failure hi rfl hopen
  rw [if_neg hstatus]
  refine loadObjectVersion_conforms hi hopen (fun k m hkey hmarker => ?_) (by simp [hr])
  have hok : ∀ now, r.amendment.refuses now m = false := by
    intro now
    rw [hr]
    simpa [Amendment.refuses, hmarker] using hstatus
  have hopen' : completes r.amendment (⟨.manifestGet k, .ok m⟩ :: h) = false := by
    rw [hr]
    rfl
  exact storeAmended_conforms hi (by decide) rfl hkey hopen' (hok _) (by rw [hr]; rfl)

theorem authObjectTagging_conforms {rest : Handler}
    (hrest : rest.Conforms (amendSpec cfg o reqs i) (amendResult reqs i) []) :
    (authObjectTagging (o.version r.versionID) rest).Conforms (amendSpec cfg o reqs i)
      (amendResult reqs i) [] := by
  unfold authObjectTagging
  by_cases hbucket : (o.version r.versionID).bucket = ""
  · rw [if_pos hbucket]
    exact amendResult_of_failure hi rfl rfl
  rw [if_neg hbucket]
  by_cases hkey : (o.version r.versionID).key = ""
  · rw [if_pos hkey]
    exact amendResult_of_failure hi rfl rfl
  rw [if_neg hkey]
  exact hrest

theorem putObjectTagging_conforms (hr : r.amendment = .setTags entries) :
    (putObjectTagging cfg (o.version r.versionID) entries).Conforms
      (amendSpec cfg o reqs i) (amendResult reqs i) [] := by
  apply authObjectTagging_conforms hi
  rcases htags : validateTagSet entries with response | tags
  · exact amendResult_of_failure hi (validateTagSet_not_success htags) rfl
  refine ⟨⟨r, hi, rfl, rfl⟩, fun b hb => ?_⟩
  rcases b with e | m
  · exact writeManifestGetError_conforms hi e rfl
  have hok : ∀ now, r.amendment.refuses now m = false := by
    intro now
    rw [hr]
    simp [Amendment.refuses, htags, Except.isOk, Except.toBool]
  have hopen : ∀ k, completes r.amendment [⟨.manifestGet k, .ok m⟩] = false := by
    intro k
    rw [hr]
    rfl
  refine storeAmended_conforms hi (by decide) rfl (hb m rfl) (hopen _) (hok _) ?_
  rw [hr]
  simp only [Amendment.overwrite, htags]

theorem deleteObjectTagging_conforms (hr : r.amendment = .clearTags) :
    (deleteObjectTagging cfg (o.version r.versionID)).Conforms
      (amendSpec cfg o reqs i) (amendResult reqs i) [] := by
  apply authObjectTagging_conforms hi
  refine ⟨⟨r, hi, rfl, rfl⟩, fun b hb => ?_⟩
  rcases b with e | m
  · exact writeManifestGetError_conforms hi e rfl
  simp only [Proc.ret_bind]
  rcases htags : m.tags with _ | tags
  · refine ⟨r, hi, ?_⟩
    simp [hr, completes, htags, Response.success]
  have hopen : ∀ k, completes r.amendment [⟨.manifestGet k, .ok m⟩] = false := by
    intro k
    simp [hr, completes, htags]
  exact storeAmended_conforms hi (by decide) rfl (hb m rfl) (hopen _) (by rw [hr]; rfl)
    (by rw [hr]; rfl)

end

theorem amendHandlers_conform {p : Handler} (hp : (amendHandlers cfg o reqs)[i]? = some p) :
    p.Conforms (amendSpec cfg o reqs i) (amendResult reqs i) [] := by
  rw [amendHandlers, List.getElem?_map, Option.map_eq_some_iff] at hp
  obtain ⟨r, hi, rfl⟩ := hp
  cases hr : r.amendment with
  | setRetention mode retainUntil bypass => exact putObjectRetention_conforms hi hr
  | setLegalHold status => exact putObjectLegalHold_conforms hi hr
  | setTags entries => exact putObjectTagging_conforms hi hr
  | clearTags => exact deleteObjectTagging_conforms hi hr

/-! ## 3. Steps and runs -/

variable (cfg o reqs) in
/-- Every request resolves to the one version, which is stored under its own key. -/
def AddressesVersion (w : World) : Prop :=
  (∀ r ∈ reqs, w.manifests.resolve ((o.version r.versionID).manifestKey cfg) =
    some (o.manifestKey cfg)) ∧
  ∀ m, storedVersion (o.manifestKey cfg) w = some m → m.key = o.manifestKey cfg

variable (cfg o reqs) in
def amendProtocol : Protocol Call World Choice PUnit where
  held _ := 0
  inv w _ := AddressesVersion cfg o reqs w
  cond := amendmentUndisturbed reqs
  spec := amendSpec cfg o reqs

theorem storedVersion_of_get (hr : r ∈ reqs) (hw : AddressesVersion cfg o reqs w)
    (hget : w.manifests.get ((o.version r.versionID).manifestKey cfg) = .ok m) :
    storedVersion (o.manifestKey cfg) w = some m := by
  obtain ⟨target, hres, hlook⟩ := ManifestStore.get_eq_ok hget
  rw [hw.1 r hr] at hres
  obtain rfl := Option.some.inj hres
  exact hlook

theorem manifestUpdate_keeps {m' : ObjectManifest} (hm' : m'.key = o.manifestKey cfg)
    (hw : AddressesVersion cfg o reqs w) :
    AddressesVersion cfg o reqs
      (w.onManifests (w.manifests.updateManifest (o.manifestKey cfg) m')).2 := by
  refine ⟨fun r hr => ?_, fun m hm => ?_⟩
  · rw [← hw.1 r hr]
    exact w.manifests.resolve_updateManifest _ _ m'
  change (w.manifests.updateManifest (o.manifestKey cfg) m').2.byKey.lookup _ = some m at hm
  rcases w.manifests.updateManifest_cases (o.manifestKey cfg) m' with
    ⟨-, hsame⟩ | ⟨-, -, hlook⟩
  · rw [hsame] at hm
    exact hw.2 m hm
  · rw [hlook, if_pos rfl] at hm
    rw [← Option.some.inj hm, hm']

theorem amendProtocol_sound : (amendProtocol cfg o reqs).Sound (machine cfg.providers) where
  drop _ _ _ hinv := hinv
  step i h c x w R hpre hinv hcond := by
    change AddressesVersion cfg o reqs w at hinv
    change _ ∧ AddressesVersion cfg o reqs ((machine cfg.providers).exec x c w).2
    rcases machine_exec cfg.providers x c w with hx | ⟨e, hfail, hx⟩
    · rw [hx]
      cases c with
      | getObjectLock | now => exact ⟨trivial, hinv⟩
      | manifestGet k =>
        obtain ⟨r, hi, -, rfl⟩ := hpre
        refine ⟨fun m hget => ?_, hinv⟩
        exact hinv.2 m (storedVersion_of_get (List.mem_of_getElem? hi) hinv hget)
      | manifestUpdate k m' =>
        obtain ⟨r, hi, -, m, -, hkey, rfl, -, rfl⟩ := hpre
        refine ⟨trivial, manifestUpdate_keeps ?_ hinv⟩
        rw [(Amendment.overwrite_identity _ m).1, hkey]
      | _ => exact hpre.choose_spec.2.2.elim
    · rw [hx]
      refine ⟨?_, hinv⟩
      cases c with
      | manifestGet k =>
        obtain rfl := Option.some.inj hfail
        exact fun m hm => absurd hm (by simp)
      | _ => trivial

theorem acked_iff_completes (hi : reqs[i]? = some r) {p : Handler}
    (hp : p.Conforms (amendSpec cfg o reqs i) (amendResult reqs i) h) :
    (∃ a, p = .ret a ∧ a.success = true) ↔ completes r.amendment h = true := by
  cases p with
  | ret a =>
    obtain ⟨r', hr', ha⟩ := hp
    rw [hi] at hr'
    obtain rfl := Option.some.inj hr'
    rw [← ha]
    exact ⟨fun ⟨a', ha', hs⟩ => (Proc.ret.inj ha') ▸ hs, fun hs => ⟨a, rfl, hs⟩⟩
  | call c k => ?_
  obtain ⟨⟨r', hr', hopen, -⟩, -⟩ := hp
  rw [hi] at hr'
  obtain rfl := Option.some.inj hr'
  rw [hopen]
  exact ⟨fun ⟨a, ha, _⟩ => (nomatch ha), fun h => absurd h (by decide)⟩

theorem completes_get {a : Amendment} {k : ManifestKey} {b : Except StoreError ObjectManifest}
    (hc : completes a (⟨.manifestGet k, b⟩ :: h) = true) :
    a = .clearTags ∧ ∃ m, b = .ok m ∧ m.tags = none := by
  cases b with
  | error e => exact absurd hc (by simp [completes])
  | ok m =>
    cases a with
    | clearTags => exact ⟨rfl, m, rfl, Option.isNone_iff_eq_none.mp hc⟩
    | _ => exact absurd hc (by simp [completes])

theorem overwrite_clearTags (h : m.tags = none) :
    Amendment.clearTags.overwrite m = m := by
  unfold Amendment.overwrite
  rw [← h]

theorem amendOp_some (hi : reqs[i]? = some r) (h : History Call) (m : ObjectManifest) :
    amendOp reqs i h (some m) = (r.amendment.apply (readingOf h) m).map some := by
  unfold amendOp
  rw [hi]

theorem amendOp_of_update {past : History Call} {x : Choice}
    (hi : reqs[i]? = some r) (hread : lastRead past = some m)
    (hcond : amendmentUndisturbed reqs i past
      (.manifestUpdate (o.manifestKey cfg) (r.amendment.overwrite m)) x w PUnit.unit)
    (hstored : (storedVersion (o.manifestKey cfg) w).isSome = true) :
    amendOp reqs i past (storedVersion (o.manifestKey cfg) w) =
      some (some (r.amendment.overwrite m)) := by
  obtain ⟨s, hs⟩ := Option.isSome_iff_exists.mp hstored
  obtain ⟨hsame, hok⟩ := hcond r m s hi hread hs
  rw [hs, amendOp_some hi, Amendment.apply_of_not_refuses hok, hsame]
  rfl

/-- A call of an undisturbed request performs the whole operation and completes the request, or
changes nothing and does not. -/
theorem amend_call_effect {past : History Call} {x : Choice} {β : Type} {c : Call β}
    (hi : reqs[i]? = some r) (hpre : (amendSpec cfg o reqs i).pre past c)
    (hget : ∀ m, w.manifests.get ((o.version r.versionID).manifestKey cfg) = .ok m →
      storedVersion (o.manifestKey cfg) w = some m)
    (hcond : amendmentUndisturbed reqs i past c x w PUnit.unit) :
    (completes r.amendment (⟨c, ((machine cfg.providers).exec x c w).1⟩ :: past) = true ∧
      amendOp reqs i (⟨c, ((machine cfg.providers).exec x c w).1⟩ :: past)
        (storedVersion (o.manifestKey cfg) w) =
      some (storedVersion (o.manifestKey cfg) ((machine cfg.providers).exec x c w).2)) ∨
    (completes r.amendment (⟨c, ((machine cfg.providers).exec x c w).1⟩ :: past) = false ∧
      storedVersion (o.manifestKey cfg) ((machine cfg.providers).exec x c w).2 =
      storedVersion (o.manifestKey cfg) w) := by
  rcases hpre with ⟨r', hi', -, hcall⟩
  rw [hi] at hi'
  obtain rfl := Option.some.inj hi'
  rcases machine_exec cfg.providers x c w with hx | ⟨e, hfail, hx⟩
  · rw [hx]
    cases c with
    | getObjectLock | now => exact Or.inr ⟨rfl, rfl⟩
    | manifestGet k' =>
      cases hdone : completes r.amendment (⟨.manifestGet k', w.manifests.get k'⟩ :: past) with
      | false => exact Or.inr ⟨hdone, rfl⟩
      | true => ?_
      refine Or.inl ⟨hdone, ?_⟩
      -- only a manifest without tags completes a request at its read
      rcases completes_get hdone with ⟨hkind, m, hread, htags⟩
      rw [hcall] at hread
      change amendOp reqs i _ (storedVersion _ w) = some (storedVersion _ w)
      rw [hget m hread, amendOp_some hi, hkind, Amendment.apply_of_not_refuses rfl,
        overwrite_clearTags htags]
      rfl
    | manifestUpdate k' m' =>
      rcases hcall with ⟨m, hread, -, rfl, -, rfl⟩
      rcases w.manifests.updateManifest_cases (o.manifestKey cfg) (r.amendment.overwrite m) with
        ⟨-, hnone⟩ | ⟨hsome, hanswer, hlook⟩
      · -- the version is gone and the write changes nothing
        refine Or.inr ⟨?_, ?_⟩
        · simp [World.exec, World.onManifests, hnone, completes]
        · simp [World.exec, World.onManifests, hnone]
      · refine Or.inl ⟨?_, ?_⟩
        · simp [World.exec, World.onManifests, hanswer, completes]
        · have hop := amendOp_of_update hi hread hcond hsome
          have hafter : storedVersion (o.manifestKey cfg)
              (World.exec cfg.providers x (.manifestUpdate (o.manifestKey cfg)
                (r.amendment.overwrite m)) w).2 = some (r.amendment.overwrite m) := by
            have h := hlook (o.manifestKey cfg)
            rw [if_pos rfl] at h
            exact h
          rw [hafter]
          exact hop
    | _ => exact hcall.elim
  · rw [hx]
    refine Or.inr ⟨?_, rfl⟩
    cases c with
    | manifestGet | manifestUpdate =>
      obtain rfl := Option.some.inj hfail
      rfl
    | getObjectLock | now => rfl
    | _ => exact hcall.elim

theorem amend_effectOrSilent {P : Pool Call Response World} {mv : Nat × Choice}
    (hP : (amendProtocol cfg o reqs).Good (amendResult reqs) P)
    (hmv : P.MoveMeets (fun _ => (0 : PUnit)) (amendmentUndisturbed reqs) mv) :
    P.EffectOrSilent (machine cfg.providers) (storedVersion (o.manifestKey cfg)) (amendOp reqs)
      Response.success mv := by
  intro past β c k hthread
  obtain ⟨hpre, hrest⟩ := hP.conforms mv.1 _ hthread
  have hinv : AddressesVersion cfg o reqs P.shared := hP.inv
  have hcond : amendmentUndisturbed reqs mv.1 past c mv.2 P.shared PUnit.unit := by
    unfold Pool.MoveMeets at hmv
    rw [hthread] at hmv
    exact hmv
  have hpost := (amendProtocol_sound.step mv.1 past c mv.2 P.shared PUnit.unit hpre hinv hcond).1
  have hfinal := hrest _ hpost
  rcases hpre.imp fun r hr => hr.1 with ⟨r, hi⟩
  simp only
  rw [acked_iff_completes hi hfinal]
  rcases amend_call_effect hi hpre
    (fun m => storedVersion_of_get (List.mem_of_getElem? hi) hinv) hcond with h | ⟨hno, hsame⟩
  · exact Or.inl h
  · exact Or.inr ⟨by simp [hno], hsame⟩

/-- In every run whose writes are undisturbed, the acknowledged requests have the effect of running
one after another, in an order that respects the requests that do not overlap. -/
theorem amendments_linearize_of_undisturbed (cfg : Config) (o : ObjectRef) (w : World)
    (reqs : List AmendRequest) (moves : List (Nat × Choice)) (hw : AddressesVersion cfg o reqs w)
    (hmoves : (Pool.start w (amendHandlers cfg o reqs)).Meets
      (fun _ => (0 : PUnit)) (machine cfg.providers) (amendmentUndisturbed reqs) moves) :
    ∃ order, (Pool.start w (amendHandlers cfg o reqs)).Linearized (machine cfg.providers)
      (storedVersion (o.manifestKey cfg)) (amendOp reqs) Response.success moves order := by
  have hgood : (amendProtocol cfg o reqs).Good (amendResult reqs)
      (Pool.start w (amendHandlers cfg o reqs)) :=
    Protocol.good_start rfl hw fun i p hp => amendHandlers_conform hp
  refine amendProtocol_sound.linearized ?_ hgood (fun P mv => amend_effectOrSilent) hmoves
  rintro i ⟨t, a, ht, ha, hs⟩
  have hconf := hgood.conforms i t ht
  rw [ha, Pool.past_start ht] at hconf
  obtain ⟨r, -, hr⟩ := hconf
  rw [hs] at hr
  exact absurd hr (by simp [completes])

end

def holdAndTags : List AmendRequest :=
  [⟨"v1", .setLegalHold "ON"⟩, ⟨"v1", .setTags [("team", "storage")]⟩]

def holdAndTagsPool : Pool Call Response World :=
  Pool.start sampleWorld (amendHandlers sampleGateway sampleVersion holdAndTags)

theorem holdAndTags_addresses :
    AddressesVersion sampleGateway sampleVersion holdAndTags sampleWorld := by
  constructor
  · decide
  · intro m hm
    obtain rfl := Option.some.inj hm
    rfl

theorem amendments_linearize_serial_run :
    ∃ order, holdAndTagsPool.Linearized (machine sampleGateway.providers)
      (storedVersion (sampleKey "v1")) (amendOp holdAndTags) Response.success
      [(0, {}), (0, {}), (0, {}), (1, {}), (1, {})] order := by
  apply amendments_linearize_of_undisturbed sampleGateway sampleVersion
  · exact holdAndTags_addresses
  refine ⟨trivial, trivial, ?_, trivial, ?_, trivial⟩
  · intro r m s hr hm hs
    obtain rfl := Option.some.inj hr
    obtain rfl := Option.some.inj hm
    obtain rfl := Option.some.inj hs
    exact ⟨rfl, rfl⟩
  · intro r m s hr hm hs
    obtain rfl := Option.some.inj hr
    obtain rfl := Option.some.inj hm
    obtain rfl := Option.some.inj hs
    exact ⟨rfl, rfl⟩

def crossingMoves : List (Nat × Choice) := [(0, {}), (0, {}), (1, {}), (0, {}), (1, {})]

theorem crossing_order {order : List Nat}
    (h : holdAndTagsPool.Linearized (machine sampleGateway.providers)
      (storedVersion (sampleKey "v1")) (amendOp holdAndTags) Response.success crossingMoves order) :
    order.Perm [0, 1] := by
  apply (List.perm_ext_iff_of_nodup h.nodup (by decide)).mpr
  intro i
  rw [h.complete i]
  constructor
  · rintro ⟨t, a, ht, -, -⟩
    have hlt := (List.getElem?_eq_some_iff.mp ht).1
    change i < 2 at hlt
    have hi : i = 0 ∨ i = 1 := by omega
    simpa using hi
  · intro hi
    have hi' : i = 0 ∨ i = 1 := by simpa using hi
    rcases hi' with rfl | rfl
    · exact ⟨_, _, rfl, rfl, rfl⟩
    · exact ⟨_, _, rfl, rfl, rfl⟩

/-- The acknowledged legal hold is lost: the tag request writes back the manifest it read before. -/
theorem crossing_amendments_not_linearizable :
    ¬ ∃ order, holdAndTagsPool.Linearized (machine sampleGateway.providers)
      (storedVersion (sampleKey "v1")) (amendOp holdAndTags) Response.success crossingMoves
      order := by
  rintro ⟨order, h⟩
  have horder := crossing_order h
  obtain ⟨i, j, rfl⟩ := List.length_eq_two.mp horder.length_eq
  have hi : i = 0 ∨ i = 1 := by simpa using horder.mem_iff.mp (List.mem_cons_self (a := i))
  have hj : j = 0 ∨ j = 1 := by simpa using horder.mem_iff.mp (List.mem_cons_of_mem i (by simp))
  have hnodup := h.nodup
  have hresult := h.result
  rcases hi with rfl | rfl <;> rcases hj with rfl | rfl
  · exact absurd hnodup (by decide)
  · exact absurd hresult (by decide)
  · exact absurd hresult (by decide)
  · exact absurd hnodup (by decide)

end ObjectFabric
