import ObjectFabric.Gateway.BucketSettings

/-!
# BucketLock — Object Lock stays on versioned buckets

Object Lock is meant to be enabled only while versioning is `Enabled`.  Each of the two handlers
checks the other's record before it writes its own, so the invariant survives every step at which
that record is still what was read; a crossing of the two check-then-write sequences breaks it.
-/

namespace ObjectFabric

open Interleaving

/-- Object Lock is on only while versioning is `Enabled`. -/
def LockImpliesVersioned (tenantID bucket : String) (w : World) : Prop :=
  (w.buckets.objectLockOf tenantID bucket).enabled = true →
    w.buckets.versioningOf tenantID bucket = .enabled

instance (tenantID bucket : String) (w : World) : Decidable (LockImpliesVersioned tenantID bucket w) :=
  inferInstanceAs (Decidable (_ → _))

/-- At the write, the record that the handler checked still has the value it read. -/
def settingsUndisturbed : Condition Call Choice World PUnit
  | _, ⟨.getObjectLock t b, .ok lockCfg⟩ :: _, _, .setVersioning _ _ _, _, w, _ =>
    w.buckets.objectLockOf t b = lockCfg
  | _, ⟨.getVersioning t b, .ok versioning⟩ :: _, _, .setObjectLock _ _ _, _, w, _ =>
    w.buckets.versioningOf t b = versioning
  | _, _, _, _, _, _, _ => True

def settingsSpec (tenantID bucket : String) : Spec Call where
  pre h c := match c with
    | .setVersioning t b state => t = tenantID ∧ b = bucket ∧
        (state = .suspended → ∃ lockCfg h', lockCfg.enabled = false ∧
          h = ⟨.getObjectLock tenantID bucket, .ok lockCfg⟩ :: h')
    | .setObjectLock t b _ => t = tenantID ∧ b = bucket ∧
        ∃ h', h = ⟨.getVersioning tenantID bucket, .ok .enabled⟩ :: h'
    | .getVersioning _ _ | .getObjectLock _ _ => True
    | _ => False
  post _ _ _ := True

def settingsProtocol (tenantID bucket : String) : Protocol Call World Choice PUnit where
  held _ := 0
  inv w _ := LockImpliesVersioned tenantID bucket w
  cond := settingsUndisturbed
  spec _ := settingsSpec tenantID bucket

/-! ## 1. The handlers conform -/

theorem putBucketVersioning_conforms (cfg : Config) (tenantID bucket key status : String) :
    (putBucketVersioning cfg tenantID bucket key status).Follows
      (settingsSpec tenantID bucket) [] := by
  unfold putBucketVersioning
  by_cases hpath : bucket = "" ∨ key ≠ ""
  · rw [if_pos hpath]
    trivial
  rw [if_neg hpath]
  rcases hcfg : cfg.hasBucketConfig with _ | _
  · trivial
  generalize VersioningState.ofString status = state
  rcases hvalid : state.valid with _ | _
  · simp [hvalid]
  by_cases hs : state = .suspended
  · -- the lock configuration is read first, and only a disabled one lets the write happen
    simp only [hs, orRefuse, refuseSuspend, Config.bucketObjectLock, hcfg]
    refine ⟨trivial, fun lock _ => ?_⟩
    rcases lock with e | lockCfg
    · trivial
    cases hon : lockCfg.enabled with
    | true => simp [hon]
    | false =>
      simp only [Proc.ret_bind, hon]
      refine ⟨⟨rfl, rfl, fun _ => ⟨lockCfg, [], hon, rfl⟩⟩, fun r _ => ?_⟩
      cases r <;> trivial
  · simp only [hvalid, orRefuse, refuseSuspend, if_pos hs]
    refine ⟨⟨rfl, rfl, fun h => absurd h hs⟩, fun r _ => ?_⟩
    cases r <;> trivial

theorem putObjectLockConfiguration_conforms (cfg : Config)
    (tenantID bucket key objectLockEnabled : String) (rule : Option DefaultRetention) :
    (putObjectLockConfiguration cfg tenantID bucket key objectLockEnabled rule).Follows
      (settingsSpec tenantID bucket) [] := by
  unfold putObjectLockConfiguration
  by_cases hpath : bucket = "" ∨ key ≠ ""
  · rw [if_pos hpath]
    trivial
  rw [if_neg hpath]
  rcases hcfg : cfg.hasBucketConfig with _ | _
  · trivial
  by_cases hon : objectLockEnabled = "Enabled"
  · rcases hvalid : (requestedLockConfig rule).validate with message | u
    · simp [hon, hvalid]
    simp only [hon, hvalid, Config.bucketVersioning, hcfg]
    refine ⟨trivial, fun v _ => ?_⟩
    rcases v with e | versioning
    · trivial
    by_cases hv : versioning = .enabled
    · subst hv
      refine ⟨⟨rfl, rfl, [], rfl⟩, fun r _ => ?_⟩
      cases r <;> trivial
    · simp [hv]
  · simp [hon]

theorem BucketSettingsRequest.handle_conforms (cfg : Config) (tenantID bucket : String)
    (r : BucketSettingsRequest) :
    (r.handle cfg tenantID bucket).Follows (settingsSpec tenantID bucket) [] := by
  cases r with
  | putVersioning key status => exact putBucketVersioning_conforms cfg tenantID bucket key status
  | putObjectLock key on rule =>
    exact putObjectLockConfiguration_conforms cfg tenantID bucket key on rule

/-! ## 2. Every undisturbed write keeps the invariant -/

theorem setVersioning_keeps {tenantID bucket : String} {w : World} {state : VersioningState}
    (hw : LockImpliesVersioned tenantID bucket w)
    (hs : state = .suspended → (w.buckets.objectLockOf tenantID bucket).enabled = false) :
    LockImpliesVersioned tenantID bucket
      (w.onBuckets (w.buckets.setVersioning tenantID bucket state)).2 := by
  rcases w.buckets.setVersioning_cases tenantID bucket state with ⟨e, he⟩ | ⟨hvalid, hset⟩
  · rw [he]
    exact hw
  rw [hset]
  intro hon
  change (w.buckets.objectLockOf tenantID bucket).enabled = true at hon
  have hstate : state = .enabled := by
    cases state with
    | enabled => rfl
    | suspended => rw [hs rfl] at hon; exact absurd hon (by decide)
    | unset => exact absurd hvalid (by decide)
    | other v => exact absurd hvalid (by simp [VersioningState.valid])
  change ((w.buckets.versioning.insert (BucketConfig.memKey tenantID bucket) state).lookup
    (BucketConfig.memKey tenantID bucket)).getD .unset = .enabled
  rw [Finmap.lookup_insert, hstate]
  rfl

theorem setObjectLock_keeps {tenantID bucket : String} {w : World} {lockCfg : LockConfig}
    (hw : LockImpliesVersioned tenantID bucket w)
    (hv : w.buckets.versioningOf tenantID bucket = .enabled) :
    LockImpliesVersioned tenantID bucket
      (w.onBuckets (w.buckets.setObjectLock tenantID bucket lockCfg)).2 := by
  rcases w.buckets.setObjectLock_cases tenantID bucket lockCfg with ⟨e, he⟩ | hset
  · rw [he]
    exact hw
  rw [hset]
  intro _
  exact hv

theorem settingsProtocol_sound (providers : String → Option Provider) (tenantID bucket : String) :
    (settingsProtocol tenantID bucket).Sound (machine providers) where
  drop _ _ _ hinv := hinv
  step _ h c x w R hpre hinv hcond := by
    refine ⟨trivial, ?_⟩
    change LockImpliesVersioned tenantID bucket w at hinv
    change LockImpliesVersioned tenantID bucket ((machine providers).exec x c w).2
    rcases machine_exec providers x c w with hx | ⟨e, -, hx⟩
    · rw [hx]
      cases c with
      | getVersioning | getObjectLock => exact hinv
      | setVersioning t b state =>
        obtain ⟨rfl, rfl, hsuspend⟩ := hpre
        refine setVersioning_keeps hinv fun hs => ?_
        obtain ⟨lockCfg, h', hoff, rfl⟩ := hsuspend hs
        have hread : w.buckets.objectLockOf t b = lockCfg := hcond
        rw [hread, hoff]
      | setObjectLock t b lockCfg =>
        obtain ⟨rfl, rfl, h', rfl⟩ := hpre
        exact setObjectLock_keeps hinv hcond
      | _ => exact hpre.elim
    · rw [hx]
      exact hinv

/-! ## 3. Runs of the handlers -/

/-- In every run whose writes find the record they checked unchanged, Object Lock is on only while
versioning is enabled. -/
theorem lock_implies_versioned_of_undisturbed (cfg : Config) (tenantID bucket : String) (w : World)
    (reqs : List BucketSettingsRequest) (moves : List (Nat × Choice))
    (hw : LockImpliesVersioned tenantID bucket w)
    (hmoves : (Pool.start w (reqs.map (·.handle cfg tenantID bucket))).Meets (fun _ => (0 : PUnit))
      (machine cfg.providers) settingsUndisturbed moves) :
    LockImpliesVersioned tenantID bucket
      ((Pool.start w (reqs.map (·.handle cfg tenantID bucket))).run (machine cfg.providers)
        moves).shared := by
  have hgood : (settingsProtocol tenantID bucket).Good (fun _ _ _ => True)
      (Pool.start w (reqs.map (·.handle cfg tenantID bucket))) := by
    apply Protocol.good_start rfl hw
    intro i p hp
    rw [List.getElem?_map, Option.map_eq_some_iff] at hp
    obtain ⟨r, -, rfl⟩ := hp
    exact r.handle_conforms cfg tenantID bucket
  exact ((settingsProtocol_sound cfg.providers tenantID bucket).run hgood hmoves).inv

def settingsGateway : Config where
  sha256Hex s := s
  blake3 b := b
  providers _ := none
  resolveBackend _ _ _ := .error "no placement"

def settingsPool : Pool Call Response World :=
  Pool.start {} ([.putVersioning "" "Enabled", .putVersioning "" "Suspended",
    .putObjectLock "" "Enabled" none].map
      (BucketSettingsRequest.handle settingsGateway "tenant" "bucket"))

theorem lock_implies_versioned_serial_run :
    LockImpliesVersioned "tenant" "bucket"
      (settingsPool.run (machine settingsGateway.providers)
        [(0, {}), (2, {}), (2, {}), (1, {})]).shared := by
  apply lock_implies_versioned_of_undisturbed
  · decide
  · exact ⟨trivial, trivial, rfl, trivial, trivial⟩

/-- Both requests pass their check before either writes: the lock configuration is read as disabled,
the versioning state as enabled. -/
theorem lock_on_suspended_bucket :
    LockImpliesVersioned "tenant" "bucket" ({} : World) ∧
    ¬ LockImpliesVersioned "tenant" "bucket"
      (settingsPool.run (machine settingsGateway.providers)
        [(0, {}), (2, {}), (1, {}), (1, {}), (2, {})]).shared := by
  decide

end ObjectFabric
