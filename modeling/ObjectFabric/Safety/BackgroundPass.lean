import ObjectFabric.Gateway.Calls
import ObjectFabric.Safety.Amendments
import ObjectFabric.Workers.AadMigrator
import ObjectFabric.Workers.Rebalancer

/-!
# BackgroundPass — the background workers next to client requests

The rebalancer and the AAD migrator read a page of manifests, move bytes for as long as that takes,
and write each manifest back with `Put`.  Whatever a client has done to the object in between is
overwritten.  As long as no client writes to an object of the page in hand, and the migrator writes
latest versions only, a pass leaves alone which versions exist, which is the latest, and what the
clients have set on them.
-/

namespace ObjectFabric

open Interleaving

/-! ## 1. Requests, passes and what a pass has in hand -/

inductive ClientRequest where
  | put (r : PutRequest)
  | delete (o : ObjectRef) (bypassGovernance : Bool)
  | amend (o : ObjectRef) (a : Amendment)

def ClientRequest.handle (cfg : Config) : ClientRequest → Handler
  | .put r => putObject cfg r
  | .delete o bypass => deleteObject cfg o bypass
  | .amend o a => a.handle cfg o

inductive BackgroundPass where
  | rebalance (pageSize : Int) (pages : Nat) (targets : List TenantTarget)
  | migrate (mig : AADMigratorConfig) (entropy : ManifestKey → Nat) (checks : List Nat)

namespace BackgroundPass

def handle (cfg : Config) : BackgroundPass → Handler
  | .rebalance pageSize pages targets => do
    let _ ← runRebalancer cfg pageSize pages targets {}
    return { status := 200 }
  | .migrate mig entropy checks => do
    let _ ← aadSweep cfg mig entropy checks
    return { status := 200 }

def migrates : BackgroundPass → Prop
  | .rebalance _ _ _ => False
  | .migrate _ _ _ => True

end BackgroundPass

def passPool (cfg : Config) (w : World) (clients : List ClientRequest) (pass : BackgroundPass) :
    Pool Call Response World :=
  Pool.start w (clients.map (·.handle cfg) ++ [pass.handle cfg])

/-- The versions of the page in hand, as the thread has read or written them last. -/
def pageInHand : History Call → Multiset (ManifestKey × ObjectManifest)
  | [] => 0
  | ⟨.manifestList _ _ _ _, .ok (page, _)⟩ :: _ => ↑(page.map fun m => (m.key, m))
  | ⟨.manifestScan _ _, .ok (page, _)⟩ :: _ => ↑page
  | ⟨.manifestPut k m, .ok ()⟩ :: h => (pageInHand h).map fun e => if e.1 = k then (k, m) else e
  | _ :: h => pageInHand h

def Call.writtenKey {β : Type} : Call β → Option ManifestKey
  | .manifestPut k _ | .manifestUpdate k _ | .manifestDelete k => some k
  | _ => none

/-- No client writes to an object of the page the pass has in hand, and the migrator writes a
version only while it is the latest. -/
def passUndisturbed (n : Nat) (pass : BackgroundPass) :
    Condition Call Choice World (Multiset (ManifestKey × ObjectManifest))
  | i, _, _, c, _, w, inHand =>
    ∀ k ∈ c.writtenKey,
      (i ≠ n → ∀ e ∈ inHand, e.1.latestKey ≠ k.latestKey) ∧
      (i = n → pass.migrates → w.manifests.latest.lookup k.latestKey = some k)

structure KeepsAmendments (m m' : ObjectManifest) : Prop where
  key : m'.key = m.key
  retention : m'.retention = m.retention
  legalHold : m'.legalHold = m.legalHold
  tags : m'.tags = m.tags

/-- A step that revives no version, moves no latest pointer and undoes no amendment. -/
structure PassRespects (w w' : World) : Prop where
  revives_none : ∀ k, storedVersion k w = none → storedVersion k w' = none
  latest : ∀ lk, w'.manifests.latest.lookup lk = w.manifests.latest.lookup lk
  amendments : ∀ k m', storedVersion k w' = some m' →
    ∃ m, storedVersion k w = some m ∧ KeepsAmendments m m'

/-! ## 2. The page in hand -/

def turnsPage {β : Type} : Call β → Prop
  | .manifestList _ _ _ _ | .manifestScan _ _ => True
  | _ => False

variable {k : ManifestKey} {m : ObjectManifest}

section

variable {β : Type} {c : Call β} {h : History Call}

theorem pageInHand_of_failure {e : β} (he : World.failure c = some e) :
    pageInHand (⟨c, e⟩ :: h) = pageInHand h := by
  cases c with
  | manifestList | manifestScan | manifestPut =>
    rw [← Option.some.inj he]
    rfl
  | _ => rfl

theorem pageInHand_of_other (hturn : ¬ turnsPage c) (hput : ∀ k, c.writtenKey ≠ some k) (b : β) :
    pageInHand (⟨c, b⟩ :: h) = pageInHand h := by
  cases c with
  | manifestList | manifestScan => exact absurd trivial hturn
  | manifestPut k m => exact absurd rfl (hput k)
  | _ => rfl

theorem pageInHand_eq_zero (hturn : ¬ turnsPage c) (hh : pageInHand h = 0) (b : β) :
    pageInHand (⟨c, b⟩ :: h) = 0 := by
  cases c with
  | manifestList | manifestScan => exact absurd trivial hturn
  | manifestPut k m =>
    cases b with
    | error e => exact hh
    | ok u =>
      show (pageInHand h).map _ = 0
      rw [hh]
      rfl
  | _ => exact hh

def Retains (k : ManifestKey) (h h' : History Call) : Prop :=
  ∀ e ∈ pageInHand h, e.1 ≠ k → e ∈ pageInHand h'

theorem retains_put (k : ManifestKey) (m : ObjectManifest) (h : History Call) :
    Retains k h (⟨.manifestPut k m, .ok ()⟩ :: h) := by
  intro e he hne
  show e ∈ (pageInHand h).map _
  rw [Multiset.mem_map]
  exact ⟨e, he, if_neg hne⟩

theorem mem_pageInHand_put (m' : ObjectManifest)
    (hm : (k, m) ∈ pageInHand h) : (k, m') ∈ pageInHand (⟨.manifestPut k m', .ok ()⟩ :: h) := by
  show (k, m') ∈ (pageInHand h).map _
  rw [Multiset.mem_map]
  exact ⟨(k, m), hm, if_pos rfl⟩

end

/-! ## 3. What the threads do -/

def clientSpec : Spec Call where
  pre h c := pageInHand h = 0 ∧ ¬ turnsPage c ∧ match c with
    | .manifestPut k m | .manifestUpdate k m => m.key = k
    | _ => True
  post _ c b := match c, b with
    | .manifestGet k, .ok m => m.key.latestKey = k.latestKey
    | _, _ => True

def passSpec (pass : BackgroundPass) : Spec Call where
  pre h c := match c with
    | .manifestPut k m' => ∃ m, (k, m) ∈ pageInHand h ∧ m.key = k ∧ KeepsAmendments m m'
    | .manifestUpdate _ _ | .manifestDelete _ => False
    | .manifestList _ _ _ _ => ¬ pass.migrates
    | .manifestScan _ _ => pass.migrates
    | _ => True
  post _ c b := match c, b with
    | .manifestList _ _ _ _, .ok (page, _) => (page.map ObjectManifest.key).Nodup
    | .manifestScan _ _, .ok (page, _) => (page.map Prod.fst).Nodup ∧ ∀ e ∈ page, e.2.key = e.1
    | _, _ => True

variable {o : ObjectRef}

section Clients

variable {cfg : Config} {h : History Call}

theorem clientSpec_of_writes {lk : LatestKey} {p : Handler} (hp : p.Only (writes lk)) :
    p.Follows clientSpec [] := by
  have hconf : p.Conforms clientSpec (fun h' _ => pageInHand h' = 0) [] := by
    refine hp.conforms (R := fun h => pageInHand h = 0) (fun h β c hc hh => ?_) rfl
    have hturn : ¬ turnsPage c := by
      cases c with
      | manifestList | manifestScan => exact absurd hc id
      | _ => exact id
    refine ⟨⟨hh, hturn, ?_⟩, pageInHand_eq_zero hturn hh⟩
    cases c with
    | manifestPut k m => exact hc.1
    | manifestUpdate k m => exact absurd hc id
    | _ => trivial
  exact hconf.mono fun _ _ _ => trivial

theorem storeAmended_client {status : Nat}
    (hh : pageInHand h = 0) (hm : m.key = k) :
    (storeAmended status k m).Follows clientSpec h := by
  refine ⟨⟨hh, id, hm⟩, fun b _ => ?_⟩
  cases b <;> trivial

theorem writeManifestGetError_client (e : StoreError) :
    (writeManifestGetError e).Follows clientSpec h := by
  unfold writeManifestGetError
  split <;> trivial

theorem key_of_read
    (hm : m.key.latestKey = (o.manifestKey cfg).latestKey) :
    m.key = cfg.manifestKey o.tenantID o.bucket o.key m.versionID := by
  have htenant : m.tenantID = o.tenantID := congrArg LatestKey.tenantID hm
  have hbucket : m.bucket = o.bucket := congrArg LatestKey.bucket hm
  have hhash : m.objectKeyHash = cfg.hashObjectKey o.key := congrArg LatestKey.objectKeyHash hm
  unfold ObjectManifest.key Config.manifestKey
  rw [htenant, hbucket, hhash]

theorem loadObjectVersion_client {rest : ObjectManifest → ManifestKey → Handler}
    (hh : pageInHand h = 0)
    (hrest : ∀ h' m, pageInHand h' = 0 →
      m.key = cfg.manifestKey o.tenantID o.bucket o.key m.versionID →
      (rest m (cfg.manifestKey o.tenantID o.bucket o.key m.versionID)).Follows clientSpec h') :
    (loadObjectVersion cfg o rest).Follows clientSpec h := by
  refine ⟨⟨hh, id, trivial⟩, fun b hb => ?_⟩
  rcases b with e | m
  · exact writeManifestGetError_client e
  simp only [Proc.ret_bind]
  split
  · trivial
  · exact hrest _ m hh (key_of_read hb)

theorem authObjectLock_client {rest : Handler}
    (hrest : ∀ h', pageInHand h' = 0 → rest.Follows clientSpec h') :
    (authObjectLock cfg o rest).Follows clientSpec [] := by
  unfold authObjectLock Config.bucketObjectLock
  split
  · trivial
  rcases cfg.hasBucketConfig with _ | _
  · trivial
  refine ⟨⟨rfl, id, trivial⟩, fun b _ => ?_⟩
  rcases b with e | lockCfg
  · trivial
  simp only [Proc.ret_bind]
  split
  · trivial
  · exact hrest _ rfl

theorem authObjectTagging_client {rest : Handler}
    (hrest : rest.Follows clientSpec []) :
    (authObjectTagging o rest).Follows clientSpec [] := by
  unfold authObjectTagging
  split
  · trivial
  split
  · trivial
  · exact hrest

theorem amend_client (o : ObjectRef) (a : Amendment) :
    (a.handle cfg o).Follows clientSpec [] := by
  cases a with
  | setRetention mode retainUntil bypass =>
    apply authObjectLock_client
    intro h' hh
    rcases retainUntil with message | until_
    · trivial
    simp only
    split
    · trivial
    apply loadObjectVersion_client hh
    intro h' m hh hm
    refine .ask ⟨hh, id, trivial⟩ fun now _ => ?_
    split
    · trivial
    · exact storeAmended_client hh hm
  | setLegalHold status =>
    apply authObjectLock_client
    intro h' hh
    split
    · trivial
    · exact loadObjectVersion_client hh fun h' m hh hm => storeAmended_client hh hm
  | setTags entries =>
    apply authObjectTagging_client
    split
    · trivial
    refine ⟨⟨rfl, id, trivial⟩, fun b hb => ?_⟩
    cases b with
    | error e => exact writeManifestGetError_client e
    | ok m => exact storeAmended_client rfl (key_of_read hb)
  | clearTags => ?_
  apply authObjectTagging_client
  refine ⟨⟨rfl, id, trivial⟩, fun b hb => ?_⟩
  rcases b with e | m
  · exact writeManifestGetError_client e
  simp only [Proc.ret_bind]
  split
  · exact storeAmended_client rfl (key_of_read hb)
  · trivial

theorem client_conforms (r : ClientRequest) :
    (r.handle cfg).Follows clientSpec [] := by
  cases r with
  | put r => exact clientSpec_of_writes (putObject_only r)
  | delete o bypass => exact clientSpec_of_writes (deleteObject_only o bypass)
  | amend o a => exact amend_client o a

end Clients

section Passes

variable {cfg : Config} {pass : BackgroundPass} {h : History Call}

def StillInHand (page : List (ManifestKey × ObjectManifest)) (h : History Call) : Prop :=
  (page.map Prod.fst).Nodup ∧ ∀ e ∈ page, e ∈ pageInHand h ∧ e.2.key = e.1

theorem StillInHand.tail
    {page : List (ManifestKey × ObjectManifest)} {h' : History Call}
    (hpage : StillInHand ((k, m) :: page) h) (hkept : Retains k h h') : StillInHand page h' := by
  have hnodup := List.nodup_cons.mp hpage.1
  refine ⟨hnodup.2, fun e he => ?_⟩
  have hne : e.1 ≠ k := by
    intro heq
    exact hnodup.1 (List.mem_map.mpr ⟨e, he, heq⟩)
  have hold := hpage.2 e (List.mem_cons_of_mem _ he)
  exact ⟨hkept e hold.1 hne, hold.2⟩

/-! ### The rebalancer -/

section

variable (target : TenantTarget)
include target

theorem copyPieces_conforms (ps done : List Piece) (stats : RebalanceStats)
    (page : Multiset (ManifestKey × ObjectManifest)) (hpage : pageInHand h = page) :
    (copyPieces target ps done stats).Conforms (passSpec pass)
      (fun h' _ => pageInHand h' = page) h := by
  induction ps generalizing done stats h with
  | nil => exact hpage
  | cons p ps ih => ?_
  unfold copyPieces
  split
  · exact ih _ _ hpage
  refine ⟨trivial, fun body _ => ?_⟩
  rcases body with e | body
  · exact hpage
  refine ⟨trivial, fun res _ => ?_⟩
  cases res with
  | error e => exact hpage
  | ok res => exact ih _ _ hpage

theorem rebalanceManifest_conforms (stats : RebalanceStats) (hm : (m.key, m) ∈ pageInHand h) :
    (rebalanceManifest target m stats).Conforms (passSpec pass)
      (fun h' r => Retains m.key h h' ∧
        ∀ m', r.1 = .ok m' → m'.key = m.key ∧ (m.key, m') ∈ pageInHand h') h := by
  apply (copyPieces_conforms target m.pieces [] stats _ rfl).seq
  intro h' r hpage
  have hkept : Retains m.key h h' := by
    intro e he _
    rw [hpage]
    exact he
  match r with
  | (.error message, stats) => exact ⟨hkept, fun m' hm' => by simp at hm'⟩
  | (.ok pieces, stats) =>
    simp only
    split
    · have hin : (m.key, m) ∈ pageInHand h' := by
        rw [hpage]
        exact hm
      refine ⟨⟨m, hin, rfl, ⟨rfl, rfl, rfl, rfl⟩⟩, fun b _ => ?_⟩
      cases b with
      | error e => exact ⟨hkept, fun m' hm' => by simp at hm'⟩
      | ok u =>
        refine ⟨fun e he hne => retains_put _ _ h' e (hkept e he hne) hne, fun m' hm' => ?_⟩
        rw [← Except.ok.inj hm']
        exact ⟨rfl, mem_pageInHand_put _ hin⟩
    · refine ⟨hkept, fun m' hm' => ?_⟩
      rw [← Except.ok.inj hm', hpage]
      exact ⟨rfl, hm⟩

theorem advancePhase_conforms (hm : (m.key, m) ∈ pageInHand h) :
    (advancePhase target m).Conforms (passSpec pass) (fun h' _ => Retains m.key h h') h := by
  have hsame : Retains m.key h h := fun e he _ => he
  unfold advancePhase
  split
  · exact hsame
  split
  · exact hsame
  split
  · exact hsame
  refine ⟨⟨m, hm, rfl, ⟨rfl, rfl, rfl, rfl⟩⟩, fun b _ => ?_⟩
  cases b with
  | error e => exact hsame
  | ok u => exact retains_put _ _ h

theorem rebalanceOne_conforms (stats : RebalanceStats) (hm : (m.key, m) ∈ pageInHand h) :
    (rebalanceOne target m stats).Conforms (passSpec pass) (fun h' _ => Retains m.key h h') h := by
  unfold rebalanceOne
  split
  · exact fun e he _ => he
  apply (rebalanceManifest_conforms target stats hm).seq
  intro h' r hr
  match r with
  | (.error message, stats) => exact hr.1
  | (.ok m', stats) =>
    have hkey : m'.key = m.key := (hr.2 m' rfl).1
    have hin : (m'.key, m') ∈ pageInHand h' := by
      rw [hkey]
      exact (hr.2 m' rfl).2
    apply (advancePhase_conforms target hin).seq
    intro h₂ advanced hkept
    rw [hkey] at hkept
    have hboth : Retains m.key h h₂ := fun e he hne => hkept e (hr.1 e he hne) hne
    match advanced with
    | .error message => exact hboth
    | .ok true => exact hboth
    | .ok false => exact hboth

theorem rebalanceEach_conforms (ms : List ObjectManifest)
    (stats : RebalanceStats) (hms : StillInHand (ms.map fun m => (m.key, m)) h) :
    (rebalanceEach target ms stats).Follows (passSpec pass) h := by
  induction ms generalizing stats h with
  | nil => trivial
  | cons m ms ih => ?_
  apply (rebalanceOne_conforms target _ (hms.2 _ (List.mem_cons_self)).1).seq
  intro h' stats' hkept
  exact ih stats' (StillInHand.tail hms hkept)

theorem rebalancePages_conforms (hpass : ¬ pass.migrates) (pageSize : Int)
    (pages : Nat) (cursor : String) (stats : RebalanceStats) :
    (rebalancePages target pageSize pages cursor stats).Follows (passSpec pass) h := by
  induction pages generalizing cursor stats h with
  | zero => trivial
  | succ pages ih => ?_
  refine ⟨hpass, fun b hb => ?_⟩
  match b with
  | .error e => trivial
  | .ok (page, next) =>
    have hpage : StillInHand (page.map fun m => (m.key, m))
        (⟨.manifestList target.tenantID target.bucket cursor pageSize, .ok (page, next)⟩ :: h) := by
      refine ⟨?_, fun e he => ⟨Multiset.mem_coe.mpr he, ?_⟩⟩
      · rw [List.map_map]
        exact hb
      · rcases List.mem_map.mp he with ⟨m, -, rfl⟩
        rfl
    show Proc.Conforms _ _ _ ((rebalanceEach target page stats).bind _)
    apply (rebalanceEach_conforms target page stats hpage).seq
    intro h' stats' _
    split
    · trivial
    · exact ih next stats'

end

theorem runRebalancer_conforms (hpass : ¬ pass.migrates) (pageSize : Int) (pages : Nat)
    (targets : List TenantTarget) (stats : RebalanceStats) :
    (runRebalancer cfg pageSize pages targets stats).Follows (passSpec pass) h := by
  induction targets generalizing stats h with
  | nil => trivial
  | cons target targets ih => ?_
  have htarget : (runTarget target cfg pageSize pages stats).Follows (passSpec pass) h := by
    unfold runTarget
    split
    · trivial
    split
    · trivial
    · exact rebalancePages_conforms target hpass _ pages "" stats
  apply Proc.Conforms.bind
  apply htarget.mono
  intro h' r _
  match r with
  | (stats, some e) => trivial
  | (stats, none) => exact ih stats

/-! ### The AAD migrator -/

theorem switchManifest_conforms (oldPiece : Piece)
    (ciphertext : Bytes) (wrapped : WrappedDEK) (pieceID : String)
    (hm : (k, m) ∈ pageInHand h) (hkey : m.key = k) :
    (switchManifest cfg k m oldPiece ciphertext wrapped pieceID).Conforms (passSpec pass)
      (fun h' _ => Retains k h h') h := by
  have hsame : Retains k h h := fun e he _ => he
  refine ⟨trivial, fun res _ => ?_⟩
  rcases res with e | res
  · exact hsame
  refine ⟨⟨m, hm, hkey, ⟨rfl, rfl, rfl, rfl⟩⟩, fun b _ => ?_⟩
  cases b with
  | error e => exact ⟨trivial, fun _ _ => hsame⟩
  | ok u => exact ⟨trivial, fun _ _ e he hne => retains_put k _ (_ :: h) e he hne⟩

theorem migrateOne_conforms (entropy : Nat)
    (hm : (k, m) ∈ pageInHand h) (hkey : m.key = k) :
    (migrateOne cfg entropy k m).Conforms (passSpec pass) (fun h' _ => Retains k h h') h := by
  have hsame : Retains k h h := fun e he _ => he
  unfold migrateOne
  split
  · split
    · exact hsame
    refine ⟨trivial, fun found _ => ?_⟩
    rcases found with e | ciphertext
    · exact hsame
    simp only [Proc.ret_bind]
    split
    · exact hsame
    split
    · exact hsame
    split
    · exact hsame
    · exact ⟨trivial, fun now _ => switchManifest_conforms _ _ _ _ hm hkey⟩
  · exact hsame

theorem sweepObjects_conforms (delayed : Bool) (entropy : ManifestKey → Nat) (checks : Nat)
    (stats : MigrateStats) (page : List (ManifestKey × ObjectManifest))
    (hpage : StillInHand page h) :
    (sweepObjects cfg delayed entropy checks stats page).Follows (passSpec pass) h := by
  induction page generalizing checks stats h with
  | nil => cases checks <;> trivial
  | cons e page ih => ?_
  rcases e with ⟨k, m⟩
  cases checks with
  | zero => trivial
  | succ checks => ?_
  have hfirst := hpage.2 (k, m) List.mem_cons_self
  unfold sweepObjects
  apply (migrateOne_conforms (entropy k) hfirst.1 hfirst.2).seq
  intro h' outcome hkept
  have hrest := StillInHand.tail hpage hkept
  split
  · cases checks with
    | zero => trivial
    | succ checks => exact ih checks _ hrest
  · exact ih checks _ hrest

theorem sweepPages_conforms (hpass : pass.migrates) (mig : AADMigratorConfig)
    (entropy : ManifestKey → Nat) (checks : List Nat) (cursor : Option ManifestKey)
    (stats : MigrateStats) :
    (sweepPages cfg mig entropy checks cursor stats).Follows (passSpec pass) h := by
  induction checks generalizing cursor stats h with
  | nil => trivial
  | cons n checks ih => ?_
  refine ⟨hpass, fun b hb => ?_⟩
  match b with
  | .error e => trivial
  | .ok (page, next) =>
    have hpage : StillInHand page (⟨.manifestScan cursor mig.pageSize, .ok (page, next)⟩ :: h) :=
      ⟨hb.1, fun e he => ⟨Multiset.mem_coe.mpr he, hb.2 e he⟩⟩
    show Proc.Conforms _ _ _ ((sweepObjects cfg mig.delayed entropy n stats page).bind _)
    apply (sweepObjects_conforms mig.delayed entropy n stats page hpage).seq
    intro h' r _
    match r, next with
    | (stats, none), _ => trivial
    | (stats, some ()), none => trivial
    | (stats, some ()), some k => exact ih (some k) stats

theorem pass_conforms (pass : BackgroundPass) :
    (pass.handle cfg).Follows (passSpec pass) [] := by
  cases pass with
  | rebalance pageSize pages targets =>
    have hpass : ¬ (BackgroundPass.rebalance pageSize pages targets).migrates := id
    apply (runRebalancer_conforms hpass pageSize pages targets {}).seq
    exact fun _ _ _ => trivial
  | migrate mig entropy checks => ?_
  have hpass : (BackgroundPass.migrate mig entropy checks).migrates := trivial
  apply (sweepPages_conforms hpass mig entropy checks none {}).seq
  exact fun _ _ _ => trivial

end Passes

/-! ## 4. Steps and runs -/

section

variable {providers : String → Option Provider} {β : Type} {c : Call β}

theorem manifests_of_not_written (x : Choice) (w : World) (hc : c.writtenKey = none) :
    (World.exec providers x c w).2.manifests = w.manifests := by
  have hput : ∀ a body, (w.putPiece providers a body).2.manifests = w.manifests := by
    intro a body
    unfold World.putPiece
    split <;> rfl
  cases c with
  | manifestPut | manifestUpdate | manifestDelete => simp [Call.writtenKey] at hc
  | putPiece a body => exact hput a body
  | copyPiece src dst =>
    rcases copyPiece_exec providers x src dst w with ⟨e, -, hcopy⟩ | ⟨body, -, hcopy⟩
    · rw [hcopy]
    · rw [hcopy]
      exact hput dst body
  | _ => rfl

theorem agreeOutside_of_written (x : Choice) (w : World)
    (hc : c.writtenKey = some k) :
    ManifestStore.AgreeOutside k.latestKey w.manifests
      (World.exec providers x c w).2.manifests := by
  cases c with
  | manifestPut k' m =>
    rw [← Option.some.inj hc]
    exact w.manifests.agreeOutside_put k' m
  | manifestUpdate k' m =>
    rw [← Option.some.inj hc]
    exact w.manifests.agreeOutside_updateManifest k' m
  | manifestDelete k' =>
    rw [← Option.some.inj hc]
    exact w.manifests.agreeOutside_delete k'
  | _ => simp [Call.writtenKey] at hc

end

/-- What is in hand is stored as it is in hand; the rebalancer has latest versions in hand. -/
structure PageStored (pass : BackgroundPass) (w : World)
    (inHand : Multiset (ManifestKey × ObjectManifest)) : Prop where
  keyed : w.manifests.Keyed
  stored : ∀ e ∈ inHand, storedVersion e.1 w = some e.2
  latest : ¬ pass.migrates → ∀ e ∈ inHand, w.manifests.latest.lookup e.1.latestKey = some e.1

def passProtocol (n : Nat) (pass : BackgroundPass) :
    Protocol Call World Choice (Multiset (ManifestKey × ObjectManifest)) where
  held := pageInHand
  inv := PageStored pass
  cond i h _ c x w R := passUndisturbed n pass i h c x w R ∧ (i = n → R = 0)
  spec i := if i = n then passSpec pass else clientSpec

variable {w' : World} {inHand : Multiset (ManifestKey × ObjectManifest)} {β : Type}

section

variable {cfg : Config} {pass : BackgroundPass} {w : World} {h : History Call}

theorem PageStored.of_manifests
    (hw : PageStored pass w inHand) (hsame : w'.manifests = w.manifests) :
    PageStored pass w' inHand := by
  refine ⟨?_, fun e he => ?_, fun hpass e he => ?_⟩
  · rw [hsame]
    exact hw.keyed
  · show w'.manifests.byKey.lookup e.1 = _
    rw [hsame]
    exact hw.stored e he
  · rw [hsame]
    exact hw.latest hpass e he

theorem PageStored.of_agreeOutside
    (hw : PageStored pass w inHand) (hkeyed : w'.manifests.Keyed)
    (hagree : ManifestStore.AgreeOutside k.latestKey w.manifests w'.manifests)
    (haway : ∀ e ∈ inHand, e.1.latestKey ≠ k.latestKey) : PageStored pass w' inHand := by
  refine ⟨hkeyed, fun e he => ?_, fun hpass e he => ?_⟩
  · exact (hagree e.1 (haway e he)).1.trans (hw.stored e he)
  · exact (hagree e.1 (haway e he)).2.trans (hw.latest hpass e he)

theorem PageStored.put {m m' : ObjectManifest}
    (hw : PageStored pass w (pageInHand h)) (hm : (k, m) ∈ pageInHand h) (hm' : m'.key = k) :
    PageStored pass { w with manifests := w.manifests.put k m' }
      (pageInHand (⟨.manifestPut k m', .ok ()⟩ :: h)) := by
  have hentry : ∀ e ∈ pageInHand (⟨.manifestPut k m', .ok ()⟩ :: h),
      e = (k, m') ∨ e ∈ pageInHand h ∧ e.1 ≠ k := by
    intro e he
    have he : e ∈ (pageInHand h).map fun e => if e.1 = k then (k, m') else e := he
    rcases Multiset.mem_map.mp he with ⟨e₀, he₀, rfl⟩
    by_cases hk : e₀.1 = k
    · rw [if_pos hk]
      exact Or.inl rfl
    · rw [if_neg hk]
      exact Or.inr ⟨he₀, hk⟩
  refine ⟨?_, fun e he => ?_, fun hpass e he => ?_⟩
  · rw [← hm']
    exact hw.keyed.put m'
  · show (w.manifests.put k m').byKey.lookup e.1 = _
    rw [ManifestStore.lookup_put]
    rcases hentry e he with rfl | ⟨hin, hne⟩
    · exact if_pos rfl
    · rw [if_neg hne]
      exact hw.stored e hin
  · show (w.manifests.latest.insert k.latestKey k).lookup e.1.latestKey = _
    rw [FMap.lookup_insert_ite]
    rcases hentry e he with rfl | ⟨hin, hne⟩
    · exact if_pos rfl
    -- two latest versions in hand belong to different objects
    have hother : e.1.latestKey ≠ k.latestKey := by
      intro heq
      have he := hw.latest hpass e hin
      rw [heq, hw.latest hpass (k, m) hm] at he
      exact hne (Option.some.inj he).symm
    rw [if_neg hother]
    exact hw.latest hpass e hin

theorem passStep_sound (c : Call β) (x : Choice) (hpre : (passSpec pass).pre h c)
    (hw : PageStored pass w (pageInHand h)) :
    (passSpec pass).post h c ((machine cfg.providers).exec x c w).1 ∧
      PageStored pass ((machine cfg.providers).exec x c w).2
        (pageInHand (⟨c, ((machine cfg.providers).exec x c w).1⟩ :: h)) := by
  rcases machine_exec cfg.providers x c w with hx | ⟨e, hfail, hx⟩
  · rw [hx]
    cases c with
    | manifestPut k m' =>
      rcases hpre with ⟨m, hm, hkey, hkeeps⟩
      exact ⟨trivial, hw.put hm (hkeeps.key.trans hkey)⟩
    | manifestUpdate | manifestDelete => exact absurd hpre id
    | manifestList t b cursor limit =>
      show (passSpec pass).post h _ (w.manifests.list t b cursor limit) ∧ PageStored pass w
        (pageInHand (⟨.manifestList t b cursor limit, w.manifests.list t b cursor limit⟩ :: h))
      rcases hlist : w.manifests.list t b cursor limit with e | res
      · exact ⟨trivial, hw⟩
      rcases res with ⟨page, next⟩
      have hlisted := hw.keyed.listed hlist
      have hpage : ∀ e ∈ pageInHand (⟨.manifestList t b cursor limit, .ok (page, next)⟩ :: h),
          ∃ m ∈ page, (m.key, m) = e := fun e he => List.mem_map.mp (Multiset.mem_coe.mp he)
      refine ⟨hlisted.1, hw.keyed, fun e he => ?_, fun _ e he => ?_⟩
      · rcases hpage e he with ⟨m, hm, rfl⟩
        exact (hlisted.2 m hm).1
      · rcases hpage e he with ⟨m, hm, rfl⟩
        exact (hlisted.2 m hm).2
    | manifestScan after limit =>
      have hstored : ∀ e ∈ (w.manifests.scanManifests after limit).1,
          w.manifests.byKey.lookup e.1 = some e.2 :=
        fun e he => (ManifestStore.mem_scanManifests he).1
      refine ⟨⟨w.manifests.nodup_scanManifests after limit, fun e he => ?_⟩, hw.keyed,
        fun e he => ?_, fun hpass => absurd hpre hpass⟩
      · exact hw.keyed e.1 e.2 (hstored e he)
      · exact hstored e (Multiset.mem_coe.mp he)
    | _ =>
      refine ⟨trivial, ?_⟩
      rw [pageInHand_of_other id (by simp [Call.writtenKey])]
      exact hw.of_manifests (manifests_of_not_written x w rfl)
  · rw [hx, pageInHand_of_failure hfail]
    refine ⟨?_, hw⟩
    cases c with
    | manifestList | manifestScan =>
      rw [← Option.some.inj hfail]
      trivial
    | _ => trivial

theorem clientStep_sound (c : Call β) (x : Choice)
    (hpre : clientSpec.pre h c)
    (hw : PageStored pass w inHand)
    (haway : ∀ k ∈ c.writtenKey, ∀ e ∈ inHand, e.1.latestKey ≠ k.latestKey) :
    clientSpec.post h c ((machine cfg.providers).exec x c w).1 ∧
      PageStored pass ((machine cfg.providers).exec x c w).2 inHand := by
  rcases machine_exec cfg.providers x c w with hx | ⟨e, hfail, hx⟩
  · rw [hx]
    cases c with
    | manifestPut k m =>
      refine ⟨trivial, hw.of_agreeOutside ?_ (agreeOutside_of_written x w rfl) (haway k rfl)⟩
      show (w.manifests.put k m).Keyed
      rw [← hpre.2.2]
      exact hw.keyed.put m
    | manifestUpdate k m =>
      refine ⟨trivial, hw.of_agreeOutside ?_ (agreeOutside_of_written x w rfl) (haway k rfl)⟩
      show (w.manifests.updateManifest k m).2.Keyed
      rw [← hpre.2.2]
      exact hw.keyed.updateManifest m
    | manifestDelete k =>
      refine ⟨trivial, hw.of_agreeOutside ?_ (agreeOutside_of_written x w rfl) (haway k rfl)⟩
      exact hw.keyed.delete k
    | manifestGet k =>
      refine ⟨?_, hw⟩
      show clientSpec.post h (.manifestGet k) (w.manifests.get k)
      rcases hget : w.manifests.get k with e | m
      · trivial
      rcases ManifestStore.get_eq_ok hget with ⟨target, hres, hlook⟩
      show m.key.latestKey = k.latestKey
      rw [hw.keyed target m hlook]
      exact ManifestStore.resolve_latestKey hres
    | _ => exact ⟨trivial, hw.of_manifests (manifests_of_not_written x w rfl)⟩
  · rw [hx]
    refine ⟨?_, hw⟩
    cases c with
    | manifestGet k =>
      rw [← Option.some.inj hfail]
      trivial
    | _ => trivial

theorem passProtocol_sound (n : Nat) (pass : BackgroundPass) :
    (passProtocol n pass).Sound (machine cfg.providers) where
  drop w r R hinv :=
    ⟨hinv.keyed, fun e he => hinv.stored e (Multiset.mem_add.mpr (Or.inr he)),
      fun hpass e he => hinv.latest hpass e (Multiset.mem_add.mpr (Or.inr he))⟩
  step i h c x w R hpre hinv hcond := by
    by_cases hi : i = n
    · have hspec : (passProtocol n pass).spec i = passSpec pass := if_pos hi
      have hR : R = 0 := hcond.2 hi
      rw [hspec] at hpre ⊢
      rw [hR, add_zero] at hinv ⊢
      exact passStep_sound c x hpre hinv
    · have hspec : (passProtocol n pass).spec i = clientSpec := if_neg hi
      rw [hspec] at hpre ⊢
      -- a client has no page in hand, before the call or after it
      have hbefore : (passProtocol n pass).held h = 0 := hpre.1
      have hafter : ∀ b, (passProtocol n pass).held (⟨c, b⟩ :: h) = 0 :=
        pageInHand_eq_zero hpre.2.1 hpre.1
      rw [hbefore, zero_add] at hinv
      rw [hafter, zero_add]
      exact clientStep_sound c x hpre hinv fun k hk => (hcond.1 k hk).1 hi

theorem heldByOthers_eq_zero {n : Nat} {Q : Nat → History Call → Response → Prop}
    {P : Pool Call Response World} (hP : (passProtocol n pass).Good Q P) :
    P.heldByOthers pageInHand n = 0 := by
  apply List.sum_eq_zero
  intro inHand hmem
  rcases List.mem_map.mp hmem with ⟨t, ht, rfl⟩
  rcases List.mem_eraseIdx_iff_getElem?.mp ht with ⟨j, hj, hthread⟩
  have hconf := hP.conforms j t hthread
  have hspec : (passProtocol n pass).spec j = clientSpec := if_neg hj
  rw [hspec] at hconf
  unfold Thread.held
  cases hrest : t.rest with
  | ret a => rfl
  | call c k =>
    rw [hrest] at hconf
    exact hconf.1.1

theorem PassRespects.of_manifests (hsame : w'.manifests = w.manifests) :
    PassRespects w w' := by
  have hstored : ∀ k, storedVersion k w' = storedVersion k w := by
    intro k
    unfold storedVersion
    rw [hsame]
  refine ⟨fun k hk => (hstored k).trans hk, fun lk => by rw [hsame], fun k m' hm' => ?_⟩
  exact ⟨m', (hstored k).symm.trans hm', ⟨rfl, rfl, rfl, rfl⟩⟩

theorem PassRespects.of_put {m m' : ObjectManifest}
    (hstored : storedVersion k w = some m) (hkeeps : KeepsAmendments m m')
    (hlatest : w.manifests.latest.lookup k.latestKey = some k) :
    PassRespects w { w with manifests := w.manifests.put k m' } := by
  have hlook : ∀ k', storedVersion k' { w with manifests := w.manifests.put k m' } =
      if k' = k then some m' else storedVersion k' w :=
    fun k' => ManifestStore.lookup_put w.manifests k k' m'
  refine ⟨fun k' hk' => ?_, fun lk => ?_, fun k' m₂ hm₂ => ?_⟩
  · have hne : k' ≠ k := by
      intro heq
      rw [heq, hstored] at hk'
      simp at hk'
    rw [hlook, if_neg hne]
    exact hk'
  · show (w.manifests.latest.insert k.latestKey k).lookup lk = _
    rw [FMap.lookup_insert_ite]
    by_cases hlk : lk = k.latestKey
    · rw [if_pos hlk, hlk, hlatest]
    · rw [if_neg hlk]
  · rw [hlook] at hm₂
    by_cases hk : k' = k
    · rw [if_pos hk] at hm₂
      rw [hk, ← Option.some.inj hm₂]
      exact ⟨m, hstored, hkeeps⟩
    · rw [if_neg hk] at hm₂
      exact ⟨m₂, hm₂, ⟨rfl, rfl, rfl, rfl⟩⟩

theorem passStep_respects (c : Call β) (x : Choice) (hpre : (passSpec pass).pre h c)
    (hw : PageStored pass w (pageInHand h))
    (hlatest : pass.migrates → ∀ k ∈ c.writtenKey,
      w.manifests.latest.lookup k.latestKey = some k) :
    PassRespects w ((machine cfg.providers).exec x c w).2 := by
  rcases machine_exec cfg.providers x c w with hx | ⟨e, -, hx⟩
  · rw [hx]
    cases c with
    | manifestPut k m' =>
      rcases hpre with ⟨m, hm, -, hkeeps⟩
      apply PassRespects.of_put (hw.stored (k, m) hm) hkeeps
      by_cases hpass : pass.migrates
      · exact hlatest hpass k rfl
      · exact hw.latest hpass (k, m) hm
    | manifestUpdate | manifestDelete => exact absurd hpre id
    | _ => exact PassRespects.of_manifests (manifests_of_not_written x w rfl)
  · rw [hx]
    exact PassRespects.of_manifests rfl

theorem passPool_good (cfg : Config) (w : World) (clients : List ClientRequest)
    (pass : BackgroundPass) (hw : w.manifests.Keyed) :
    (passProtocol clients.length pass).Good (fun _ _ _ => True) (passPool cfg w clients pass) := by
  apply Protocol.good_start rfl
  · exact ⟨hw, fun e he => absurd he (Multiset.notMem_zero e),
      fun _ e he => absurd he (Multiset.notMem_zero e)⟩
  intro i p hp
  by_cases hi : i = clients.length
  · have hspec : (passProtocol clients.length pass).spec i = passSpec pass := if_pos hi
    rw [hi, List.getElem?_append_right (by simp), List.length_map, Nat.sub_self] at hp
    rw [hspec, ← Option.some.inj hp]
    exact pass_conforms pass
  · have hspec : (passProtocol clients.length pass).spec i = clientSpec := if_neg hi
    have hlt : i < (clients.map (·.handle cfg)).length := by
      have hbound := (List.getElem?_eq_some_iff.mp hp).1
      rw [List.length_append, List.length_map, List.length_singleton] at hbound
      rw [List.length_map]
      omega
    rw [List.getElem?_append_left hlt, List.getElem?_map, Option.map_eq_some_iff] at hp
    rcases hp with ⟨r, -, rfl⟩
    rw [hspec]
    exact client_conforms r

end

/-- In every run in which no client writes to an object that the pass has in hand, and the migrator
writes latest versions only, no step of the pass revives a version, changes which version is the
latest, or changes a retention, a legal hold or tags. -/
theorem backgroundPass_respects_of_undisturbed (cfg : Config) (w : World)
    (clients : List ClientRequest) (pass : BackgroundPass) (moves : List (Nat × Choice))
    (x : Choice) (hw : w.manifests.Keyed)
    (hmoves : (passPool cfg w clients pass).Meets pageInHand (machine cfg.providers)
      (passUndisturbed clients.length pass) (moves ++ [(clients.length, x)])) :
    let before := (passPool cfg w clients pass).run (machine cfg.providers) moves
    PassRespects before.shared
      (before.step (machine cfg.providers) (clients.length, x)).shared := by
  intro before
  rcases (Pool.meets_append pageInHand (machine cfg.providers) _ _ moves _).mp hmoves with
    ⟨hinit, hlast⟩
  have hbefore : (passProtocol clients.length pass).Good (fun _ _ _ => True) before := by
    apply (passProtocol_sound clients.length pass).run_under (fun P mv hP hmv => ?_)
      (passPool_good cfg w clients pass hw) hinit
    -- the clients have nothing in hand, so the pass sees no page of another thread
    unfold Pool.MoveMeets at hmv ⊢
    split
    · rename_i past β c k hthread
      rw [hthread] at hmv
      refine ⟨hmv, fun hi => ?_⟩
      rw [hi]
      exact heldByOthers_eq_zero hP
    · trivial
  rcases before.step_cases (machine cfg.providers) (clients.length, x) with
    hstep | ⟨past, β, c, k, hthread, hstep⟩
  · rw [hstep]
    exact PassRespects.of_manifests rfl
  have hpre := (hbefore.conforms clients.length _ hthread).1
  have hspec : (passProtocol clients.length pass).spec clients.length = passSpec pass := if_pos rfl
  rw [hspec] at hpre
  have hinv : PageStored pass before.shared (pageInHand past) := by
    have hall := hbefore.inv
    rw [Pool.held_eq_add_others _ before hthread] at hall
    have hothers : before.heldByOthers (passProtocol clients.length pass).held clients.length = 0 :=
      heldByOthers_eq_zero hbefore
    rw [hothers, add_zero] at hall
    exact hall
  have hcond := hlast.1
  unfold Pool.MoveMeets at hcond
  rw [hthread] at hcond
  rw [hstep]
  exact passStep_respects c x hpre hinv fun hpass k hk => (hcond k hk).2 rfl hpass

/-- The sample version in the middle of its migration, its piece already on the primary. -/
def migratingManifest : ObjectManifest :=
  { sampleManifest "v1" with
    pieces := [{ pieceID := "piece", backend := "backend" }]
    migrationState := { generation := 2, primaryBackend := "backend", cloudCopy := "wasabi" } }

def migratingWorld : World :=
  { sampleWorld with manifests := ({} : ManifestStore).put (sampleKey "v1") migratingManifest }

def migratingPool (r : ClientRequest) : Pool Call Response World :=
  passPool sampleGateway migratingWorld [r] (.rebalance 0 1 [⟨"tenant", "bucket", "wasabi", "backend"⟩])

/-- A legal hold is set and acknowledged; then the pass lists the version and moves it on. -/
theorem backgroundPass_respects_earlier_hold :
    let before := (migratingPool (.amend sampleVersion (.setLegalHold "ON"))).run
      (machine sampleGateway.providers) [(0, {}), (0, {}), (0, {}), (1, {})]
    let after := before.step (machine sampleGateway.providers) (1, {})
    before.Acked Response.success 0 ∧
    (storedVersion (sampleKey "v1") after.shared).map (·.migrationState.generation) = some 3 ∧
    PassRespects before.shared after.shared := by
  have hkeyed : migratingWorld.manifests.Keyed := by
    intro k m hm
    have hm : (({} : ManifestStore).put (sampleKey "v1") migratingManifest).byKey.lookup k =
        some m := hm
    rw [ManifestStore.lookup_put] at hm
    by_cases hk : k = sampleKey "v1"
    · rw [if_pos hk] at hm
      rw [hk, ← Option.some.inj hm]
      rfl
    · rw [if_neg hk] at hm
      exact absurd hm (by simp)
  refine ⟨⟨_, _, rfl, rfl, rfl⟩, by decide +kernel, ?_⟩
  apply backgroundPass_respects_of_undisturbed sampleGateway migratingWorld
    [.amend sampleVersion (.setLegalHold "ON")] _ [(0, {}), (0, {}), (0, {}), (1, {})] {} hkeyed
  refine ⟨nofun, nofun, ?_, nofun, ?_, trivial⟩
  · -- the hold is written while the pass has not read a page yet
    exact fun k _ => ⟨fun _ e he => absurd he (Multiset.notMem_zero e), nofun⟩
  · exact fun k _ => ⟨fun hi => absurd rfl hi, fun _ hpass => absurd hpass id⟩

def insidePass : List (Nat × Choice) := (1, {}) :: List.replicate 8 (0, sampleClock 0)

/-- An acknowledged DELETE, PUT and legal hold, each undone by the write of the pass: the version is
stored again, the old version is the latest again, the hold is off again. -/
theorem backgroundPass_undoes_requests :
    (let before := (migratingPool (.delete sampleVersion false)).run
      (machine sampleGateway.providers) insidePass
    before.Acked Response.success 0 ∧ storedVersion (sampleKey "v1") before.shared = none ∧
      storedVersion (sampleKey "v1")
        (before.step (machine sampleGateway.providers) (1, {})).shared ≠ none) ∧
    (let before := (migratingPool (.put samplePut)).run (machine sampleGateway.providers) insidePass
    let latest := fun w : World => w.manifests.latest.lookup (sampleKey "").latestKey
    before.Acked Response.success 0 ∧
      latest before.shared = some (sampleKey
        "496f2c1e6f3c276d2ff1d54b6f98ce9a6db83f762717accce163b4839d93e222") ∧
      latest (before.step (machine sampleGateway.providers) (1, {})).shared =
        some (sampleKey "v1")) ∧
    (let before := (migratingPool (.amend sampleVersion (.setLegalHold "ON"))).run
      (machine sampleGateway.providers) insidePass
    let hold := fun w : World => (storedVersion (sampleKey "v1") w).map (·.legalHold)
    before.Acked Response.success 0 ∧ hold before.shared = some true ∧
      hold (before.step (machine sampleGateway.providers) (1, {})).shared = some false) := by
  refine ⟨⟨⟨_, _, rfl, rfl, rfl⟩, ?_, ?_⟩, ⟨⟨_, _, rfl, rfl, rfl⟩, ?_, ?_⟩,
    ⟨⟨_, _, rfl, rfl, rfl⟩, ?_, ?_⟩⟩
  all_goals decide +kernel

end ObjectFabric
