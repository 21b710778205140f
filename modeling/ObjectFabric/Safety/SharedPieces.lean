import ObjectFabric.Gateway.Copy
import ObjectFabric.Gateway.Dedup
import ObjectFabric.Gateway.Delete
import ObjectFabric.Gateway.Sample
import ObjectFabric.Safety.Holdings

/-!
# SharedPieces — deduplicated PUTs, copies and DELETEs at the same time

A DELETE may take a piece away only when no manifest and no request relies on it.  The requests keep
to that as long as three things hold at their steps: a piece ID is fresh when it is written, a
reference is taken on a row that still names the piece the request has seen, and the manifest that a
DELETE removes is still there.
-/

namespace ObjectFabric

open Interleaving

inductive SharingRequest where
  | put (r : PutRequest) (backend : String) (policy : PlacementPolicy)
  | copy (r : CopyRequest)
  | delete (o : ObjectRef) (bypassGovernance : Bool)

def SharingRequest.handle (cfg : Config) : SharingRequest → Handler
  | .put r backend policy => putDeduped cfg r backend policy
  | .copy r => copyObject cfg r
  | .delete o bypass => deleteObject cfg o bypass

/-! ## 1. What a request holds after its calls -/

/-- The pieces a request means to name when it takes a reference: the piece of the row it has
looked up, or of the manifest it copies. -/
def claimed : History Call → List PieceAddr
  | [] => []
  | ⟨.indexLookup _, .ok e⟩ :: _ => [e.addr]
  | ⟨.indexRegister _, _⟩ :: _ => []
  | ⟨.manifestGet _, .ok m⟩ :: _ => m.addrs.take 1
  | _ :: h => claimed h

namespace Hold

/-- A reference into row `k`: a request that owns a piece has just lost a race for that row. -/
def takeRef (k : IndexKey) (as : List PieceAddr) : Option Hold → Option Hold
  | some (.own a) => some (.raced k a)
  | _ => some (.counted k as)

def seeRow (k : IndexKey) (e : ContentIndexEntry) : Option Hold → Option Hold
  | some (.counted k' []) => some (.counted k' (if k' = k then [e.addr] else []))
  | o => o

def giveRef (left : Int) : Option Hold → Option Hold
  | some (.counted k as) => if left = 0 then some (.last k as) else none
  | o => o

def dropRow : Option Hold → Option Hold
  | some (.last _ as) => some (.doomed as)
  | o => o

def dropPiece : Option Hold → Option Hold
  | some (.own _) => none
  | some (.raced k _) => some (.counted k [])
  | o => o

/-- The reference of a removed manifest passes to the request that had read it. -/
def takeOver (tenantID : String) : Option ObjectManifest → Option Hold → Option Hold
  | none, o => o
  | some m, o =>
    if m.contentHash = "" then o else some (.counted ⟨tenantID, m.contentHash⟩ m.addrs)

end Hold

def holdAfter (h : History Call) (o : Option Hold) {β : Type} (c : Call β) (b : β) : Option Hold :=
  match c, b with
  | .putPiece a _, .ok _ => some (.own a)
  | .copyPiece _ a, .ok _ => some (.own a)
  | .indexRegister e, .ok _ => some (.counted e.key [e.addr])
  | .indexIncrementRef k, .ok _ => Hold.takeRef k (claimed h) o
  | .indexLookup k, .ok e => Hold.seeRow k e o
  | .indexDecrementRef _, .ok n => Hold.giveRef n o
  | .indexDelete _, .ok _ => Hold.dropRow o
  | .deletePiece _, _ => Hold.dropPiece o
  | .manifestGet _, .ok m => if m.contentHash = "" then some (.doomed m.addrs) else none
  | .manifestDelete k, .ok _ => Hold.takeOver k.tenantID (lastRead h) o
  | .manifestPut _ _, .ok _ => none
  | _, _ => o

def holding : History Call → Option Hold
  | [] => none
  | ⟨c, b⟩ :: h => holdAfter h (holding h) c b

def sharingUndisturbed : Condition Call Choice World (Multiset Hold)
  | _, _, _, .putPiece a _, _, w, R => Fresh w R a
  | _, _, _, .copyPiece _ a, _, w, R => Fresh w R a
  | _, h, _, .indexIncrementRef k, _, w, _ =>
    ∀ e, w.index.rows.lookup k = some e → ∀ a ∈ claimed h, a ∈ e.addrs
  | _, h, _, .manifestDelete k, _, w, _ =>
    ∀ m, lastRead h = some m → m.contentHash ≠ "" → ∃ target s,
      w.manifests.resolve k = some target ∧ w.manifests.byKey.lookup target = some s ∧
        s.contentHash = m.contentHash ∧ s.addrs = m.addrs
  | _, _, _, _, _, _, _ => True

def puttingSpec : Spec Call where
  pre h c := match c with
    | .manifestPut k m => m.contentHash ≠ "" ∧
        ∃ as, holding h = some (.counted ⟨k.tenantID, m.contentHash⟩ as) ∧ ∀ a ∈ m.addrs, a ∈ as
    | .indexRegister e => e.pieceIDs = [] ∧ holding h = some (.own e.addr)
    | .indexDecrementRef k => ∃ as, holding h = some (.counted k as)
    | .deletePiece a => holding h = some (.own a) ∨ ∃ k, holding h = some (.raced k a)
    | .putPiece _ _ | .indexLookup _ | .indexIncrementRef _ => True
    | c => inspects c
  post _ c b := match c, b with
    | .putPiece a _, b => ∀ res, b = .ok res → res.pieceID = a.pieceID
    | _, _ => True

def sharingSpec : Spec Call where
  pre h c := match c with
    | .manifestPut k m =>
      (m.contentHash ≠ "" → ∃ as, holding h = some (.counted ⟨k.tenantID, m.contentHash⟩ as) ∧
        ∀ a ∈ m.addrs, a ∈ as) ∧
      (m.contentHash = "" → m.addrs = [] ∨ ∃ a, holding h = some (.own a) ∧ ∀ b ∈ m.addrs, b = a)
    | .indexRegister e => e.pieceIDs = [] ∧ holding h = some (.own e.addr)
    | .indexDecrementRef k => ∃ as, holding h = some (.counted k as)
    | .indexDelete k => ∃ as, holding h = some (.last k as)
    | .deletePiece a => holding h = some (.own a) ∨ (∃ k, holding h = some (.raced k a)) ∨
        ∃ as, holding h = some (.doomed as) ∧ a ∈ as
    | .putPiece _ _ | .copyPiece _ _ | .indexLookup _ | .indexIncrementRef _ | .manifestGet _
    | .manifestDelete _ => True
    | c => inspects c
  post h c b := match c, b with
    | .manifestDelete _, b => (∃ m, lastRead h = some m ∧ m.contentHash ≠ "") →
        b ≠ .error .manifestNotFound
    | .indexDecrementRef _, b => b ≠ .error .contentNotFound
    | .putPiece a _, b => ∀ res, b = .ok res → res.pieceID = a.pieceID
    | _, _ => True

variable {o : Option Hold} {β : Type} {k : IndexKey} {as : List PieceAddr} {e : ContentIndexEntry}
  {m : ObjectManifest}

/-! ## 2. Every permitted step keeps the invariant -/

section

variable {providers : String → Option Provider} {x : Choice} {w : World} {R : Multiset Hold}
  {h : History Call}

section

variable (hw : DedupInv w (inFlight o + R))
include hw

theorem DedupInv.dropPieceTried :
    DedupInv w (inFlight (Hold.dropPiece o) + R) := by
  rcases o with _ | t
  · exact hw
  cases t with
  | own a => simpa [Hold.dropPiece] using hw.rest
  | raced k a => exact DedupInv.raceGivenUp hw
  | _ => exact hw

omit hw in
/-- A call that fails changes nothing, except that a piece counts as given up once its deletion
has been tried. -/
theorem holding_failed {c : Call β} {b : β} (hb : World.failure c = some b)
    (hw : DedupInv w (inFlight (holding h) + R)) :
    DedupInv w (inFlight (holding (⟨c, b⟩ :: h)) + R) := by
  cases c with
  | deletePiece a => exact hw.dropPieceTried
  | _ =>
    first
    | obtain rfl := Option.some.inj hb
      exact hw
    | exact absurd hb (by simp [World.failure])

theorem DedupInv.takeRef (he : w.index.rows.lookup k = some e) (has : ∀ a ∈ as, a ∈ e.addrs) :
    DedupInv { w with index := w.index.set { e with refCount := e.refCount + 1 } }
      (inFlight (Hold.takeRef k as o) + R) := by
  cases o with
  | none => exact hw.rest.countedIn he has
  | some t =>
    cases t with
    | own a => exact DedupInv.racedIn hw he
    | _ => exact hw.rest.countedIn he has

theorem DedupInv.seeRow (he : w.index.rows.lookup k = some e) :
    DedupInv w (inFlight (Hold.seeRow k e o) + R) := by
  rcases o with _ | t
  · exact hw
  cases t with
  | counted k' as =>
    cases as with
    | nil =>
      by_cases hk : k' = k
      · simp only [Hold.seeRow, if_pos hk]
        rw [hk] at hw ⊢
        exact DedupInv.lookedUp hw he
      · simp only [Hold.seeRow, if_neg hk]
        exact hw
    | cons a as => exact hw
  | _ => exact hw

omit hw in
theorem DedupInv.giveRef
    (hw : DedupInv w (inFlight (some (.counted k as)) + R))
    (he : w.index.rows.lookup k = some e) (left : Int) :
    DedupInv { w with index := w.index.set { e with refCount := e.refCount - 1 } }
      (inFlight (Hold.giveRef left (some (.counted k as))) + R) := by
  have hlast := DedupInv.decremented hw he
  by_cases hleft : left = 0
  · simp only [Hold.giveRef, if_pos hleft]
    exact hlast
  · simp only [Hold.giveRef, if_neg hleft]
    exact hlast.anti (by simpa using Multiset.le_cons_self R _)

theorem DedupInv.takeOver {k target : ManifestKey} {s : ObjectManifest}
    {m : Option ObjectManifest}
    (htenant : target.tenantID = k.tenantID) (hs : w.manifests.byKey.lookup target = some s)
    (hsame : ∀ m', m = some m' → m'.contentHash ≠ "" →
      s.contentHash = m'.contentHash ∧ s.addrs = m'.addrs) :
    DedupInv { w with manifests := w.manifests.remove target }
      (inFlight (Hold.takeOver k.tenantID m o) + R) := by
  rcases m with _ | m'
  · exact hw.removeManifest hs
  by_cases hhash : m'.contentHash = ""
  · simp only [Hold.takeOver, if_pos hhash]
    exact hw.removeManifest hs
  simp only [Hold.takeOver, if_neg hhash]
  have hsame' := hsame m' rfl hhash
  rw [← hsame'.1] at hhash
  have hremoved := hw.rest.manifestRemoved hs hhash
  rw [htenant, hsame'.1, hsame'.2] at hremoved
  exact hremoved

end

theorem step_manifestDelete {k : ManifestKey}
    (hcond : ∀ m, lastRead h = some m → m.contentHash ≠ "" → ∃ target s,
      w.manifests.resolve k = some target ∧ w.manifests.byKey.lookup target = some s ∧
        s.contentHash = m.contentHash ∧ s.addrs = m.addrs)
    (hw : DedupInv w (inFlight (holding h) + R)) :
    ((∃ m, lastRead h = some m ∧ m.contentHash ≠ "") →
      (w.manifests.delete k).1 ≠ .error .manifestNotFound) ∧
    DedupInv (w.onManifests (w.manifests.delete k)).2
      (inFlight (holding (⟨.manifestDelete k, (w.manifests.delete k).1⟩ :: h)) + R) := by
  rcases w.manifests.delete_cases k with hnone | ⟨target, s, htarget, hs, hdel⟩
  · rw [hnone]
    refine ⟨?_, hw⟩
    -- a manifest with a content hash would have been found
    rintro ⟨m, hm, hhash⟩
    rcases hcond m hm hhash with ⟨target, s, htarget, hs, -⟩
    have hok : (w.manifests.delete k).1 = .ok () := by
      simp only [ManifestStore.delete, htarget, hs]
    rw [hnone] at hok
    exact absurd hok (by simp)
  · rw [hdel]
    refine ⟨fun _ => by simp, ?_⟩
    have htenant : target.tenantID = k.tenantID :=
      congrArg LatestKey.tenantID (ManifestStore.resolve_latestKey htarget)
    apply DedupInv.takeOver hw htenant hs
    intro m hm hhash
    rcases hcond m hm hhash with ⟨target', s', htarget', hs', hsame⟩
    rw [htarget] at htarget'
    rw [← Option.some.inj htarget', hs] at hs'
    rw [← Option.some.inj hs'] at hsame
    exact hsame

theorem step_deletePiece {a : PieceAddr} (hpre : sharingSpec.pre h (.deletePiece a))
    (hw : DedupInv w (inFlight (holding h) + R)) :
    DedupInv (w.deletePiece a) (inFlight (Hold.dropPiece (holding h)) + R) := by
  rcases hpre with hown | ⟨k, hraced⟩ | ⟨as, hdoomed, ha⟩
  · rw [hown] at hw ⊢
    simp only [Hold.dropPiece, inFlight_none, zero_add]
    exact DedupInv.ownDeleted hw
  · rw [hraced] at hw ⊢
    exact DedupInv.racedDeleted hw
  · rw [hdoomed] at hw ⊢
    exact DedupInv.pieceDeleted hw ha

theorem step_manifestPut {k : ManifestKey}
    (hpre : sharingSpec.pre h (.manifestPut k m)) (hw : DedupInv w (inFlight (holding h) + R)) :
    DedupInv { w with manifests := w.manifests.put k m } R := by
  by_cases hhash : m.contentHash = ""
  · rcases hpre.2 hhash with hnone | ⟨a, hown, has⟩
    · exact hw.rest.markerStored hhash hnone
    · rw [hown] at hw
      exact DedupInv.plainStored hw hhash has
  · rcases hpre.1 hhash with ⟨as, hcounted, has⟩
    rw [hcounted] at hw
    exact DedupInv.manifestStored hw hhash has

theorem step_decrementRef (hpre : sharingSpec.pre h (.indexDecrementRef k))
    (hw : DedupInv w (inFlight (holding h) + R)) :
    (w.index.decrementRef k).1 ≠ .error .contentNotFound ∧
    DedupInv (w.onIndex (w.index.decrementRef k)).2
      (inFlight (holding (⟨.indexDecrementRef k, (w.index.decrementRef k).1⟩ :: h)) + R) := by
  rcases hpre with ⟨as, hcounted⟩
  have hholding : ∀ b, holding (⟨.indexDecrementRef k, b⟩ :: h) =
      holdAfter h (some (.counted k as)) (.indexDecrementRef k) b := by
    intro b
    rw [holding, hcounted]
  rw [hholding]
  rw [hcounted] at hw
  rcases w.index.decrementRef_cases k with ⟨hnone, -⟩ | ⟨e, he, hzero, hdec⟩ | ⟨e, he, -, hdec⟩
  · -- the reference in hand is on a row
    rcases hw.valid (.counted k as) (by simp) with ⟨e, he, -⟩
    rw [hnone] at he
    exact absurd he (by simp)
  · rw [hdec]
    exact ⟨by simp, hw⟩
  · rw [hdec]
    exact ⟨by simp, hw.giveRef he (e.refCount - 1)⟩

theorem step_indexDelete (hpre : sharingSpec.pre h (.indexDelete k))
    (hw : DedupInv w (inFlight (holding h) + R)) :
    DedupInv (w.onIndex (w.index.delete k)).2
      (inFlight (holding (⟨.indexDelete k, (w.index.delete k).1⟩ :: h)) + R) := by
  rcases hpre with ⟨as, hlast⟩
  rcases w.index.delete_cases k with ⟨-, hdel⟩ | ⟨e, -, -, hdel⟩ | ⟨e, he, hzero, hdel⟩
  · rw [hdel]
    exact hw
  · rw [hdel]
    exact hw
  · rw [hdel]
    have hgone : holding (⟨.indexDelete k, .ok ()⟩ :: h) = some (.doomed as) := by
      change Hold.dropRow (holding h) = _
      rw [hlast]
      rfl
    rw [hgone]
    rw [hlast] at hw
    exact DedupInv.rowDeleted hw he hzero

theorem step_register (hpre : sharingSpec.pre h (.indexRegister e))
    (hw : DedupInv w (inFlight (holding h) + R)) :
    DedupInv (w.onIndex (w.index.register e)).2
      (inFlight (holding (⟨.indexRegister e, (w.index.register e).1⟩ :: h)) + R) := by
  rcases w.index.register_cases e with ⟨-, hreg⟩ | ⟨hnone, hreg⟩
  · rw [hreg]
    exact hw
  rw [hreg]
  rw [hpre.2] at hw
  apply DedupInv.published (e := { e with refCount := if e.refCount ≤ 0 then 1 else e.refCount })
    hw hpre.1 hnone
  change 1 ≤ if e.refCount ≤ 0 then 1 else e.refCount
  split <;> omega

theorem step_written {a : PieceAddr} {body : Bytes} (hfresh : Fresh w R a)
    (hw : DedupInv w (inFlight (holding h) + R)) {r : Except StoreError PutResult × World}
    (hr : r = w.putPiece providers a body) :
    DedupInv r.2 (inFlight (match r.1 with
      | .ok _ => some (.own a)
      | .error _ => holding h) + R) := by
  rw [hr, World.putPiece]
  cases providers a.backend with
  | none => exact hw
  | some p => exact hw.rest.written hfresh body

theorem sharing_step (i : Nat) (c : Call β) (hpre : sharingSpec.pre h c)
    (hw : DedupInv w (inFlight (holding h) + R)) (hcond : sharingUndisturbed i h c x w R) :
    sharingSpec.post h c (World.exec providers x c w).1 ∧
      DedupInv (World.exec providers x c w).2
        (inFlight (holding (⟨c, (World.exec providers x c w).1⟩ :: h)) + R) := by
  cases c with
  | manifestPut k m =>
    refine ⟨trivial, ?_⟩
    change DedupInv _ (inFlight none + R)
    rw [inFlight_none, zero_add]
    exact step_manifestPut hpre hw
  | manifestDelete k => exact step_manifestDelete hcond hw
  | manifestGet k =>
    refine ⟨trivial, ?_⟩
    simp only [World.exec]
    rcases hget : w.manifests.get k with e | m
    · exact hw
    rcases ManifestStore.get_eq_ok hget with ⟨target, -, hm⟩
    change DedupInv w (inFlight (if m.contentHash = "" then some (.doomed m.addrs) else none) + R)
    by_cases hhash : m.contentHash = ""
    · rw [if_pos hhash]
      exact hw.rest.readPlain hm hhash
    · rw [if_neg hhash, inFlight_none, zero_add]
      exact hw.rest
  | indexLookup k =>
    refine ⟨trivial, ?_⟩
    simp only [World.exec]
    cases hlook : w.index.lookup k with
    | error e => exact hw
    | ok e => exact hw.seeRow (ContentIndex.lookup_eq_ok.mp hlook)
  | indexRegister e => exact ⟨trivial, step_register hpre hw⟩
  | indexIncrementRef k =>
    refine ⟨trivial, ?_⟩
    simp only [World.exec]
    rcases w.index.incrementRef_cases k with ⟨-, hinc⟩ | ⟨e, he, hinc⟩
    · rw [hinc]
      exact hw
    · rw [hinc]
      exact hw.takeRef he (hcond e he)
  | indexDecrementRef k => exact step_decrementRef hpre hw
  | indexDelete k => exact ⟨trivial, step_indexDelete hpre hw⟩
  | putPiece a body =>
    refine ⟨fun res hres => World.putPiece_pieceID hres, ?_⟩
    have hstep := step_written hcond hw (rfl : _ = w.putPiece providers a body)
    simp only [World.exec]
    cases hr : (w.putPiece providers a body).1 with
    | error e => rwa [hr] at hstep
    | ok res => rwa [hr] at hstep
  | copyPiece src a =>
    refine ⟨trivial, ?_⟩
    simp only [World.exec]
    rcases w.getPiece src with e | body
    · exact hw
    have hstep := step_written hcond hw (rfl : _ = w.putPiece providers a body)
    cases hr : (w.putPiece providers a body).1 with
    | error e =>
      simp only [hr] at hstep ⊢
      exact hstep
    | ok res =>
      simp only [hr] at hstep ⊢
      exact hstep
  | deletePiece a => exact ⟨trivial, step_deletePiece hpre hw⟩
  | now | getVersioning | getObjectLock | getEncryption | legalHoldActive
  | getPiece => exact ⟨trivial, hw⟩
  | _ => exact absurd hpre (by simp [sharingSpec, inspects])

end

def sharingProtocol : Protocol Call World Choice (Multiset Hold) where
  held h := inFlight (holding h)
  inv := DedupInv
  cond := sharingUndisturbed
  spec _ := sharingSpec

theorem sharingProtocol_sound (providers : String → Option Provider) :
    sharingProtocol.Sound (machine providers) := by
  constructor
  · intro β i h c x w R hpre hw hcond
    rcases machine_exec providers x c w with hexec | ⟨b, hb, hexec⟩
    · rw [hexec]
      exact sharing_step i c hpre hw hcond
    rw [hexec]
    refine ⟨?_, holding_failed hb hw⟩
    cases c with
    | manifestDelete k =>
      obtain rfl := Option.some.inj hb
      exact fun _ => by simp
    | indexDecrementRef k =>
      obtain rfl := Option.some.inj hb
      exact fun heq => absurd (Except.error.inj heq) (by decide)
    | putPiece a body =>
      obtain rfl := Option.some.inj hb
      exact fun res hres => absurd hres (by simp)
    | _ => trivial
  · exact fun w r R hw => hw.anti (Multiset.le_add_left R r)

variable {c : DedupContent} {α : Type} {r : PutRequest} {mode : EncryptionMode} {backend : String}

/-! ## 3. The handlers keep to it -/

section

variable {cfg : Config} {h : History Call}

structure SameHands (h h' : History Call) : Prop where
  holding : holding h' = holding h
  claimed : claimed h' = claimed h
  lastRead : lastRead h' = lastRead h

theorem SameHands.refl (h : History Call) : SameHands h h := ⟨rfl, rfl, rfl⟩

theorem SameHands.inspect {h' : History Call} {c : Call β} (hh : SameHands h h')
    (hc : inspects c) (b : β) : SameHands h (⟨c, b⟩ :: h') := by
  cases c with
  | now | getVersioning | getObjectLock | getEncryption | legalHoldActive
  | getPiece => exact ⟨hh.holding, hh.claimed, hh.lastRead⟩
  | _ => exact hc.elim

theorem sharingSpec_consults {c : Call β} (hc : consults c) : sharingSpec.pre h c := by
  cases c with
  | manifestGet | now | getVersioning | getObjectLock | getEncryption | legalHoldActive
  | getPiece => trivial
  | _ => exact hc.elim

theorem inspecting_conforms {p : Proc Call α} (hp : p.Only inspects) :
    p.Conforms sharingSpec (fun h' _ => SameHands h h') h := by
  apply hp.conforms (R := SameHands h) _ (SameHands.refl h)
  exact fun h' β c hc hh => ⟨sharingSpec_consults (consults_of_inspects hc), hh.inspect hc⟩

theorem consulting_conforms {p : Proc Call α} (hp : p.Only consults) :
    p.Follows sharingSpec h := by
  apply hp.conforms (R := fun _ => True) _ trivial
  exact fun h' β c hc _ => ⟨sharingSpec_consults hc, fun _ => trivial⟩

theorem persist_conforms {S : Spec Call} {rollback : Proc Call Unit}
    {stored : ObjectManifest → Handler} {t : Hold}
    (hS : ∀ (h : History Call) {β : Type} (c : Call β), inspects c → S.pre h c)
    (hhold : holding h = some t)
    (hroll : ∀ h', holding h' = some t → rollback.Follows S h')
    (hput : ∀ h' m', holding h' = some t → Stamped m m' → S.pre h' (.manifestPut m'.key m'))
    (hstored : ∀ m' h', (stored m').Follows S h') :
    (persistManifest cfg m rollback stored).Follows S h := by
  apply persistManifest_conforms (H := fun h' => holding h' = some t) hhold
  · intro h' β c hc hh'
    refine ⟨hS h' c hc, fun b => ?_⟩
    exact ((SameHands.refl h').inspect hc b).holding.trans hh'
  · exact fun _ _ _ => trivial
  · exact hroll
  · exact fun h' m' hh' hm' => ⟨hput h' m' hh' hm', fun _ => hh', hstored _ _⟩

/-! ### Deduplicated PUTs -/

theorem formatContentHash_ne (s : String) : Config.formatContentHash s ≠ "" := by
  intro hempty
  have hlen := congrArg String.length hempty
  simp [Config.formatContentHash, String.length_append] at hlen

theorem dedupContent_hash
    (hc : dedupContent cfg r mode = .ok c) : c.contentHash ≠ "" := by
  have hB : ∀ mode, patternBContent cfg r mode = .ok c → c.contentHash ≠ "" := by
    intro mode hc
    unfold patternBContent at hc
    rcases henc : cfg.encryption with _ | enc
    · simp [henc] at hc
    simp only [henc] at hc
    rcases hdek : cfg.deriveConvergentDEK (cfg.blake3 r.body) r.tenantID with e | dek
    · simp [hdek, bind, Except.bind, Except.mapError] at hc
    rcases hct : cfg.encryptConvergent dek r.body with e | ciphertext
    · simp [hdek, hct, bind, Except.bind, Except.mapError] at hc
    cases hwrap : enc.wrapDEK r.entropy dek with
    | error e => simp [hdek, hct, hwrap, bind, Except.bind, Except.mapError] at hc
    | ok wrapped =>
      simp only [hdek, hct, hwrap, bind, Except.bind, Except.mapError] at hc
      rw [← Except.ok.inj hc]
      exact formatContentHash_ne _
  cases mode with
  | managed | publicDistribution => exact hB _ hc
  | clientSide =>
    rw [← Except.ok.inj hc]
    exact formatContentHash_ne _
  | unset | other => simp [dedupContent] at hc

theorem puttingSpec_inspects {c : Call β} (hc : inspects c) : puttingSpec.pre h c := by
  cases c with
  | now | getVersioning | getObjectLock | getEncryption | legalHoldActive | getPiece => trivial
  | _ => exact hc.elim

theorem putDedupedManifest_conforms {policy : PlacementPolicy}
    {p : DedupPiece} (hhash : c.contentHash ≠ "")
    (hhold : holding h = some (.counted ⟨r.tenantID, c.contentHash⟩ [⟨p.backend, p.pieceID⟩])) :
    (putDedupedManifest cfg r policy c p).Follows puttingSpec h := by
  refine ⟨trivial, fun now _ => ⟨trivial, fun createdAt _ => ?_⟩⟩
  have hhold' : holding (⟨.now, createdAt⟩ :: ⟨.now, now⟩ :: h) =
      some (.counted ⟨r.tenantID, c.contentHash⟩ [⟨p.backend, p.pieceID⟩]) := hhold
  apply persist_conforms (fun _ _ _ hc => puttingSpec_inspects hc) hhold'
  · exact fun h' hh' => ⟨⟨_, hh'⟩, fun _ _ => trivial⟩
  · rintro h' m' hh' ⟨ret, rfl⟩
    exact ⟨hhash, _, hh', fun a ha => ha⟩
  · exact fun _ _ => trivial

theorem putDedupedMiss_conforms {policy : PlacementPolicy}
    (hhash : c.contentHash ≠ "") :
    (putDedupedMiss cfg r backend policy c).Follows puttingSpec h := by
  refine ⟨trivial, fun now _ => ⟨trivial, fun b hb => ?_⟩⟩
  rcases b with e | res
  · trivial
  have hid : res.pieceID = cfg.newPieceID r.tenantID r.bucket r.key now := hb res rfl
  rw [← hid]
  -- the piece just written is the request's own
  refine ⟨⟨rfl, rfl⟩, fun registered _ => ?_⟩
  cases registered with
  | ok u => exact putDedupedManifest_conforms hhash rfl
  | error e => ?_
  cases e with
  | alreadyExists =>
    refine ⟨trivial, fun counted _ => ?_⟩
    rcases counted with e | u
    · exact ⟨Or.inl rfl, fun _ _ => trivial⟩
    refine ⟨Or.inr ⟨_, rfl⟩, fun deleted _ => ⟨trivial, fun found _ => ?_⟩⟩
    rcases found with e | canonical
    · exact ⟨⟨_, rfl⟩, fun _ _ => trivial⟩
    apply putDedupedManifest_conforms hhash
    let k : IndexKey := ⟨r.tenantID, c.contentHash⟩
    change some (Hold.counted k (if k = k then [canonical.addr] else [])) = _
    rw [if_pos rfl]
    rfl
  | _ => exact ⟨Or.inl rfl, fun _ _ => trivial⟩

theorem putDeduped_conforms (r : PutRequest) (backend : String) (policy : PlacementPolicy) :
    (putDeduped cfg r backend policy).Follows puttingSpec [] := by
  unfold putDeduped
  simp only
  split
  · trivial
  split
  · trivial
  rename_i c hc
  have hhash := dedupContent_hash hc
  refine ⟨trivial, fun found _ => ?_⟩
  rcases found with e | existing
  · cases e with
    | contentNotFound => exact putDedupedMiss_conforms hhash
    | _ => trivial
  refine ⟨trivial, fun counted _ => ?_⟩
  cases counted with
  | error e => trivial
  | ok u => exact putDedupedManifest_conforms hhash rfl

theorem sharing_of_putting {p : Proc Call α}
    (hp : p.Follows puttingSpec h) :
    p.Follows sharingSpec h := by
  apply hp.weaken
  · intro h' β c hpre
    cases c with
    | manifestPut k m => exact ⟨fun _ => hpre.2, fun hempty => absurd hempty hpre.1⟩
    | deletePiece a => exact hpre.imp id Or.inl
    | manifestDelete | indexDelete => exact hpre.elim
    | manifestGet | copyPiece => trivial
    | _ => exact hpre
  · intro h' β c b hpost
    cases c with
    | putPiece a body => exact hpost
    | _ => trivial

/-! ### Copies -/

variable {r : CopyRequest} {src : ObjectManifest} {p : Piece}

theorem writeSharedCopy_conforms (hhash : src.contentHash ≠ "")
    (hhold : holding h = some (.counted ⟨r.tenantID, src.contentHash⟩ [p.addr])) :
    (writeCopyManifest cfg r src p p.backend src.encryption true).Follows sharingSpec h := by
  refine ⟨trivial, fun createdAt _ => ?_⟩
  have hhold' : holding (⟨.now, createdAt⟩ :: h) =
      some (.counted ⟨r.tenantID, src.contentHash⟩ [p.addr]) := hhold
  apply persist_conforms (fun _ _ _ hc => sharingSpec_consults (consults_of_inspects hc)) hhold'
  · intro h' hh'
    unfold rollbackCopyPiece
    simp only [Bool.not_true, Bool.false_eq_true, if_false]
    split
    · exact ⟨⟨_, hh'⟩, fun _ _ => trivial⟩
    · trivial
  · rintro h' m' hh' ⟨ret, rfl⟩
    exact ⟨fun _ => ⟨_, hh', fun a ha => ha⟩, fun hempty => absurd hempty hhash⟩
  · exact fun _ _ => ⟨trivial, fun _ _ => trivial⟩

theorem writeOwnCopy_conforms {enc : EncryptionConfig}
    (hhold : holding h = some (.own ⟨backend, p.pieceID⟩)) (hbackend : p.backend = backend) :
    (writeCopyManifest cfg r src p backend enc false).Follows sharingSpec h := by
  refine ⟨trivial, fun createdAt _ => ?_⟩
  have hhold' : holding (⟨.now, createdAt⟩ :: h) = some (.own ⟨backend, p.pieceID⟩) := hhold
  apply persist_conforms (fun _ _ _ hc => sharingSpec_consults (consults_of_inspects hc)) hhold'
  · intro h' hh'
    unfold rollbackCopyPiece
    simp only [Bool.not_false, if_true]
    split
    · exact ⟨Or.inl hh', fun _ _ => trivial⟩
    · trivial
  · rintro h' m' hh' ⟨ret, rfl⟩
    refine ⟨fun hne => absurd rfl hne, fun _ => Or.inr ⟨_, hh', fun b hb => ?_⟩⟩
    rw [← hbackend]
    exact List.mem_singleton.mp hb
  · exact fun _ _ => ⟨trivial, fun _ _ => trivial⟩

theorem storeReencryptedCopy_conforms {plaintext : Bytes}
    {manifestEncrypted : Bool} :
    (storeReencryptedCopy cfg r src backend plaintext mode manifestEncrypted).Follows sharingSpec h := by
  refine ⟨trivial, fun now _ => ?_⟩
  simp only [Proc.ret_bind]
  split
  · trivial
  refine ⟨trivial, fun b _ => ?_⟩
  cases b with
  | error e => trivial
  | ok res => exact writeOwnCopy_conforms rfl rfl

theorem storeVerbatimCopy_conforms {content : Bytes} {enc : EncryptionConfig} :
    (storeVerbatimCopy cfg r src backend content enc).Follows sharingSpec h := by
  refine ⟨trivial, fun now _ => ⟨trivial, fun b _ => ?_⟩⟩
  cases b with
  | error e => trivial
  | ok res => exact writeOwnCopy_conforms rfl rfl

theorem copyVerbatim_conforms {serverSideCopy : Bool} :
    (copyVerbatim cfg r src p serverSideCopy).Follows sharingSpec h := by
  refine ⟨trivial, fun now _ => ?_⟩
  cases serverSideCopy with
  | true =>
    refine ⟨trivial, fun b _ => ?_⟩
    cases b with
    | error e => trivial
    | ok res => exact writeOwnCopy_conforms rfl rfl
  | false => ?_
  refine ⟨trivial, fun body _ => ?_⟩
  rcases body with e | body
  · trivial
  refine ⟨trivial, fun b _ => ?_⟩
  cases b with
  | error e => trivial
  | ok res => exact writeOwnCopy_conforms rfl rfl

/-- `h` ends with the read of the source, and nothing is in hand but what it says. -/
structure ReadSource (src : ObjectManifest) (p : Piece) (h : History Call) : Prop where
  empty : src.contentHash ≠ "" → holding h = none
  first : claimed h = [p.addr]

theorem ReadSource.same {h' : History Call} (hsrc : ReadSource src p h) (hh : SameHands h h') :
    ReadSource src p h' := by
  constructor
  · intro hhash
    rw [hh.holding, hsrc.empty hhash]
  · rw [hh.claimed, hsrc.first]

theorem copyShared_conforms {serverSideCopy : Bool} (hsrc : ReadSource src p h) :
    (copyShared cfg r src p serverSideCopy).Follows sharingSpec h := by
  unfold copyShared
  split
  · rename_i hshared
    refine ⟨trivial, fun b _ => ?_⟩
    rcases b with e | u
    · cases e with
      | contentNotFound => exact copyVerbatim_conforms
      | _ => trivial
    apply writeSharedCopy_conforms hshared.1
    change Hold.takeRef _ (claimed h) (holding h) = _
    rw [hsrc.first, hsrc.empty hshared.1]
    rfl
  · exact copyVerbatim_conforms

theorem copyReencrypt_conforms :
    (copyReencrypt cfg r src p).Follows sharingSpec h := by
  unfold copyReencrypt
  split
  · trivial
  split
  · trivial
  refine ⟨trivial, fun b _ => ?_⟩
  rcases b with e | ciphertext
  · trivial
  simp only [Proc.ret_bind]
  split
  · trivial
  · split
    · trivial
    · exact storeReencryptedCopy_conforms

theorem copyEncryptForDefault_conforms :
    (copyEncryptForDefault cfg r src p mode).Follows sharingSpec h := by
  unfold copyEncryptForDefault
  split
  · trivial
  split
  · trivial
  refine ⟨trivial, fun b _ => ?_⟩
  rcases b with e | plaintext
  · trivial
  simp only [Proc.ret_bind]
  split
  · trivial
  · exact storeReencryptedCopy_conforms

theorem copySinglePiece_conforms (hsrc : ReadSource src p h) :
    (copySinglePiece cfg r src p).Follows sharingSpec h := by
  unfold copySinglePiece
  split
  · trivial
  split
  · exact copyReencrypt_conforms
  split
  · apply (inspecting_conforms (cfg.effectiveEncryptionMode_only _ _ _)).seq
    intro h' mode hh'
    rcases mode with message | mode
    · trivial
    simp only
    split
    · exact copyEncryptForDefault_conforms
    · exact copyShared_conforms (hsrc.same hh')
  · exact copyShared_conforms hsrc

theorem copyReconstructedSource_conforms :
    (copyReconstructedSource cfg r src).Follows sharingSpec h := by
  unfold copyReconstructedSource
  split
  · trivial
  apply (inspecting_conforms (reconstructSource_only cfg src)).seq
  intro h' content _
  rcases content with response | content
  · trivial
  simp only
  split
  · trivial
  split
  · exact storeReencryptedCopy_conforms
  split
  · apply (inspecting_conforms (cfg.effectiveEncryptionMode_only _ _ _)).seq
    intro h'' mode _
    rcases mode with message | mode
    · trivial
    simp only
    split
    · exact storeReencryptedCopy_conforms
    · exact storeVerbatimCopy_conforms
  · exact storeVerbatimCopy_conforms

theorem copyObject_conforms (r : CopyRequest) :
    (copyObject cfg r).Follows sharingSpec [] := by
  unfold copyObject
  split
  · trivial
  apply (consulting_conforms (allowObjectLockOverwrite_only cfg _ _)).seq
  intro h' refused _
  cases refused with
  | some response => trivial
  | none => ?_
  simp only
  split
  · trivial
  refine ⟨trivial, fun b _ => ?_⟩
  rcases b with e | src
  · cases e <;> trivial
  simp only [Proc.ret_bind, copyFrom]
  split
  · split <;> trivial
  split
  · trivial
  rename_i p ps hpieces
  split
  · trivial
  split
  · trivial
  · trivial
  · split
    · exact copyReconstructedSource_conforms
    apply copySinglePiece_conforms
    constructor
    · exact fun hhash => if_neg hhash
    · change src.addrs.take 1 = _
      rw [ObjectManifest.addrs, hpieces]
      rfl

/-! ### Removals -/

theorem deletePieces_conforms {ps : List Piece}
    (hhold : holding h = some (.doomed as)) (hps : ∀ p ∈ ps, p.addr ∈ as) :
    (deletePiecesBestEffort cfg ps).Follows sharingSpec h := by
  induction ps generalizing h with
  | nil => trivial
  | cons p ps ih => ?_
  have htail : ∀ q ∈ ps, q.addr ∈ as := fun q hq => hps q (List.mem_cons_of_mem p hq)
  unfold deletePiecesBestEffort
  split
  · refine ⟨Or.inr (Or.inr ⟨as, hhold, hps p List.mem_cons_self⟩), fun b _ => ?_⟩
    apply ih _ htail
    change Hold.dropPiece (holding h) = _
    rw [hhold]
    rfl
  · exact ih hhold htail

section

variable (hidx : cfg.hasContentIndex = true)
include hidx

theorem releasePieces_conforms {tenantID : String} (hhashed : m.contentHash ≠ "" →
      holding h = some (.counted ⟨tenantID, m.contentHash⟩ m.addrs))
    (hplain : m.contentHash = "" → holding h = some (.doomed m.addrs)) :
    (releasePieces cfg tenantID m).Follows sharingSpec h := by
  have hpieces : ∀ h', holding h' = some (.doomed m.addrs) →
      ((deletePiecesBestEffort cfg m.pieces).bind fun _ =>
        Proc.ret (none : Option Response)).Follows sharingSpec h' := by
    intro h' hh'
    apply Proc.Conforms.bind
    exact deletePieces_conforms hh' fun p hp => List.mem_map_of_mem hp
  unfold releasePieces giveBack
  by_cases hhash : m.contentHash = ""
  · rw [if_pos (Or.inl hhash)]
    exact hpieces h (hplain hhash)
  rw [if_neg (by simp [hhash, hidx])]
  have hhold := hhashed hhash
  refine ⟨⟨_, hhold⟩, fun counted hcounted => ?_⟩
  rcases counted with e | n
  · cases e with
    | contentNotFound => exact absurd rfl hcounted
    | _ => trivial
  simp only [Proc.ret_bind]
  by_cases hn : n = 0
  · rw [if_pos hn]
    have hlast : holding (⟨.indexDecrementRef ⟨tenantID, m.contentHash⟩, .ok n⟩ :: h) =
        some (.last ⟨tenantID, m.contentHash⟩ m.addrs) := by
      change Hold.giveRef n (holding h) = _
      rw [hhold, Hold.giveRef, if_pos hn]
    refine ⟨⟨_, hlast⟩, fun dropped _ => ?_⟩
    rcases dropped with e | u
    · cases e <;> trivial
    apply hpieces
    change Hold.dropRow (holding _) = _
    rw [hlast]
    rfl
  · rw [if_neg hn]
    trivial

theorem deleteVersion_sharing {o : ObjectRef} {bypass : Bool} :
    (deleteVersion cfg o bypass).Follows sharingSpec h := by
  refine deleteVersion_follows trivial (fun _ => trivial) fun m now _ _ => ?_
  refine ⟨trivial, fun removed hremoved hgone => ?_⟩
  have hplain : m.contentHash = "" →
      holding (⟨.now, now⟩ :: ⟨.manifestGet (o.manifestKey cfg), .ok m⟩ :: h) =
        some (.doomed m.addrs) := fun hempty => if_pos hempty
  rcases hgone with rfl | rfl
  · refine releasePieces_conforms hidx (fun hhash => if_neg hhash) fun hempty => ?_
    change (if m.contentHash = "" then _ else _) = _
    rw [if_pos hempty]
    exact hplain hempty
  · exact releasePieces_conforms hidx (fun hhash => absurd rfl (hremoved ⟨m, rfl, hhash⟩)) hplain

theorem deleteObject_sharing (o : ObjectRef) (bypass : Bool) :
    (deleteObject cfg o bypass).Follows sharingSpec [] := by
  refine deleteObject_follows trivial (fun _ => trivial) (fun h _ _ => ?_)
    fun h _ => deleteVersion_sharing hidx
  refine ⟨trivial, fun now _ => ⟨trivial, fun createdAt _ => ?_⟩⟩
  refine ⟨⟨fun hne => absurd rfl hne, fun _ => Or.inl rfl⟩, fun b _ => ?_⟩
  cases b <;> trivial

end

end

/-! ## 4. Runs -/

/-- The bytes of every piece that a manifest with a content hash names are stored. -/
def SharedPiecesStored (w : World) : Prop :=
  ∀ mk m, w.manifests.byKey.lookup mk = some m → m.contentHash ≠ "" →
    ∀ p ∈ m.pieces, (w.pieces.lookup p.addr).isSome = true

variable {w : World}

theorem DedupInv.sharedPiecesStored {T : Multiset Hold} (hw : DedupInv w T) :
    SharedPiecesStored w := by
  intro mk m hm hhash p hp
  rcases hw.hashed mk m hm hhash with ⟨e, he, haddrs⟩
  exact hw.backed _ p.addr ⟨e, he, haddrs p.addr (List.mem_map_of_mem hp)⟩

theorem not_sharedPiecesStored (mk : ManifestKey)
    (h : (w.manifests.byKey.lookup mk).any (fun m => m.contentHash ≠ "" &&
      m.pieces.any fun p => (w.pieces.lookup p.addr).isNone) = true) :
    ¬ SharedPiecesStored w := by
  intro hstored
  rcases hm : w.manifests.byKey.lookup mk with _ | m
  · simp [hm] at h
  simp only [hm, Option.any_some, Bool.and_eq_true, List.any_eq_true, decide_eq_true_eq] at h
  rcases h with ⟨hhash, p, hp, hnone⟩
  have hsome := hstored mk m hm hhash p hp
  rw [Option.isNone_iff_eq_none.mp hnone] at hsome
  exact absurd hsome (by decide)

def sharingPool (cfg : Config) (w : World) (reqs : List SharingRequest) : Pool Call Response World :=
  Pool.start w (reqs.map (SharingRequest.handle cfg))

theorem sharingPool_good {cfg : Config} (hidx : cfg.hasContentIndex = true)
    (hw : DedupInv w 0) (reqs : List SharingRequest) :
    sharingProtocol.Good (fun _ _ _ => True) (sharingPool cfg w reqs) := by
  apply Protocol.good_start rfl hw
  intro i p hp
  rw [List.getElem?_map, Option.map_eq_some_iff] at hp
  rcases hp with ⟨r, -, rfl⟩
  cases r with
  | put r backend policy => exact sharing_of_putting (putDeduped_conforms r backend policy)
  | copy r => exact copyObject_conforms r
  | delete o bypass => exact deleteObject_sharing hidx o bypass

/-- Any number of deduplicated PUTs, copies and DELETEs, in any interleaving and with any calls
failing: as long as every step meets its condition, no manifest loses a piece. -/
theorem shared_pieces_kept_of_undisturbed (cfg : Config) (hidx : cfg.hasContentIndex = true)
    (w : World) (hw : DedupInv w 0) (reqs : List SharingRequest) (mvs : List (Nat × Choice))
    (hmvs : (sharingPool cfg w reqs).Meets sharingProtocol.held (machine cfg.providers)
      sharingUndisturbed mvs) :
    SharedPiecesStored ((sharingPool cfg w reqs).run (machine cfg.providers) mvs).shared :=
  ((sharingProtocol_sound cfg.providers).run (sharingPool_good hidx hw reqs)
    hmvs).inv.sharedPiecesStored

/-- Two PUTs of one content, and two DELETEs of the version the first PUT makes. -/
def sharingRequests : List SharingRequest :=
  let v1 := "3505da939d0acad72ce179ea469d2c69f94b5a6c4b01464e0deac7b112b0f088"
  [.put samplePut "backend" dedupPolicy, .put samplePut "backend" dedupPolicy,
    .delete ⟨"tenant", "bucket", "key", v1⟩ false, .delete ⟨"tenant", "bucket", "key", v1⟩ false]

theorem dedupInv_empty : DedupInv ({} : World) 0 := by
  constructor <;> simp [World.RowNames]

/-- The first PUT writes and registers at the readings 0 and 1; the second finds the row. -/
def twoPuts : List (Nat × Choice) :=
  (List.replicate 4 (0, sampleClock 0) ++ List.replicate 4 (0, sampleClock 1)) ++
    List.replicate 6 (1, sampleClock 2)

theorem shared_pieces_kept_two_puts :
    let w := ((sharingPool sampleGateway {} sharingRequests).run (machine sampleGateway.providers)
      twoPuts).shared
    w.references ⟨"tenant",
      "blake3:17762fddd969a453925d65717ac3eea21320b66b54342fde15128d6caf21215f"⟩ = 2 ∧ SharedPiecesStored w := by
  refine ⟨by decide, shared_pieces_kept_of_undisturbed sampleGateway rfl {} dedupInv_empty
    sharingRequests twoPuts ?_⟩
  have hfresh : Fresh ({} : World) 0 ⟨"backend",
      "496f2c1e6f3c276d2ff1d54b6f98ce9a6db83f762717accce163b4839d93e222"⟩ := by
    refine ⟨⟨?_, ?_⟩, ?_⟩ <;> simp [World.RowNames]
  refine ⟨trivial, trivial, hfresh, trivial, trivial, trivial, trivial, trivial, trivial, ?_,
    trivial, trivial, trivial, trivial, trivial⟩
  -- the second PUT takes its reference on the row it has looked up
  intro e he a ha
  have hrow : _ = e := Option.some.inj he
  rw [← hrow]
  exact ha

/-- Both DELETEs read the version before either removes it, and each gives back a reference: the
piece goes although the second PUT's manifest names it. -/
def crossingDeletes : List (Nat × Choice) :=
  twoPuts ++ List.replicate 4 (2, sampleClock 3) ++ List.replicate 4 (3, sampleClock 3) ++
    List.replicate 2 (2, sampleClock 3) ++ List.replicate 4 (3, sampleClock 3)

theorem shared_piece_lost :
    ¬ SharedPiecesStored ((sharingPool sampleGateway {} sharingRequests).run
      (machine sampleGateway.providers) crossingDeletes).shared :=
  not_sharedPiecesStored
    (sampleKey "0d0e319ff6d0435e683f762973fcbdb2c24046636ea774f73bfb5306741061fa") (by decide +kernel)

end ObjectFabric
