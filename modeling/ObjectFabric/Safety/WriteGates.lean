import ObjectFabric.Gateway.BucketSettings
import ObjectFabric.Gateway.Calls
import ObjectFabric.Gateway.Complete
import ObjectFabric.Gateway.Copy
import ObjectFabric.Gateway.StoreMachine
import ObjectFabric.Compliance.Residency
import ObjectFabric.Safety.Amendments
import ObjectFabric.Safety.GetFrame

/-!
# WriteGates — the checks in front of the requests that write objects

PUT asks whether the tenant's e-mail address is verified and whether the chosen backend lies in a
permitted country.  `CreateMultipartUpload` asks the second question only, and the others neither.
Pieces also enter a manifest from elsewhere: from a row of the content index, from a copy source,
from an upload that was opened earlier.  Where those lie is not asked again.
-/

namespace ObjectFabric

open Interleaving

/-! ## 1. Sequences of requests -/

inductive ObjectWrite where
  | put (r : PutRequest)
  | copy (r : CopyRequest)
  | create (r : CreateUploadRequest)
  | uploadPart (r : UploadPartRequest)
  | complete (r : CompleteRequest)
  | abort (tenantID uploadID : String)

namespace ObjectWrite

def tenantID : ObjectWrite → String
  | .put r => r.tenantID
  | .copy r => r.tenantID
  | .create r => r.tenantID
  | .uploadPart r => r.tenantID
  | .complete r => r.tenantID
  | .abort tenantID _ => tenantID

def handle (cfg : Config) : ObjectWrite → Handler
  | .put r => ObjectFabric.put cfg r
  | .copy r => copyObject cfg r
  | .create r => createMultipartUpload cfg r
  | .uploadPart r => ObjectFabric.uploadPart cfg r
  | .complete r => completeMultipartUpload cfg r
  | .abort tenantID uploadID => abortMultipartUpload cfg tenantID uploadID

end ObjectWrite

/-- A request, the configuration it is served under and what the environment does meanwhile. -/
structure Served where
  cfg : Config
  request : ObjectWrite
  env : Nat → Choice

def Served.run (s : Served) (w : World) : Response × History Call × World :=
  (s.request.handle s.cfg).run (machine s.cfg.providers) s.env [] w

/-- The requests that may write an object's manifest, and those that read objects and set up
buckets. -/
inductive ObjectRequest where
  | write (r : ObjectWrite)
  | get (r : GetRequest)
  | delete (o : ObjectRef) (bypassGovernance : Bool)
  | amend (o : ObjectRef) (a : Amendment)
  | settings (tenantID bucket : String) (r : BucketSettingsRequest)

namespace ObjectRequest

def tenantID : ObjectRequest → String
  | .write r => r.tenantID
  | .get r => r.object.tenantID
  | .delete o _ | .amend o _ => o.tenantID
  | .settings tenantID _ _ => tenantID

def handle (cfg : Config) : ObjectRequest → Handler
  | .write r => r.handle cfg
  | .get r => getObject cfg r
  | .delete o bypass => deleteObject cfg o bypass
  | .amend o a => a.handle cfg o
  | .settings tenantID bucket r => r.handle cfg tenantID bucket

/-- Neither a copy, the completion of an upload, a deletion, nor a change of tags, retention or legal
hold; and a GET only where no read repair can follow it. -/
def gated (cfg : Config) : ObjectRequest → Prop
  | .write (.copy _) | .write (.complete _) | .delete _ _ | .amend _ _ => False
  | .get _ => cfg.hasReadRepair = false
  | .write _ | .settings _ _ _ => True

end ObjectRequest

structure Sent where
  cfg : Config
  request : ObjectRequest
  env : Nat → Choice

def Sent.after (s : Sent) (w : World) : World :=
  ((s.request.handle s.cfg).run (machine s.cfg.providers) s.env [] w).2.2

def afterSent (run : List Sent) (w : World) : World := run.foldl (fun w s => s.after w) w

/-- `C` at every request of a sequence, in the state before it. -/
def Throughout (C : Served → World → Prop) : List Served → World → Prop
  | [], _ => True
  | s :: ss, w => C s w ∧ Throughout C ss (s.run w).2.2

variable {w : World}

theorem Throughout.imp {C D : Served → World → Prop} (h : ∀ s w, C s w → D s w)
    {ss : List Served} (hC : Throughout C ss w) : Throughout D ss w := by
  induction ss generalizing w with
  | nil => trivial
  | cons s ss ih => exact ⟨h s w hC.1, ih hC.2⟩

/-! ## 2. Where the pieces of a stored manifest lie -/

section

variable (cfg : Config) (tenantID : String) (residency : List String)

/-- The backend is registered, and its country passes the residency check if one is wired. -/
def Permits (backend : String) : Prop :=
  ∃ provider, cfg.providers backend = some provider ∧
    ∀ check, cfg.residency = some check → check tenantID provider.country residency = .ok ()

def RowPermits (e : ContentIndexEntry) : Prop :=
  Permits cfg tenantID residency e.backend ∧
    ∀ ref ∈ e.pieceIDs, Permits cfg tenantID residency ref.backend

def ManifestPermits (m : ObjectManifest) : Prop :=
  ∀ p ∈ m.pieces, Permits cfg m.tenantID m.placementPolicy.residency p.backend

def StoresPermitted (s : Served) (w : World) : Prop :=
  ∀ k m, (⟨.manifestPut k m, .ok ()⟩ : Event Call) ∈ (s.run w).2.1 → ManifestPermits s.cfg m

def copyBackend (src : ObjectManifest) : Option String :=
  if src.isErasureCoded ∨ src.isMultipart then copyDestinationBackend cfg src
  else src.pieces.head?.map Piece.backend

/-- What a request takes over from the stores lies where the tenant and the policy permit: the row
that a PUT finds for its content, the backend of a copy source, and of an upload its backend,
its parts and the tenant's rows. -/
def ReusesPermitted (w : World) : ObjectWrite → Prop
  | .put r => ∀ backend policy, cfg.resolveBackend r.tenantID r.bucket r.key = .ok (backend, policy) →
      cfg.dedupEnabled policy = true → ∀ mode c, dedupContent cfg r mode = .ok c →
      ∀ e, w.index.rows.lookup ⟨r.tenantID, c.contentHash⟩ = some e →
        RowPermits cfg r.tenantID policy.residency e
  | .copy r => ∀ bucket key version, r.source = .ok (bucket, key, version) →
      ∀ src, w.manifests.get (cfg.manifestKey r.tenantID bucket key version) = .ok src →
      ∀ backend, copyBackend cfg src = some backend →
        Permits cfg r.tenantID src.placementPolicy.residency backend
  | .complete r => ∀ s, w.uploads.sessions.lookup r.uploadID = some s →
      s.upload.tenantID = r.tenantID →
      let residency := s.upload.policy.residency
      Permits cfg r.tenantID residency s.upload.backend ∧
      (∀ p ∈ s.parts, Permits cfg r.tenantID residency p.backend) ∧
      (cfg.dedupEnabled s.upload.policy = true → ∀ k e, k.tenantID = r.tenantID →
        w.index.rows.lookup k = some e → RowPermits cfg r.tenantID residency e)
  | _ => True

end

/-- What a walk is about: the tenant, a residency list, the rows it may find and the state in which
the request began. -/
structure Gate where
  cfg : Config
  tenantID : String
  residency : List String
  rows : IndexKey → Prop
  start : World

abbrev Gate.Permits (g : Gate) (backend : String) : Prop :=
  ObjectFabric.Permits g.cfg g.tenantID g.residency backend

abbrev Gate.RowPermits (g : Gate) (e : ContentIndexEntry) : Prop :=
  ObjectFabric.RowPermits g.cfg g.tenantID g.residency e

/-- The calls that keep the rows and the manifests where they may lie. -/
def keepsResidency (g : Gate) {β : Type} : Call β → Prop
  | .manifestPut _ m => ManifestPermits g.cfg m
  | .indexRegister e => g.rows e.key → g.RowPermits e
  | .manifestUpdate _ _ | .manifestDelete _ | .uploadCreate _ | .uploadRecordPart _ _
  | .uploadSetPartHash _ _ _ | .uploadSetPlaintextPartHash _ _ _ => False
  | _ => True

def unstored (h : History Call) : Prop :=
  ∀ e ∈ h, ∀ k m, ∀ b, e ≠ ⟨.manifestPut k m, b⟩

/-- What holds between the calls of a request. -/
structure Reuses (g : Gate) (h : History Call) (w : World) : Prop where
  rows : ∀ k e, g.rows k → w.index.rows.lookup k = some e → g.RowPermits e
  manifests : unstored h → w.manifests = g.start.manifests
  sessions : w.uploads.sessions = g.start.uploads.sessions

variable {β : Type} {e : ContentIndexEntry} {m : ObjectManifest} {backend : String}
  {policy : PlacementPolicy} {r : CopyRequest} {src : ObjectManifest} {p : Piece}
  {enc : EncryptionConfig} {plaintextHash : String} {env : Nat → Choice}

section

variable {g : Gate} {cfg : Config} {K : IndexKey → Prop} {w₀ : World} {h : History Call}

theorem unstored.cons {c : Call β} {b : β} (hc : ∀ k m b', (⟨c, b⟩ : Event Call) ≠ ⟨.manifestPut k m, b'⟩)
    (hh : unstored h) : unstored (⟨c, b⟩ :: h) := by
  intro e he k m b'
  rcases List.mem_cons.mp he with rfl | hold
  · exact hc k m b'
  · exact hh e hold k m b'

theorem unstored.tail {e : Event Call} (hh : unstored (e :: h)) : unstored h :=
  fun e' he' => hh e' (List.mem_cons_of_mem _ he')

theorem takeForComplete_sessions (s : MultipartStore) (id t b k : String) :
    (s.takeForComplete id t b k).2.sessions = s.sessions := by
  unfold MultipartStore.takeForComplete
  repeat' split
  all_goals rfl

theorem takeForAbort_sessions (s : MultipartStore) (id t : String) :
    (s.takeForAbort id t).2.sessions = s.sessions := by
  unfold MultipartStore.takeForAbort
  repeat' split
  all_goals rfl

theorem collect_sessions (s : MultipartStore) (id : String) (refs : List PartReference) :
    (s.collect id refs).2.sessions = s.sessions := by
  unfold MultipartStore.collect
  simp only
  split <;> rfl

theorem putPiece_frame (providers : String → Option Provider) (w : World) (a : PieceAddr)
    (body : Bytes) : ∃ pieces, (w.putPiece providers a body).2 = { w with pieces } := by
  unfold World.putPiece
  split
  · exact ⟨w.pieces, rfl⟩
  · exact ⟨_, rfl⟩

section

variable (hI : Reuses g h w)
include hI

theorem Reuses.with_pieces (pieces : FMap PieceAddr Bytes) :
    Reuses g h { w with pieces } :=
  ⟨hI.rows, hI.manifests, hI.sessions⟩

theorem Reuses.with_row (he : g.rows e.key → g.RowPermits e) :
    Reuses g h { w with index := w.index.set e } := by
  refine ⟨fun k e' hk hlook => ?_, hI.manifests, hI.sessions⟩
  rw [ContentIndex.lookup_set] at hlook
  split at hlook
  · rename_i hkey
    rw [← Option.some.inj hlook]
    exact he (hkey ▸ hk)
  · exact hI.rows k e' hk hlook

theorem Reuses.step {c : Call β} {b : β} : Reuses g (⟨c, b⟩ :: h) w :=
  ⟨hI.rows, fun hh => hI.manifests hh.tail, hI.sessions⟩

end

theorem Reuses.exec {c : Call β} {b : β} {providers : String → Option Provider} {x : Choice}
    (hc : keepsResidency g c) (hI : Reuses g h w) :
    Reuses g (⟨c, b⟩ :: h) (World.exec providers x c w).2 := by
  cases c with
  | manifestPut k m =>
    exact ⟨hI.rows, fun hh => absurd rfl (hh _ List.mem_cons_self k m b), hI.sessions⟩
  | manifestUpdate | manifestDelete | uploadCreate | uploadRecordPart | uploadSetPartHash
  | uploadSetPlaintextPartHash => exact hc.elim
  | indexRegister e =>
    show Reuses g _ { w with index := (w.index.register e).2 }
    rcases w.index.register_cases e with ⟨-, hreg⟩ | ⟨-, hreg⟩
    · rw [hreg]
      exact hI.step
    · rw [hreg]
      exact hI.step.with_row hc
  | indexIncrementRef k =>
    show Reuses g _ { w with index := (w.index.incrementRef k).2 }
    rcases w.index.incrementRef_cases k with ⟨-, hinc⟩ | ⟨e, he, hinc⟩
    · rw [hinc]
      exact hI.step
    · rw [hinc]
      exact hI.step.with_row fun hk => hI.rows k e (w.index.keyed k e he ▸ hk) he
  | indexDecrementRef k =>
    show Reuses g _ { w with index := (w.index.decrementRef k).2 }
    rcases w.index.decrementRef_cases k with ⟨-, hdec⟩ | ⟨-, -, -, hdec⟩ | ⟨e, he, -, hdec⟩
    · rw [hdec]
      exact hI.step
    · rw [hdec]
      exact hI.step
    · rw [hdec]
      exact hI.step.with_row fun hk => hI.rows k e (w.index.keyed k e he ▸ hk) he
  | indexDelete k =>
    show Reuses g _ { w with index := (w.index.delete k).2 }
    rcases w.index.delete_cases k with ⟨-, hdel⟩ | ⟨-, -, -, hdel⟩ | ⟨-, -, -, hdel⟩
    · rw [hdel]
      exact hI.step
    · rw [hdel]
      exact hI.step
    · rw [hdel]
      refine ⟨fun k' e' hk' hlook => ?_, hI.step.manifests, hI.sessions⟩
      rw [ContentIndex.lookup_erase] at hlook
      split at hlook
      · exact absurd hlook (by simp)
      · exact hI.rows k' e' hk' hlook
  | putPiece a body =>
    rcases putPiece_frame providers w a body with ⟨pieces, hput⟩
    show Reuses g _ (w.putPiece providers a body).2
    rw [hput]
    exact hI.step.with_pieces pieces
  | copyPiece src dst =>
    rcases copyPiece_exec providers x src dst w with ⟨e, -, hcopy⟩ | ⟨body, -, hcopy⟩
    · rw [hcopy]
      exact hI.step
    rcases putPiece_frame providers w dst body with ⟨pieces, hput⟩
    rw [hcopy, hput]
    exact hI.step.with_pieces pieces
  | uploadTakeForComplete id t b k =>
    exact ⟨hI.rows, hI.step.manifests, (takeForComplete_sessions _ _ _ _ _).trans hI.sessions⟩
  | uploadTakeForAbort id t =>
    exact ⟨hI.rows, hI.step.manifests, (takeForAbort_sessions _ _ _).trans hI.sessions⟩
  | uploadCollect id refs =>
    exact ⟨hI.rows, hI.step.manifests, (collect_sessions _ _ _).trans hI.sessions⟩
  | setVersioning | setObjectLock => exact ⟨hI.rows, hI.step.manifests, hI.sessions⟩
  | deletePiece a => exact hI.step.with_pieces _
  | _ => exact hI.step

theorem Reuses.keep (x : Choice) {c : Call β}
    (hc : keepsResidency g c) (hI : Reuses g h w) :
    Reuses g (⟨c, ((machine g.cfg.providers).exec x c w).1⟩ :: h)
      ((machine g.cfg.providers).exec x c w).2 := by
  rcases machine_exec g.cfg.providers x c w with hok | ⟨e, -, hfail⟩
  · rw [hok]
    exact hI.exec hc
  · rw [hfail]
    exact hI.step

/-! ## 3. The write paths -/

def residencySpec (g : Gate) : Spec Call :=
  Proc.within (machine g.cfg.providers) (Reuses g) (keepsResidency g)

def tidies {β : Type} : Call β → Prop
  | .manifestPut _ _ | .indexRegister _ | .manifestUpdate _ _ | .manifestDelete _ | .uploadCreate _
  | .uploadRecordPart _ _ | .uploadSetPartHash _ _ _ | .uploadSetPlaintextPartHash _ _ _ => False
  | _ => True

theorem keepsResidency_of_tidies {c : Call β} (hc : tidies c) :
    keepsResidency g c := by
  cases c with
  | manifestPut | indexRegister | manifestUpdate | manifestDelete | uploadCreate | uploadRecordPart
  | uploadSetPartHash | uploadSetPlaintextPartHash => exact hc.elim
  | _ => trivial

theorem tidies_of_consults {c : Call β} (hc : consults c) : tidies c := by
  cases c with
  | now | getVersioning | getObjectLock | getEncryption | legalHoldActive | getPiece
  | manifestGet => trivial
  | _ => exact absurd hc id

theorem tidies_of_inspects {c : Call β} (hc : inspects c) : tidies c :=
  tidies_of_consults (consults_of_inspects hc)

theorem conforms_of_tidies {α : Type} {p : Proc Call α} (hp : p.Only tidies) :
    p.Follows (residencySpec g) h :=
  hp.conforms (R := fun _ => True) (fun _ _ _ hc _ => ⟨keepsResidency_of_tidies hc, fun _ => trivial⟩)
    trivial

theorem persistManifest_resident {rollback : Proc Call Unit}
    {stored : ObjectManifest → Handler} (hm : ManifestPermits g.cfg m) (hroll : rollback.Only tidies)
    (hstored : ∀ m', (stored m').Only tidies) :
    (persistManifest g.cfg m rollback stored).Follows (residencySpec g) h := by
  apply persistManifest_conforms (H := fun _ => True) trivial
  · exact fun _ _ _ hc _ => ⟨keepsResidency_of_tidies (tidies_of_inspects hc), fun _ => trivial⟩
  · exact fun _ _ _ => trivial
  · exact fun _ _ => conforms_of_tidies hroll
  · intro h' m' _ hstamp
    rcases hstamp with ⟨ret, rfl⟩
    exact ⟨hm, fun _ => trivial, conforms_of_tidies (hstored _)⟩

theorem putSinglePiece_resident (r : PutRequest)
    (hbackend : Permits g.cfg r.tenantID policy.residency backend) :
    (putSinglePiece g.cfg r backend policy).Follows (residencySpec g) h := by
  refine ⟨trivial, fun now _ => ?_⟩
  simp only [Proc.ret_bind]
  split
  · trivial
  refine ⟨trivial, fun res _ => ?_⟩
  rcases res with e | res
  · trivial
  split
  · exact conforms_of_tidies ⟨trivial, fun _ => trivial⟩
  refine ⟨trivial, fun createdAt _ => ?_⟩
  apply persistManifest_resident
  · intro p hp
    rw [List.mem_singleton.mp hp]
    exact hbackend
  · exact ⟨trivial, fun _ => trivial⟩
  · exact fun _ => trivial

theorem rollbackEC_tidies (backend : String) (ps : List Piece) :
    (rollbackEC backend ps).Only tidies := by
  induction ps with
  | nil => trivial
  | cons p ps ih => exact ⟨trivial, fun _ => ih⟩

theorem putShards_resident (backend versionID : String) (ss : List Shard) {written : List Piece}
    (hwritten : ∀ p ∈ written, p.backend = backend) :
    (putShards g.cfg backend versionID ss written).Conforms
      (residencySpec g)
      (fun _ r => ∀ pieces, r = .ok pieces → ∀ p ∈ pieces, p.backend = backend) h := by
  induction ss generalizing written h with
  | nil =>
    intro pieces hpieces
    rw [← Except.ok.inj hpieces]
    exact hwritten
  | cons s ss ih => ?_
  refine ⟨trivial, fun res _ => ?_⟩
  rcases res with e | res
  · apply (conforms_of_tidies (rollbackEC_tidies backend written)).seq
    intro _ _ _ pieces hpieces
    simp at hpieces
  apply ih
  intro p hp
  rcases List.mem_append.mp hp with hold | hnew
  · exact hwritten p hold
  · rw [List.mem_singleton.mp hnew]
    rfl

theorem putErasureCoded_resident (r : PutRequest)
    (hbackend : Permits g.cfg r.tenantID policy.residency backend) :
    (putErasureCoded g.cfg r backend policy).Follows (residencySpec g) h := by
  unfold putErasureCoded
  split
  · trivial
  split
  · trivial
  split
  · trivial
  split
  · trivial
  refine ⟨trivial, fun now _ => ?_⟩
  simp only [Proc.ret_bind]
  split
  · trivial
  split
  · trivial
  apply Proc.Conforms.bind
  apply (putShards_resident backend _ _ (by simp)).mono
  intro h' written hwritten
  rcases written with e | pieces
  · trivial
  refine ⟨trivial, fun createdAt _ => ?_⟩
  apply persistManifest_resident
  · intro p hp
    rw [hwritten pieces rfl p hp]
    exact hbackend
  · exact rollbackEC_tidies backend pieces
  · exact fun _ => trivial

theorem exec_of_post {c : Call (Except StoreError β)} {b : β}
    (hc : World.failure c = some (.error (.other "unavailable")))
    (hpost : (residencySpec g).post h c (.ok b)) :
    ∃ x w, Reuses g h w ∧ (World.exec g.cfg.providers x c w).1 = .ok b := by
  rcases hpost with ⟨x, w, hI, hb⟩
  rcases machine_exec g.cfg.providers x c w with hok | ⟨e, he, hfail⟩
  · exact ⟨x, w, hI, hok ▸ hb⟩
  · rw [hc] at he
    rw [hfail, ← Option.some.inj he] at hb
    exact absurd hb (by simp)

theorem row_of_indexLookup {k : IndexKey} (hk : g.rows k)
    (hpost : (residencySpec g).post h (.indexLookup k) (.ok e)) : g.RowPermits e := by
  rcases exec_of_post rfl hpost with ⟨x, w, hI, hb⟩
  exact hI.rows k e hk (ContentIndex.lookup_eq_ok.mp hb)

theorem row_of_plaintextHash {t hash : String}
    (hK : ∀ k : IndexKey, k.tenantID = t → g.rows k)
    (hpost : (residencySpec g).post h (.indexLookupByPlaintextHash t hash) (.ok e)) :
    g.RowPermits e := by
  rcases exec_of_post rfl hpost with ⟨x, w, hI, hb⟩
  change w.lookupByPlaintextHash x.order t hash = .ok e at hb
  unfold World.lookupByPlaintextHash at hb
  split at hb
  · simp at hb
  split at hb
  · simp at hb
  rename_i e' hfind
  rw [← Except.ok.inj hb]
  have hmem := List.mem_of_find?_eq_some hfind
  rcases List.mem_filterMap.mp hmem with ⟨k, hk, hlook⟩
  have htenant : k.tenantID = t := by simpa using (List.mem_filter.mp hk).2
  exact hI.rows k e' (hK k htenant) hlook

theorem putDedupedManifest_resident {r : PutRequest} {c : DedupContent}
    {p : DedupPiece} (hp : Permits g.cfg r.tenantID policy.residency p.backend) :
    (putDedupedManifest g.cfg r policy c p).Follows (residencySpec g) h := by
  refine ⟨trivial, fun now _ => ⟨trivial, fun createdAt _ => ?_⟩⟩
  apply persistManifest_resident
  · intro q hq
    rw [List.mem_singleton.mp hq]
    exact hp
  · exact ⟨trivial, fun _ => trivial⟩
  · exact fun _ => trivial

theorem registerDedupedPiece_resident {entry : ContentIndexEntry}
    (hentry : g.rows entry.key → g.RowPermits entry) :
    (registerDedupedPiece entry).Follows (residencySpec g) h := by
  refine .ask hentry fun registered _ => ?_
  split
  · trivial
  · refine ⟨trivial, fun counted _ => ?_⟩
    cases counted <;> trivial
  · trivial

theorem putDedupedMiss_resident {r : PutRequest}
    {c : DedupContent} (hbackend : Permits cfg r.tenantID policy.residency backend)
    (hK : K ⟨r.tenantID, c.contentHash⟩) :
    (putDedupedMiss cfg r backend policy c).Follows
      (residencySpec ⟨cfg, r.tenantID, policy.residency, K, w₀⟩) h := by
  refine ⟨trivial, fun now _ => ⟨trivial, fun res _ => ?_⟩⟩
  rcases res with e | res
  · trivial
  simp only [Proc.ret_bind, Proc.bind_eq]
  apply Proc.Conforms.bind
  apply (registerDedupedPiece_resident
    fun _ => ⟨hbackend, fun ref href => absurd href (by simp)⟩).mono
  intro h' registered _
  match registered with
  | .error message => exact conforms_of_tidies ⟨trivial, fun _ => trivial⟩
  | .ok false => exact putDedupedManifest_resident hbackend
  | .ok true =>
    refine ⟨trivial, fun _ _ => ⟨trivial, fun canonical hcanonical => ?_⟩⟩
    cases canonical with
    | error e => exact conforms_of_tidies ⟨trivial, fun _ => trivial⟩
    | ok canonical =>
      exact putDedupedManifest_resident (row_of_indexLookup hK hcanonical).1

theorem putDeduped_resident {r : PutRequest}
    (hbackend : Permits cfg r.tenantID policy.residency backend)
    (hK : ∀ mode c, dedupContent cfg r mode = .ok c → K ⟨r.tenantID, c.contentHash⟩) :
    (putDeduped cfg r backend policy).Follows
      (residencySpec ⟨cfg, r.tenantID, policy.residency, K, w₀⟩) h := by
  unfold putDeduped
  simp only
  split
  · trivial
  split
  · trivial
  rename_i c hcontent
  have hkey := hK _ c hcontent
  refine .ask trivial fun found hfound => ?_
  match found with
  | .error e =>
    cases e with
    | contentNotFound => exact putDedupedMiss_resident hbackend hkey
    | _ => trivial
  | .ok existing =>
    refine ⟨trivial, fun counted _ => ?_⟩
    cases counted with
    | error e => trivial
    | ok u => exact putDedupedManifest_resident (row_of_indexLookup hkey hfound).1

theorem placed_resident {t bucket key : String} {go : String → PlacementPolicy → Handler}
    (hgo : ∀ backend policy mode h', g.cfg.resolveBackend t bucket key = .ok (backend, policy) →
      Permits g.cfg t policy.residency backend →
      (go backend { policy with encryptionMode := mode }).Follows (residencySpec g) h') :
    (placed g.cfg t bucket key go).Follows (residencySpec g) h := by
  unfold placed
  split
  · trivial
  rename_i backend policy hresolve
  split
  · trivial
  rename_i provider hprovider
  split
  · trivial
  rename_i hcheck
  have hpermits : Permits g.cfg t policy.residency backend := by
    refine ⟨provider, hprovider, fun check hwired => ?_⟩
    rw [hwired] at hcheck
    exact hcheck
  apply Proc.Conforms.bind
  apply (conforms_of_tidies ((g.cfg.effectiveEncryptionMode_only t bucket policy).mono
    fun _ => tidies_of_inspects)).mono
  intro h' mode _
  cases mode with
  | error message => trivial
  | ok mode => exact hgo backend policy mode h' hresolve hpermits

theorem orRefuse_resident {check : Proc Call (Option Response)} {rest : Handler}
    (hcheck : check.Only consults)
    (hrest : ∀ h', (unstored h → unstored h') →
      rest.Follows (residencySpec g) h') :
    (orRefuse check rest).Follows (residencySpec g) h := by
  apply (hcheck.conforms (R := fun h' => unstored h → unstored h') ?_ id).seq
  · intro h' refusal hh'
    cases refusal with
    | none => exact hrest h' hh'
    | some response => trivial
  · intro h' β c hc hh'
    refine ⟨keepsResidency_of_tidies (tidies_of_consults hc), fun b hh => (hh' hh).cons ?_⟩
    intro k m b' heq
    cases heq
    exact hc

theorem putPlaced_resident {r : PutRequest} (policy : PlacementPolicy)
    (hbackend : Permits cfg r.tenantID policy.residency backend)
    (hK : cfg.dedupEnabled policy = true → ∀ mode c, dedupContent cfg r mode = .ok c →
      K ⟨r.tenantID, c.contentHash⟩) :
    (putPlaced cfg r backend policy).Follows
      (residencySpec ⟨cfg, r.tenantID, policy.residency, K, w₀⟩) h := by
  unfold putPlaced
  simp only
  split
  · exact putErasureCoded_resident r hbackend
  split
  · rename_i hdedup
    exact putDeduped_resident hbackend (hK hdedup.1)
  · exact putSinglePiece_resident r hbackend

def putRows (cfg : Config) (r : PutRequest) (policy : PlacementPolicy) (k : IndexKey) : Prop :=
  cfg.dedupEnabled policy = true ∧
    ∃ mode c, dedupContent cfg r mode = .ok c ∧ k = ⟨r.tenantID, c.contentHash⟩

theorem putObject_resident {r : PutRequest}
    (hK : ∀ backend policy, cfg.resolveBackend r.tenantID r.bucket r.key = .ok (backend, policy) →
      policy.residency = residency ∧ ∀ k, putRows cfg r policy k → K k) :
    (putObject cfg r).Follows (residencySpec ⟨cfg, r.tenantID, residency, K, w₀⟩) h := by
  unfold putObject
  split
  · trivial
  split
  · trivial
  · trivial
  · apply orRefuse_resident (allowObjectLockOverwrite_only cfg _ _)
    intro h' _
    apply placed_resident
    intro backend policy mode h'' hresolve hpermits
    rcases hK backend policy hresolve with ⟨hres, hrows⟩
    subst hres
    exact putPlaced_resident { policy with encryptionMode := mode } hpermits
      fun hdedup mode' c hc => hrows _ ⟨hdedup, mode', c, hc, rfl⟩

/-! ### Copies -/

section

variable (hp : Permits g.cfg r.tenantID src.placementPolicy.residency p.backend)
include hp

theorem writeCopyManifest_resident
    {dedupCopy : Bool} (backend : String) :
    (writeCopyManifest g.cfg r src p backend enc dedupCopy).Follows (residencySpec g) h := by
  refine ⟨trivial, fun createdAt _ => ?_⟩
  apply persistManifest_resident
  · intro q hq
    rw [List.mem_singleton.mp hq]
    exact hp
  · unfold rollbackCopyPiece
    split
    · split
      · exact ⟨trivial, fun _ => trivial⟩
      · trivial
    · split
      · exact ⟨trivial, fun _ => trivial⟩
      · trivial
  · exact fun _ => ⟨trivial, fun _ => trivial⟩

omit hp in
section

variable (hbackend : Permits g.cfg r.tenantID src.placementPolicy.residency backend)
include hbackend

theorem storeReencryptedCopy_resident
    {plaintext : Bytes} {mode : EncryptionMode} {manifestEncrypted : Bool} :
    (storeReencryptedCopy g.cfg r src backend plaintext mode manifestEncrypted).Follows
      (residencySpec g) h := by
  refine ⟨trivial, fun now _ => ?_⟩
  simp only [Proc.ret_bind]
  split
  · trivial
  refine ⟨trivial, fun res _ => ?_⟩
  cases res with
  | error e => trivial
  | ok res => exact writeCopyManifest_resident hbackend backend

omit hp in
theorem storeVerbatimCopy_resident
    {content : Bytes} :
    (storeVerbatimCopy g.cfg r src backend content enc).Follows (residencySpec g) h := by
  refine ⟨trivial, fun now _ => ⟨trivial, fun res _ => ?_⟩⟩
  cases res with
  | error e => trivial
  | ok res => exact writeCopyManifest_resident hbackend backend

end

theorem copyReencrypt_resident :
    (copyReencrypt g.cfg r src p).Follows (residencySpec g) h := by
  unfold copyReencrypt
  split
  · trivial
  split
  · trivial
  refine ⟨trivial, fun body _ => ?_⟩
  rcases body with e | ciphertext
  · trivial
  simp only [Proc.ret_bind]
  split
  · trivial
  split
  · trivial
  · exact storeReencryptedCopy_resident hp

theorem copyEncryptForDefault_resident
    {mode : EncryptionMode} :
    (copyEncryptForDefault g.cfg r src p mode).Follows (residencySpec g) h := by
  unfold copyEncryptForDefault
  split
  · trivial
  split
  · trivial
  refine ⟨trivial, fun body _ => ?_⟩
  rcases body with e | plaintext
  · trivial
  simp only [Proc.ret_bind]
  split
  · trivial
  · exact storeReencryptedCopy_resident hp

omit hp in
theorem effectiveEncryptionMode_resident {t bucket : String} {α : Type}
    {k : Except String EncryptionMode → Proc Call α}
    (hk : ∀ mode h', (k mode).Follows (residencySpec g) h') :
    ((g.cfg.effectiveEncryptionMode t bucket policy).bind k).Follows (residencySpec g) h := by
  apply Proc.Conforms.bind
  apply (conforms_of_tidies ((g.cfg.effectiveEncryptionMode_only t bucket policy).mono
    fun _ => tidies_of_inspects)).mono
  exact fun h' mode _ => hk mode h'

omit hp in
theorem copyReconstructedSource_resident
    (hsrc : ∀ backend, copyDestinationBackend g.cfg src = some backend →
      Permits g.cfg r.tenantID src.placementPolicy.residency backend) :
    (copyReconstructedSource g.cfg r src).Follows (residencySpec g) h := by
  unfold copyReconstructedSource
  split
  · trivial
  apply Proc.Conforms.bind
  apply (conforms_of_tidies ((reconstructSource_only g.cfg src).mono
    fun _ => tidies_of_inspects)).mono
  intro h' content _
  rcases content with response | content
  · trivial
  simp only
  split
  · trivial
  rename_i backend hbackend
  have hpermits := hsrc backend hbackend
  split
  · exact storeReencryptedCopy_resident hpermits
  split
  · apply effectiveEncryptionMode_resident
    intro mode h''
    rcases mode with message | mode
    · trivial
    simp only
    split
    · exact storeReencryptedCopy_resident hpermits
    · exact storeVerbatimCopy_resident hpermits
  · exact storeVerbatimCopy_resident hpermits

theorem copyShared_resident
    {serverSideCopy : Bool} :
    (copyShared g.cfg r src p serverSideCopy).Follows (residencySpec g) h := by
  have hverbatim : ∀ h', (copyVerbatim g.cfg r src p serverSideCopy).Follows
      (residencySpec g) h' := by
    intro h'
    have hbytes : ∀ id, (copyBytes g.cfg serverSideCopy p id).Only tidies := by
      intro id
      unfold copyBytes copyViaGetPut
      split
      · refine ⟨trivial, fun res => ?_⟩
        cases res <;> trivial
      refine ⟨trivial, fun body => ?_⟩
      cases body with
      | error e => trivial
      | ok body =>
        refine ⟨trivial, fun res => ?_⟩
        cases res <;> trivial
    refine ⟨trivial, fun now _ => ?_⟩
    apply (conforms_of_tidies (hbytes _)).seq
    intro h'' res _
    cases res with
    | error message => trivial
    | ok res =>
      rcases res with ⟨size, hash, etag⟩
      exact writeCopyManifest_resident (p := copiedPiece _ p.backend hash p.locator etag size) hp
        p.backend
  unfold copyShared
  split
  · refine .ask trivial fun counted _ => ?_
    split
    · exact writeCopyManifest_resident hp p.backend
    · exact hverbatim _
    · trivial
  · exact hverbatim h

theorem copySinglePiece_resident :
    (copySinglePiece g.cfg r src p).Follows (residencySpec g) h := by
  unfold copySinglePiece
  split
  · trivial
  split
  · exact copyReencrypt_resident hp
  split
  · apply effectiveEncryptionMode_resident
    intro mode h'
    rcases mode with message | mode
    · trivial
    simp only
    split
    · exact copyEncryptForDefault_resident hp
    · exact copyShared_resident hp
  · exact copyShared_resident hp

end

theorem copyFrom_resident {version : String}
    (hsrc : ∀ backend, copyBackend g.cfg src = some backend →
      Permits g.cfg r.tenantID src.placementPolicy.residency backend) :
    (copyFrom g.cfg r version src).Follows (residencySpec g) h := by
  unfold copyFrom
  split
  · split <;> trivial
  split
  · trivial
  rename_i p ps hpieces
  split
  · trivial
  split
  · trivial
  · trivial
  split
  · rename_i hshape
    apply copyReconstructedSource_resident
    intro backend hbackend
    exact hsrc backend (by rw [copyBackend, if_pos hshape, hbackend])
  · rename_i hshape
    apply copySinglePiece_resident
    exact hsrc p.backend (by rw [copyBackend, if_neg hshape, hpieces]; rfl)

theorem copyObject_resident (hh : unstored h)
    (hsrc : ∀ bucket key version, r.source = .ok (bucket, key, version) →
      ∀ src, g.start.manifests.get (g.cfg.manifestKey r.tenantID bucket key version) = .ok src →
      ∀ backend, copyBackend g.cfg src = some backend →
        Permits g.cfg r.tenantID src.placementPolicy.residency backend) :
    (copyObject g.cfg r).Follows (residencySpec g) h := by
  unfold copyObject
  split
  · trivial
  apply orRefuse_resident (allowObjectLockOverwrite_only g.cfg _ _)
  intro h' hh'
  split
  · trivial
  rename_i bucket key version hsource
  refine .ask trivial fun found hfound => ?_
  split
  · trivial
  · trivial
  · rename_i src
    apply copyFrom_resident
    rcases exec_of_post rfl hfound with ⟨x, w, hI, hget⟩
    -- nothing has been stored yet, so the source is read as it was at the start
    rw [show World.exec g.cfg.providers x (.manifestGet (g.cfg.manifestKey r.tenantID bucket key
      version)) w = (w.manifests.get _, w) from rfl, hI.manifests (hh' hh)] at hget
    exact hsrc bucket key version hsource src hget

/-! ### Completed uploads -/

/-- A manifest of the tenant under a policy with the given residency, all of whose pieces lie where
both permit. -/
structure Resident (g : Gate) (m : ObjectManifest) : Prop where
  tenant : m.tenantID = g.tenantID
  policy : m.placementPolicy.residency = g.residency
  pieces : ∀ p ∈ m.pieces, g.Permits p.backend

theorem Resident.permits (hm : Resident g m) : ManifestPermits g.cfg m := by
  unfold ManifestPermits
  rw [hm.tenant, hm.policy]
  exact hm.pieces

theorem redirectManifestToCanonical_resident {m m' : ObjectManifest}
    (hm : Resident g m) (he : g.RowPermits e)
    (hredirect : redirectManifestToCanonical m e = .ok m') :
    Resident g m' := by
  unfold redirectManifestToCanonical at hredirect
  split at hredirect
  · split at hredirect
    · rw [← Except.ok.inj hredirect]
      refine ⟨hm.tenant, hm.policy, fun p hp => ?_⟩
      rw [List.mem_singleton.mp hp]
      exact he.1
    · simp at hredirect
  · split at hredirect
    · simp at hredirect
    rename_i pieces hpieces
    rw [← Except.ok.inj hredirect]
    refine ⟨hm.tenant, hm.policy, fun p hp => ?_⟩
    -- each new piece lies where the reference of its part says
    rcases Streams.exists_of_mem_mapM hpieces hp with ⟨q, -, hq⟩
    unfold redirectPiece at hq
    split at hq
    · simp at hq
    · rename_i ref hfind
      rw [← Except.ok.inj hq]
      exact he.2 ref (List.mem_reverse.mp (List.mem_of_find?_eq_some hfind))

theorem deleteUploadedParts_tidies (parts : List Part) :
    (deleteUploadedParts cfg parts).Only tidies :=
  deleteUploadedParts_only cfg (fun _ => trivial) parts

def handsOn (g : Gate) (_ : History Call) (res : Except Response ObjectManifest) : Prop :=
  ∀ m, res = .ok m → Resident g m

theorem handsOn_error {response : Response} : handsOn g h (.error response) :=
  fun _ hm => by simp at hm

theorem handsOn_ok (hm : Resident g m) : handsOn g h (.ok m) := by
  intro m' hm'
  rw [← Except.ok.inj hm']
  exact hm

theorem tidies_then {α β : Type} {p : Proc Call α} {k : α → Proc Call β}
    {Q : History Call → β → Prop} (hp : p.Only tidies)
    (hk : ∀ a h', (k a).Conforms (residencySpec g) Q h') :
    (p.bind k).Conforms (residencySpec g) Q h := by
  apply (conforms_of_tidies hp).seq
  exact fun h' a _ => hk a h'

theorem dropParts_resident {parts : List Part} {code message : String} :
    (dropParts g.cfg parts code message).Conforms (residencySpec g) (handsOn g) h :=
  tidies_then (deleteUploadedParts_tidies parts) fun _ _ => handsOn_error

theorem redirectOrRelease_resident {r : CompleteRequest}
    {contentHash : String} (hm : Resident g m) (he : g.RowPermits e) :
    (redirectOrRelease r m e contentHash).Conforms (residencySpec g) (handsOn g) h := by
  unfold redirectOrRelease
  split
  · rename_i m' hredirect
    exact handsOn_ok (redirectManifestToCanonical_resident hm he hredirect)
  · exact ⟨trivial, fun _ _ => handsOn_error⟩

section

variable {r : CompleteRequest} {u : Upload} {parts : List Part} {m : ObjectManifest}

theorem multipartEntry_permits (hparts : ∀ p ∈ parts, g.Permits p.backend)
    (hne : parts ≠ []) (contentHash : String) :
    g.RowPermits (multipartEntry r contentHash parts) := by
  rcases parts with _ | ⟨p, ps⟩
  · exact absurd rfl hne
  refine ⟨hparts p List.mem_cons_self, fun ref href => ?_⟩
  unfold multipartEntry at href
  split at href
  · rcases List.mem_map.mp href with ⟨q, hq, rfl⟩
    exact hparts q hq
  · exact absurd href (by simp)

section

variable (hm : Resident g m)
include hm

theorem registerParts_resident
    (hparts : ∀ p ∈ parts, g.Permits p.backend) (hne : parts ≠ [])
    (hK : ∀ k : IndexKey, k.tenantID = r.tenantID → g.rows k) :
    (registerParts g.cfg r parts m).Conforms (residencySpec g) (handsOn g) h := by
  apply (registerDedupedPiece_resident fun _ => multipartEntry_permits hparts hne _).seq
  intro h' registered _
  match registered with
  | .error message => exact dropParts_resident
  | .ok false => exact handsOn_ok hm
  | .ok true =>
    apply tidies_then (deleteUploadedParts_tidies parts)
    intro _ h''
    refine ⟨trivial, fun canonical hcanonical => ?_⟩
    cases canonical with
    | error e => exact ⟨trivial, fun _ _ => handsOn_error⟩
    | ok canonical =>
      exact redirectOrRelease_resident hm (row_of_indexLookup (hK _ rfl) hcanonical)

omit hm in
theorem recordedDigests_tidies {digest : Int → Call (Option Bytes)} (hdigest : ∀ n, tidies (digest n))
    (parts : List Part) : (recordedDigests digest parts).Only tidies := by
  induction parts with
  | nil => trivial
  | cons p ps ih => ?_
  refine ⟨hdigest _, fun d => ?_⟩
  cases d with
  | none => trivial
  | some d =>
    apply ih.bind
    intro ds
    cases ds <;> trivial

omit hm in
theorem computeMultipartContentHash_tidies (pieces : List Piece) :
    (computeMultipartContentHash cfg u pieces parts).Only tidies := by
  have hread : ∀ (ps : List Piece) read, (hashAssembledPieces cfg ps read).Only tidies := by
    intro ps
    induction ps with
    | nil => exact fun _ => trivial
    | cons p ps ih => ?_
    intro read
    unfold hashAssembledPieces
    split
    · trivial
    refine ⟨trivial, fun body => ?_⟩
    cases body with
    | error e => trivial
    | ok body => exact ih _
  unfold computeMultipartContentHash
  split
  · trivial
  have hdigests : (recordedDigests (.uploadPartHash u.id ·) parts).Only tidies := by
    apply recordedDigests_tidies
    exact fun _ => trivial
  apply hdigests.bind
  intro ds
  cases ds with
  | none => exact hread pieces []
  | some ds => trivial

theorem dedupParts_resident
    (hparts : ∀ p ∈ parts, g.Permits p.backend) (hne : parts ≠ [])
    (hK : ∀ k : IndexKey, k.tenantID = r.tenantID → g.rows k) :
    (dedupParts g.cfg r u parts m).Conforms (residencySpec g) (handsOn g) h := by
  apply tidies_then (computeMultipartContentHash_tidies _)
  intro hash h'
  rcases hash with message | contentHash
  · exact dropParts_resident
  have hm' : Resident g { m with contentHash } :=
    ⟨hm.tenant, hm.policy, hm.pieces⟩
  refine .ask trivial fun found hfound => ?_
  split
  · exact registerParts_resident hm' hparts hne hK
  · exact dropParts_resident
  · rename_i existing
    refine ⟨trivial, fun counted _ => ?_⟩
    cases counted with
    | error e => exact dropParts_resident
    | ok _ =>
      apply tidies_then (deleteUploadedParts_tidies parts)
      intro _ h''
      exact redirectOrRelease_resident hm' (row_of_indexLookup (hK _ rfl) hfound)

omit hm in
theorem consolidated_resident {hash : String}
    (hm : Resident g m) (he : g.Permits e.backend) :
    Resident g (m.consolidated e hash enc) := by
  refine ⟨hm.tenant, hm.policy, fun p hp => ?_⟩
  rw [List.mem_singleton.mp hp]
  exact he

omit hm in
theorem dedupManagedMultipartHit_resident {digest : Bytes} {existing : ContentIndexEntry}
    (hm : Resident g m) (he : g.RowPermits existing) :
    (dedupManagedMultipartHit g.cfg r u parts digest existing m).Conforms
      (residencySpec g) (handsOn g) h := by
  refine ⟨trivial, fun counted _ => ?_⟩
  rcases counted with e | _
  · exact dropParts_resident
  split
  · exact ⟨trivial, fun _ _ => dropParts_resident⟩
  · apply tidies_then (deleteUploadedParts_tidies parts)
    exact fun _ _ => handsOn_ok (consolidated_resident hm he.1)

section

variable (hbackend : g.Permits u.backend)
include hbackend

section

variable (hK : ∀ k : IndexKey, k.tenantID = r.tenantID → g.rows k)
include hK

theorem registerConsolidated_resident {ciphertext : Bytes}
    {res : PutResult} :
    (registerConsolidated g.cfg r u parts plaintextHash ciphertext enc res m).Conforms
      (residencySpec g) (handsOn g) h := by
  unfold registerConsolidated
  apply Proc.Conforms.bind
  apply (registerDedupedPiece_resident
    fun _ => ⟨hbackend, fun ref href => absurd href (by simp)⟩).mono
  intro h' registered _
  match registered with
  | .error message => exact ⟨trivial, fun _ _ => dropParts_resident⟩
  | .ok false =>
    apply tidies_then (deleteUploadedParts_tidies parts)
    exact fun _ _ => handsOn_ok (consolidated_resident hm hbackend)
  | .ok true =>
    apply tidies_then (deleteUploadedParts_tidies parts)
    intro _ h''
    refine ⟨trivial, fun _ _ => ⟨trivial, fun canonical hcanonical => ?_⟩⟩
    cases canonical with
    | error e => exact ⟨trivial, fun _ _ => handsOn_error⟩
    | ok canonical =>
      exact handsOn_ok (consolidated_resident hm (row_of_indexLookup (hK _ rfl) hcanonical).1)

theorem storeConsolidated_resident {dek ciphertext : Bytes} :
    (storeConsolidated g.cfg r u parts plaintextHash dek ciphertext m).Conforms
      (residencySpec g) (handsOn g) h := by
  unfold storeConsolidated
  split
  · exact dropParts_resident
  refine ⟨trivial, fun now _ => ⟨trivial, fun res _ => ?_⟩⟩
  rcases res with e | res
  · apply tidies_then (deleteUploadedParts_tidies parts)
    exact fun _ _ => handsOn_error
  split
  · exact handsOn_error
  split
  · exact ⟨trivial, fun _ _ => dropParts_resident⟩
  · exact registerConsolidated_resident hm hbackend hK

theorem dedupManagedMultipartMiss_resident {digest : Bytes} :
    (dedupManagedMultipartMiss g.cfg r u parts digest plaintextHash m).Conforms
      (residencySpec g) (handsOn g) h := by
  have hassemble : ∀ (ps : List Part) out,
      (assembleManagedMultipartPlaintext g.cfg u ps out).Only tidies := by
    intro ps
    induction ps with
    | nil => exact fun _ => trivial
    | cons p ps ih => ?_
    intro out
    unfold assembleManagedMultipartPlaintext
    split
    · trivial
    refine ⟨trivial, fun body => ?_⟩
    rcases body with e | ciphertext
    · trivial
    simp only [Proc.ret_bind]
    split
    · trivial
    · exact ih _
  apply tidies_then (hassemble parts [])
  intro plaintext h'
  rcases plaintext with message | plaintext
  · exact dropParts_resident
  simp only
  split
  · exact dropParts_resident
  split
  · exact dropParts_resident
  · exact storeConsolidated_resident hm hbackend hK

end

theorem dedupUpload_resident
    (hparts : ∀ p ∈ parts, g.Permits p.backend) (hne : parts ≠ [])
    (hK : g.cfg.dedupEnabled u.policy = true → ∀ k : IndexKey, k.tenantID = r.tenantID → g.rows k) :
    (dedupUpload g.cfg r u parts m).Conforms (residencySpec g) (handsOn g) h := by
  unfold dedupUpload
  split
  · rename_i heligible
    have hdedup : g.cfg.dedupEnabled u.policy = true := by
      exact (Bool.and_eq_true_iff.mp heligible).1
    exact dedupParts_resident hm hparts hne (hK hdedup)
  split
  · rename_i hdedup
    refine .ask trivial fun count _ => ?_
    split
    · have hdigests : (recordedDigests (.uploadPlaintextPartHash u.id ·) parts).Only tidies := by
        apply recordedDigests_tidies
        exact fun _ => trivial
      apply tidies_then hdigests
      intro ds h'
      rcases ds with _ | ds
      · exact handsOn_ok hm
      refine .ask trivial fun found hfound => ?_
      split
      · exact dedupManagedMultipartMiss_resident hm hbackend (hK hdedup.1)
      · exact dropParts_resident
      · exact dedupManagedMultipartHit_resident hm (row_of_plaintextHash (hK hdedup.1) hfound)
    · exact handsOn_ok hm
  · exact handsOn_ok hm

end

end

theorem publishUpload_resident (hm : Resident g m) :
    (publishUpload g.cfg parts m).Follows (residencySpec g) h := by
  have hrelease : ∀ m, (releaseContent g.cfg m).Only tidies := by
    intro m
    unfold releaseContent
    split
    · exact ⟨trivial, fun _ => trivial⟩
    · trivial
  apply Proc.Conforms.bind
  apply (applyDefaultObjectLockRetention_conforms (H := fun _ => True)
    (fun _ _ _ hc _ => ⟨keepsResidency_of_tidies (tidies_of_inspects hc), fun _ => trivial⟩)
    trivial).mono
  rintro h' stamped ⟨-, hstamped⟩
  rcases stamped with e | m'
  · exact tidies_then (hrelease m) fun _ _ => trivial
  rcases hstamped m' rfl with ⟨ret, rfl⟩
  refine ⟨hm.permits, fun b _ => ?_⟩
  cases b with
  | error e =>
    apply tidies_then (hrelease _)
    intro _ _
    exact tidies_then (deleteUploadedParts_tidies _) fun _ _ => trivial
  | ok _ => trivial

theorem assemblePieces_resident (id : String) (parts : List Part)
    (hparts : ∀ p ∈ parts, g.Permits p.backend) :
    (assemblePieces id parts).Conforms (residencySpec g)
      (fun _ pieces => ∀ p ∈ pieces, g.Permits p.backend) h := by
  induction parts generalizing h with
  | nil => exact fun p hp => absurd hp List.not_mem_nil
  | cons p ps ih => ?_
  refine ⟨trivial, fun hash _ => ?_⟩
  apply (ih fun q hq => hparts q (List.mem_cons_of_mem _ hq)).seq
  intro h' pieces hpieces q hq
  rcases List.mem_cons.mp hq with rfl | hrest
  · exact hparts p List.mem_cons_self
  · exact hpieces q hrest

theorem completeWith_resident
    (hbackend : Permits cfg r.tenantID u.policy.residency u.backend)
    (hparts : ∀ p ∈ parts, Permits cfg r.tenantID u.policy.residency p.backend) (hne : parts ≠ [])
    (hK : cfg.dedupEnabled u.policy = true → ∀ k : IndexKey, k.tenantID = r.tenantID → K k) :
    (completeWith cfg r u parts).Follows
      (residencySpec ⟨cfg, r.tenantID, u.policy.residency, K, w₀⟩) h := by
  have hversion : (uploadVersion cfg r u).Only tidies := by
    unfold uploadVersion
    split
    · trivial
    · exact ⟨trivial, fun _ => trivial⟩
  apply (assemblePieces_resident u.id parts hparts).seq
  intro h' pieces hpieces
  apply tidies_then hversion
  intro versionID h''
  refine ⟨trivial, fun createdAt _ => ?_⟩
  simp only [Proc.ret_bind, Proc.bind_eq]
  apply Proc.Conforms.bind
  have hm : Resident ⟨cfg, r.tenantID, u.policy.residency, K, w₀⟩
      (multipartManifest cfg r u parts pieces versionID createdAt) := ⟨rfl, rfl, hpieces⟩
  apply (dedupUpload_resident hm hbackend hparts hne hK).mono
  intro h₃ res hres
  cases res with
  | error response => trivial
  | ok m => exact publishUpload_resident (hres m rfl)

theorem session_of_take {id t b k : String}
    (hpost : (residencySpec g).post h
      (.uploadTakeForComplete id t b k) (.ok u)) :
    ∃ s, g.start.uploads.sessions.lookup id = some s ∧ s.upload = u ∧ u.tenantID = t := by
  rcases exec_of_post rfl hpost with ⟨x, w, hI, htake⟩
  change (w.uploads.takeForComplete id t b k).1 = .ok u at htake
  unfold MultipartStore.takeForComplete at htake
  split at htake
  · simp at htake
  rename_i s hs
  split at htake
  · simp at htake
  split at htake
  · simp at htake
  rename_i htenant _
  rw [← Except.ok.inj htake]
  unfold MultipartStore.session at hs
  split at hs
  · rw [hI.sessions] at hs
    exact ⟨s, hs, rfl, not_not.mp htenant⟩
  · simp at hs

theorem parts_of_collect {id : String} {refs : List PartReference}
    (hpost : (residencySpec g).post h (.uploadCollect id refs)
      (.ok parts)) {s : Session} (hs : g.start.uploads.sessions.lookup id = some s) :
    (∀ p ∈ parts, p ∈ s.parts) ∧ parts.length = refs.length := by
  rcases exec_of_post rfl hpost with ⟨x, w, hI, hcollect⟩
  change (w.uploads.collect id refs).1 = .ok parts at hcollect
  unfold MultipartStore.collect at hcollect
  rw [hI.sessions, hs] at hcollect
  simp only [Option.elim] at hcollect
  split at hcollect
  · simp at hcollect
  rename_i result hresult
  rw [← Except.ok.inj hcollect]
  refine ⟨fun p hp => ?_, ?_⟩
  · have hp' : p ∈ result := (List.mem_insertionSort _).mp hp
    rcases Streams.exists_of_mem_mapM hresult hp' with ⟨ref, -, href⟩
    unfold findPart at href
    split at href
    · simp at href
    rename_i q hfind
    split at href
    · simp at href
    · rw [← Except.ok.inj href]
      exact List.mem_of_find?_eq_some hfind
  · rw [List.length_insertionSort, (Streams.forall₂_of_mapM hresult).length_eq]

theorem completeMultipartUpload_resident {residency : List String}
    (hsession : ∀ s, w₀.uploads.sessions.lookup r.uploadID = some s →
      s.upload.tenantID = r.tenantID → s.upload.policy.residency = residency ∧
      Permits cfg r.tenantID residency s.upload.backend ∧
      (∀ p ∈ s.parts, Permits cfg r.tenantID residency p.backend) ∧
      (cfg.dedupEnabled s.upload.policy = true → ∀ k : IndexKey, k.tenantID = r.tenantID → K k)) :
    (completeMultipartUpload cfg r).Follows (residencySpec ⟨cfg, r.tenantID, residency, K, w₀⟩) h := by
  have herror : ∀ e h', (completeError r.uploadID e).Follows
      (residencySpec ⟨cfg, r.tenantID, residency, K, w₀⟩) h' := by
    intro e h'
    cases e <;> trivial
  unfold completeMultipartUpload
  split
  · trivial
  apply orRefuse_resident (allowObjectLockOverwrite_only cfg _ _)
  intro h' _
  split
  · trivial
  · trivial
  · rename_i refs hrefs _
    refine ⟨trivial, fun taken htaken => ?_⟩
    rcases taken with e | u
    · exact herror e _
    rcases session_of_take htaken with ⟨s, hs, rfl, htenant⟩
    rcases hsession s hs htenant with ⟨rfl, hbackend, hparts, hK⟩
    refine ⟨trivial, fun collected hcollected => ?_⟩
    rcases collected with e | parts
    · exact herror e _
    rcases parts_of_collect hcollected hs with ⟨hmem, hlen⟩
    have hne : parts ≠ [] := by
      rintro rfl
      exact hrefs (List.length_eq_zero_iff.mp hlen.symm)
    exact completeWith_resident hbackend (fun p hp => hparts p (hmem p hp)) hne hK

end

theorem storesPermitted_of_conforms {request : ObjectWrite}
    (hstart : Reuses g [] w) (hp : (request.handle g.cfg).Follows (residencySpec g) []) :
    StoresPermitted ⟨g.cfg, request, env⟩ w := by
  intro k m hmem
  have hcalls := (hp.run_within (fun h' x c w' hc hI => hI.keep x hc) hstart env).1
  rcases hcalls _ hmem with hnil | hcall
  · exact absurd hnil (by simp)
  · exact hcall

/-! ## 4. Sequences -/

theorem Reuses.initial (hrows : ∀ k e, g.rows k → g.start.index.rows.lookup k = some e →
    g.RowPermits e) : Reuses g [] g.start :=
  ⟨hrows, fun _ => rfl, rfl⟩

theorem put_storesPermitted {r : PutRequest}
    (hreuse : ReusesPermitted cfg w (.put r)) : StoresPermitted ⟨cfg, .put r, env⟩ w := by
  have hgate : ∀ {residency K}, (putObject cfg r).Follows
      (residencySpec ⟨cfg, r.tenantID, residency, K, w⟩) [] →
      (ObjectFabric.put cfg r).Follows (residencySpec ⟨cfg, r.tenantID, residency, K, w⟩) [] := by
    intro residency K hput
    unfold ObjectFabric.put
    split
    · trivial
    · exact hput
  -- the policy that placement selects fixes the residency list and the rows
  rcases hresolve : cfg.resolveBackend r.tenantID r.bucket r.key with message | placement
  · have hstart : Reuses ⟨cfg, r.tenantID, [], fun _ => False, w⟩ [] w := .initial fun _ _ hk => hk.elim
    refine storesPermitted_of_conforms hstart (hgate (putObject_resident ?_))
    exact fun backend policy hok => absurd (hresolve.symm.trans hok) (by simp)
  rcases placement with ⟨backend, policy⟩
  have hstart : Reuses ⟨cfg, r.tenantID, policy.residency, putRows cfg r policy, w⟩ [] w := by
    apply Reuses.initial
    rintro k e ⟨hdedup, mode, c, hc, rfl⟩ he
    exact hreuse backend policy hresolve hdedup mode c hc e he
  refine storesPermitted_of_conforms hstart (hgate (putObject_resident ?_))
  intro backend' policy' hok
  have hsame := Except.ok.inj (hresolve.symm.trans hok)
  rw [← (Prod.mk.inj hsame).2]
  exact ⟨rfl, fun k hk => hk⟩

theorem copy_storesPermitted
    (hreuse : ReusesPermitted cfg w (.copy r)) : StoresPermitted ⟨cfg, .copy r, env⟩ w := by
  have hstart : Reuses ⟨cfg, r.tenantID, [], fun _ => False, w⟩ [] w := .initial fun _ _ hk => hk.elim
  apply storesPermitted_of_conforms hstart
  exact copyObject_resident (fun e he => absurd he (by simp)) hreuse

theorem complete_storesPermitted {r : CompleteRequest}
    (hreuse : ReusesPermitted cfg w (.complete r)) : StoresPermitted ⟨cfg, .complete r, env⟩ w := by
  by_cases hmine : ∃ s, w.uploads.sessions.lookup r.uploadID = some s ∧ s.upload.tenantID = r.tenantID
  · rcases hmine with ⟨s, hs, htenant⟩
    rcases hreuse s hs htenant with ⟨hbackend, hparts, hrows⟩
    have hstart : Reuses ⟨cfg, r.tenantID, s.upload.policy.residency,
        fun k => cfg.dedupEnabled s.upload.policy = true ∧ k.tenantID = r.tenantID, w⟩ [] w :=
      .initial fun k e hk he => hrows hk.1 k e hk.2 he
    apply storesPermitted_of_conforms hstart
    apply completeMultipartUpload_resident
    intro s' hs' _
    rw [hs] at hs'
    rw [← Option.some.inj hs']
    exact ⟨rfl, hbackend, hparts, fun hdedup k hk => ⟨hdedup, hk⟩⟩
  · have hstart : Reuses ⟨cfg, r.tenantID, [], fun _ => False, w⟩ [] w := .initial fun _ _ hk => hk.elim
    apply storesPermitted_of_conforms hstart
    apply completeMultipartUpload_resident
    exact fun s hs htenant => absurd ⟨s, hs, htenant⟩ hmine

/-! ## 5. Requests that store no manifest -/

def storesNone {β : Type} : Call β → Prop
  | .manifestPut _ _ | .manifestUpdate _ _ | .manifestDelete _ => False
  | _ => True

theorem storesNone_of_inspects {c : Call β} (hc : inspects c) : storesNone c := by
  cases c with
  | manifestPut | manifestUpdate | manifestDelete => exact hc.elim
  | _ => trivial

theorem manifests_of_storesNone {c : Call β} (hc : storesNone c) (x : Choice) (w : World) :
    ((machine cfg.providers).exec x c w).2.manifests = w.manifests := by
  rcases machine_exec cfg.providers x c w with hok | ⟨e, -, hfail⟩
  · rw [hok]
    cases c with
    | manifestPut | manifestUpdate | manifestDelete => exact hc.elim
    | putPiece a body =>
      rcases putPiece_frame cfg.providers w a body with ⟨pieces, hput⟩
      show (w.putPiece cfg.providers a body).2.manifests = _
      rw [hput]
    | copyPiece src dst =>
      rcases copyPiece_exec cfg.providers x src dst w with ⟨e, -, hcopy⟩ | ⟨body, -, hcopy⟩
      · rw [hcopy]
      rcases putPiece_frame cfg.providers w dst body with ⟨pieces, hput⟩
      rw [hcopy, hput]
    | _ => rfl
  · rw [hfail]

theorem createMultipartUpload_storesNone (r : CreateUploadRequest) :
    (createMultipartUpload cfg r).Only storesNone := by
  have hcreate : ∀ backend policy, (createPlaced cfg r backend policy).Only storesNone := by
    intro backend policy
    unfold createPlaced
    split
    · trivial
    refine .ask trivial fun now => ?_
    split
    · trivial
    · refine ⟨trivial, fun created => ?_⟩
      cases created <;> trivial
  unfold createMultipartUpload
  split
  · trivial
  split
  · trivial
  · trivial
  · unfold placed
    split
    · trivial
    split
    · trivial
    split
    · trivial
    apply ((cfg.effectiveEncryptionMode_only _ _ _).mono fun _ => storesNone_of_inspects).bind
    intro mode
    cases mode with
    | error message => trivial
    | ok mode => exact hcreate _ _

theorem uploadPart_storesNone (r : UploadPartRequest) :
    (ObjectFabric.uploadPart cfg r).Only storesNone := by
  unfold ObjectFabric.uploadPart
  split
  · trivial
  refine .ask trivial fun found => ?_
  split
  · trivial
  · trivial
  · rename_i u
    unfold uploadPartTo
    split
    · trivial
    split
    · trivial
    have hrecord : ∀ n, (recordPlaintextHash cfg r u n).Only storesNone := by
      intro n
      unfold recordPlaintextHash
      split
      · exact ⟨trivial, fun _ => trivial⟩
      · trivial
    apply (hrecord _).bind
    intro _
    split
    · trivial
    refine ⟨trivial, fun res => ?_⟩
    rcases res with e | res
    · trivial
    refine ⟨trivial, fun _ => ⟨trivial, fun now => ⟨trivial, fun session => ?_⟩⟩⟩
    cases session <;> exact ⟨trivial, fun _ => trivial⟩

theorem abortMultipartUpload_storesNone (t id : String) :
    (abortMultipartUpload cfg t id).Only storesNone := by
  have hdelete (parts : List Part) : (deleteUploadedParts cfg parts).Only storesNone :=
    deleteUploadedParts_only cfg (fun _ => trivial) parts
  refine .ask trivial fun taken => ?_
  split
  · trivial
  · trivial
  · trivial
  · exact ⟨trivial, fun parts => (hdelete parts).bind fun _ => trivial⟩

/-- Every manifest that the gateway stores names pieces on backends that pass the residency check
at the time of the request, as long as what each request takes over from the stores does. -/
theorem stored_pieces_permitted {run : List Served} {w : World}
    (hreuse : Throughout (fun s w => ReusesPermitted s.cfg w s.request) run w) :
    Throughout StoresPermitted run w := by
  refine hreuse.imp fun s w hs => ?_
  rcases s with ⟨cfg, request, env⟩
  have hnone : ∀ {p : Handler}, p.Only storesNone → ∀ k m, (⟨.manifestPut k m, .ok ()⟩ : Event Call) ∉
      (p.run (machine cfg.providers) env [] w).2.1 := by
    intro p hp k m hmem
    have hcalls : ∀ e ∈ (p.run (machine cfg.providers) env [] w).2.1, e ∈ [] ∨ storesNone e.call :=
      (hp.run_within (I := fun _ => True) (fun _ _ _ _ _ => trivial) trivial env []).1
    rcases hcalls _ hmem with hnil | hcall
    · exact absurd hnil (by simp)
    · exact hcall
  cases request with
  | put r => exact put_storesPermitted hs
  | copy r => exact copy_storesPermitted hs
  | complete r => exact complete_storesPermitted hs
  | create r => exact fun k m hmem => absurd hmem (hnone (createMultipartUpload_storesNone r) k m)
  | uploadPart r => exact fun k m hmem => absurd hmem (hnone (uploadPart_storesNone r) k m)
  | abort t id => exact fun k m hmem => absurd hmem (hnone (abortMultipartUpload_storesNone t id) k m)

theorem settings_storesNone (tenantID bucket : String) (r : BucketSettingsRequest) :
    (r.handle cfg tenantID bucket).Only storesNone := by
  cases r with
  | putVersioning key status =>
    have hsuspend : ∀ state, (refuseSuspend cfg tenantID bucket state).Only storesNone := by
      intro state
      unfold refuseSuspend Config.bucketObjectLock
      split
      · trivial
      split
      · refine ⟨trivial, fun lock => ?_⟩
        rcases lock with e | lock
        · trivial
        · simp only [Proc.ret_bind]
          split <;> trivial
      · trivial
    show (putBucketVersioning cfg tenantID bucket key status).Only storesNone
    unfold putBucketVersioning
    split
    · trivial
    split
    · trivial
    dsimp only
    split
    · trivial
    refine orRefuse_only (hsuspend _) ⟨trivial, fun b => ?_⟩
    cases b <;> trivial
  | putObjectLock key on rule =>
    show (putObjectLockConfiguration cfg tenantID bucket key on rule).Only storesNone
    unfold putObjectLockConfiguration Config.bucketVersioning
    split
    · trivial
    split
    · trivial
    split
    · trivial
    dsimp only
    split
    · trivial
    split
    · refine ⟨trivial, fun b => ?_⟩
      rcases b with e | state
      · trivial
      simp only [Proc.ret_bind]
      split
      · trivial
      refine ⟨trivial, fun b => ?_⟩
      cases b <;> trivial
    · trivial

/-! ## 6. Unverified tenants -/

def afterRequests (run : List Served) (w : World) : World :=
  run.foldl (fun w s => (s.run w).2.2) w

theorem Sent.manifests_of_gated {s : Sent}
    (hunverified : unverified s.cfg s.request.tenantID = true) (hgated : s.request.gated s.cfg) :
    (s.after w).manifests = w.manifests := by
  rcases s with ⟨cfg, request, env⟩
  have hnone : ∀ {p : Handler}, p.Only storesNone →
      (p.run (machine cfg.providers) env [] w).2.2.manifests = w.manifests := fun hp =>
    (hp.run_within (I := fun w' => w'.manifests = w.manifests)
      (fun x c w' hc hw' => (manifests_of_storesNone hc x w').trans hw') rfl env []).2
  match request with
  | .write (.put r) =>
    change unverified cfg r.tenantID = true at hunverified
    show ((ObjectFabric.put cfg r).run (machine cfg.providers) env [] w).2.2.manifests = _
    unfold ObjectFabric.put
    rw [if_pos hunverified]
    rfl
  | .write (.create r) => exact hnone (createMultipartUpload_storesNone r)
  | .write (.uploadPart r) => exact hnone (uploadPart_storesNone r)
  | .write (.abort t id) => exact hnone (abortMultipartUpload_storesNone t id)
  | .settings t bucket r => exact hnone (settings_storesNone t bucket r)
  | .get r =>
    have hend := (getObject_ensures (w := w) cfg r).run (x := env) (fun _ => trivial) []
    rcases hend with hsame | ⟨m, p, body, hmay, -⟩
    · exact congrArg World.manifests hsame
    · have hoff : cfg.hasReadRepair = false := hgated
      exact absurd hmay.wired (by simp [hoff])
  | .write (.copy r) | .write (.complete r) | .delete o bypass | .amend o a => exact hgated.elim

/-- A tenant whose e-mail address is not verified gets no manifest stored or changed, as long as it
sends none of the requests that do not ask. -/
theorem unverified_stores_nothing {tenantID : String} {run : List Sent} {w : World}
    (htenant : ∀ s ∈ run, s.request.tenantID = tenantID ∧ unverified s.cfg tenantID = true)
    (hgated : ∀ s ∈ run, s.request.gated s.cfg) :
    (afterSent run w).manifests = w.manifests := by
  induction run generalizing w with
  | nil => rfl
  | cons s ss ih => ?_
  rcases htenant s List.mem_cons_self with ⟨hs, hunverified⟩
  have hfirst : (s.after w).manifests = w.manifests :=
    Sent.manifests_of_gated (hs ▸ hunverified) (hgated s List.mem_cons_self)
  have hrest := ih (w := s.after w) (fun t ht => htenant t (List.mem_cons_of_mem _ ht))
    fun t ht => hgated t (List.mem_cons_of_mem _ ht)
  exact hrest.trans hfirst

end

/-! ## 7. Runs -/

/-- A backend in the United States and one in Germany; the tenant's allowlist and the backend that
placement selects change over time. -/
def residencyGateway (allowlist : List String) (backend : String) : Config :=
  { sampleGateway with
    providers := fun name =>
      if name = "us" then some { country := "US" }
      else if name = "de" then some { country := "DE" }
      else none
    resolveBackend := fun _ _ _ => .ok (backend, dedupPolicy)
    residency := some (ResidencyEnforcer.check asciiUpper (some ⟨some fun _ => .ok allowlist⟩)) }

/-- The same content, put while both countries are allowed and again after the move to Germany. -/
def residencyRun : List Served :=
  [⟨residencyGateway ["US", "DE"] "us", .put samplePut, fun _ => sampleClock 0⟩,
    ⟨residencyGateway ["DE"] "de", .put samplePut, fun _ => sampleClock 1⟩]

/-- The second PUT passes the check for its German backend and stores a manifest whose piece lies on
the American one, which the same check refuses. -/
theorem dedup_hit_escapes_residency :
    ((afterRequests residencyRun {}).manifests.get (sampleKey
      "3505da939d0acad72ce179ea469d2c69f94b5a6c4b01464e0deac7b112b0f088")).map
        (fun m => m.pieces.map Piece.backend) = .ok ["us"] ∧
      ResidencyEnforcer.check asciiUpper (some ⟨some fun _ => .ok ["DE"]⟩) "tenant" "US"
        dedupPolicy.residency = .error errResidencyViolation := by
  decide +kernel

/-- The second PUT is a hit on the American piece, while both countries are allowed. -/
def permittedRun : List Served :=
  [⟨residencyGateway ["US", "DE"] "us", .put samplePut, fun _ => sampleClock 0⟩,
    ⟨residencyGateway ["US", "DE"] "de", .put samplePut, fun _ => sampleClock 1⟩]

theorem dedup_hit_permitted :
    Throughout StoresPermitted permittedRun {} ∧
      ((afterRequests permittedRun {}).manifests.get (sampleKey
        "3505da939d0acad72ce179ea469d2c69f94b5a6c4b01464e0deac7b112b0f088")).map
          (fun m => m.pieces.map Piece.backend) = .ok ["us"] := by
  refine ⟨stored_pieces_permitted ⟨?_, ?_, trivial⟩, by decide +kernel⟩
  · intro backend policy _ _ mode c _ e he
    exact absurd he (by simp)
  · intro backend policy hresolve _ mode c _ e he
    obtain ⟨-, rfl⟩ := Prod.mk.inj (Except.ok.inj hresolve)
    have hrows : ∀ x ∈ (afterRequests (permittedRun.take 1) {}).index.rows.entries,
        x.2.backend = "us" ∧ x.2.pieceIDs = [] := by decide +kernel
    obtain ⟨hbackend, hpieces⟩ : e.backend = "us" ∧ e.pieceIDs = [] :=
      hrows _ (Finmap.mem_lookup_iff.mp he)
    refine ⟨⟨{ country := "US" }, by rw [hbackend]; rfl, fun check hcheck => ?_⟩, by simp [hpieces]⟩
    rw [← Option.some.inj hcheck]
    decide +kernel

def copySha256Hex : String → String
  | "copy" => "6f5a6034e770acbfb3f797e6a7eb7948d470d45f9928f92b7d72dc7c45e6d0cd"
  | "tenant\x00bucket\x00copy\x003" =>
    "bcbd4e2351dd82ecabef646ba33100c4cbf1565d11e30bafa0e505905f8e1acf"
  | s => sampleSha256Hex s

def unverifiedGateway : Config :=
  { sampleGateway with
    sha256Hex := copySha256Hex
    -- the MD5 of no bytes: the backend gives no ETags
    md5Hex := fun _ => "d41d8cd98f00b204e9800998ecf8427e"
    hasBucketConfig := true
    verifiedCheck := some fun _ => (false, true) }

def unverifiedCreate : CreateUploadRequest :=
  { tenantID := "tenant", bucket := "bucket", key := "key", uploadID := .ok "upload" }

def unverifiedPart : UploadPartRequest :=
  { tenantID := "tenant", uploadID := "upload", partNumber := some 1, body := [97] }

def unverifiedComplete : CompleteRequest :=
  { tenantID := "tenant", bucket := "bucket", key := "key", uploadID := "upload",
    parts := .ok [{ partNumber := 1 }] }

def unverifiedCopy : CopyRequest :=
  { tenantID := "tenant", dstBucket := "bucket", dstKey := "copy",
    source := .ok ("bucket", "key", "") }

def unverifiedAt (request : ObjectRequest) (n : Int) : Sent :=
  ⟨unverifiedGateway, request, fun _ => sampleClock n⟩

def unverifiedUpload : List Sent :=
  [unverifiedAt (.write (.create unverifiedCreate)) 0,
    unverifiedAt (.write (.uploadPart unverifiedPart)) 1,
    unverifiedAt (.write (.complete unverifiedComplete)) 2]

def unverifiedDelete : List Sent :=
  [unverifiedAt (.settings "tenant" "bucket" (.putVersioning "" "Enabled")) 0,
    unverifiedAt (.delete samplePut.object false) 1]

/-- An unverified tenant, refused a PUT, stores an object through a multipart upload and a second
one by copying it, and a delete marker. -/
theorem unverified_uploads_and_copies :
    (((unverifiedAt (.write (.put samplePut)) 0).request.handle unverifiedGateway).run
      (machine unverifiedGateway.providers) (fun _ => sampleClock 0) [] {}).1.status = 403 ∧
      ((afterSent unverifiedUpload {}).manifests.get
        (unverifiedGateway.manifestKey "tenant" "bucket" "key" "")).isOk = true ∧
      ((afterSent (unverifiedUpload ++ [unverifiedAt (.write (.copy unverifiedCopy)) 3])
        {}).manifests.get
        (unverifiedGateway.manifestKey "tenant" "bucket" "copy" "")).isOk = true ∧
      ((afterSent unverifiedDelete {}).manifests.get
        (unverifiedGateway.manifestKey "tenant" "bucket" "key" "")).map
          ObjectManifest.deleteMarker = .ok true := by
  decide +kernel

theorem unverified_part_stores_nothing :
    (afterSent (unverifiedDelete.take 1 ++ unverifiedUpload.take 2) {}).manifests =
      ({} : World).manifests := by
  have hrun : ∀ s ∈ unverifiedDelete.take 1 ++ unverifiedUpload.take 2,
      s = unverifiedAt (.settings "tenant" "bucket" (.putVersioning "" "Enabled")) 0 ∨
      s = unverifiedAt (.write (.create unverifiedCreate)) 0 ∨
      s = unverifiedAt (.write (.uploadPart unverifiedPart)) 1 := by
    simp [unverifiedDelete, unverifiedUpload]
  refine @unverified_stores_nothing "tenant" _ _ ?_ ?_
  · intro s hs
    rcases hrun s hs with rfl | rfl | rfl <;> exact ⟨rfl, rfl⟩
  · intro s hs
    rcases hrun s hs with rfl | rfl | rfl <;> trivial

end ObjectFabric
