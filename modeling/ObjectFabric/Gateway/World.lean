import ObjectFabric.Compliance.LegalHold
import ObjectFabric.Interleaving.Pool
import ObjectFabric.Store.BucketConfig
import ObjectFabric.Store.Multipart

/-!
# World — the stores behind the gateway and the calls made on them

A request handler is a program whose calls are the store, index and backend operations it invokes,
in the order of the source.  Each call is one atomic step on the `World`.  At each step the
environment gives the clock reading, decides whether the call fails (without effect), and fixes the
order in which a Go map is listed.
-/

namespace ObjectFabric

open Interleaving

structure Provider where
  etagOf : String → Bytes → String := fun _ _ => ""
  locatorOf : String → String := fun _ => ""
  country : String := ""
  /-- The provider copies pieces on the server side. -/
  serverSideCopy : Bool := false

structure PutResult where
  pieceID : String
  etag : String
  sizeBytes : Int
  locator : String
  deriving DecidableEq, Repr

structure World where
  manifests : ManifestStore := {}
  index : ContentIndex := {}
  pieces : FMap PieceAddr Bytes := ∅
  buckets : BucketConfig := {}
  uploads : MultipartStore := {}
  legalHolds : List LegalHold := []

structure Choice where
  now : Time := 0
  fault : Bool := false
  order : List IndexKey := []

inductive Call : Type → Type where
  | now : Call Time
  | getVersioning (tenantID bucket : String) : Call (Except StoreError VersioningState)
  | setVersioning (tenantID bucket : String) (state : VersioningState) :
      Call (Except StoreError Unit)
  | getObjectLock (tenantID bucket : String) : Call (Except StoreError LockConfig)
  | setObjectLock (tenantID bucket : String) (cfg : LockConfig) : Call (Except StoreError Unit)
  | getEncryption (tenantID bucket : String) : Call (Except StoreError SseConfig)
  | legalHoldActive (tenantID bucket key : String) : Call (Except StoreError Nat)
  | manifestPut (k : ManifestKey) (m : ObjectManifest) : Call (Except StoreError Unit)
  | manifestUpdate (k : ManifestKey) (m : ObjectManifest) : Call (Except StoreError Unit)
  | manifestGet (k : ManifestKey) : Call (Except StoreError ObjectManifest)
  | manifestDelete (k : ManifestKey) : Call (Except StoreError Unit)
  | hasManifestWithPieceID (tenantID pieceID : String) : Call (Except StoreError Bool)
  | manifestList (tenantID bucket cursor : String) (limit : Int) :
      Call (Except StoreError (List ObjectManifest × String))
  | manifestListVersions (tenantID bucket objectKeyHash : String) :
      Call (Except StoreError (List ObjectManifest))
  | manifestScan (after : Option ManifestKey) (limit : Int) :
      Call (Except StoreError (List (ManifestKey × ObjectManifest) × Option ManifestKey))
  | indexLookup (k : IndexKey) : Call (Except StoreError ContentIndexEntry)
  | indexLookupByPlaintextHash (tenantID plaintextHash : String) :
      Call (Except StoreError ContentIndexEntry)
  | indexRegister (e : ContentIndexEntry) : Call (Except StoreError Unit)
  | indexIncrementRef (k : IndexKey) : Call (Except StoreError Unit)
  | indexDecrementRef (k : IndexKey) : Call (Except StoreError Int)
  | indexDelete (k : IndexKey) : Call (Except StoreError Unit)
  | indexScanAll (tenantID : String) : Call (Except StoreError (List ContentIndexEntry))
  | indexListTenants : Call (Except StoreError (List String))
  | putPiece (a : PieceAddr) (body : Bytes) : Call (Except StoreError PutResult)
  | getPiece (a : PieceAddr) : Call (Except StoreError Bytes)
  | deletePiece (a : PieceAddr) : Call (Except StoreError Unit)
  | copyPiece (src dst : PieceAddr) : Call (Except StoreError PutResult)
  | uploadCreate (u : Upload) : Call (Except StoreError Unit)
  | uploadGet (tenantID id : String) : Call (Except StoreError Upload)
  | uploadSetPartHash (id : String) (partNumber : Int) (hash : Bytes) : Call Unit
  | uploadSetPlaintextPartHash (id : String) (partNumber : Int) (hash : Bytes) : Call Unit
  | uploadPartHash (id : String) (partNumber : Int) : Call (Option Bytes)
  | uploadPlaintextPartHash (id : String) (partNumber : Int) : Call (Option Bytes)
  | uploadPlaintextPartHashCount (id : String) : Call Nat
  | uploadRecordPart (id : String) (part : Part) : Call Unit
  | uploadTakeForComplete (id tenantID bucket objectKey : String) : Call (Except StoreError Upload)
  | uploadCollect (id : String) (expected : List PartReference) :
      Call (Except StoreError (List Part))
  | uploadTakeForAbort (id tenantID : String) : Call (Except StoreError Upload)
  | uploadParts (id : String) : Call (List Part)

variable {providers : String → Option Provider}

namespace World

/-- `PutPiece` overwrites whatever lies under the piece ID. -/
def putPiece (providers : String → Option Provider) (w : World) (a : PieceAddr) (body : Bytes) :
    Except StoreError PutResult × World :=
  match providers a.backend with
  | none => (.error (.other "provider not registered"), w)
  | some p => (.ok ⟨a.pieceID, p.etagOf a.pieceID body, body.length, p.locatorOf a.pieceID⟩,
      { w with pieces := w.pieces.insert a body })

theorem putPiece_pieceID {w : World} {a : PieceAddr}
    {body : Bytes} {res : PutResult} (h : (w.putPiece providers a body).1 = .ok res) :
    res.pieceID = a.pieceID := by
  unfold putPiece at h
  cases hp : providers a.backend with
  | none => simp [hp] at h
  | some p =>
    simp only [hp, Except.ok.injEq] at h
    rw [← h]

def getPiece (w : World) (a : PieceAddr) : Except StoreError Bytes :=
  match w.pieces.lookup a with
  | none => .error .pieceNotFound
  | some body => .ok body

def deletePiece (w : World) (a : PieceAddr) : World := { w with pieces := w.pieces.erase a }

def lookupByPlaintextHash (w : World) (order : List IndexKey) (tenantID plaintextHash : String) :
    Except StoreError ContentIndexEntry :=
  if plaintextHash = "" then
    .error .contentNotFound
  else
    match (w.index.scanAll order tenantID).find? fun e => e.plaintextHash = plaintextHash with
    | none => .error .contentNotFound
    | some e => .ok e

def onIndex {α : Type} (w : World) (r : α × ContentIndex) : α × World :=
  (r.1, { w with index := r.2 })

def onManifests {α : Type} (w : World) (r : α × ManifestStore) : α × World :=
  (r.1, { w with manifests := r.2 })

def onBuckets {α : Type} (w : World) (r : α × BucketConfig) : α × World :=
  (r.1, { w with buckets := r.2 })

def onUploads {α : Type} (w : World) (r : α × MultipartStore) : α × World :=
  (r.1, { w with uploads := r.2 })

def exec (providers : String → Option Provider) {β : Type} (x : Choice) (c : Call β) (w : World) :
    β × World :=
  match c with
  | .now => (x.now, w)
  | .getVersioning t b => (w.buckets.getVersioning t b, w)
  | .setVersioning t b state => w.onBuckets (w.buckets.setVersioning t b state)
  | .getObjectLock t b => (w.buckets.getObjectLock t b, w)
  | .setObjectLock t b cfg => w.onBuckets (w.buckets.setObjectLock t b cfg)
  | .getEncryption t b => (w.buckets.getEncryption t b, w)
  | .legalHoldActive t b k => (.ok (activeHolds w.legalHolds x.now t b k).length, w)
  | .manifestPut k m => (.ok (), { w with manifests := w.manifests.put k m })
  | .manifestUpdate k m => w.onManifests (w.manifests.updateManifest k m)
  | .manifestGet k => (w.manifests.get k, w)
  | .manifestDelete k => w.onManifests (w.manifests.delete k)
  | .hasManifestWithPieceID t p => (.ok (w.manifests.hasManifestWithPieceID t p), w)
  | .manifestList t b cursor limit => (w.manifests.list t b cursor limit, w)
  | .manifestListVersions t b hash => (.ok (w.manifests.listVersions t b hash), w)
  | .manifestScan after limit => (.ok (w.manifests.scanManifests after limit), w)
  | .indexLookup k => (w.index.lookup k, w)
  | .indexLookupByPlaintextHash t h => (w.lookupByPlaintextHash x.order t h, w)
  | .indexRegister e => w.onIndex (w.index.register e)
  | .indexIncrementRef k => w.onIndex (w.index.incrementRef k)
  | .indexDecrementRef k => w.onIndex (w.index.decrementRef k)
  | .indexDelete k => w.onIndex (w.index.delete k)
  | .indexScanAll t => (.ok (w.index.scanAll x.order t), w)
  | .indexListTenants => (.ok (w.index.listTenants x.order), w)
  | .putPiece a body => w.putPiece providers a body
  | .getPiece a => (w.getPiece a, w)
  | .deletePiece a => (.ok (), w.deletePiece a)
  | .copyPiece src dst =>
    match w.getPiece src with
    | .error e => (.error e, w)
    | .ok body => w.putPiece providers dst body
  | .uploadCreate u => w.onUploads (w.uploads.create u)
  | .uploadGet t id => (w.uploads.get t id, w)
  | .uploadSetPartHash id n hash => ((), { w with uploads := w.uploads.modify id fun s =>
      { s with partHashes := s.partHashes.insert n hash } })
  | .uploadSetPlaintextPartHash id n hash => ((), { w with uploads := w.uploads.modify id fun s =>
      { s with plaintextPartHashes := s.plaintextPartHashes.insert n hash } })
  | .uploadPartHash id n => ((w.uploads.sessions.lookup id).bind fun s => s.partHashes.lookup n, w)
  | .uploadPlaintextPartHash id n =>
    ((w.uploads.sessions.lookup id).bind fun s => s.plaintextPartHashes.lookup n, w)
  | .uploadPlaintextPartHashCount id =>
    ((w.uploads.sessions.lookup id).elim 0 fun s => s.plaintextPartHashes.keys.card, w)
  | .uploadRecordPart id part => ((), { w with uploads := w.uploads.modify id fun s =>
      { s with parts := setPart part s.parts } })
  | .uploadTakeForComplete id t b k => w.onUploads (w.uploads.takeForComplete id t b k)
  | .uploadCollect id expected => w.onUploads (w.uploads.collect id expected)
  | .uploadTakeForAbort id t => w.onUploads (w.uploads.takeForAbort id t)
  | .uploadParts id => ((w.uploads.sessions.lookup id).elim [] Session.parts, w)

/-- The answer of a call that fails, for the calls that can: reads of the clock and of a session
object held by pointer cannot. -/
def failure {β : Type} (c : Call β) : Option β :=
  let e : StoreError := .other "unavailable"
  match c with
  | .getVersioning _ _ | .setVersioning _ _ _ | .getObjectLock _ _ | .setObjectLock _ _ _
  | .getEncryption _ _ | .legalHoldActive _ _ _ | .manifestPut _ _ | .manifestUpdate _ _ | .manifestGet _
  | .manifestDelete _ | .hasManifestWithPieceID _ _ | .manifestList _ _ _ _
  | .manifestListVersions _ _ _ | .manifestScan _ _ | .indexLookup _
  | .indexLookupByPlaintextHash _ _ | .indexRegister _ | .indexIncrementRef _
  | .indexDecrementRef _ | .indexDelete _ | .indexScanAll _ | .indexListTenants
  | .putPiece _ _ | .getPiece _ | .deletePiece _ | .copyPiece _ _ | .uploadCreate _
  | .uploadGet _ _ | .uploadTakeForComplete _ _ _ _ | .uploadCollect _ _
  | .uploadTakeForAbort _ _ => some (.error e)
  | _ => none

end World

def machine (providers : String → Option Provider) : Machine Call World Choice where
  exec x c w :=
    match x.fault, World.failure c with
    | true, some e => (e, w)
    | _, _ => World.exec providers x c w

theorem machine_exec (providers : String → Option Provider) {β : Type} (x : Choice) (c : Call β)
    (w : World) :
    (machine providers).exec x c w = World.exec providers x c w ∨
      ∃ e, World.failure c = some e ∧ (machine providers).exec x c w = (e, w) := by
  change (match x.fault, World.failure c with
    | true, some e => (e, w)
    | _, _ => World.exec providers x c w) = _ ∨ _
  cases hx : x.fault with
  | false => exact Or.inl rfl
  | true =>
    cases hf : World.failure c with
    | none => exact Or.inl rfl
    | some e => exact Or.inr ⟨e, rfl, by simp [machine, hx, hf]⟩

theorem machine_exec_of_no_fault {x : Choice}
    (hx : x.fault = false) {β : Type} (c : Call β) (w : World) :
    (machine providers).exec x c w = World.exec providers x c w := by
  simp only [machine, hx]

theorem copyPiece_exec (providers : String → Option Provider) (x : Choice) (src dst : PieceAddr)
    (w : World) :
    (∃ e, w.getPiece src = .error e ∧
      World.exec providers x (.copyPiece src dst) w = (.error e, w)) ∨
    ∃ body, w.getPiece src = .ok body ∧
      World.exec providers x (.copyPiece src dst) w = w.putPiece providers dst body := by
  cases hget : w.getPiece src with
  | error e => exact Or.inl ⟨e, rfl, by simp only [World.exec, hget]⟩
  | ok body => exact Or.inr ⟨body, rfl, by simp only [World.exec, hget]⟩

theorem getPiece_exec (providers : String → Option Provider) (x : Choice) (a : PieceAddr) (w : World) :
    ∃ r, (machine providers).exec x (.getPiece a) w = (r, w) ∧
      ∀ body, r = .ok body → w.pieces.lookup a = some body := by
  rcases machine_exec providers x (.getPiece a) w with hok | ⟨e, he, hfail⟩
  · refine ⟨w.getPiece a, hok, fun body hbody => ?_⟩
    unfold World.getPiece at hbody
    split at hbody
    · simp at hbody
    · rename_i hlook
      rw [hlook, Except.ok.inj hbody]
  · refine ⟨e, hfail, fun body hbody => ?_⟩
    have he' : Except.error (.other "unavailable") = e := Option.some.inj he
    rw [← he'] at hbody
    simp at hbody

theorem exec_or_error {β : Type} {c : Call (Except StoreError β)}
    (hc : World.failure c = some (.error (.other "unavailable"))) (x : Choice) (w : World) :
    (∃ e, (machine providers).exec x c w = (.error e, w)) ∨
      (machine providers).exec x c w = World.exec providers x c w := by
  rcases machine_exec providers x c w with hok | ⟨e, he, hfail⟩
  · exact Or.inr hok
  · exact Or.inl ⟨_, hfail.trans (by rw [Option.some.inj (he.symm.trans hc)])⟩

theorem putPiece_exec {target : String}
    (htarget : (providers target).isSome = true) (x : Choice) (pieceID : String) (body : Bytes) (w : World) :
    (∃ e, (machine providers).exec x (.putPiece ⟨target, pieceID⟩ body) w = (.error e, w)) ∨
      ∃ res, (machine providers).exec x (.putPiece ⟨target, pieceID⟩ body) w =
        (.ok res, { w with pieces := w.pieces.insert ⟨target, pieceID⟩ body }) := by
  refine (exec_or_error rfl x w).imp_right fun hok => ?_
  rcases Option.isSome_iff_exists.mp htarget with ⟨provider, hprovider⟩
  rw [hok]
  show ∃ res, w.putPiece providers ⟨target, pieceID⟩ body = _
  rw [World.putPiece, hprovider]
  exact ⟨_, rfl⟩

theorem manifestPut_exec (providers : String → Option Provider) (x : Choice) (k : ManifestKey)
    (m : ObjectManifest) (w : World) :
    (∃ e, (machine providers).exec x (.manifestPut k m) w = (.error e, w)) ∨
      (machine providers).exec x (.manifestPut k m) w =
        (.ok (), { w with manifests := w.manifests.put k m }) :=
  exec_or_error rfl x w

theorem deletePiece_exec (providers : String → Option Provider) (x : Choice) (a : PieceAddr)
    (w : World) :
    (∃ e, (machine providers).exec x (.deletePiece a) w = (.error e, w)) ∨
      (machine providers).exec x (.deletePiece a) w = (.ok (), w.deletePiece a) :=
  exec_or_error rfl x w

theorem manifestScan_exec (providers : String → Option Provider) (x : Choice)
    (after : Option ManifestKey) (limit : Int) (w : World) :
    (∃ e, (machine providers).exec x (.manifestScan after limit) w = (.error e, w)) ∨
      (machine providers).exec x (.manifestScan after limit) w =
        (.ok (w.manifests.scanManifests after limit), w) :=
  exec_or_error rfl x w

theorem now_exec (providers : String → Option Provider) (x : Choice) (w : World) :
    (machine providers).exec x .now w = (x.now, w) := by
  rcases machine_exec providers x .now w with hok | ⟨e, he, -⟩
  · exact hok
  · simp [World.failure] at he

/-- The response of a handler: the status, and on an error its code and message. -/
structure Response where
  status : Nat
  code : String := ""
  message : String := ""
  versionID : String := ""
  etag : String := ""
  lastModified : Time := 0
  /-- The body of a GET: one part, or one for each range. -/
  body : List Bytes := []
  /-- The body broke off after the status had been sent. -/
  truncated : Bool := false
  deriving DecidableEq, Repr

abbrev Handler := Proc Call Response

def writeError (status : Nat) (code message : String) : Handler := .ret { status, code, message }

@[simp] theorem writeError_eq (status : Nat) (code message : String) :
    writeError status code message = .ret { status, code, message } := rfl

export Proc (ask)

def lastRead : History Call → Option ObjectManifest
  | [] => none
  | ⟨.manifestGet _, .ok m⟩ :: _ => some m
  | _ :: h => lastRead h

end ObjectFabric
