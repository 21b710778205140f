import ObjectFabric.Gateway.ObjectLock

/-!
# Delete — DELETE of an object version

`Handler.Delete` of `api/s3compat/handler.go`.  On a versioned bucket a DELETE that names no version
only puts a delete marker on top.  Otherwise the manifest goes first, and then the bytes: a
deduplicated version gives up its reference and takes the piece along only with the last one.
-/

namespace ObjectFabric

open Interleaving

def deletePiecesBestEffort (cfg : Config) : List Piece → Proc Call Unit
  | [] => return ()
  | p :: ps =>
    if (cfg.providers p.backend).isSome then do
      let _ ← ask (.deletePiece p.addr)
      deletePiecesBestEffort cfg ps
    else
      deletePiecesBestEffort cfg ps

/-- The bytes of a removed version: a deduplicated one gives up its reference, and takes `pieces`
along only with the last one. -/
def giveBack {α : Type} (cfg : Config) (tenantID : String) (m : ObjectManifest)
    (pieces : List Piece) (done : α) (decrementFailed deleteFailed : StoreError → α) :
    Proc Call α :=
  if m.contentHash = "" ∨ cfg.hasContentIndex = false then do
    deletePiecesBestEffort cfg pieces
    return done
  else do
    match ← ask (.indexDecrementRef ⟨tenantID, m.contentHash⟩) with
    | .error .contentNotFound =>
      deletePiecesBestEffort cfg pieces
      return done
    | .error e => return decrementFailed e
    | .ok newCount =>
      if newCount = 0 then
        match ← ask (.indexDelete ⟨tenantID, m.contentHash⟩) with
        | .ok () =>
          deletePiecesBestEffort cfg pieces
          return done
        | .error e => return deleteFailed e
      else
        return done

def releasePieces (cfg : Config) (tenantID : String) (m : ObjectManifest) :
    Proc Call (Option Response) :=
  giveBack cfg tenantID m m.pieces none
    (fun e => some { status := 500, code := "ContentIndexDecrementFailed", message := e.text })
    fun
      -- the row is gone or taken again: the piece may still be referenced
      | .contentNotFound | .refCountNonZero => none
      | e => some { status := 500, code := "ContentIndexDeleteFailed", message := e.text }

def putDeleteMarker (cfg : Config) (o : ObjectRef) : Handler := do
  let markerID := cfg.newPieceID o.tenantID o.bucket o.key (← ask .now)
  let createdAt ← ask .now
  let marker : ObjectManifest :=
    { tenantID := o.tenantID, bucket := o.bucket, objectKey := o.key,
      objectKeyHash := cfg.hashObjectKey o.key, versionID := markerID, deleteMarker := true,
      createdAt }
  match ← ask (.manifestPut (cfg.manifestKey o.tenantID o.bucket o.key markerID) marker) with
  | .error e => writeError 500 "DeleteMarkerPutFailed" e.text
  | .ok () => return { status := 204, versionID := markerID }

/-- A compliance hold on the object forbids the removal of any of its versions. -/
def refuseLegalHold (cfg : Config) (o : ObjectRef) : Proc Call (Option Response) :=
  if !cfg.hasLegalHoldStore then
    return none
  else do
    match ← ask (.legalHoldActive o.tenantID o.bucket o.key) with
    | .error e => return some { status := 500, code := "LegalHoldCheckFailed", message := e.text }
    | .ok holds =>
      if 0 < holds then
        return some { status := 403, code := "ObjectUnderLegalHold",
                      message := "object is under an active legal hold" }
      else
        return none

def deleteVersion (cfg : Config) (o : ObjectRef) (bypassGovernance : Bool) : Handler := do
  match ← ask (.manifestGet (o.manifestKey cfg)) with
  | .error .manifestNotFound => return { status := 204 }
  | .error e => writeError 500 "ManifestGetFailed" e.text
  | .ok manifest =>
    let now ← ask .now
    match objectLockBlocksDelete manifest now bypassGovernance with
    | some message => writeError 403 "AccessDenied" message
    | none =>
      let removed ← ask (.manifestDelete
        (cfg.manifestKey o.tenantID o.bucket o.key manifest.versionID))
      match removed with
      | .ok () | .error .manifestNotFound =>
        match ← releasePieces cfg o.tenantID manifest with
        | some response => return response
        | none => return { status := 204 }
      | .error e => writeError 500 "ManifestDeleteFailed" e.text

/-- The handler; `cfg.hasLegalHoldStore` says whether a compliance hold store is wired. -/
def deleteObject (cfg : Config) (o : ObjectRef) (bypassGovernance : Bool) : Handler :=
  if o.bucket = "" ∨ o.key = "" then
    writeError 400 "InvalidArgument" "path must be /\x7bbucket\x7d/\x7bkey...\x7d"
  else do
    match ← cfg.bucketVersioning o.tenantID o.bucket with
    | .error e => writeError 500 "VersioningLookupFailed" e.text
    | .ok versioning =>
      if versioning = .enabled ∧ o.versionID = "" then
        putDeleteMarker cfg o
      else
        orRefuse (refuseLegalHold cfg o) (deleteVersion cfg o bypassGovernance)

/-! ## Calls of the clean-up -/

/-- The calls that give bytes back: they touch neither manifests nor bucket settings. -/
def reclaims {β : Type} : Call β → Prop
  | .deletePiece _ | .indexDecrementRef _ | .indexDelete _ => True
  | _ => False

theorem deletePiecesBestEffort_only (cfg : Config) (ps : List Piece) :
    (deletePiecesBestEffort cfg ps).Only reclaims := by
  induction ps with
  | nil => trivial
  | cons p ps ih => ?_
  unfold deletePiecesBestEffort
  split
  · exact ⟨trivial, fun _ => ih⟩
  · exact ih

theorem giveBack_only {α : Type} {cfg : Config} {tenantID : String} {m : ObjectManifest}
    {pieces : List Piece} {done : α} {decrementFailed deleteFailed : StoreError → α} :
    (giveBack cfg tenantID m pieces done decrementFailed deleteFailed).Only reclaims := by
  have hpieces : ((deletePiecesBestEffort cfg pieces).bind fun _ => .ret done).Only reclaims :=
    (deletePiecesBestEffort_only cfg pieces).bind fun _ => trivial
  unfold giveBack
  split
  · exact hpieces
  refine .ask trivial fun counted => ?_
  split
  · exact hpieces
  · trivial
  split
  · -- the last reference is gone: the row first, then the pieces
    refine .ask trivial fun dropped => ?_
    split
    · exact hpieces
    · trivial
  · trivial

/-! ## What a DELETE keeps to -/

section

variable {S : Spec Call} {cfg : Config} {o : ObjectRef} {bypass : Bool} {h : History Call}

theorem deleteVersion_follows (hget : S.pre h (.manifestGet (o.manifestKey cfg)))
    (hnow : ∀ m, S.pre (⟨.manifestGet (o.manifestKey cfg), .ok m⟩ :: h) .now)
    (hdelete : ∀ m now, S.post h (.manifestGet (o.manifestKey cfg)) (.ok m) →
      objectLockBlocksDelete m now bypass = none →
      let k := cfg.manifestKey o.tenantID o.bucket o.key m.versionID
      let h' := ⟨.now, now⟩ :: ⟨.manifestGet (o.manifestKey cfg), .ok m⟩ :: h
      S.pre h' (.manifestDelete k) ∧ ∀ r, S.post h' (.manifestDelete k) r →
        r = .ok () ∨ r = .error .manifestNotFound →
          (releasePieces cfg o.tenantID m).Follows S (⟨.manifestDelete k, r⟩ :: h')) :
    (deleteVersion cfg o bypass).Follows S h := by
  refine ⟨hget, fun found hfound => ?_⟩
  rcases found with e | m
  · cases e <;> trivial
  refine .ask (hnow m) fun now _ => ?_
  cases hlock : objectLockBlocksDelete m now bypass with
  | some message => trivial
  | none => ?_
  obtain ⟨hpre, hrelease⟩ := hdelete m now hfound hlock
  refine ⟨hpre, fun removed hremoved => ?_⟩
  have hdone : ∀ h' (refusal : Option Response), (match refusal with
      | some response => Proc.ret response
      | none => Proc.ret { status := 204 } : Handler).Follows S h' := by
    intro h' refusal
    cases refusal <;> trivial
  cases removed with
  | ok u => exact (hrelease _ hremoved (Or.inl rfl)).seq fun h' refusal _ => hdone h' refusal
  | error e => ?_
  cases e with
  | manifestNotFound =>
    exact (hrelease _ hremoved (Or.inr rfl)).seq fun h' refusal _ => hdone h' refusal
  | _ => trivial

/-- A DELETE puts a marker, or removes a version that the hold store has no hold on. -/
theorem deleteObject_follows (hread : S.pre h (.getVersioning o.tenantID o.bucket))
    (hhold : ∀ h', S.pre h' (.legalHoldActive o.tenantID o.bucket o.key))
    (hmarker : ∀ h', S.post h (.getVersioning o.tenantID o.bucket) (.ok .enabled) →
      o.versionID = "" → (putDeleteMarker cfg o).Follows S h')
    (hversion : ∀ h', (cfg.hasLegalHoldStore = true →
      ∃ h₀, S.post h₀ (.legalHoldActive o.tenantID o.bucket o.key) (.ok 0)) →
      (deleteVersion cfg o bypass).Follows S h') :
    (deleteObject cfg o bypass).Follows S h := by
  have hunheld : ∀ h', (orRefuse (refuseLegalHold cfg o) (deleteVersion cfg o bypass)).Follows
      S h' := by
    intro h'
    unfold orRefuse refuseLegalHold
    cases hstore : cfg.hasLegalHoldStore with
    | false => exact hversion h' fun hon => absurd (hstore.symm.trans hon) (by decide)
    | true => ?_
    refine ⟨hhold h', fun found hfound => ?_⟩
    rcases found with e | holds
    · trivial
    simp only [Proc.ret_bind]
    split
    · trivial
    · rename_i hnone
      rw [Nat.eq_zero_of_not_pos hnone] at hfound
      exact hversion _ fun _ => ⟨_, hfound⟩
  unfold deleteObject Config.bucketVersioning
  split
  · trivial
  rcases cfg.hasBucketConfig with _ | _
  · exact hunheld h
  refine ⟨hread, fun found hfound => ?_⟩
  rcases found with e | state
  · trivial
  simp only [Proc.ret_bind]
  split
  · rename_i hplain
    rw [hplain.1] at hfound
    exact hmarker _ hfound hplain.2
  · exact hunheld _

end

end ObjectFabric
