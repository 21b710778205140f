import ObjectFabric.Gateway.Delete
import ObjectFabric.Gateway.Put

/-!
# Calls — the calls that a PUT and a DELETE make

Both write and remove versions of their own object only, and each manifest goes under the key that
its fields give.
-/

namespace ObjectFabric

open Interleaving

/-- The calls of a handler that writes or removes versions of the object `lk`. -/
def writes (lk : LatestKey) {β : Type} : Call β → Prop
  | .manifestPut k m => m.key = k ∧ k.latestKey = lk
  | .manifestDelete k => k.latestKey = lk
  | .manifestGet _ | .indexLookup _ | .indexRegister _ | .indexIncrementRef _
  | .indexDecrementRef _ | .indexDelete _ | .putPiece _ _ | .deletePiece _ => True
  | c => inspects c

section

variable {lk : LatestKey} {β : Type} {c : Call β}

theorem writes_of_consults (h : consults c) : writes lk c := by
  cases c with
  | now | getVersioning | getObjectLock | getEncryption | legalHoldActive | getPiece
  | manifestGet => trivial
  | _ => exact absurd h id

theorem writes_of_inspects (h : inspects c) : writes lk c :=
  writes_of_consults (consults_of_inspects h)

theorem writes_of_reclaims (h : reclaims c) : writes lk c := by
  cases c with
  | deletePiece | indexDecrementRef | indexDelete => trivial
  | _ => exact absurd h id

end

theorem orRefuse_only {ok : ∀ {β : Type}, Call β → Prop} {check : Proc Call (Option Response)}
    {rest : Handler} (hcheck : check.Only ok) (hrest : rest.Only ok) :
    (orRefuse check rest).Only ok := by
  apply hcheck.bind
  intro refusal
  cases refusal with
  | none => exact hrest
  | some response => trivial

section

variable {cfg : Config} {lk : LatestKey}

/-! ## 1. PUT -/

theorem persistManifest_only {m : ObjectManifest} {rollback : Proc Call Unit}
    {stored : ObjectManifest → Handler} (hm : m.key.latestKey = lk)
    (hroll : rollback.Only (writes lk)) (hstored : ∀ m', (stored m').Only (writes lk)) :
    (persistManifest cfg m rollback stored).Only (writes lk) := by
  have hall : ∀ {γ : Type} {p : Proc Call γ} (h : History Call), p.Only (writes lk) →
      p.Conforms ⟨fun _ c => writes lk c, fun _ _ _ => True⟩ (fun _ _ => True) h := by
    intro γ p h hp
    exact hp.conforms (R := fun _ => True) (fun _ _ _ hc _ => ⟨hc, fun _ => trivial⟩) trivial
  apply Proc.Conforms.only (Q := fun _ _ => True) (h := [])
  apply persistManifest_conforms (H := fun _ => True) trivial
  · exact fun _ _ _ hc _ => ⟨writes_of_inspects hc, fun _ => trivial⟩
  · exact fun _ _ _ => trivial
  · exact fun h _ => hall h hroll
  · -- the stamp only touches the retention, so the key is that of `m`
    intro h m' _ hstamp
    obtain ⟨ret, rfl⟩ := hstamp
    exact ⟨⟨rfl, hm⟩, fun _ => trivial, hall _ (hstored _)⟩

theorem putSinglePiece_only (r : PutRequest) (backend : String) (policy : PlacementPolicy) :
    (putSinglePiece cfg r backend policy).Only
      (writes ⟨r.tenantID, r.bucket, cfg.hashObjectKey r.key⟩) := by
  refine ⟨trivial, fun now => ?_⟩
  simp only [Proc.ret_bind]
  split
  · trivial
  refine ⟨trivial, fun res => ?_⟩
  rcases res with e | res
  · trivial
  simp only [Proc.ret_bind]
  split
  · exact ⟨trivial, fun _ => trivial⟩
  · refine ⟨trivial, fun createdAt => ?_⟩
    exact persistManifest_only rfl ⟨trivial, fun _ => trivial⟩ fun _ => trivial

theorem rollbackEC_only (backend : String) (ps : List Piece) :
    (rollbackEC backend ps).Only (writes lk) := by
  induction ps with
  | nil => trivial
  | cons p ps ih => exact ⟨trivial, fun _ => ih⟩

theorem putShards_only (backend versionID : String) (ss : List Shard) (written : List Piece) :
    (putShards cfg backend versionID ss written).Only (writes lk) := by
  induction ss generalizing written with
  | nil => trivial
  | cons s ss ih => ?_
  refine ⟨trivial, fun res => ?_⟩
  cases res with
  | error e => exact (rollbackEC_only backend written).bind fun _ => trivial
  | ok res => exact ih _

theorem putErasureCoded_only (r : PutRequest) (backend : String) (policy : PlacementPolicy) :
    (putErasureCoded cfg r backend policy).Only
      (writes ⟨r.tenantID, r.bucket, cfg.hashObjectKey r.key⟩) := by
  unfold putErasureCoded
  split
  · trivial
  split
  · trivial
  split
  · trivial
  split
  · trivial
  refine ⟨trivial, fun now => ?_⟩
  simp only [Proc.ret_bind]
  split
  · trivial
  split
  · trivial
  apply (putShards_only backend _ _ []).bind
  intro written
  cases written with
  | error e => trivial
  | ok pieces =>
    refine ⟨trivial, fun createdAt => ?_⟩
    exact persistManifest_only rfl (rollbackEC_only backend pieces) fun _ => trivial

theorem putDedupedManifest_only (r : PutRequest) (policy : PlacementPolicy) (c : DedupContent)
    (p : DedupPiece) :
    (putDedupedManifest cfg r policy c p).Only
      (writes ⟨r.tenantID, r.bucket, cfg.hashObjectKey r.key⟩) := by
  refine ⟨trivial, fun now => ⟨trivial, fun createdAt => ?_⟩⟩
  exact persistManifest_only rfl ⟨trivial, fun _ => trivial⟩ fun _ => trivial

theorem prepareDedupedPut_only (tenantID : String) (c : DedupContent) :
    (prepareDedupedPut tenantID c).Only (writes lk) := by
  refine .ask trivial fun found => ?_
  split
  · trivial
  · trivial
  · refine ⟨trivial, fun counted => ?_⟩
    cases counted <;> trivial

theorem registerDedupedPiece_only (entry : ContentIndexEntry) :
    (registerDedupedPiece entry).Only (writes lk) := by
  refine .ask trivial fun registered => ?_
  split
  · trivial
  · refine ⟨trivial, fun counted => ?_⟩
    cases counted <;> trivial
  · trivial

theorem putDedupedMiss_only (r : PutRequest) (backend : String) (policy : PlacementPolicy)
    (c : DedupContent) :
    (putDedupedMiss cfg r backend policy c).Only
      (writes ⟨r.tenantID, r.bucket, cfg.hashObjectKey r.key⟩) := by
  refine ⟨trivial, fun now => ⟨trivial, fun res => ?_⟩⟩
  rcases res with e | res
  · trivial
  apply (registerDedupedPiece_only _).bind
  intro registered
  match registered with
  | .error message => exact ⟨trivial, fun _ => trivial⟩
  | .ok false => exact putDedupedManifest_only r policy c _
  | .ok true =>
    refine ⟨trivial, fun _ => ⟨trivial, fun canonical => ?_⟩⟩
    cases canonical with
    | error e => exact ⟨trivial, fun _ => trivial⟩
    | ok canonical => exact putDedupedManifest_only r policy c _

theorem putDeduped_only (r : PutRequest) (backend : String) (policy : PlacementPolicy) :
    (putDeduped cfg r backend policy).Only
      (writes ⟨r.tenantID, r.bucket, cfg.hashObjectKey r.key⟩) := by
  unfold putDeduped
  simp only
  split
  · trivial
  split
  · trivial
  rename_i c _
  apply (prepareDedupedPut_only r.tenantID c).bind
  intro found
  match found with
  | .error message => trivial
  | .ok (some existing) => exact putDedupedManifest_only r policy c _
  | .ok none => exact putDedupedMiss_only r backend policy c

theorem placed_only {tenantID bucket key : String} {go : String → PlacementPolicy → Handler}
    (hgo : ∀ backend policy, (go backend policy).Only (writes lk)) :
    (placed cfg tenantID bucket key go).Only (writes lk) := by
  unfold placed
  split
  · trivial
  split
  · trivial
  split
  · trivial
  apply ((cfg.effectiveEncryptionMode_only _ _ _).mono fun _ => writes_of_inspects).bind
  intro mode
  cases mode with
  | error message => trivial
  | ok mode => exact hgo _ _

theorem putObject_only (r : PutRequest) :
    (putObject cfg r).Only (writes ⟨r.tenantID, r.bucket, cfg.hashObjectKey r.key⟩) := by
  unfold putObject
  split
  · trivial
  split
  · trivial
  · trivial
  apply orRefuse_only ((allowObjectLockOverwrite_only cfg _ _).mono fun _ => writes_of_consults)
  apply placed_only
  intro backend policy
  unfold putPlaced
  simp only
  split
  · exact putErasureCoded_only r backend policy
  split
  · exact putDeduped_only r backend policy
  · exact putSinglePiece_only r backend policy

/-! ## 2. DELETE -/

theorem deleteObject_only (o : ObjectRef) (bypass : Bool) :
    (deleteObject cfg o bypass).Only
      (writes ⟨o.tenantID, o.bucket, cfg.hashObjectKey o.key⟩) := by
  refine Proc.Conforms.only (Q := fun _ _ => True) (h := []) (deleteObject_follows trivial
    (fun _ => trivial) (fun h _ _ => ?_) fun h _ => ?_)
  · -- the marker is stored under its own key
    refine ⟨trivial, fun now _ => ⟨trivial, fun createdAt _ => ⟨⟨rfl, rfl⟩, fun stored _ => ?_⟩⟩⟩
    cases stored <;> trivial
  · refine deleteVersion_follows trivial (fun _ => trivial) fun m now _ _ => ⟨rfl, fun r _ _ => ?_⟩
    exact giveBack_only.conforms (R := fun _ => True)
      (fun _ _ c hc _ => ⟨writes_of_reclaims hc, fun _ => trivial⟩) trivial

end

end ObjectFabric
