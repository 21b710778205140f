import ObjectFabric.Gateway.UploadContent
import ObjectFabric.Safety.ObjectState

/-!
# PutStores — the content that an acknowledged upload leaves

Whatever calls fail on the way, a PUT that answers 200 has stored a version that holds the body it
was sent, and a version holds one body only.  On the deduplicated path this rests on the row that
is hit: its piece has to be what its hash was taken of.
-/

namespace ObjectFabric

open Interleaving

/-! ## 1. One body -/

theorem HoldsShard.unique {cfg : Config} {pieces : FMap PieceAddr Bytes} {p : Piece} {s s' : Shard}
    (h : HoldsShard cfg pieces p s) (h' : HoldsShard cfg pieces p s') : s = s' := by
  have hbytes : s.bytes = s'.bytes :=
    Option.some.inj (h.verified.found.symm.trans h'.verified.found)
  rw [← h.shard, ← h'.shard, hbytes]

theorem Holds.unique {cfg : Config} {pieces : FMap PieceAddr Bytes} {m : ObjectManifest}
    {body body' : Bytes} (h : Holds cfg pieces m body) (h' : Holds cfg pieces m body') :
    body = body' := by
  cases h with
  | single p bytes hpieces hkind hverified hopen =>
    cases h' with
    | single p' bytes' hpieces' _ hverified' hopen' =>
      rw [hpieces] at hpieces'
      have hp : p = p' := (List.cons.inj hpieces').1
      rw [hp] at hverified
      have hbytes := Option.some.inj (hverified.found.symm.trans hverified'.found)
      rw [hbytes, hopen'] at hopen
      exact (Except.ok.inj hopen).symm
    | shards lookup encoder shards bytes' _ _ _ _ _ hshards _ _ =>
      rw [hpieces] at hshards
      cases hshards with
      | cons hshard _ => exact absurd hkind hshard.kind
  | shards lookup encoder shards bytes hregistry hprofile hencoder hne hsorted hshards hdecode
      hopen =>
    cases h' with
    | single p' bytes' hpieces' hkind' _ _ =>
      rw [hpieces'] at hshards
      cases hshards with
      | cons hshard _ => exact absurd hkind' hshard.kind
    | shards lookup' encoder' shards' bytes' hregistry' _ hencoder' _ _ hshards' hdecode' hopen' => ?_
    rw [hregistry] at hregistry'
    rw [← Option.some.inj hregistry', hencoder] at hencoder'
    have hunique : Relator.RightUnique (HoldsShard cfg pieces) := fun _ _ _ => HoldsShard.unique
    have hsame : shards = shards' := List.right_unique_forall₂' hunique hshards hshards'
    rw [← Except.ok.inj hencoder', ← hsame, hdecode] at hdecode'
    rw [← Except.ok.inj hdecode', hopen] at hopen'
    exact Except.ok.inj hopen'

/-! ## 2. PUT -/

def PutHolds (cfg : Config) (r : PutRequest) (body : Bytes) (response : Response) (w : World) :
    Prop :=
  ∃ m, w.manifests.byKey.lookup (cfg.manifestKey r.tenantID r.bucket r.key response.versionID) =
    some m ∧ Holds cfg w.pieces m body

/-- `p` acknowledges the PUT only after it has stored a version that holds `body`. -/
def Acknowledges (cfg : Config) (r : PutRequest) (body : Bytes) (ok : Choice → Prop) (w : World)
    (p : Handler) : Prop :=
  p.Ensures (machine cfg.providers) ok w
    fun response w' => response.status = 200 → PutHolds cfg r body response w'

def HitsSound (cfg : Config) (w : World) (tenantID : String) : Prop :=
  ∀ hash e, w.index.rows.lookup ⟨tenantID, hash⟩ = some e → RowSound cfg w.pieces e

section

variable {cfg : Config} {ok : Choice → Prop} {w : World} {r : PutRequest} {backend : String}
  {provider : Provider} {policy : PlacementPolicy}

theorem persistManifest_holds {m : ObjectManifest} {rollback : Proc Call Unit}
    {stored : ObjectManifest → Handler} {body : Bytes} (hholds : Holds cfg w.pieces m body)
    (hkey : m.key = cfg.manifestKey r.tenantID r.bucket r.key m.versionID)
    (hresponse : ∀ m', ∃ response : Response, stored m' = .ret response ∧
      response.versionID = m'.versionID) :
    Acknowledges cfg r body ok w (persistManifest cfg m rollback stored) := by
  apply persistManifest_ensures
  · exact fun response w' hne heq => absurd heq hne
  rintro m' ⟨ret, rfl⟩
  rcases hresponse { m with retention := ret } with ⟨response, hreturn, hversion⟩
  rw [hreturn]
  intro _
  refine ⟨{ m with retention := ret }, ?_, hholds.of_fields rfl rfl rfl rfl⟩
  rw [hversion]
  show (w.manifests.byKey.insert m.key _).lookup _ = _
  rw [hkey, FMap.lookup_insert_ite, if_pos rfl]

theorem putSinglePiece_holds (hcfg : OpensBack cfg) (hprovider : cfg.providers backend = some provider) :
    Acknowledges cfg r r.body ok w (putSinglePiece cfg r backend policy) := by
  unfold putSinglePiece
  refine ensures_total rfl fun x _ => ?_
  simp only
  generalize cfg.newPieceID r.tenantID r.bucket r.key _ = pieceID
  cases hsealed : prepareSinglePieceEncryption cfg r policy.encryptionMode
      (r.aadIdentity cfg pieceID) with
  | error response =>
    have hrefused := prepareSinglePieceEncryption_refused hsealed
    intro hok
    rw [Response.refused_iff, hok] at hrefused
    omega
  | ok sealed =>
    refine ensures_putPiece hprovider sealed.2 (fun hok => absurd hok (by simp)) ?_
    simp only
    split
    · exact ensures_deletePiece _ fun _ _ _ hok => absurd hok (by simp)
    refine ensures_total rfl fun y _ => ?_
    refine persistManifest_holds ?_ rfl fun m' => ⟨_, rfl, rfl⟩
    refine singlePieceManifest_holds (by rw [hprovider]; rfl) ?_
      (prepareSinglePieceEncryption_opens hcfg hsealed)
    show (w.pieces.insert _ _).lookup _ = _
    rw [FMap.lookup_insert_ite, if_pos rfl]

theorem putErasureCoded_holds (hcfg : OpensBack cfg) (hprovider : cfg.providers backend = some provider)
    (hprofile : policy.erasureProfile ≠ "") :
    Acknowledges cfg r r.body ok w (putErasureCoded cfg r backend policy) := by
  rcases hregistry : cfg.erasureCoding with _ | lookup
  · unfold putErasureCoded
    rw [hregistry]
    exact fun hok => absurd hok (by simp)
  rcases hencoder : lookup policy.erasureProfile with message | encoder
  · unfold putErasureCoded
    rw [hregistry]
    simp only [hencoder]
    exact fun hok => absurd hok (by simp)
  apply (putErasureCoded_stores hregistry hencoder hprovider).mono
  intro response w' hstored hok
  rcases hstored hok with ⟨stored⟩
  rcases stored.stamped with ⟨ret, hm⟩
  have hopen := prepareErasureCodedEncryption_opens hcfg stored.sealed
  have hsorted := (hcfg.shards lookup _ encoder stored.bytes stored.shards hregistry hencoder
    stored.encoded).2.1
  have hholds : Holds cfg (withShards backend response.versionID stored.shards w'.pieces)
      (erasureCodedManifest cfg r backend policy stored.encCfg encoder response.versionID
        (stored.shards.map (storedShard cfg provider backend response.versionID))
        stored.createdAt) r.body :=
    erasureCodedManifest_holds hcfg (by rw [hprovider]; rfl) hregistry hprofile hencoder
      stored.encoded hopen
  refine ⟨stored.m, stored.found, ?_⟩
  rw [hm]
  refine (hholds.congr ?_).of_fields rfl rfl rfl rfl
  intro p hp
  rcases List.mem_map.mp hp with ⟨sh, hsh, rfl⟩
  exact (stored.written hsorted sh hsh).trans (lookup_withShards hsorted hsh).symm

/-! ### The deduplicated path -/

theorem putDedupedManifest_holds {c : DedupContent} {p : DedupPiece}
    (hopens : ∀ id, c.contentHash = Config.formatContentHash (cfg.blake3Hex c.bytes) ∧
      Opens cfg c.encryption id c.bytes r.body)
    (hprovider : (cfg.providers p.backend).isSome = true)
    (hfound : w.pieces.lookup ⟨p.backend, p.pieceID⟩ = some c.bytes) :
    Acknowledges cfg r r.body ok w (putDedupedManifest cfg r policy c p) := by
  unfold putDedupedManifest
  refine ensures_total rfl fun x _ => ensures_total rfl fun y _ => ?_
  refine persistManifest_holds ?_ rfl fun m' => ⟨_, rfl, rfl⟩
  exact dedupedManifest_holds hprovider hfound (hopens (r.aadIdentity cfg "")).1 (hopens _).2

theorem putDedupedMiss_holds {c : DedupContent} (hprovider : cfg.providers backend = some provider)
    (hopens : ∀ id, c.contentHash = Config.formatContentHash (cfg.blake3Hex c.bytes) ∧
      Opens cfg c.encryption id c.bytes r.body)
    (hmiss : w.index.rows.lookup ⟨r.tenantID, c.contentHash⟩ = none) :
    Acknowledges cfg r r.body ok w (putDedupedMiss cfg r backend policy c) := by
  unfold putDedupedMiss
  refine ensures_total rfl fun x _ => ?_
  simp only
  generalize cfg.newPieceID r.tenantID r.bucket r.key _ = pieceID
  refine ensures_putPiece hprovider c.bytes (fun hok => absurd hok (by simp)) ?_
  simp only [registerDedupedPiece, Proc.bind_eq, Proc.bind_assoc]
  refine ensures_register _ ?_ ?_ ?_
  · exact ensures_deletePiece _ fun _ _ _ hok => absurd hok (by simp)
  · -- nobody registered the content in between
    intro e he
    exact absurd (hmiss.symm.trans he) (by simp)
  · intro _
    refine putDedupedManifest_holds hopens (by rw [hprovider]; rfl) ?_
    show (w.pieces.insert _ _).lookup _ = _
    rw [FMap.lookup_insert_ite, if_pos rfl]

theorem putDeduped_holds (hcfg : OpensBack cfg) (hblake : Function.Injective cfg.blake3)
    (hprovider : cfg.providers backend = some provider) (hrows : HitsSound cfg w r.tenantID) :
    Acknowledges cfg r r.body ok w (putDeduped cfg r backend policy) := by
  unfold putDeduped
  simp only
  split
  · exact fun hok => absurd hok (by simp)
  rcases hc : dedupContent cfg r policy.encryptionMode with message | c
  · exact fun hok => absurd hok (by simp)
  have hopens := fun id => dedupContent_opens hcfg id hc
  simp only [prepareDedupedPut, Proc.bind_eq, Proc.bind_assoc]
  refine ensures_indexLookup _ ?_ ?_ ?_
  · exact fun hok => absurd hok (by simp)
  · intro hmiss
    exact putDedupedMiss_holds hprovider hopens hmiss
  · intro e he
    refine ensures_incrementRef _ (fun err _ hok => absurd hok (by simp)) fun e' _ => ?_
    have hrow := hrows _ e he
    have hfound : w.pieces.lookup e.addr = some c.bytes :=
      hrow.bytes_eq hblake he (hopens (r.aadIdentity cfg "")).1
    exact putDedupedManifest_holds hopens hrow.provider hfound

/-! ### The handler -/

theorem putPlaced_holds (hcfg : OpensBack cfg) (hblake : Function.Injective cfg.blake3)
    (hprovider : cfg.providers backend = some provider) (hrows : HitsSound cfg w r.tenantID) :
    Acknowledges cfg r r.body ok w (putPlaced cfg r backend policy) := by
  unfold putPlaced
  simp only
  split
  · rename_i hprofile
    exact putErasureCoded_holds hcfg hprovider hprofile
  split
  · exact putDeduped_holds hcfg hblake hprovider hrows
  · exact putSinglePiece_holds hcfg hprovider

theorem put_holds (hcfg : OpensBack cfg) (hblake : Function.Injective cfg.blake3)
    (hheaders : r.RefusesBadHeaders) (hrows : HitsSound cfg w r.tenantID) :
    Acknowledges cfg r r.body ok w (put cfg r) := by
  have hrefused : ∀ response : Response, response.refused → response.status = 200 →
      PutHolds cfg r r.body response w := by
    intro response hr hok
    rw [Response.refused_iff, hok] at hr
    omega
  unfold put
  split
  · exact fun hok => absurd hok (by simp)
  unfold putObject
  split
  · exact fun hok => absurd hok (by simp)
  rcases htags : r.tagging with response | tags
  · exact hrefused response (hheaders.tagging response htags)
  cases hmeta : r.metadataTooLarge with
  | some response => exact hrefused response (hheaders.metadata response hmeta)
  | none => ?_
  have hquiet : ∀ {β : Type} (x : Choice) (c : Call β), consults c →
      ((machine cfg.providers).exec x c w).2 = w := fun x c hc => exec_of_consults hc x w
  refine orRefuse_ensures (allowObjectLockOverwrite_ensures hquiet r.object r.bypassGovernance)
    hrefused ?_
  exact placed_ensures hquiet hrefused fun backend provider policy hp =>
    putPlaced_holds hcfg hblake hp hrows

end

end ObjectFabric
