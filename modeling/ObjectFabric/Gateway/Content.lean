import ObjectFabric.Gateway.Get
import ObjectFabric.Gateway.Put
import ObjectFabric.Gateway.StoreMachine

/-!
# Content — what the stored pieces of a version hold

`Holds` says that the pieces a manifest names are on their backends, match the hashes recorded for
them, and open to a given body.  A GET of such a version answers with that body.
-/

namespace ObjectFabric

open Interleaving

/-! ## 1. Pieces and their hashes -/

structure Verified (cfg : Config) (pieces : FMap PieceAddr Bytes) (p : Piece) (bytes : Bytes) :
    Prop where
  provider : (cfg.providers p.backend).isSome = true
  found : pieces.lookup p.addr = some bytes
  hash : p.hash = "blake3:" ++ cfg.blake3Hex bytes

variable {cfg : Config} {p : Piece}

theorem verifyPiece_blake3 {digest : String}
    (h : p.hash = "blake3:" ++ digest) (body : Bytes) :
    verifyPiece cfg body p = if cfg.blake3Hex body = digest then .verified
      else .failed (mismatchText p "blake3" digest (cfg.blake3Hex body)) := by
  have hlist : p.hash.toList = "blake3:".toList ++ digest.toList := by
    rw [h, String.toList_append]
  have hne : p.hash ≠ "" := by
    intro hempty
    rw [hempty] at hlist
    exact absurd hlist (by simp)
  have hbegins : beginsWith p.hash "blake3:" = true := by
    unfold beginsWith
    rw [hlist, List.isPrefixOf_iff_prefix]
    exact List.prefix_append _ _
  have hrest : String.ofList (p.hash.toList.drop 7) = digest := by
    rw [hlist, List.drop_append_of_le_length (by decide)]
    show String.ofList digest.toList = _
    exact String.ofList_toList
  unfold verifyPiece
  rw [if_neg hne, if_pos hbegins]
  simp only [hrest]

variable {bytes : Bytes}

theorem verifyPiece_of_hash
    (h : p.hash = "blake3:" ++ cfg.blake3Hex bytes) : verifyPiece cfg bytes p = .verified := by
  rw [verifyPiece_blake3 h, if_pos rfl]

/-! ## 2. The content of a version -/

structure HoldsShard (cfg : Config) (pieces : FMap PieceAddr Bytes) (p : Piece) (s : Shard) :
    Prop where
  verified : Verified cfg pieces p s.bytes
  shard : p.shard s.bytes = s
  kind : p.shardKind ≠ .none
  stripe : 0 ≤ p.stripeIndex

inductive Holds (cfg : Config) (pieces : FMap PieceAddr Bytes) (m : ObjectManifest) (body : Bytes) :
    Prop where
  | single (p : Piece) (bytes : Bytes) (hpieces : m.pieces = [p]) (hkind : p.shardKind = .none)
      (hverified : Verified cfg pieces p bytes) (hopen : unsealShards cfg m bytes = .ok body)
  | shards (lookup : String → Except String ErasureEncoder) (encoder : ErasureEncoder)
      (shards : List Shard) (bytes : Bytes) (hregistry : cfg.erasureCoding = some lookup)
      (hprofile : m.placementPolicy.erasureProfile ≠ "")
      (hencoder : lookup m.placementPolicy.erasureProfile = .ok encoder) (hne : shards ≠ [])
      (hsorted : m.pieces.Pairwise shardBefore)
      (hshards : List.Forall₂ (HoldsShard cfg pieces) m.pieces shards)
      (hdecode : encoder.decode shards = .ok bytes) (hopen : unsealShards cfg m bytes = .ok body)

theorem Holds.congr {pieces pieces' : FMap PieceAddr Bytes} {m : ObjectManifest}
    {body : Bytes} (h : Holds cfg pieces m body)
    (hsame : ∀ p ∈ m.pieces, pieces'.lookup p.addr = pieces.lookup p.addr) :
    Holds cfg pieces' m body := by
  cases h with
  | single p bytes hpieces hkind hverified hopen =>
    have hp : p ∈ m.pieces := by
      rw [hpieces]
      exact List.mem_singleton_self p
    have hfound := (hsame p hp).trans hverified.found
    exact .single p bytes hpieces hkind ⟨hverified.provider, hfound, hverified.hash⟩ hopen
  | shards lookup encoder shards bytes hregistry hprofile hencoder hne hsorted hshards hdecode
      hopen =>
    refine .shards lookup encoder shards bytes hregistry hprofile hencoder hne hsorted ?_ hdecode
      hopen
    apply List.forall₂_iff_get.mpr
    rcases List.forall₂_iff_get.mp hshards with ⟨hlen, hall⟩
    refine ⟨hlen, fun i hi hi' => ?_⟩
    have hold := hall i hi hi'
    have hfound := (hsame _ (List.get_mem m.pieces ⟨i, hi⟩)).trans hold.verified.found
    exact ⟨⟨hold.verified.provider, hfound, hold.verified.hash⟩, hold.shard, hold.kind, hold.stripe⟩

theorem Holds.of_fields {pieces : FMap PieceAddr Bytes} {m m' : ObjectManifest}
    {body : Bytes} (h : Holds cfg pieces m body) (hpieces' : m'.pieces = m.pieces)
    (hencryption : m'.encryption = m.encryption)
    (hpolicy : m'.placementPolicy = m.placementPolicy) (hkey : m'.key = m.key) :
    Holds cfg pieces m' body := by
  have hid : m'.aadIdentity = m.aadIdentity := by
    unfold ObjectManifest.key at hkey
    unfold ObjectManifest.aadIdentity
    rcases ManifestKey.mk.inj hkey with ⟨htenant, hbucket, hhash, hversion⟩
    rw [htenant, hbucket, hhash, hversion]
  have hunseal : ∀ bytes, unsealShards cfg m' bytes = unsealShards cfg m bytes := by
    intro bytes
    unfold unsealShards
    rw [hencryption, hid]
  cases h with
  | single p bytes hpieces hkind hverified hopen =>
    exact .single p bytes (hpieces'.trans hpieces) hkind hverified ((hunseal bytes).trans hopen)
  | shards lookup encoder shards bytes hregistry hprofile hencoder hne hsorted hshards hdecode
      hopen =>
    rw [← hpolicy] at hprofile hencoder
    rw [← hpieces'] at hsorted hshards
    exact .shards lookup encoder shards bytes hregistry hprofile hencoder hne hsorted hshards
      hdecode ((hunseal bytes).trans hopen)

/-! ## 3. GET -/

def Faultless (x : Choice) : Prop := x.fault = false

variable {key : ManifestKey} {req : GetRequest}

section

variable {σ : Type} {impl : StoreImpl σ} {cfg : Config} {s : World × σ} {m : ObjectManifest}
  {body : Bytes}

theorem getPiece_of_found {x : Choice} (hx : Faultless x) {a : PieceAddr}
    (h : s.1.pieces.lookup a = some bytes) :
    (storeMachine impl cfg.providers).exec x (.getPiece a) s = (.ok bytes, s) := by
  rw [storeMachine_exec hx]
  show (s.1.getPiece a, s) = _
  unfold World.getPiece
  rw [h]

theorem decrypt_of_unsealed (hgateway : m.encryption.mode.isGatewayEncrypted = true)
    (hopen : unsealShards cfg m bytes = .ok body) :
    ∃ enc dek, cfg.encryption = some enc ∧ enc.unwrapDEK m.encryption = .ok dek ∧
      cfg.decryptWithDEK bytes dek m.encryption m.aadIdentity = .ok body := by
  unfold unsealShards at hopen
  rw [hgateway] at hopen
  unfold Config.decryptFromStorage at hopen
  rcases henc : cfg.encryption with _ | enc
  · simp [henc, Except.mapError] at hopen
  rcases hdek : enc.unwrapDEK m.encryption with e | dek
  · simp [henc, hdek, Except.mapError, bind, Except.bind] at hopen
  rcases hplain : cfg.decryptWithDEK bytes dek m.encryption m.aadIdentity with e | plaintext
  · simp [henc, hdek, hplain, Except.mapError, bind, Except.bind] at hopen
  simp only [henc, hdek, hplain, Except.mapError, bind, Except.bind, Bool.not_true,
    Bool.false_eq_true, if_false, Except.ok.injEq] at hopen
  rw [hopen] at hplain
  exact ⟨enc, dek, rfl, hdek, hplain⟩

variable (impl cfg s) in
/-- `p` answers with `a` and changes nothing. -/
def Returns {α : Type} (p : Proc Call α) (a : α) : Prop :=
  p.Ensures (storeMachine impl cfg.providers) Faultless s fun r s' => r = a ∧ s' = s

theorem getOrRepair_found
    (hfound : s.1.pieces.lookup p.addr = some bytes) :
    Returns impl cfg s (getOrRepair cfg key m p none) (.ok (bytes, false), m) := by
  intro x hx
  rw [getPiece_of_found hx hfound]
  exact ⟨rfl, rfl⟩

theorem openCiphertextStream_found (req : GetRequest)
    (hfound : s.1.pieces.lookup p.addr = some bytes) :
    ((directReads cfg req).openCiphertextStream key m p).Ensures (storeMachine impl cfg.providers)
      Faultless s fun r s' => r = (.ok bytes, m) ∧ s' = s := by
  apply (getOrRepair_found hfound).seq
  rintro r s' ⟨rfl, rfl⟩
  exact ⟨rfl, rfl⟩

theorem fetchPiece_verified (req : GetRequest)
    (hp : Verified cfg s.1.pieces p bytes) :
    Returns impl cfg s (fetchPiece cfg req key m p none) (.ok bytes, m) := by
  unfold fetchPiece
  simp only [Option.isNone_none, true_or, if_true, not_true_eq_false, false_or]
  apply (getOrRepair_found hp.found).seq
  intro r s' hr
  rw [hr.1, hr.2]
  simp only
  generalize (if p.sizeBytes ≤ 0 then m.objectSize else p.sizeBytes) = pieceSize
  split
  · exact ⟨rfl, rfl⟩
  -- the piece passes the check when it is buffered
  unfold serveBuffered
  rw [verifyPiece_of_hash hp.hash]
  cases req.admitted <;> exact ⟨rfl, rfl⟩

theorem getSinglePiece_holds (hranges : req.ranges = fun _ => .ok .whole)
    (hp : Verified cfg s.1.pieces p bytes)
    (hopen : unsealShards cfg m bytes = .ok body) :
    Returns impl cfg s (getSinglePiece cfg (directReads cfg req) req key m p) (m.served 200 [body]) := by
  unfold getSinglePiece
  rw [hranges]
  cases hgateway : m.encryption.mode.isGatewayEncrypted with
  | true =>
    rcases decrypt_of_unsealed hgateway hopen with ⟨enc, dek, henc, hdek, hplain⟩
    simp only [if_true]
    unfold streamGatewayDecryptedGet
    apply (openCiphertextStream_found req hp.found).seq
    intro r s' hr
    rw [hr.1, hr.2]
    simp only [henc, hdek, hplain]
    exact ⟨rfl, rfl⟩
  | false => ?_
  have hbody : bytes = body := by
    unfold unsealShards at hopen
    rw [hgateway] at hopen
    exact Except.ok.inj hopen
  simp only [Bool.false_eq_true, if_false]
  apply (fetchPiece_verified req hp).seq
  intro r s' hr
  rw [hr.1, hr.2, hbody]
  exact ⟨rfl, rfl⟩

theorem fetchShards_holds (tolerance : Nat) {ps : List Piece} {ss : List Shard}
    (h : List.Forall₂ (HoldsShard cfg s.1.pieces) ps ss) (losses : Int → Nat)
    (fetched : List Shard) :
    (fetchShards cfg tolerance ps losses fetched).Ensures (storeMachine impl cfg.providers) Faultless
      s fun r s' => r = .ok (fetched ++ ss) ∧ s' = s := by
  induction h generalizing fetched with
  | nil => exact ⟨by rw [List.append_nil], rfl⟩
  | @cons p shard ps ss hp _ ih => ?_
  have hfetch : Returns impl cfg s (fetchShard cfg p) (.ok shard.bytes) := by
    unfold fetchShard
    have hprovider : (cfg.providers p.backend).isNone = false := by
      rw [Option.isNone_eq_false_iff]
      exact hp.verified.provider
    simp only [hprovider, Bool.false_eq_true, if_false]
    intro x hx
    rw [getPiece_of_found hx hp.verified.found]
    simp only [Proc.ret_bind, verifyPiece_of_hash hp.verified.hash]
    exact ⟨rfl, rfl⟩
  apply Proc.Ensures.bind
  apply hfetch.mono
  intro r s' hr
  rw [hr.1, hr.2]
  show Proc.Ensures _ _ (fetchShards cfg tolerance ps losses
    (fetched ++ [p.shard shard.bytes])) s _
  have hrest := ih (fetched ++ [shard])
  rw [List.append_assoc] at hrest
  rw [hp.shard]
  exact hrest

theorem reconstructErasureCoded_holds {lookup : String → Except String ErasureEncoder}
    {encoder : ErasureEncoder} {shards : List Shard}
    (hregistry : cfg.erasureCoding = some lookup)
    (hprofile : m.placementPolicy.erasureProfile ≠ "")
    (hencoder : lookup m.placementPolicy.erasureProfile = .ok encoder) (hne : shards ≠ [])
    (hsorted : m.pieces.Pairwise shardBefore)
    (hshards : List.Forall₂ (HoldsShard cfg s.1.pieces) m.pieces shards)
    (hdecode : encoder.decode shards = .ok bytes) (hopen : unsealShards cfg m bytes = .ok body) :
    Returns impl cfg s (reconstructErasureCoded cfg m) (.ok body) := by
  -- the first piece has a stripe, so the manifest is not empty
  have hstripes : (m.pieces.all fun p => decide (p.stripeIndex + 1 ≤ 0)) = false := by
    generalize m.pieces = ps at hshards
    cases hshards with
    | nil => exact absurd rfl hne
    | @cons p shard ps ss hp _ => ?_
    have hstripe := hp.stripe
    have hfirst : decide (p.stripeIndex + 1 ≤ 0) = false := decide_eq_false (by omega)
    rw [List.all_cons, hfirst]
    rfl
  unfold reconstructErasureCoded
  rw [hregistry]
  simp only [if_neg hprofile, hencoder, hstripes, Bool.false_eq_true, if_false]
  rw [hsorted.insertionSort_eq]
  apply (fetchShards_holds encoder.parityShards hshards _ []).seq
  intro r s' hr
  rw [hr.1, hr.2]
  simp only [List.nil_append, hdecode]
  exact ⟨hopen, rfl⟩

theorem Holds.resolved (h : Holds cfg s.1.pieces m body) :
    ∃ p ps, m.pieces = p :: ps ∧ (cfg.providers p.backend).isSome = true := by
  cases h with
  | single p bytes hpieces _ hverified _ => exact ⟨p, [], hpieces, hverified.provider⟩
  | shards lookup encoder shards bytes _ _ _ hne _ hshards _ _ => ?_
  cases hpieces : m.pieces with
  | nil =>
    rw [hpieces, List.forall₂_nil_left_iff] at hshards
    exact absurd hshards hne
  | cons p ps =>
    rw [hpieces] at hshards
    cases hshards with
    | cons hp _ => exact ⟨p, ps, rfl, hp.verified.provider⟩

structure PlainGet (req : GetRequest) : Prop where
  bucket : req.object.bucket ≠ ""
  key : req.object.key ≠ ""
  diverted : req.diverted = fun _ => none
  ranges : req.ranges = fun _ => .ok .whole

theorem manifestGet_exec {x : Choice} (hx : Faultless x) (k : ManifestKey) :
    (storeMachine impl cfg.providers).exec x (.manifestGet k) s = (impl.get s.2 k, s) :=
  storeMachine_exec hx _ s

theorem resolve_holds (hreq : PlainGet req)
    (hget : impl.get s.2 (req.object.manifestKey cfg) = .ok m) (hmarker : m.deleteMarker = false)
    {ps : List Piece} (hpieces : m.pieces = p :: ps)
    (hprovider : (cfg.providers p.backend).isSome = true) :
    Returns impl cfg s (resolve cfg req.object) (.ok (m, p)) := by
  have hpath : ¬ (req.object.bucket = "" ∨ req.object.key = "") := by
    rintro (h | h)
    · exact hreq.bucket h
    · exact hreq.key h
  have hregistered : (cfg.providers p.backend).isNone = false := by
    rw [Option.isNone_eq_false_iff]
    exact hprovider
  unfold resolve
  simp only [if_neg hpath]
  intro x hx
  rw [manifestGet_exec hx, hget]
  simp only [Proc.ret_bind, hmarker, hpieces, hregistered, Bool.false_eq_true, if_false]
  exact ⟨rfl, rfl⟩

theorem getObject_holds (hreq : PlainGet req)
    (hget : impl.get s.2 (req.object.manifestKey cfg) = .ok m) (hmarker : m.deleteMarker = false)
    (h : Holds cfg s.1.pieces m body) :
    Returns impl cfg s (getObject cfg req) (m.served 200 [body]) := by
  rcases h.resolved with ⟨p, ps, hpieces, hprovider⟩
  unfold getObject
  apply (resolve_holds hreq hget hmarker hpieces hprovider).seq
  intro r s' hr
  rw [hr.1, hr.2]
  simp only [hreq.diverted]
  cases h with
  | single q bytes hsingle hkind hverified hopen =>
    have hq : p = q := by
      rw [hsingle] at hpieces
      exact (List.cons.inj hpieces).1.symm
    have hcoded : m.isErasureCoded = false := by
      simp [ObjectManifest.isErasureCoded, hsingle, hkind]
    have hparts : m.isMultipart = false := by
      simp [ObjectManifest.isMultipart, hsingle]
    simp only [hcoded, hparts, Bool.false_eq_true, if_false]
    rw [hq]
    exact getSinglePiece_holds hreq.ranges hverified hopen
  | shards lookup encoder shards bytes hregistry hprofile hencoder hne hsorted hshards hdecode
      hopen =>
    have hcoded : m.isErasureCoded = true := by
      rw [hpieces] at hshards
      cases hshards with
      | cons hp _ => simp [ObjectManifest.isErasureCoded, hpieces, hp.kind]
    simp only [hcoded, if_true]
    unfold getReconstructed
    rw [hreq.ranges]
    apply Proc.Ensures.bind
    apply (reconstructErasureCoded_holds hregistry hprofile hencoder hne hsorted hshards hdecode
      hopen).mono
    intro r s' hr
    rw [hr.1, hr.2]
    exact ⟨rfl, rfl⟩

theorem getObject_missing (hreq : PlainGet req)
    (hget : impl.get s.2 (req.object.manifestKey cfg) = .error .manifestNotFound) :
    (getObject cfg req).Ensures (storeMachine impl cfg.providers) Faultless s
      fun r s' => r.status = 404 ∧ r.code = "NoSuchKey" ∧ s' = s := by
  have hpath : ¬ (req.object.bucket = "" ∨ req.object.key = "") := by
    rintro (h | h)
    · exact hreq.bucket h
    · exact hreq.key h
  unfold getObject getObjectWith
  rw [directReads_onStores]
  unfold resolve
  simp only [if_neg hpath]
  intro x hx
  rw [manifestGet_exec hx, hget]
  exact ⟨rfl, rfl, rfl⟩

end

end ObjectFabric
