import ObjectFabric.Gateway.Content

/-!
# PutContent — what a PUT stores holds the body it was sent

The cipher, the key wrapping and the erasure codec enter through `OpensBack`: what they produce,
their counterparts read back.  Under these laws the bytes that each write path stores, read through
the manifest it stores with them, are the body of the request.
-/

namespace ObjectFabric

open Interleaving

/-! ## 1. Identifiers -/

theorem hexDigit_injective : ∀ a < 16, ∀ b < 16, hexDigit a = hexDigit b → a = b := by
  decide

theorem hexEncode_injective : Function.Injective hexEncode := by
  intro a b h
  have hchars := String.ofList_injective h
  clear h
  induction a generalizing b with
  | nil =>
    cases b with
    | nil => rfl
    | cons y ys => simp at hchars
  | cons x xs ih => ?_
  rcases b with _ | ⟨y, ys⟩
  · simp at hchars
  simp only [List.flatMap_cons, List.cons_append, List.nil_append, List.cons.injEq] at hchars
  have hx := x.toNat_lt
  have hy := y.toNat_lt
  have hhigh := hexDigit_injective _ (by omega) _ (by omega) hchars.1
  have hlow := hexDigit_injective _ (by omega) _ (by omega) hchars.2.1
  have hbyte : x = y := UInt8.toNat_inj.mp (by omega)
  rw [hbyte, ih hchars.2.2]

theorem bytes_of_formatContentHash {cfg : Config} (hblake : Function.Injective cfg.blake3)
    {a b : Bytes} (h : Config.formatContentHash (cfg.blake3Hex a) =
      Config.formatContentHash (cfg.blake3Hex b)) : a = b := by
  have hhex : cfg.blake3Hex a = cfg.blake3Hex b := by
    have hlist := congrArg String.toList h
    unfold Config.formatContentHash at hlist
    rw [String.toList_append, String.toList_append] at hlist
    exact String.toList_inj.mp (List.append_cancel_left hlist)
  exact hblake (hexEncode_injective hhex)

theorem toList_zeroPad (width n : Nat) : (zeroPad width n).toList =
    List.replicate (width - (Nat.toDigits 10 n).length) '0' ++ Nat.toDigits 10 n := by
  have hdigits : (toString n).toList = Nat.toDigits 10 n := Nat.toList_repr
  unfold zeroPad
  simp only [hdigits, String.toList_ofList]

theorem isDigit_of_mem_zeroPad {width n : Nat} {c : Char} (h : c ∈ (zeroPad width n).toList) :
    c.isDigit = true := by
  rw [toList_zeroPad, List.mem_append] at h
  cases h with
  | inl hzero =>
    rw [List.eq_of_mem_replicate hzero]
    rfl
  | inr hdigit => exact Nat.isDigit_of_mem_toDigits (by decide) (by decide) hdigit

theorem zeroPad_injective {width n n' : Nat} (h : zeroPad width n = zeroPad width n') : n = n' := by
  -- leading zeros do not change the value of the digits
  have hzeros : ∀ k, Nat.ofDigitChars 10 (List.replicate k '0') 0 = 0 := by
    intro k
    induction k with
    | zero => rfl
    | succ k ih =>
      rw [List.replicate_succ, Nat.ofDigitChars_cons]
      exact ih
  have hvalue : ∀ n, Nat.ofDigitChars 10 (zeroPad width n).toList 0 = n := by
    intro n
    rw [toList_zeroPad, Nat.ofDigitChars_append, hzeros]
    exact Nat.ofDigitChars_ten_toDigits
  rw [← hvalue n, ← hvalue n', h]

theorem shardPieceID_injective {versionID : String} {s s' : Shard}
    (h : shardPieceID versionID s = shardPieceID versionID s') :
    s.stripeIndex = s'.stripeIndex ∧ s.shardIndex = s'.shardIndex := by
  have hlist := congrArg String.toList h
  unfold shardPieceID at hlist
  simp only [String.toList_append, List.append_assoc] at hlist
  have hrest := List.append_cancel_left (List.append_cancel_left hlist)
  -- the stripe's digits end at the hyphen
  have hstripe : ∀ n (tail : List Char), ((zeroPad 4 n).toList ++ ("-p".toList ++ tail)).takeWhile
      Char.isDigit = (zeroPad 4 n).toList := by
    intro n tail
    rw [List.takeWhile_append_of_pos fun c hc => isDigit_of_mem_zeroPad hc]
    show (zeroPad 4 n).toList ++ [] = _
    exact List.append_nil _
  have heq : (zeroPad 4 s.stripeIndex).toList = (zeroPad 4 s'.stripeIndex).toList := by
    rw [← hstripe s.stripeIndex (zeroPad 3 s.shardIndex).toList, hrest, hstripe]
  rw [heq] at hrest
  have hshard := List.append_cancel_left (List.append_cancel_left hrest)
  exact ⟨zeroPad_injective (String.toList_inj.mp heq),
    zeroPad_injective (String.toList_inj.mp hshard)⟩

theorem beginsWith_append (s t : String) : beginsWith (s ++ t) s = true := by
  unfold beginsWith
  rw [String.toList_append, List.isPrefixOf_iff_prefix]
  exact List.prefix_append _ _

theorem beginsWith_self (s : String) : beginsWith s s = true := by
  unfold beginsWith
  rw [List.isPrefixOf_iff_prefix]

theorem beginsWith_shardPieceID (versionID : String) (s : Shard) :
    beginsWith (shardPieceID versionID s) versionID = true := by
  unfold shardPieceID
  rw [String.append_assoc, String.append_assoc, String.append_assoc]
  exact beginsWith_append _ _

/-! ## 2. The laws -/

def Shard.before (s t : Shard) : Prop :=
  s.stripeIndex < t.stripeIndex ∨ s.stripeIndex = t.stripeIndex ∧ s.shardIndex < t.shardIndex

structure OpensBack (cfg : Config) : Prop where
  decrypt : ∀ entropy dek enc enc' id plaintext ciphertext,
    cfg.encryptObject entropy dek enc id plaintext = .ok ciphertext →
    enc'.aadVersion = enc.aadVersion → cfg.decryptObject dek enc' id ciphertext = .ok plaintext
  convergent : ∀ dek enc id plaintext ciphertext,
    cfg.encryptConvergent dek plaintext = .ok ciphertext →
    enc.aadVersion = .legacy → cfg.decryptObject dek enc id ciphertext = .ok plaintext
  unwrap : ∀ enc entropy dek wrapped encCfg, cfg.encryption = some enc →
    enc.wrapDEK entropy dek = .ok wrapped → encCfg.keyID = wrapped.keyID →
    encCfg.wrappedDEK = wrapped.wrappedKey → encCfg.wrapAlgorithm = wrapped.wrapAlgorithm →
    enc.unwrapDEK encCfg = .ok dek
  /-- `Encode` emits at least one stripe, stripe by stripe. -/
  shards : ∀ lookup profile encoder body shards, cfg.erasureCoding = some lookup →
    lookup profile = .ok encoder → encoder.encode body = .ok shards →
    shards ≠ [] ∧ shards.Pairwise Shard.before ∧ encoder.decode shards = .ok body

variable {c : DedupContent}

section

variable {cfg : Config} (hcfg : OpensBack cfg) {r : PutRequest} {mode : EncryptionMode}
  {id : AadIdentity} {encCfg : EncryptionConfig} {bytes : Bytes}

/-- The sealed bytes open to the body under the configuration, whatever the identity when it is not
bound. -/
def Opens (cfg : Config) (encCfg : EncryptionConfig) (id : AadIdentity) (bytes body : Bytes) : Prop :=
  if encCfg.mode.isGatewayEncrypted then cfg.decryptFromStorage bytes encCfg id = .ok body
  else bytes = body

theorem unsealShards_of_opens {m : ObjectManifest} {body : Bytes}
    (h : Opens cfg m.encryption m.aadIdentity bytes body) : unsealShards cfg m bytes = .ok body := by
  unfold Opens at h
  unfold unsealShards
  cases hgateway : m.encryption.mode.isGatewayEncrypted with
  | true =>
    rw [hgateway, if_pos rfl] at h
    rw [h]
    rfl
  | false =>
    rw [hgateway] at h
    rw [show bytes = body from h]
    rfl

theorem passThrough_opens (hmode : mode.isGatewayEncrypted = false)
    (h : passThrough r mode = .ok (encCfg, bytes)) : Opens cfg encCfg id bytes r.body := by
  unfold passThrough at h
  cases mode with
  | clientSide =>
    by_cases hzk : r.zkEncryption = ""
    · simp [hzk, refuse] at h
    · simp only [hzk, if_false, Except.ok.injEq, Prod.mk.injEq] at h
      rw [← h.1, ← h.2]
      rfl
  | managed | publicDistribution => simp [EncryptionMode.isGatewayEncrypted] at hmode
  | unset | other =>
    simp only [Except.ok.injEq, Prod.mk.injEq] at h
    rw [← h.1, ← h.2]
    rfl

include hcfg

theorem sealBody_opens (h : sealBody cfg r mode id = .ok (encCfg, bytes)) :
    encCfg.mode = mode ∧ cfg.decryptFromStorage bytes encCfg id = .ok r.body := by
  unfold sealBody Config.encryptForStorage at h
  rcases henc : cfg.encryption with _ | enc
  · simp [henc, refuse] at h
  rcases hdek : cfg.generateDEK r.entropy with e | dek
  · simp [henc, hdek, Except.mapError, bind, Except.bind, refuse] at h
  rcases hct : cfg.encryptObject r.entropy dek { aadVersion := .v1 } id r.body with e | ciphertext
  · simp [henc, hdek, hct, Config.encryptWithDEK, Except.mapError, bind, Except.bind,
      refuse] at h
  rcases hwrap : enc.wrapDEK r.entropy dek with e | wrapped
  · simp [henc, hdek, hct, hwrap, Config.encryptWithDEK, Except.mapError, bind, Except.bind,
      refuse] at h
  simp only [henc, hdek, hct, hwrap, Config.encryptWithDEK, Except.mapError, bind,
    Except.bind, pure, Except.pure, Except.ok.injEq, Prod.mk.injEq] at h
  have hunwrap := hcfg.unwrap enc r.entropy dek wrapped encCfg henc hwrap
    (by rw [← h.1]) (by rw [← h.1]) (by rw [← h.1])
  have hopen := hcfg.decrypt r.entropy dek _ encCfg id r.body ciphertext hct (by rw [← h.1])
  refine ⟨by rw [← h.1], ?_⟩
  unfold Config.decryptFromStorage Config.decryptWithDEK
  simp only [henc, hunwrap, ← h.2, hopen, Except.mapError, bind, Except.bind]

theorem patternBContent_opens (id : AadIdentity)
    (h : patternBContent cfg r mode = .ok c) :
    c.contentHash = Config.formatContentHash (cfg.blake3Hex c.bytes) ∧ c.encryption.mode = mode ∧
      cfg.decryptFromStorage c.bytes c.encryption id = .ok r.body := by
  unfold patternBContent at h
  rcases henc : cfg.encryption with _ | enc
  · simp [henc] at h
  rcases hdek : cfg.deriveConvergentDEK (cfg.blake3 r.body) r.tenantID with e | dek
  · simp [henc, hdek, Except.mapError, bind, Except.bind] at h
  rcases hct : cfg.encryptConvergent dek r.body with e | ciphertext
  · simp [henc, hdek, hct, Except.mapError, bind, Except.bind] at h
  rcases hwrap : enc.wrapDEK r.entropy dek with e | wrapped
  · simp [henc, hdek, hct, hwrap, Except.mapError, bind, Except.bind] at h
  simp only [henc, hdek, hct, hwrap, Except.mapError, bind, Except.bind, pure, Except.pure,
    Except.ok.injEq] at h
  have hunwrap := hcfg.unwrap enc r.entropy dek wrapped c.encryption henc hwrap
    (by rw [← h]) (by rw [← h]) (by rw [← h])
  have hopen := hcfg.convergent dek c.encryption id r.body ciphertext hct (by rw [← h])
  refine ⟨by rw [← h], by rw [← h], ?_⟩
  have hbytes : c.bytes = ciphertext := by rw [← h]
  unfold Config.decryptFromStorage Config.decryptWithDEK
  simp only [henc, hunwrap, hbytes, hopen, Except.mapError, bind, Except.bind]

theorem dedupContent_opens (id : AadIdentity)
    (h : dedupContent cfg r mode = .ok c) :
    c.contentHash = Config.formatContentHash (cfg.blake3Hex c.bytes) ∧
      Opens cfg c.encryption id c.bytes r.body := by
  have hpatternB : mode.isGatewayEncrypted = true → patternBContent cfg r mode = .ok c →
      c.contentHash = Config.formatContentHash (cfg.blake3Hex c.bytes) ∧
        Opens cfg c.encryption id c.bytes r.body := by
    intro hgateway hc
    have hopen := patternBContent_opens hcfg id hc
    refine ⟨hopen.1, ?_⟩
    unfold Opens
    rw [hopen.2.1, hgateway, if_pos rfl]
    exact hopen.2.2
  cases mode with
  | managed | publicDistribution => exact hpatternB rfl h
  | clientSide =>
    rw [← Except.ok.inj h]
    exact ⟨rfl, rfl⟩
  | unset | other => simp [dedupContent] at h

theorem sealBody_opens_gateway (hmode : mode.isGatewayEncrypted = true)
    (h : sealBody cfg r mode id = .ok (encCfg, bytes)) : Opens cfg encCfg id bytes r.body := by
  have hopen := sealBody_opens hcfg h
  unfold Opens
  rw [hopen.1, hmode, if_pos rfl]
  exact hopen.2

theorem prepareErasureCodedEncryption_opens
    (h : prepareErasureCodedEncryption cfg r mode id = .ok (encCfg, bytes)) :
    Opens cfg encCfg id bytes r.body := by
  unfold prepareErasureCodedEncryption at h
  cases hmode : mode.isGatewayEncrypted with
  | true =>
    rw [hmode, if_pos rfl] at h
    split at h
    · simp [encryptionMissing, refuse] at h
    · exact sealBody_opens_gateway hcfg hmode h
  | false =>
    rw [hmode] at h
    exact passThrough_opens hmode h

theorem prepareSinglePieceEncryption_opens
    (h : prepareSinglePieceEncryption cfg r mode id = .ok (encCfg, bytes)) :
    Opens cfg encCfg id bytes r.body := by
  unfold prepareSinglePieceEncryption at h
  cases hmode : mode.isGatewayEncrypted with
  | true =>
    rw [hmode, if_pos rfl] at h
    split at h
    · simp [encryptionMissing, refuse] at h
    split at h
    · split at h
      · simp [refuse] at h
      · simp [refuse] at h
      · exact sealBody_opens_gateway hcfg hmode h
    · exact sealBody_opens_gateway hcfg hmode h
  | false =>
    rw [hmode] at h
    exact passThrough_opens hmode h

end

variable {provider : Provider} {shards : List Shard}

/-! ## 3. The manifests -/

section

variable {cfg : Config} {pieces : FMap PieceAddr Bytes} {r : PutRequest} {backend : String}
  {policy : PlacementPolicy} {versionID : String} {createdAt : Time} {bytes : Bytes}

theorem singlePieceManifest_holds {encCfg : EncryptionConfig} {res : PutResult}
    (hprovider : (cfg.providers backend).isSome = true)
    (hfound : pieces.lookup ⟨backend, res.pieceID⟩ = some bytes)
    (hopen : Opens cfg encCfg (r.aadIdentity cfg versionID) bytes r.body) :
    Holds cfg pieces (singlePieceManifest cfg r backend policy encCfg bytes versionID res createdAt)
      r.body :=
  .single _ bytes rfl rfl ⟨hprovider, hfound, rfl⟩ (unsealShards_of_opens hopen)

theorem dedupedManifest_holds {p : DedupPiece}
    (hprovider : (cfg.providers p.backend).isSome = true)
    (hfound : pieces.lookup ⟨p.backend, p.pieceID⟩ = some c.bytes)
    (hhash : c.contentHash = Config.formatContentHash (cfg.blake3Hex c.bytes))
    (hopen : Opens cfg c.encryption (r.aadIdentity cfg versionID) c.bytes r.body) :
    Holds cfg pieces (dedupedManifest cfg r policy c p versionID createdAt) r.body :=
  .single _ c.bytes rfl rfl ⟨hprovider, hfound, hhash⟩ (unsealShards_of_opens hopen)

/-- The piece that a shard is stored as, when the backend's answer is the provider's. -/
def storedShard (cfg : Config) (provider : Provider) (backend versionID : String) (s : Shard) :
    Piece :=
  shardPiece cfg backend s
    ⟨shardPieceID versionID s, provider.etagOf (shardPieceID versionID s) s.bytes, s.bytes.length,
      provider.locatorOf (shardPieceID versionID s)⟩

theorem storedShard_shard (cfg : Config) (provider : Provider) (backend versionID : String) (s : Shard)
    (bytes : Bytes) :
    (storedShard cfg provider backend versionID s).shard bytes = { s with bytes } := by
  have hkind : s.kind.ofShard.ofManifest = s.kind := by
    cases s.kind <;> rfl
  show Shard.mk ((s.stripeIndex : Int).toNat) ((s.shardIndex : Int).toNat)
    s.kind.ofShard.ofManifest bytes = _
  rw [hkind]
  rfl

theorem pairwise_storedShard
    (hsorted : shards.Pairwise Shard.before) :
    (shards.map (storedShard cfg provider backend versionID)).Pairwise shardBefore := by
  refine List.pairwise_map.mpr (hsorted.imp ?_)
  intro s t hst
  unfold Shard.before at hst
  show (s.stripeIndex : Int) < t.stripeIndex ∨ (s.stripeIndex : Int) = t.stripeIndex ∧
    (s.shardIndex : Int) ≤ t.shardIndex
  omega

def withShards (backend versionID : String) (shards : List Shard)
    (pieces : FMap PieceAddr Bytes) : FMap PieceAddr Bytes :=
  shards.foldl (fun ps s => ps.insert ⟨backend, shardPieceID versionID s⟩ s.bytes) pieces

theorem lookup_withShards_of_other {a : PieceAddr}
    (ha : beginsWith a.pieceID versionID = false) :
    (withShards backend versionID shards pieces).lookup a = pieces.lookup a := by
  induction shards generalizing pieces with
  | nil => rfl
  | cons s ss ih => ?_
  have hne : a ≠ ⟨backend, shardPieceID versionID s⟩ := by
    intro h
    rw [h, beginsWith_shardPieceID] at ha
    exact Bool.noConfusion ha
  show (withShards backend versionID ss
    (pieces.insert ⟨backend, shardPieceID versionID s⟩ s.bytes)).lookup a = _
  rw [ih, FMap.lookup_insert_ite, if_neg hne]

theorem lookup_withShards (hsorted : shards.Pairwise Shard.before) {s : Shard}
    (hs : s ∈ shards) :
    (withShards backend versionID shards pieces).lookup ⟨backend, shardPieceID versionID s⟩ =
      some s.bytes := by
  -- a shard written later has another position, so it does not overwrite this one
  have hkeep : ∀ (ss : List Shard) pieces, (∀ t ∈ ss, s.before t) →
      (withShards backend versionID ss pieces).lookup ⟨backend, shardPieceID versionID s⟩ =
        pieces.lookup ⟨backend, shardPieceID versionID s⟩ := by
    intro ss
    induction ss with
    | nil => exact fun _ _ => rfl
    | cons t ss ih => ?_
    intro pieces hall
    refine (ih _ fun u hu => hall u (List.mem_cons_of_mem t hu)).trans ?_
    have hne : (⟨backend, shardPieceID versionID s⟩ : PieceAddr) ≠
        ⟨backend, shardPieceID versionID t⟩ := by
      intro h
      have hsame := shardPieceID_injective (PieceAddr.mk.inj h).2
      have hbefore := hall t List.mem_cons_self
      unfold Shard.before at hbefore
      omega
    rw [FMap.lookup_insert_ite, if_neg hne]
  induction shards generalizing pieces with
  | nil => exact absurd hs List.not_mem_nil
  | cons t ss ih => ?_
  rw [List.pairwise_cons] at hsorted
  rw [List.mem_cons] at hs
  cases hs with
  | inl heq =>
    rw [heq] at hkeep ⊢
    refine (hkeep ss _ hsorted.1).trans ?_
    rw [FMap.lookup_insert_ite, if_pos rfl]
  | inr hmem => exact ih hsorted.2 hmem

theorem erasureCodedManifest_holds (hcfg : OpensBack cfg) {encCfg : EncryptionConfig}
    {lookup : String → Except String ErasureEncoder} {encoder : ErasureEncoder}
    (hprovider : (cfg.providers backend).isSome = true)
    (hregistry : cfg.erasureCoding = some lookup) (hprofile : policy.erasureProfile ≠ "")
    (hencoder : lookup policy.erasureProfile = .ok encoder)
    (hencode : encoder.encode bytes = .ok shards)
    (hopen : Opens cfg encCfg (r.aadIdentity cfg versionID) bytes r.body) :
    Holds cfg (withShards backend versionID shards pieces)
      (erasureCodedManifest cfg r backend policy encCfg encoder versionID
        (shards.map (storedShard cfg provider backend versionID)) createdAt) r.body := by
  rcases hcfg.shards lookup _ encoder bytes shards hregistry hencoder hencode with
    ⟨hne, hsorted, hdecode⟩
  have hkind : ∀ s : Shard, s.kind.ofShard ≠ .none := by
    intro s
    cases s.kind <;> decide
  refine .shards lookup encoder shards bytes hregistry hprofile hencoder hne
    (pairwise_storedShard hsorted) ?_ hdecode (unsealShards_of_opens hopen)
  refine List.forall₂_map_left_iff.mpr (List.forall₂_same.mpr fun s hs => ?_)
  exact ⟨⟨hprovider, lookup_withShards hsorted hs, rfl⟩, storedShard_shard _ _ _ _ s s.bytes,
    hkind s, Int.natCast_nonneg _⟩

end

/-! ## 4. Writing the shards -/

theorem World.putPiece_of_provider {providers : String → Option Provider}
    {a : PieceAddr} (h : providers a.backend = some provider) (w : World) (body : Bytes) :
    w.putPiece providers a body =
      (.ok ⟨a.pieceID, provider.etagOf a.pieceID body, body.length, provider.locatorOf a.pieceID⟩,
        { w with pieces := w.pieces.insert a body }) := by
  unfold World.putPiece
  rw [h]

theorem putShards_ensures {σ : Type} {impl : StoreImpl σ} {cfg : Config} {ok : Choice → Prop}
    (hok : ∀ x, ok x → x.fault = false) {backend versionID : String}
    (hprovider : cfg.providers backend = some provider) (shards : List Shard)
    (written : List Piece) (s : World × σ) :
    (putShards cfg backend versionID shards written).Ensures (storeMachine impl cfg.providers) ok s
      fun r s' => r = .ok (written ++ shards.map (storedShard cfg provider backend versionID)) ∧
        s' = ({ s.1 with pieces := withShards backend versionID shards s.1.pieces }, s.2) := by
  induction shards generalizing written s with
  | nil => exact ⟨by rw [List.map_nil, List.append_nil], rfl⟩
  | cons shard shards ih => ?_
  intro x hx
  rw [storeMachine_exec (hok x hx)]
  simp only [StoreImpl.exec, World.exec, Proc.ret_bind]
  rw [World.putPiece_of_provider hprovider]
  apply (ih (written ++ [storedShard cfg provider backend versionID shard]) _).mono
  intro r s' hr
  rw [hr.1, hr.2, List.append_assoc]
  exact ⟨rfl, rfl⟩

/-! ## 5. Refusals -/

def Response.refused (r : Response) : Prop := 300 ≤ r.status

@[simp] theorem Response.refused_iff (r : Response) : r.refused ↔ 300 ≤ r.status := Iff.rfl

theorem refused_of_refuse {α : Type} {status : Nat} {code message : String} {r : Response}
    (hstatus : 300 ≤ status) (h : (refuse status code message : Except Response α) = .error r) :
    r.refused := by
  rw [← Except.error.inj h]
  exact hstatus

section

variable {cfg : Config} {r : PutRequest} {mode : EncryptionMode} {id : AadIdentity}
  {response : Response}

theorem sealBody_refused (h : sealBody cfg r mode id = .error response) : response.refused := by
  unfold sealBody at h
  split at h
  · exact refused_of_refuse (by decide) h
  · exact absurd h (by simp)

theorem passThrough_refused (h : passThrough r mode = .error response) : response.refused := by
  unfold passThrough at h
  split at h
  · split at h
    · exact refused_of_refuse (by decide) h
    · exact absurd h (by simp)
  · exact absurd h (by simp)

theorem prepareErasureCodedEncryption_refused
    (h : prepareErasureCodedEncryption cfg r mode id = .error response) : response.refused := by
  unfold prepareErasureCodedEncryption at h
  split at h
  · split at h
    · exact refused_of_refuse (by decide) h
    · exact sealBody_refused h
  · exact passThrough_refused h

theorem prepareSinglePieceEncryption_refused
    (h : prepareSinglePieceEncryption cfg r mode id = .error response) : response.refused := by
  unfold prepareSinglePieceEncryption at h
  split at h
  · split at h
    · exact refused_of_refuse (by decide) h
    split at h
    · split at h
      · exact refused_of_refuse (by decide) h
      · exact refused_of_refuse (by decide) h
      · exact sealBody_refused h
    · exact sealBody_refused h
  · exact passThrough_refused h

end

section

variable {σ : Type} {machine : Machine Call σ Choice} {cfg : Config} {ok : Choice → Prop} {st : σ}
  {Q : Response → σ → Prop}

theorem orRefuse_ensures {check : Proc Call (Option Response)} {rest : Handler}
    (hcheck : check.Ensures machine ok st
      fun a st' => (∀ response, a = some response → response.refused) ∧ st' = st)
    (hrefused : ∀ response : Response, response.refused → Q response st)
    (hrest : rest.Ensures machine ok st Q) :
    (orRefuse check rest).Ensures machine ok st Q := by
  apply Proc.Ensures.bind
  apply hcheck.mono
  intro a st' ha
  rw [ha.2]
  cases a with
  | none => exact hrest
  | some response => exact hrefused response (ha.1 response rfl)

variable (hquiet : ∀ {β : Type} (x : Choice) (c : Call β), consults c → (machine.exec x c st).2 = st)

include hquiet

theorem allowObjectLockOverwrite_ensures (o : ObjectRef) (bypass : Bool) :
    (allowObjectLockOverwrite cfg o bypass).Ensures machine ok st
      fun a st' => (∀ response, a = some response → response.refused) ∧ st' = st := by
  have hnone : ∀ response : Response, none = some response → response.refused := by simp
  have hsome : ∀ r : Response, r.refused → ∀ response, some r = some response →
      response.refused := by
    intro r hr response h
    rw [← Option.some.inj h]
    exact hr
  unfold allowObjectLockOverwrite Config.bucketVersioning
  rcases cfg.hasBucketConfig with _ | _
  · exact ⟨hnone, rfl⟩
  refine Proc.ensures_quiet (fun x => hquiet x _ (by trivial)) fun locked => ?_
  rcases locked with e | lockCfg
  · exact ⟨hsome _ (by simp), rfl⟩
  simp only
  split
  · exact ⟨hnone, rfl⟩
  refine Proc.ensures_quiet (fun x => hquiet x _ (by trivial)) fun versioning => ?_
  rcases versioning with e | state
  · exact ⟨hsome _ (by simp), rfl⟩
  simp only
  split
  · exact ⟨hnone, rfl⟩
  refine Proc.ensures_quiet (fun x => hquiet x _ (by trivial)) fun current => ?_
  rcases current with e | m
  · cases e with
    | manifestNotFound => exact ⟨hnone, rfl⟩
    | _ => exact ⟨hsome _ (by simp), rfl⟩
  refine Proc.ensures_quiet (fun x => hquiet x _ (by trivial)) fun now => ?_
  split
  · exact ⟨hsome _ (by simp), rfl⟩
  · exact ⟨hnone, rfl⟩

theorem placed_ensures {tenantID bucket key : String} {go : String → PlacementPolicy → Handler}
    (hrefused : ∀ response : Response, response.refused → Q response st)
    (hgo : ∀ backend provider policy, cfg.providers backend = some provider →
      (go backend policy).Ensures machine ok st Q) :
    (placed cfg tenantID bucket key go).Ensures machine ok st Q := by
  unfold placed
  rcases cfg.resolveBackend tenantID bucket key with message | target
  · exact hrefused _ (by simp)
  simp only
  rcases hprovider : cfg.providers target.1 with _ | provider
  · exact hrefused _ (by simp)
  simp only
  split
  · exact hrefused _ (by simp)
  have hmode : (cfg.effectiveEncryptionMode tenantID bucket target.2).Ensures
      machine ok st fun _ st' => st' = st :=
    (cfg.effectiveEncryptionMode_only tenantID bucket target.2).ensures fun x c hc =>
      hquiet x c (consults_of_inspects hc)
  apply Proc.Ensures.bind
  apply hmode.mono
  intro mode st' hst
  rw [hst]
  cases mode with
  | error message => exact hrefused _ (by simp)
  | ok mode => exact hgo _ provider _ hprovider

end

end ObjectFabric
