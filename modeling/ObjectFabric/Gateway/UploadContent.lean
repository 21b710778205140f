import ObjectFabric.Gateway.Complete
import ObjectFabric.Gateway.Head

/-!
# UploadContent — what the parts of a multipart upload hold

An `UploadPart` that is acknowledged leaves its part with the sealed body on the backend and its
hashes in the session.  One that fails may leave any of them behind, but only under its own part
number.
-/

namespace ObjectFabric

open Interleaving

/-! ## 1. Sessions -/

def World.withSession (w : World) (id : String) (s : Session) (pieces : FMap PieceAddr Bytes) :
    World :=
  { w with pieces, uploads := { w.uploads with sessions := w.uploads.sessions.insert id s } }

section

variable {w : World} {id : String} {s s' : Session} {pieces pieces' : FMap PieceAddr Bytes}

@[simp] theorem World.lookup_withSession :
    (w.withSession id s pieces).uploads.sessions.lookup id = some s :=
  Finmap.lookup_insert _

@[simp] theorem World.withSession_pieces : (w.withSession id s pieces).pieces = pieces := rfl

@[simp] theorem World.withSession_withSession :
    (w.withSession id s pieces).withSession id s' pieces' = w.withSession id s' pieces' := by
  unfold World.withSession
  simp only [Finmap.insert_insert]

theorem World.with_pieces (h : w.uploads.sessions.lookup id = some s) :
    { w with pieces := pieces } = w.withSession id s pieces := by
  have hsame : w.uploads.sessions.insert id s = w.uploads.sessions := by
    apply Finmap.ext_lookup
    intro id'
    rw [FMap.lookup_insert_ite]
    by_cases hid : id' = id
    · rw [if_pos hid, hid, h]
    · rw [if_neg hid]
  unfold World.withSession
  rw [hsame]

theorem World.withSession_self (h : w.uploads.sessions.lookup id = some s) :
    w.withSession id s w.pieces = w :=
  (World.with_pieces h).symm

variable {providers : String → Option Provider} {x : Choice} {n : Int} {hash : Bytes}

section

variable (h : w.uploads.sessions.lookup id = some s)
include h

theorem World.modify_withSession (f : Session → Session) :
    { w with uploads := w.uploads.modify id f } = w.withSession id (f s) w.pieces := by
  unfold MultipartStore.modify
  rw [h]
  rfl

theorem setPartHash_exec :
    World.exec providers x (.uploadSetPartHash id n hash) w =
      ((), w.withSession id { s with partHashes := s.partHashes.insert n hash } w.pieces) :=
  congrArg (Prod.mk ()) (World.modify_withSession h _)

theorem setPlaintextPartHash_exec :
    World.exec providers x (.uploadSetPlaintextPartHash id n hash) w =
      ((), w.withSession id { s with plaintextPartHashes := s.plaintextPartHashes.insert n hash }
        w.pieces) :=
  congrArg (Prod.mk ()) (World.modify_withSession h _)

theorem recordPart_exec (part : Part) :
    World.exec providers x (.uploadRecordPart id part) w =
      ((), w.withSession id { s with parts := setPart part s.parts } w.pieces) :=
  congrArg (Prod.mk ()) (World.modify_withSession h _)

end

end

/-! ## 2. Parts -/

def partAddr (u : Upload) (n : Int) : PieceAddr := ⟨u.backend, partPieceID u.id n⟩

def SealedAs (cfg : Config) (u : Upload) (body bytes : Bytes) : Prop :=
  ∃ r : UploadPartRequest, r.body = body ∧ sealPart cfg r u = .ok bytes

structure PartStored (cfg : Config) (pieces : FMap PieceAddr Bytes) (s : Session) (n : Int)
    (body : Bytes) : Prop where
  number : 1 ≤ n ∧ n ≤ 10000
  sealed : ∃ bytes, SealedAs cfg s.upload body bytes ∧
    pieces.lookup (partAddr s.upload n) = some bytes ∧
    s.partHashes.lookup n = some (cfg.blake3 bytes)
  plaintext : s.upload.encMode.isGatewayEncrypted = true → cfg.dedupEnabled s.upload.policy = true →
    s.plaintextPartHashes.lookup n = some (cfg.blake3 body)
  recorded : ∃ part, s.part? n = some part ∧ part.addr = partAddr s.upload n ∧
    part.sizeBytes = body.length

/-- What an attempt to upload part `n` leaves: everything else is as before. -/
structure Attempt (w w' : World) (id : String) (s : Session) (n : Option Int) (s' : Session)
    (pieces : FMap PieceAddr Bytes) : Prop where
  world : w' = w.withSession id s' pieces
  upload : s'.upload = s.upload
  partHashes : ∀ n', n ≠ some n' → s'.partHashes.lookup n' = s.partHashes.lookup n'
  plaintextPartHashes : ∀ n', n ≠ some n' →
    s'.plaintextPartHashes.lookup n' = s.plaintextPartHashes.lookup n'
  parts : ∀ n', n ≠ some n' → s'.part? n' = s.part? n'
  pieces : ∀ a, (∀ n', n = some n' → a ≠ partAddr s.upload n') → pieces.lookup a = w.pieces.lookup a

variable {u : Upload} {bytes : Bytes}

section

variable {cfg : Config} {ok : Choice → Prop} {w : World} {r : UploadPartRequest} {s : Session}

theorem sealPart_error {response : Response} (h : sealPart cfg r u = .error response) :
    response.status ≠ 200 := by
  have hmap : ∀ e : Except String Bytes, (e.mapError fun message =>
      ({ status := 500, code := "EncryptionFailed", message } : Response)) = .error response →
      response.status ≠ 200 := by
    intro e he
    cases e with
    | error message =>
      rw [← Except.error.inj he]
      simp
    | ok bytes => simp [Except.mapError] at he
  unfold sealPart at h
  cases hu : u.encMode with
  | managed | publicDistribution =>
    simp only [hu] at h
    exact hmap _ h
  | clientSide =>
    simp only [hu] at h
    split at h
    · rw [← Except.error.inj h]
      simp
    · simp at h
  | unset | other => simp [hu] at h

section

variable (hs : w.uploads.sessions.lookup r.uploadID = some s)
include hs

theorem Attempt.none (n : Option Int) :
    Attempt w w r.uploadID s n s w.pieces :=
  ⟨(World.withSession_self hs).symm, rfl, fun _ _ => rfl, fun _ _ => rfl, fun _ _ => rfl,
    fun _ _ => rfl⟩

/-- The outcome of an `UploadPart` request. -/
def PartOutcome (cfg : Config) (w : World) (r : UploadPartRequest) (s : Session)
    (response : Response) (w' : World) : Prop :=
  ∃ s' pieces, Attempt w w' r.uploadID s r.partNumber s' pieces ∧
    (response.status = 200 → ∃ n, r.partNumber = some n ∧ PartStored cfg pieces s' n r.body)

omit hs in
theorem PartOutcome.refused {s' : Session} {pieces : FMap PieceAddr Bytes} {w' : World}
    (h : Attempt w w' r.uploadID s r.partNumber s' pieces) {response : Response}
    (hr : response.status ≠ 200) : PartOutcome cfg w r s response w' :=
  ⟨s', pieces, h, fun hok => absurd hok hr⟩

omit hs in
theorem sealPart_plain (hmode : u.encMode.isGatewayEncrypted = false)
    (h : sealPart cfg r u = .ok bytes) : bytes = r.body := by
  unfold sealPart at h
  cases hu : u.encMode with
  | managed | publicDistribution => simp [hu, EncryptionMode.isGatewayEncrypted] at hmode
  | clientSide =>
    simp only [hu] at h
    split at h
    · simp [refuse] at h
    · exact (Except.ok.inj h).symm
  | unset | other =>
    simp only [hu] at h
    exact (Except.ok.inj h).symm

theorem uploadGet_live (hlive : r.uploadID ∈ w.uploads.live) :
    w.uploads.get r.tenantID r.uploadID =
      if s.upload.tenantID = r.tenantID then .ok s.upload else .error .uploadNotFound := by
  unfold MultipartStore.get MultipartStore.session
  rw [if_pos hlive, hs]

theorem putPart_ensures {part : Part} {α : Type} {k : Except StoreError Unit → Proc Call α}
    {Q : α → World → Prop}
    (hlive : r.uploadID ∈ w.uploads.live) (htenant : s.upload.tenantID = r.tenantID)
    (hfault : (k (.error (.other "unavailable"))).Ensures (machine cfg.providers) ok w Q)
    (hok : (k (.ok ())).Ensures (machine cfg.providers) ok
      (w.withSession r.uploadID { s with parts := setPart part s.parts } w.pieces) Q) :
    ((putPart r.tenantID r.uploadID part).bind k).Ensures (machine cfg.providers) ok w Q := by
  apply Proc.Ensures.bind
  refine ensures_fallible rfl hfault fun x _ => ?_
  have hget : World.exec cfg.providers x (.uploadGet r.tenantID r.uploadID) w = (.ok s.upload, w) :=
    congrArg (·, w) ((uploadGet_live hs hlive).trans (if_pos htenant))
  rw [hget]
  refine ensures_total rfl fun y _ => ?_
  rw [recordPart_exec hs]
  exact hok

omit hs in
/-- The last steps of a request: the sealed bytes in hand, and in the session nothing of the part
but the hash of its plaintext. -/
theorem storePart_outcome {w₀ : World} {s₀ : Session} {n : Int}
    (h : Attempt w₀ w r.uploadID s₀ r.partNumber s w.pieces)
    (hs : w.uploads.sessions.lookup r.uploadID = some s) (hlive : r.uploadID ∈ w.uploads.live)
    (hid : s.upload.id = r.uploadID) (htenant : s.upload.tenantID = r.tenantID)
    (hn : r.partNumber = some n) (hrange : 1 ≤ n ∧ n ≤ 10000)
    (hprovider : (cfg.providers s.upload.backend).isSome = true)
    (hsealed : sealPart cfg r s.upload = .ok bytes)
    (hplain : s.upload.encMode.isGatewayEncrypted = true →
      cfg.dedupEnabled s.upload.policy = true →
      s.plaintextPartHashes.lookup n = some (cfg.blake3 r.body)) :
    (storePart cfg r s.upload n bytes).Ensures (machine cfg.providers) ok w
      (PartOutcome cfg w₀ r s₀) := by
  rcases Option.isSome_iff_exists.mp hprovider with ⟨provider, hprov⟩
  have ha : (⟨s.upload.backend, partPieceID r.uploadID n⟩ : PieceAddr) = partAddr s.upload n := by
    unfold partAddr
    rw [hid]
  -- whatever lies under the part's own address, the rest is as before
  have hattempt : ∀ (s' : Session) (pieces : FMap PieceAddr Bytes), s'.upload = s.upload →
      (∀ n', n ≠ n' → s'.partHashes.lookup n' = s.partHashes.lookup n') →
      s'.plaintextPartHashes = s.plaintextPartHashes →
      (∀ n', n ≠ n' → s'.part? n' = s.part? n') →
      (∀ a, a ≠ partAddr s.upload n → pieces.lookup a = w.pieces.lookup a) →
      Attempt w₀ (w.withSession r.uploadID s' pieces) r.uploadID s₀ r.partNumber s' pieces := by
    intro s' pieces hupload hhashes hplaintext hparts hpieces
    have hne : ∀ {n'}, r.partNumber ≠ some n' → n ≠ n' := by
      intro n' hne heq
      exact hne (by rw [hn, heq])
    refine ⟨?_, hupload.trans h.upload, ?_, ?_, ?_, ?_⟩
    · rw [h.world, World.withSession_withSession]
    · exact fun n' hn' => (hhashes n' (hne hn')).trans (h.partHashes n' hn')
    · intro n' hn'
      rw [hplaintext]
      exact h.plaintextPartHashes n' hn'
    · exact fun n' hn' => (hparts n' (hne hn')).trans (h.parts n' hn')
    · refine fun a ha' => (hpieces a ?_).trans (h.pieces a ha')
      rw [h.upload]
      exact ha' n hn
  have hinsert : ∀ a, a ≠ partAddr s.upload n →
      (w.pieces.insert (partAddr s.upload n) bytes).lookup a = w.pieces.lookup a := by
    intro a ha'
    rw [FMap.lookup_insert_ite, if_neg ha']
  have hhash : ∀ n', n ≠ n' →
      (s.partHashes.insert n (cfg.blake3 bytes)).lookup n' = s.partHashes.lookup n' := by
    intro n' hn'
    rw [FMap.lookup_insert_ite, if_neg hn'.symm]
  have hput : ∀ x, World.exec cfg.providers x (.putPiece (partAddr s.upload n) bytes) w =
      (.ok ⟨partPieceID s.upload.id n, provider.etagOf (partPieceID s.upload.id n) bytes,
        bytes.length, provider.locatorOf (partPieceID s.upload.id n)⟩,
        w.withSession r.uploadID s (w.pieces.insert (partAddr s.upload n) bytes)) := by
    intro x
    rw [← World.with_pieces hs]
    show World.putPiece _ _ _ _ = _
    unfold World.putPiece partAddr
    rw [hprov]
  unfold storePart
  simp only [ha]
  refine ensures_fallible rfl (PartOutcome.refused h (by simp)) fun x _ => ?_
  rw [hput]
  refine ensures_total rfl fun _ _ => ?_
  simp only [hid, setPartHash_exec World.lookup_withSession, World.withSession_withSession,
    World.withSession_pieces]
  refine ensures_total rfl fun y _ => ?_
  simp only [World.exec]
  refine putPart_ensures World.lookup_withSession hlive htenant ?_ ?_
  · -- the session cannot be read: the piece is taken back, if that works
    refine ensures_deletePiece _ fun b pieces hpieces => ?_
    rw [World.with_pieces World.lookup_withSession, World.withSession_withSession]
    have hrest := hattempt { s with partHashes := s.partHashes.insert n (cfg.blake3 bytes) } pieces
      rfl hhash rfl (fun _ _ => rfl) fun a ha' => (hpieces a ha').trans (hinsert a ha')
    exact PartOutcome.refused hrest (by simp)
  · rw [World.withSession_withSession]
    refine ⟨_, _, hattempt _ _ rfl hhash rfl ?_ hinsert, fun _ => ⟨n, hn, hrange, ?_, ?_, ?_⟩⟩
    · intro n' hn'
      exact (find_setPart _ _ _).trans (if_neg hn')
    · refine ⟨bytes, ⟨r, rfl, hsealed⟩, ?_, ?_⟩
      · rw [World.withSession_pieces]
        exact Finmap.lookup_insert _
      · exact Finmap.lookup_insert _
    · exact hplain
    · refine ⟨_, (find_setPart _ _ _).trans (if_pos rfl), ?_, ?_⟩
      · exact ha
      · show (if s.upload.encMode.isGatewayEncrypted then (r.body.length : Int) else bytes.length) = _
        cases hmode : s.upload.encMode.isGatewayEncrypted with
        | true => rfl
        | false =>
          rw [sealPart_plain hmode hsealed]
          rfl

theorem uploadPart_outcome (hlive : r.uploadID ∈ w.uploads.live) (hid : s.upload.id = r.uploadID) :
    (uploadPart cfg r).Ensures (machine cfg.providers) ok w (PartOutcome cfg w r s) := by
  have hnone : ∀ response : Response, response.status ≠ 200 → PartOutcome cfg w r s response w :=
    fun response hr => .refused (.none hs _) hr
  unfold uploadPart
  cases hn : r.partNumber.filter fun n => 1 ≤ n ∧ n ≤ 10000 with
  | none => exact hnone _ (by simp)
  | some n => ?_
  rw [Option.filter_eq_some_iff, decide_eq_true_eq] at hn
  refine ensures_fallible rfl (hnone _ (by simp)) fun x _ => ?_
  have hget : World.exec cfg.providers x (.uploadGet r.tenantID r.uploadID) w = (_, w) :=
    congrArg (·, w) (uploadGet_live hs hlive)
  rw [hget]
  by_cases htenant : s.upload.tenantID = r.tenantID
  · simp only [if_pos htenant]
    unfold uploadPartTo
    rw [if_neg (not_not_intro htenant)]
    split
    · exact hnone _ (by simp)
    rename_i hprovider
    rw [Bool.not_eq_true, Option.isNone_eq_false_iff] at hprovider
    -- `s'` is the session with or without the hash of the plaintext
    have hgo : ∀ s' : Session, s'.upload = s.upload →
        Attempt w (w.withSession r.uploadID s' w.pieces) r.uploadID s r.partNumber s' w.pieces →
        (s.upload.encMode.isGatewayEncrypted = true → cfg.dedupEnabled s.upload.policy = true →
          s'.plaintextPartHashes.lookup n = some (cfg.blake3 r.body)) →
        ∀ p : Handler, (∀ response, sealPart cfg r s.upload = .error response → p = .ret response) →
        (∀ bytes, sealPart cfg r s.upload = .ok bytes → p = storePart cfg r s.upload n bytes) →
        p.Ensures (machine cfg.providers) ok (w.withSession r.uploadID s' w.pieces)
          (PartOutcome cfg w r s) := by
      intro s' hupload hattempt hplain p herror hok
      cases hsealed : sealPart cfg r s.upload with
      | error response =>
        rw [herror response hsealed]
        exact PartOutcome.refused hattempt (sealPart_error hsealed)
      | ok bytes => ?_
      rw [hok bytes hsealed]
      simp only [← hupload] at hsealed hplain hprovider hid htenant ⊢
      exact storePart_outcome hattempt World.lookup_withSession hlive hid htenant hn.1 hn.2
        hprovider hsealed hplain
    unfold recordPlaintextHash
    split
    · refine ensures_total rfl fun y _ => ?_
      rw [hid, setPlaintextPartHash_exec hs]
      refine hgo { s with
          plaintextPartHashes := s.plaintextPartHashes.insert n (cfg.blake3 r.body) } rfl
        ⟨rfl, rfl, fun _ _ => rfl, fun n' hn' => ?_, fun _ _ => rfl, fun _ _ => rfl⟩
        (fun _ _ => Finmap.lookup_insert _) _ (fun response h => ?_) fun bytes h => ?_
      · rw [FMap.lookup_insert_ite, if_neg]
        exact fun heq => hn' (heq ▸ hn.1)
      · rw [h]
        rfl
      · rw [h]
    · rename_i hmode
      have hsame := hgo s rfl ((World.withSession_self hs).symm ▸ .none hs _)
        (fun hgateway hdedup => absurd ⟨hgateway, hdedup⟩ hmode)
      rw [World.withSession_self hs] at hsame
      refine hsame _ (fun response h => ?_) fun bytes h => ?_
      · rw [h]
        rfl
      · rw [h]
        rfl
  · simp only [if_neg htenant]
    exact hnone _ (by simp)

end

end

/-! ## 3. Opening a part -/

section

variable {cfg : Config}

theorem sealPart_gateway {r : UploadPartRequest}
    (hgateway : u.encMode.isGatewayEncrypted = true) (h : sealPart cfg r u = .ok bytes) :
    cfg.encryptObject r.entropy u.dekMaterial (partsEncryptionConfig u) (uploadAADIdentity cfg u)
      r.body = .ok bytes := by
  have hmap : ∀ e : Except String Bytes, ((e.mapError ("s3compat: encrypt object: " ++ ·)).mapError
      fun message => ({ status := 500, code := "EncryptionFailed", message } : Response)) = .ok bytes →
      e = .ok bytes := by
    intro e he
    cases e with
    | error message => simp [Except.mapError] at he
    | ok b =>
      rw [← Except.ok.inj he]
  unfold sealPart at h
  cases hu : u.encMode with
  | managed | publicDistribution =>
    simp only [hu] at h
    exact hmap _ h
  | clientSide | unset | other => simp [hu, EncryptionMode.isGatewayEncrypted] at hgateway

theorem decryptWithDEK_eq_ok {ciphertext dek : Bytes} {enc : EncryptionConfig} {id : AadIdentity}
    {body : Bytes} :
    cfg.decryptWithDEK ciphertext dek enc id = .ok body ↔
      cfg.decryptObject dek enc id ciphertext = .ok body := by
  unfold Config.decryptWithDEK
  cases cfg.decryptObject dek enc id ciphertext <;> simp [Except.mapError]

theorem SealedAs.opens (hcfg : OpensBack cfg) {body bytes : Bytes}
    (hgateway : u.encMode.isGatewayEncrypted = true) (h : SealedAs cfg u body bytes)
    {enc : EncryptionConfig} (henc : enc.aadVersion = (partsEncryptionConfig u).aadVersion) :
    cfg.decryptWithDEK bytes u.dekMaterial enc (uploadAADIdentity cfg u) = .ok body := by
  rcases h with ⟨r, rfl, hsealed⟩
  rw [decryptWithDEK_eq_ok]
  exact hcfg.decrypt _ _ _ _ _ _ _ (sealPart_gateway hgateway hsealed) henc

end

end ObjectFabric
