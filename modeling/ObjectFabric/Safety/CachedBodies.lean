import ObjectFabric.Gateway.CertifiedFetch
import ObjectFabric.Safety.WriteGates
import ObjectFabric.Workers.Promotion

/-!
# CachedBodies — what the hot-object cache may hold

A cached body is served without a check.  GETs put into the cache only bytes that they have checked
against the hash in the manifest.  The promotion worker has the piece ID and no hash, so what it puts
there is what the backend returns; the cache is sound over every run in which the backends return to
the worker what was recorded.
-/

namespace ObjectFabric

open Interleaving

/-! ## 1. The runs -/

/-- What runs against the cache: a read, an upload of a part (which overwrites an earlier one), turns
of the promotion worker, an eviction, and a backend that changes what it holds. -/
inductive CacheTask where
  | get (req : GetRequest)
  | uploadPart (r : UploadPartRequest)
  | promote (turns : Nat)
  | evict (pieceID : String)
  | alter (addr : PieceAddr) (bytes : Bytes)

def CacheTask.isPromotion : CacheTask → Bool
  | .promote _ => true
  | _ => false

def CacheTask.program (cfg : Config) (cc : CacheConfig) : CacheTask → Proc CacheCall Unit
  | .get req => do
    let _ ← Cached.getObject cfg cc req
  | .uploadPart r => do
    let _ ← onStores (ObjectFabric.uploadPart cfg r)
  | .promote turns => PromotionWorker.run cc turns
  | .evict pieceID => ask (Sum.inr (.evict pieceID))
  | .alter addr bytes => do
    let _ ← ask (Sum.inl (.putPiece addr bytes))

def Recorded (w : World) (pieceID hash : String) : Prop :=
  ∃ k m, w.manifests.byKey.lookup k = some m ∧ ∃ p ∈ m.pieces, p.pieceID = pieceID ∧ p.hash = hash

/-- The cached bodies match the hashes that stored manifests record for their pieces. -/
def CacheMatches (cfg : Config) (s : CachedWorld) : Prop :=
  ∀ e ∈ s.cache.entries, ∀ p : Piece, p.pieceID = e.pieceID → p.hash ≠ "" →
    Recorded s.world p.pieceID p.hash → verifyPiece cfg e.body p = .verified

/-- The body passes the check of every hash that `R` records for the piece. -/
def Genuine (cfg : Config) (R : String → String → Prop) (pieceID : String) (body : Bytes) : Prop :=
  ∀ p : Piece, p.pieceID = pieceID → R pieceID p.hash → (verifyPiece cfg body p).passed = true

def OneHash (R : String → String → Prop) : Prop :=
  ∀ id hash hash', R id hash → R id hash' → hash = hash'

def recognisedHash (hash : String) : Bool :=
  beginsWith hash "blake3:" || isSHA256Hex (stripQuotes hash)

/-- A cache whose bodies match, and manifests that record for each piece one hash, in a known
format. -/
structure CleanStart (cfg : Config) (s : CachedWorld) : Prop where
  cache : ∀ e ∈ s.cache.entries, Genuine cfg (Recorded s.world) e.pieceID e.body
  oneHash : OneHash (Recorded s.world)
  known : ∀ id hash, Recorded s.world id hash → hash ≠ "" → recognisedHash hash = true

/-- What a backend returns to the promotion worker passes the checks recorded in `w`. -/
def promotesGenuine (cfg : Config) (w : World) (tasks : List CacheTask) :
    Condition CacheCall Choice CachedWorld PUnit
  | i, _, _, .inl (.getPiece a), _, s, _ =>
    tasks[i]?.any CacheTask.isPromotion = true →
      ∀ body, s.world.pieces.lookup a = some body → Genuine cfg (Recorded w) a.pieceID body
  | _, _, _, _, _, _, _ => True

/-! ## 2. Checks by hash -/

section

variable {cfg : Config} {R : String → String → Prop} {p q : Piece} {body : Bytes}

theorem passed_congr (h : p.hash = q.hash) (hq : (verifyPiece cfg body q).passed = true) :
    (verifyPiece cfg body p).passed = true := by
  unfold verifyPiece at hq ⊢
  rw [h]
  split
  · rfl
  rename_i hne
  rw [if_neg hne] at hq
  split
  · rename_i hblake
    rw [if_pos hblake] at hq
    simp only at hq ⊢
    split
    · rfl
    · rename_i hdiffers
      rw [if_neg hdiffers] at hq
      exact absurd hq (by simp [Integrity.passed])
  · rename_i hblake
    rw [if_neg hblake] at hq
    simp only at hq ⊢
    split
    · rfl
    rename_i hformat
    rw [if_neg hformat] at hq
    split
    · rfl
    · rename_i hdiffers
      rw [if_neg hdiffers] at hq
      exact absurd hq (by simp [Integrity.passed])

theorem genuine_of_passed (hone : OneHash R)
    (hrecorded : R p.pieceID p.hash) (hpassed : (verifyPiece cfg body p).passed = true) :
    Genuine cfg R p.pieceID body := by
  intro q hid hq
  exact passed_congr (hone _ _ _ hq hrecorded) hpassed

theorem verified_of_recognised (hhash : recognisedHash p.hash = true)
    (hpassed : (verifyPiece cfg body p).passed = true) : verifyPiece cfg body p = .verified := by
  cases hverify : verifyPiece cfg body p with
  | verified => rfl
  | failed message =>
    rw [hverify] at hpassed
    exact absurd hpassed (by simp [Integrity.passed])
  | unrecognized => ?_
  unfold verifyPiece at hverify
  unfold recognisedHash at hhash
  split at hverify
  · exact absurd hverify (by simp)
  split at hverify
  · simp only at hverify
    split at hverify <;> exact absurd hverify (by simp)
  rename_i hblake
  rw [Bool.or_eq_true] at hhash
  have hformat := hhash.resolve_left hblake
  simp only [hformat] at hverify
  split at hverify
  · rename_i hnot
    exact absurd hnot (by simp)
  split at hverify <;> exact absurd hverify (by simp)

end

/-! ## 3. What the programs do to the cache -/

def Refs (R : String → String → Prop) (m : ObjectManifest) : Prop :=
  ∀ p ∈ m.pieces, R p.pieceID p.hash

section

variable (cfg : Config) (R : String → String → Prop)

/-- Manifests are stored with the recorded hashes only, and genuine bodies are cached. -/
def keepsGenuine {β : Type} : CacheCall β → Prop
  | .inl (.manifestPut _ m) => Refs R m
  | .inl (.manifestUpdate _ _) | .inl (.manifestDelete _) => False
  | .inr (.put pieceID body _) => Genuine cfg R pieceID body
  | _ => True

/-- Manifests are read with the recorded hashes, and a worker reads genuine bodies. -/
def answersGenuine (worker : Bool) {β : Type} (c : CacheCall β) (b : β) : Prop :=
  match c, b with
  | .inl (.manifestGet _), .ok m => Refs R m
  | .inl (.getPiece a), .ok body => worker = true → Genuine cfg R a.pieceID body
  | _, _ => True

def cacheSpec (worker : Bool) : Spec CacheCall :=
  Proc.plainly (keepsGenuine cfg R) (answersGenuine cfg R worker)

def storeSpec (worker : Bool) : Spec Call :=
  Proc.plainly (fun c => keepsGenuine cfg R (Sum.inl c))
    fun c b => answersGenuine cfg R worker (Sum.inl c) b

end

section

variable {cfg : Config} {cc : CacheConfig} {R : String → String → Prop} {worker : Bool}
  {key : ManifestKey} {m : ObjectManifest} {p : Piece} {range : Option ByteRange}
  {tenantID : String} {h : History CacheCall} {past : History Call}

theorem onStores_conforms {α : Type} {q : Proc Call α} {Q : α → Prop}
    (hq : q.Conforms (storeSpec cfg R worker) (fun _ => Q) []) :
    (onStores q).Conforms (cacheSpec cfg R worker) (fun _ => Q) h :=
  Proc.Conforms.lift h hq

theorem keepsGenuine_of_storesNone {β : Type} {c : Call β} (hc : storesNone c) :
    keepsGenuine cfg R (Sum.inl c) := by
  cases c with
  | manifestPut | manifestUpdate | manifestDelete => exact hc.elim
  | _ => trivial

theorem onStores_conforms_of_storesNone {α : Type} {q : Proc Call α} (hq : q.Only storesNone) :
    (onStores q).Follows (cacheSpec cfg R worker) h := by
  apply onStores_conforms
  exact hq.conforms (R := fun _ => True)
    (fun _ _ _ hc _ => ⟨keepsGenuine_of_storesNone hc, fun _ => trivial⟩) trivial

/-- The manifest has recorded hashes, and its first piece has the ID and the hash of `p`. -/
structure Heads (R : String → String → Prop) (m : ObjectManifest) (p : Piece) : Prop where
  refs : Refs R m
  first : ∃ q rest, m.pieces = q :: rest ∧ q.pieceID = p.pieceID ∧ q.hash = p.hash

theorem Heads.recorded (h : Heads R m p) : R p.pieceID p.hash := by
  obtain ⟨q, rest, hpieces, hid, hhash⟩ := h.first
  rw [← hid, ← hhash]
  exact h.refs q (by rw [hpieces]; exact List.mem_cons_self)

theorem Heads.relocate (h : Heads R m p) {q : Piece} (hq : m.pieces[0]? = some q)
    (backend : String) (res : PutResult) : Heads R (m.relocate 0 q backend res) p := by
  obtain ⟨q', rest, hpieces, hid, hhash⟩ := h.first
  have hqq : q' = q := by
    rw [hpieces] at hq
    exact Option.some.inj hq
  subst hqq
  have hset : (m.relocate 0 q' backend res).pieces = q'.relocated backend res :: rest := by
    unfold ObjectManifest.relocate
    rw [hpieces]
    rfl
  refine ⟨fun a ha => ?_, q'.relocated backend res, rest, hset, hid, hhash⟩
  rw [hset] at ha
  rcases List.mem_cons.mp ha with rfl | hrest
  · exact h.refs q' (by rw [hpieces]; exact List.mem_cons_self)
  · exact h.refs a (by rw [hpieces]; exact List.mem_cons_of_mem q' hrest)

def Repairs (cfg : Config) (R : String → String → Prop) (p : Piece) (_ : History Call)
    (r : Except String RepairResult × ObjectManifest) : Prop :=
  Heads R r.2 p ∧ ∀ res, r.1 = .ok res → (verifyPiece cfg res.body p).passed = true

theorem Heads.repairs_error (hm : Heads R m p) (message : String) :
    Repairs cfg R p past (.error message, m) :=
  ⟨hm, fun res hres => absurd hres (by simp)⟩

theorem repair_conforms (hm : Heads R m p) :
    (repair cfg key m 0).Conforms (storeSpec cfg R worker) (Repairs cfg R p) past := by
  obtain ⟨q, rest, hpieces, -, hhash⟩ := hm.first
  have hzero : m.pieces[0]? = some q := by
    rw [hpieces]
    rfl
  unfold repair
  rw [hzero]
  simp only
  split
  · exact hm.repairs_error _
  split
  · exact hm.repairs_error _
  split
  · exact hm.repairs_error _
  refine ⟨trivial, fun r _ => ?_⟩
  cases r with
  | error e => exact hm.repairs_error _
  | ok body => ?_
  have hstored : ∀ past, (verifyPiece cfg body q).passed = true →
      (storeRepaired key m 0 q body).Conforms (storeSpec cfg R worker) (Repairs cfg R p) past := by
    intro past hpassed
    refine ⟨trivial, fun put _ => ?_⟩
    cases put with
    | error e => exact hm.repairs_error _
    | ok put => ?_
    have hmoved := hm.relocate hzero (m.repairTarget q) put
    refine ⟨hmoved.refs, fun stored _ => ?_⟩
    cases stored with
    | error e => exact hm.repairs_error _
    | ok _ =>
      refine ⟨hmoved, fun res hres => ?_⟩
      rw [← Except.ok.inj hres]
      exact passed_congr hhash.symm hpassed
  simp only [Proc.ret_bind]
  cases hverify : verifyPiece cfg body q with
  | failed message => exact hm.repairs_error _
  | verified | unrecognized => exact hstored _ (by rw [hverify]; rfl)

theorem getRange_conforms (addr : PieceAddr) :
    (getRange addr range).Follows (storeSpec cfg R worker) past := by
  refine ⟨trivial, fun found _ => ?_⟩
  cases found with
  | error e => trivial
  | ok body => cases range <;> trivial

theorem getOrRepair_conforms (hm : Heads R m p) :
    (getOrRepair cfg key m p range).Conforms (storeSpec cfg R worker) (fun _ r => Heads R r.2 p ∧
      (range = none → ∀ body, r.1 = .ok (body, true) →
        (verifyPiece cfg body p).passed = true)) past := by
  apply (getRange_conforms p.addr).seq
  intro past found _
  cases found with
  | ok body => exact ⟨hm, fun _ body' hbody => absurd hbody (by simp)⟩
  | error e => ?_
  apply Proc.Conforms.bind
  unfold tryReadRepair
  split
  · exact ⟨hm, fun _ body hbody => absurd hbody (by simp)⟩
  apply (repair_conforms hm).seq
  rintro past ⟨r, m'⟩ ⟨hm', hpassed⟩
  cases r with
  | error message => exact ⟨hm', fun _ body hbody => absurd hbody (by simp)⟩
  | ok res => ?_
  cases range with
  | none =>
    refine ⟨hm', fun _ body hbody => ?_⟩
    rw [← (Prod.mk.inj (Except.ok.inj hbody)).1]
    exact hpassed res rfl
  | some r => ?_
  simp only
  cases r.slice res.body <;> exact ⟨hm', fun hnone => absurd hnone (by simp)⟩

theorem signalPromotion_conforms (readBytes size : Int) :
    (Cached.signalPromotion cc p tenantID readBytes size).Follows (cacheSpec cfg R worker) h := by
  unfold Cached.signalPromotion
  split
  · exact ⟨trivial, fun _ _ => ⟨trivial, fun _ _ => trivial⟩⟩
  · trivial

theorem cachedBody_conforms (pieceID : String) :
    (Cached.cachedBody cc pieceID).Follows (cacheSpec cfg R worker) h := by
  unfold Cached.cachedBody
  split
  · exact ⟨trivial, fun _ _ => trivial⟩
  · trivial

theorem warmPiece_conforms (hone : OneHash R)
    (hrecorded : R p.pieceID p.hash) (buf : Bytes) (preVerified : Bool)
    (hchecked : preVerified = true → (verifyPiece cfg buf p).passed = true) :
    (Cached.warmPiece cfg cc p range buf preVerified).Follows (cacheSpec cfg R worker) h := by
  have hput : (verifyPiece cfg buf p).passed = true →
      (if cc.hasCache then do
        let _ ← ask (Sum.inr (.put p.pieceID buf { sizeBytes := buf.length, hash := p.hash }))
        return sliceOr range p buf
      else return sliceOr range p buf : Proc CacheCall _).Follows (cacheSpec cfg R worker) h := by
    intro hpassed
    split
    · exact ⟨genuine_of_passed hone hrecorded hpassed, fun _ _ => trivial⟩
    · trivial
  unfold Cached.warmPiece
  cases preVerified with
  | true => exact hput (hchecked rfl)
  | false => ?_
  cases hverify : verifyPiece cfg buf p with
  | failed message => trivial
  | verified | unrecognized => exact hput (by rw [hverify]; rfl)

theorem passOn_conforms (buf : Bytes) (preVerified : Bool) :
    (onStores (Cached.passOn p range buf preVerified)).Follows (cacheSpec cfg R worker) h := by
  apply onStores_conforms
  unfold Cached.passOn
  cases range with
  | none => trivial
  | some r => ?_
  cases preVerified with
  | true => trivial
  | false => ?_
  apply (getRange_conforms p.addr).seq
  intro h found _
  cases found <;> trivial

theorem serveWhole_conforms (hone : OneHash R)
    (hrecorded : R p.pieceID p.hash) (size : Int) (buf : Bytes)
    (preVerified : Bool)
    (hchecked : preVerified = true → (verifyPiece cfg buf p).passed = true) :
    (Cached.serveWhole cfg cc tenantID p range size buf preVerified).Follows
      (cacheSpec cfg R worker) h := by
  apply Proc.Conforms.bind
  have hacquire : (Cached.acquireBudget cc size).Follows (cacheSpec cfg R worker) h := by
    unfold Cached.acquireBudget
    split
    · trivial
    · split
      · trivial
      · exact ⟨trivial, fun _ _ => trivial⟩
  have hrelease : ∀ h, (Cached.releaseBudget cc size).Follows (cacheSpec cfg R worker) h := by
    intro h
    unfold Cached.releaseBudget
    split
    · trivial
    · exact ⟨trivial, fun _ _ => trivial⟩
  apply hacquire.mono
  intro h admitted _
  cases admitted with
  | true =>
    apply (warmPiece_conforms hone hrecorded buf preVerified hchecked).seq
    intro h served _
    exact (hrelease h).seq fun _ _ _ => trivial
  | false =>
    apply (signalPromotion_conforms size size).seq
    exact fun _ _ _ => passOn_conforms buf preVerified

theorem fetchPiece_conforms (hone : OneHash R)
    (hm : Heads R m p) :
    (Cached.fetchPiece cfg cc tenantID key m p range).Conforms (cacheSpec cfg R worker)
      (fun _ r => Heads R r.2 p) h := by
  apply (cachedBody_conforms p.pieceID).seq
  intro h cached _
  cases cached with
  | some body => exact hm
  | none => ?_
  apply (onStores_conforms (getOrRepair_conforms hm)).seq
  rintro h ⟨r, m'⟩ ⟨hm', hchecked⟩
  cases r with
  | error e => exact hm'
  | ok found => ?_
  obtain ⟨body, preVerified⟩ := found
  simp only
  split
  · cases range with
    | none => exact hm'
    | some r =>
      apply (signalPromotion_conforms _ _).seq
      exact fun _ _ _ => hm'
  · rename_i hfull
    split
    · split
      · apply (signalPromotion_conforms _ _).seq
        exact fun _ _ _ => hm'
      · exact hm'
    · apply Proc.Conforms.bind
      -- the piece was read whole, so a repaired one has passed the check as a whole
      have hwhole : preVerified = true → (verifyPiece cfg body p).passed = true := by
        rintro rfl
        exact hchecked (if_pos (not_not.mp hfull)) body rfl
      apply (serveWhole_conforms hone hm.recorded _ body preVerified hwhole).mono
      exact fun _ _ _ => hm'

theorem fetchRanges_conforms (hone : OneHash R)
    (hm : Heads R m p) (rs : List ByteRange) (parts : List Bytes) :
    (fetchRanges (Cached.reads cfg cc tenantID) key p m rs parts).Follows
      (cacheSpec cfg R worker) h := by
  induction rs generalizing m parts h with
  | nil => trivial
  | cons r rs ih => ?_
  apply (fetchPiece_conforms hone hm).seq
  rintro h ⟨found, m'⟩ hm'
  cases found with
  | error e => trivial
  | ok part => exact ih hm' _

theorem openCiphertextStream_conforms (hm : Heads R m p) :
    (Cached.openCiphertextStream cfg cc tenantID key m p).Follows (cacheSpec cfg R worker) h := by
  apply (cachedBody_conforms p.pieceID).seq
  intro h cached _
  cases cached with
  | some body => trivial
  | none => ?_
  apply (onStores_conforms (getOrRepair_conforms hm)).seq
  rintro h ⟨r, m'⟩ -
  cases r with
  | error e => trivial
  | ok found => ?_
  obtain ⟨body, preVerified⟩ := found
  cases preVerified with
  | true => trivial
  | false => ?_
  simp only
  split
  · exact (signalPromotion_conforms _ _).seq fun _ _ _ => trivial
  · trivial

theorem streamGatewayDecryptedGet_conforms (hm : Heads R m p) :
    (streamGatewayDecryptedGet cfg (Cached.reads cfg cc tenantID) key m p).Follows
      (cacheSpec cfg R worker) h := by
  apply (openCiphertextStream_conforms hm).seq
  rintro h ⟨r, m'⟩ -
  cases r with
  | error e => trivial
  | ok ciphertext => ?_
  simp only
  split
  · trivial
  split
  · trivial
  split <;> trivial

theorem getSinglePiece_conforms (hone : OneHash R)
    (hm : Heads R m p) (req : GetRequest) :
    (getSinglePiece cfg (Cached.reads cfg cc req.object.tenantID) req key m p).Follows
      (cacheSpec cfg R worker) h := by
  have hbuffered : ∀ ranges, (bufferedGatewayDecryptedGet cfg
      (Cached.reads cfg cc req.object.tenantID) key m p ranges).Follows (cacheSpec cfg R worker) h := by
    intro ranges
    unfold bufferedGatewayDecryptedGet
    split
    · trivial
    apply (fetchPiece_conforms hone hm).seq
    rintro h ⟨r, m'⟩ -
    cases r with
    | error e => trivial
    | ok ciphertext =>
      simp only
      split <;> trivial
  unfold getSinglePiece
  cases req.ranges m.objectSize with
  | error message => trivial
  | ok ranges => ?_
  simp only
  split
  · cases ranges with
    | whole => exact streamGatewayDecryptedGet_conforms hm
    | single | multi => exact hbuffered _
  · cases ranges with
    | multi r rs =>
      apply (fetchPiece_conforms hone hm).seq
      rintro h ⟨found, m'⟩ hm'
      cases found with
      | error e => trivial
      | ok part =>
        exact (fetchRanges_conforms hone hm' rs _).seq fun _ _ _ => trivial
    | single r =>
      apply (fetchPiece_conforms hone hm).seq
      rintro h ⟨found, m'⟩ -
      cases found <;> trivial
    | whole => ?_
    apply (fetchPiece_conforms hone hm).seq
    rintro h ⟨found, m'⟩ -
    cases found <;> trivial

theorem resolve_conforms (o : ObjectRef) :
    (resolve cfg o).Conforms (storeSpec cfg R worker)
      (fun _ r => ∀ m p, r = .ok (m, p) → Heads R m p) past := by
  unfold resolve
  split
  · exact fun m p hr => absurd hr (by simp)
  refine ⟨trivial, fun found hfound => ?_⟩
  cases found with
  | error e => cases e <;> exact fun m p hr => absurd hr (by simp)
  | ok m => ?_
  simp only [Proc.ret_bind]
  split
  · split <;> exact fun m p hr => absurd hr (by simp)
  split
  · exact fun m p hr => absurd hr (by simp)
  rename_i p rest hpieces
  split
  · exact fun m p hr => absurd hr (by simp)
  · intro m' p' hr
    obtain ⟨rfl, rfl⟩ := Prod.mk.inj (Except.ok.inj hr)
    exact ⟨hfound, p, rest, hpieces, rfl, rfl⟩

theorem getObject_conforms (hone : OneHash R)
    (req : GetRequest) :
    (Cached.getObject cfg cc req).Follows (cacheSpec cfg R worker) h := by
  have hreconstructed : ∀ (m : ObjectManifest) (q : Proc Call (Except Response Bytes))
      {h : History CacheCall}, q.Only inspects →
        (onStores (getReconstructed req m q)).Follows (cacheSpec cfg R worker) h := by
    intro m q h hq
    apply onStores_conforms_of_storesNone
    unfold getReconstructed
    split
    · trivial
    · apply (hq.mono fun _ => storesNone_of_inspects).bind
      intro r
      cases r <;> trivial
  apply (onStores_conforms (resolve_conforms req.object)).seq
  intro h r hr
  cases r with
  | error response => trivial
  | ok found => ?_
  obtain ⟨m, p⟩ := found
  have hm := hr m p rfl
  simp only
  cases req.diverted m with
  | some response => trivial
  | none => ?_
  simp only
  split
  · exact hreconstructed m _ (reconstructErasureCoded_only cfg m)
  split
  · apply hreconstructed m _
    apply (reconstructMultipart_only cfg m).bind
    intro r
    cases r <;> trivial
  · exact getSinglePiece_conforms hone hm req

theorem promote_conforms (sig : PromotionSignal) (pol : PromotionPolicy) :
    (PromotionWorker.promote cc sig pol).Follows (cacheSpec cfg R true) h := by
  unfold PromotionWorker.promote
  split
  · trivial
  refine ⟨trivial, fun found hfound => ?_⟩
  cases found with
  | error e => trivial
  | ok body => exact ⟨hfound rfl, fun _ _ => trivial⟩

theorem handle_conforms (sig : PromotionSignal) :
    (PromotionWorker.handle cc sig).Follows (cacheSpec cfg R true) h := by
  apply Proc.Conforms.bind
  have hobserved : (PromotionWorker.observedAt sig).Follows (cacheSpec cfg R true) h := by
    unfold PromotionWorker.observedAt
    split
    · exact ⟨trivial, fun _ _ => trivial⟩
    · trivial
  apply hobserved.mono
  refine fun h observedAt _ => ⟨trivial, fun windowCount _ => ?_⟩
  simp only [Proc.ret_bind]
  cases PromotionWorker.matchPolicy cc sig windowCount with
  | none => trivial
  | some pol =>
    cases hcache : cc.hasCache with
    | false => trivial
    | true => exact promote_conforms sig pol

theorem worker_conforms (turns : Nat) :
    (PromotionWorker.run cc turns).Follows (cacheSpec cfg R true) h := by
  induction turns generalizing h with
  | zero => trivial
  | succ n ih => ?_
  refine .ask trivial fun received _ => ?_
  cases received with
  | none => exact ih
  | some sig =>
    apply (handle_conforms sig).seq
    exact fun _ _ _ => ih

theorem program_conforms (hone : OneHash R)
    (task : CacheTask) : (task.program cfg cc).Follows (cacheSpec cfg R task.isPromotion) [] := by
  cases task with
  | get req =>
    exact (getObject_conforms hone req).seq fun _ _ _ => trivial
  | uploadPart r =>
    apply Proc.Conforms.bind
    have hpart : (ObjectFabric.uploadPart cfg r).Only storesNone := uploadPart_storesNone r
    exact (onStores_conforms_of_storesNone hpart).mono fun _ _ _ => trivial
  | promote turns => exact worker_conforms turns
  | evict | alter => exact ⟨trivial, fun _ _ => trivial⟩

end

/-! ## 4. Runs -/

section

variable {cfg : Config} {cc : CacheConfig}

structure CacheHolds (cfg : Config) (w : World) (s : CachedWorld) : Prop where
  recorded : ∀ id hash, Recorded s.world id hash → Recorded w id hash
  cached : ∀ e ∈ s.cache.entries, Genuine cfg (Recorded w) e.pieceID e.body

def cacheProtocol (cfg : Config) (w : World) (tasks : List CacheTask) :
    Protocol CacheCall CachedWorld Choice PUnit where
  held _ := 0
  inv s _ := CacheHolds cfg w s
  cond := promotesGenuine cfg w tasks
  spec i := cacheSpec cfg (Recorded w) (tasks[i]?.any CacheTask.isPromotion)

variable {w : World} {s : CachedWorld}

theorem CacheHolds.of_manifests (h : CacheHolds cfg w s) {w' : World}
    (hsame : w'.manifests = s.world.manifests) : CacheHolds cfg w { s with world := w' } := by
  refine ⟨fun id hash hrec => h.recorded id hash ?_, h.cached⟩
  obtain ⟨k, m, hstored, hpiece⟩ := hrec
  rw [show ({ s with world := w' } : CachedWorld).world = w' from rfl, hsame] at hstored
  exact ⟨k, m, hstored, hpiece⟩

theorem CacheHolds.stores (h : CacheHolds cfg w s) {β : Type} {c : Call β}
    (hc : keepsGenuine cfg (Recorded w) (Sum.inl c)) (x : Choice) :
    CacheHolds cfg w { s with world := ((machine cfg.providers).exec x c s.world).2 } := by
  by_cases hnone : storesNone c
  · exact h.of_manifests (manifests_of_storesNone hnone x s.world)
  cases c with
  | manifestPut k m =>
    rcases manifestPut_exec cfg.providers x k m s.world with ⟨e, hfail⟩ | hput
    · rw [hfail]
      exact h
    rw [hput]
    refine ⟨fun id hash hrec => ?_, h.cached⟩
    obtain ⟨k', m', hstored, p, hp, hid, hhash⟩ := hrec
    change (s.world.manifests.put k m).byKey.lookup k' = some m' at hstored
    rw [ManifestStore.lookup_put] at hstored
    split at hstored
    · rw [← Option.some.inj hstored] at hp
      rw [← hid, ← hhash]
      exact hc p hp
    · exact h.recorded id hash ⟨k', m', hstored, p, hp, hid, hhash⟩
  | manifestUpdate | manifestDelete => exact hc.elim
  | _ => exact absurd trivial hnone

theorem CacheHolds.answers (h : CacheHolds cfg w s) {tasks : List CacheTask} {i : Nat}
    {past : History CacheCall} {β : Type} (c : Call β) (x : Choice)
    (hcond : promotesGenuine cfg w tasks i past (Sum.inl c) x s 0) :
    answersGenuine cfg (Recorded w) (tasks[i]?.any CacheTask.isPromotion) (Sum.inl c)
      ((machine cfg.providers).exec x c s.world).1 := by
  cases c with
  | manifestGet k =>
    rcases machine_exec cfg.providers x (.manifestGet k) s.world with hok | ⟨e, he, hfail⟩
    · rw [hok]
      change answersGenuine cfg (Recorded w) _ (Sum.inl (.manifestGet k)) (s.world.manifests.get k)
      cases hget : s.world.manifests.get k with
      | error e => trivial
      | ok m =>
        obtain ⟨target, -, hstored⟩ := ManifestStore.get_eq_ok hget
        exact fun p hp => h.recorded _ _ ⟨target, m, hstored, p, hp, rfl, rfl⟩
    · rw [hfail]
      obtain rfl := Option.some.inj he
      trivial
  | getPiece a =>
    obtain ⟨r, hexec, hfound⟩ := getPiece_exec cfg.providers x a s.world
    rw [hexec]
    cases r with
    | error e => trivial
    | ok body => exact fun hworker => hcond hworker body (hfound body rfl)
  | _ => trivial

theorem cacheProtocol_sound (w : World) (tasks : List CacheTask) :
    (cacheProtocol cfg w tasks).Sound (cachedMachine cfg cc) where
  drop _ _ _ hinv := hinv
  step i past c x s _ hpre hinv hcond := by
    cases c with
    | inl c => exact ⟨hinv.answers c x hcond, hinv.stores hpre x⟩
    | inr c => ?_
    have hpost : answersGenuine cfg (Recorded w) (tasks[i]?.any CacheTask.isPromotion) (Sum.inr c)
        (CachedWorld.exec cc x c s).1 := by
      cases c <;> trivial
    refine ⟨hpost, ?_, fun e he => ?_⟩
    · intro id hash hrec
      rw [show ((cachedMachine cfg cc).exec x (Sum.inr c) s).2.world = s.world from
        CachedWorld.exec_world cc x c s] at hrec
      exact hinv.recorded id hash hrec
    · rcases CachedWorld.mem_exec cc x c s he with hold | ⟨opts, hty, hput⟩
      · exact hinv.cached e hold
      · subst hty
        obtain rfl : c = .put e.pieceID e.body opts := hput
        exact hpre

theorem CleanStart.good {s : CachedWorld} (hs : CleanStart cfg s) (tasks : List CacheTask) :
    (cacheProtocol cfg s.world tasks).Good (fun _ _ _ => True)
      (Pool.start s (tasks.map (CacheTask.program cfg cc))) := by
  refine Protocol.good_start rfl ⟨fun _ _ hrec => hrec, hs.cache⟩ fun i p hp => ?_
  rw [List.getElem?_map, Option.map_eq_some_iff] at hp
  obtain ⟨task, htask, rfl⟩ := hp
  have hspec : (cacheProtocol cfg s.world tasks).spec i =
      cacheSpec cfg (Recorded s.world) task.isPromotion := by
    change cacheSpec cfg (Recorded s.world) (tasks[i]?.any CacheTask.isPromotion) = _
    rw [htask]
    rfl
  rw [hspec]
  exact program_conforms hs.oneHash task

def HitsMatch (cfg : Config) (s : CachedWorld) : Prop :=
  ∀ (now : Time) (p : Piece) (body : Bytes), p.hash ≠ "" → Recorded s.world p.pieceID p.hash →
    (s.cache.get now p.pieceID).1 = some body → verifyPiece cfg body p = .verified

theorem CacheMatches.hits {s : CachedWorld} (h : CacheMatches cfg s) : HitsMatch cfg s := by
  intro now p body hhash hrec hget
  obtain ⟨e, he, hid, rfl⟩ := MemoryCache.body_of_get hget
  exact h e he p hid.symm hhash hrec

/-- Over every interleaving in which the backends return to the promotion worker what was recorded,
the cache matches the manifests, and so does every hit. -/
theorem cache_matches_of_genuine_promotions {s : CachedWorld} (hs : CleanStart cfg s)
    (tasks : List CacheTask) (mvs : List (Nat × Choice))
    (hmvs : (Pool.start s (tasks.map (CacheTask.program cfg cc))).Meets (fun _ => 0)
      (cachedMachine cfg cc) (promotesGenuine cfg s.world tasks) mvs) :
    CacheMatches cfg ((Pool.start s (tasks.map (CacheTask.program cfg cc))).run
        (cachedMachine cfg cc) mvs).shared ∧
      HitsMatch cfg ((Pool.start s (tasks.map (CacheTask.program cfg cc))).run
        (cachedMachine cfg cc) mvs).shared := by
  have hgood := (cacheProtocol_sound s.world tasks).run (hs.good tasks) hmvs
  have hmatches : CacheMatches cfg ((Pool.start s (tasks.map (CacheTask.program cfg cc))).run
      (cachedMachine cfg cc) mvs).shared := by
    intro e he p hid hhash hrec
    have hold := hgood.inv.recorded _ _ hrec
    have hpassed := hgood.inv.cached e he p hid (hid ▸ hold)
    exact verified_of_recognised (hs.known _ _ hold hhash) hpassed
  exact ⟨hmatches, hmatches.hits⟩

end

/-! ## 5. An altered piece is promoted -/

/-- A gateway that buffers one byte at a time, and promotes every piece that is signalled. -/
def promotingCache : CacheConfig :=
  { warmBudget := some 1, policies := [{}], fetcher := fun _ => .ok "backend" }

/-- The object `ab`, intact, with an empty cache and these signals. -/
def promotionWorld (signals : List PromotionSignal) : CachedWorld :=
  { world :=
      { sampleWorld with
        manifests := ({} : ManifestStore).put (sampleKey "v1") fetchedObject
        pieces := (∅ : FMap PieceAddr Bytes).insert ⟨"backend", "piece"⟩ [97, 98] }
    signals }

def cacheRun (signals : List PromotionSignal) (tasks : List CacheTask)
    (mvs : List (Nat × Choice)) : CachedWorld :=
  ((Pool.start (promotionWorld signals) (tasks.map (CacheTask.program fetchGateway
    promotingCache))).run (cachedMachine fetchGateway promotingCache) mvs).shared

theorem recorded_promotionWorld {signals : List PromotionSignal} {id hash : String}
    (h : Recorded (promotionWorld signals).world id hash) :
    id = fetchedPiece.pieceID ∧ hash = fetchedPiece.hash := by
  obtain ⟨k, m, hstored, p, hp, hid, hhash⟩ := h
  change (({} : ManifestStore).put (sampleKey "v1") fetchedObject).byKey.lookup k = some m at hstored
  rw [ManifestStore.lookup_put] at hstored
  split at hstored
  · rw [← Option.some.inj hstored] at hp
    obtain rfl := List.mem_singleton.mp hp
    exact ⟨hid.symm, hhash.symm⟩
  · exact absurd hstored (by simp)

theorem promotionWorld_clean (signals : List PromotionSignal) :
    CleanStart fetchGateway (promotionWorld signals) where
  cache e he := absurd he (by simp [promotionWorld, MemoryCache.entries])
  oneHash id hash hash' h h' :=
    (recorded_promotionWorld h).2.trans (recorded_promotionWorld h').2.symm
  known id hash h _ := by
    rw [(recorded_promotionWorld h).2]
    decide +kernel

def moves (thread count : Nat) : List (Nat × Choice) := List.replicate count (thread, sampleClock 1)

def sampleGet : GetRequest := { object := ⟨"tenant", "bucket", "key", ""⟩ }

/-- A GET of the object signals it, the backend then alters it, and the worker takes its turn. -/
def alteredRun : CachedWorld :=
  cacheRun [] [.get sampleGet, .alter ⟨"backend", "piece"⟩ [97, 99], .promote 1]
    (moves 0 8 ++ moves 1 1 ++ moves 2 5)

theorem alteredRun_cached :
    alteredRun.cache.entries.map (fun e => (e.pieceID, e.body)) = [("piece", [97, 99])] ∧
      alteredRun.world.manifests.byKey.lookup (sampleKey "v1") = some fetchedObject := by
  decide +kernel

/-- The altered bytes are cached under the recorded hash of the intact ones, and the next GET serves
them. -/
theorem altered_piece_promoted : CleanStart fetchGateway (promotionWorld []) ∧
    ¬ CacheMatches fetchGateway alteredRun ∧
      ((Cached.getObject fetchGateway promotingCache sampleGet).run
        (cachedMachine fetchGateway promotingCache) (fun _ => sampleClock 1) [] alteredRun).1 =
          { status := 200, versionID := "v1", body := [[97, 99]] } := by
  refine ⟨promotionWorld_clean [], fun hmatches => ?_, by decide +kernel⟩
  obtain ⟨hcached, hstored⟩ := alteredRun_cached
  have hentry : ("piece", [97, 99]) ∈
      alteredRun.cache.entries.map fun e => (e.pieceID, e.body) := by
    rw [hcached]
    exact List.mem_singleton.mpr rfl
  obtain ⟨e, he, hpair⟩ := List.mem_map.mp hentry
  obtain ⟨hid, hbody⟩ := Prod.mk.inj hpair
  have hrecorded : Recorded alteredRun.world fetchedPiece.pieceID fetchedPiece.hash :=
    ⟨_, _, hstored, fetchedPiece, List.mem_singleton.mpr rfl, rfl, rfl⟩
  have hverified := hmatches e he fetchedPiece hid.symm (by decide) hrecorded
  rw [hbody] at hverified
  exact absurd hverified (by decide +kernel)

def sampleSignal : PromotionSignal :=
  { pieceID := "piece", pieceSizeBytes := 2, tenantID := "tenant", readBytes := 2, readCount := 1,
    observedAt := 1, originBackend := "backend" }

/-- The worker caches the intact object. -/
theorem intact_piece_promoted :
    (cacheRun [sampleSignal] [.promote 1] (moves 0 4)).cache.entries.map CacheEntry.body =
        [[97, 98]] ∧
      CacheMatches fetchGateway (cacheRun [sampleSignal] [.promote 1] (moves 0 4)) := by
  have hgenuine : Genuine fetchGateway (Recorded (promotionWorld [sampleSignal]).world) "piece"
      [97, 98] := by
    intro p _ hrec
    refine passed_congr (recorded_promotionWorld hrec).2 ?_
    decide +kernel
  refine ⟨by decide +kernel, ?_⟩
  refine (cache_matches_of_genuine_promotions (promotionWorld_clean [sampleSignal]) [.promote 1]
    (moves 0 4) ?_).1
  refine ⟨trivial, trivial, ?_, trivial, trivial⟩
  intro _ body hfound
  have hbody : body = [97, 98] := by
    refine (Option.some.inj ?_).symm
    rw [← hfound]
    decide +kernel
  rw [hbody]
  exact hgenuine

end ObjectFabric
