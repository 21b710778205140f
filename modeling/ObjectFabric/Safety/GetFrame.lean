import ObjectFabric.Gateway.Get
import ObjectFabric.Gateway.Sample
import ObjectFabric.Interleaving.Sequential

/-!
# GetFrame — what a GET leaves as it was

A GET writes only when it repairs: the bytes of the first piece go to the primary backend, and the
manifest is stored again with `Put`, which makes its version the latest.  So a GET changes nothing
but the place of a piece exactly when the version it may repair is the latest one already, and the
place it is written to is not used for other bytes.
-/

namespace ObjectFabric

open Interleaving

/-! ## 1. Versions that differ in their location only -/

/-- The same version before and after: all fields but the backends and locators of its pieces, and
the bytes of each piece. -/
structure SameObject (w w' : World) (m m' : ObjectManifest) : Prop where
  fields : { m' with pieces := m.pieces } = m
  length : m'.pieces.length = m.pieces.length
  pieces : ∀ (i : Nat) (p p' : Piece), m.pieces[i]? = some p → m'.pieces[i]? = some p' →
    p' = { p with backend := p'.backend, locator := p'.locator } ∧
      w'.pieces.lookup p'.addr = w.pieces.lookup p.addr

structure Unchanged (w w' : World) : Prop where
  latest : ∀ lk, w'.manifests.latest.lookup lk = w.manifests.latest.lookup lk
  versions : ∀ k, Option.Rel (SameObject w w') (w.manifests.byKey.lookup k)
    (w'.manifests.byKey.lookup k)

theorem SameObject.of_lookup {w w' : World} {m : ObjectManifest}
    (h : ∀ q ∈ m.pieces, w'.pieces.lookup q.addr = w.pieces.lookup q.addr) :
    SameObject w w' m m := by
  refine ⟨rfl, rfl, fun i p p' hp hp' => ?_⟩
  obtain rfl : p = p' := Option.some.inj (hp.symm.trans hp')
  exact ⟨rfl, h p (List.mem_of_getElem? hp)⟩

theorem Unchanged.refl (w : World) : Unchanged w w := by
  refine ⟨fun _ => rfl, fun k => ?_⟩
  cases w.manifests.byKey.lookup k with
  | none => exact .none
  | some m => exact .some (.of_lookup fun _ _ => rfl)

/-! ## 2. The states of a repair -/

structure CanRepair (cfg : Config) (w : World) (m : ObjectManifest) (p : Piece) (body : Bytes) :
    Prop where
  wired : cfg.hasReadRepair = true
  migrating : 1 < m.migrationState.generation
  first : m.pieces[0]? = some p
  moves : p.backend ≠ m.repairTarget p
  source : (cfg.providers p.backend).isSome = true
  target : (cfg.providers (m.repairTarget p)).isSome = true
  stored : w.pieces.lookup p.addr = some body
  intact : ∀ message, verifyPiece cfg body p ≠ .failed message

def World.copied (w : World) (m : ObjectManifest) (p : Piece) (body : Bytes) : World :=
  { w with pieces := w.pieces.insert ⟨m.repairTarget p, p.pieceID⟩ body }

def World.repaired (w : World) (m : ObjectManifest) (p : Piece) (body : Bytes) (key : ManifestKey)
    (res : PutResult) : World :=
  { w.copied m p body with
    manifests := w.manifests.put key (m.relocate 0 p (m.repairTarget p) res) }

variable {body : Bytes} {w' : World} {req : GetRequest}

section

variable {cfg : Config} {w : World} {m : ObjectManifest} {p : Piece} {key : ManifestKey}

/-- Whatever fails on the way. -/
def Always (cfg : Config) (w : World) {α : Type} (p : Proc Call α) (Q : α → World → Prop) : Prop :=
  p.Ensures (machine cfg.providers) (fun _ => True) w Q

/-- With the right calls failing. -/
def Sometimes (cfg : Config) (w : World) {α : Type} (p : Proc Call α) (Q : α → World → Prop) :
    Prop :=
  p.Admits (machine cfg.providers) (fun _ => True) w Q

def Midway (cfg : Config) (w : World) (m : ObjectManifest) (p : Piece) (key : ManifestKey)
    (w' : World) (m' : ObjectManifest) : Prop :=
  (w' = w ∧ m' = m) ∨ ∃ body, CanRepair cfg w m p body ∧
    ((w' = w.copied m p body ∧ m' = m) ∨ ∃ res,
      w' = w.repaired m p body key res ∧ m' = m.relocate 0 p (m.repairTarget p) res)

theorem World.copied_copied (w : World) (m : ObjectManifest) (p : Piece) (body : Bytes) :
    (w.copied m p body).copied m p body = w.copied m p body := by
  unfold World.copied
  rw [Finmap.insert_insert]

theorem World.lookup_copied (hmoves : p.backend ≠ m.repairTarget p) :
    (w.copied m p body).pieces.lookup p.addr = w.pieces.lookup p.addr := by
  show (w.pieces.insert ⟨m.repairTarget p, p.pieceID⟩ body).lookup p.addr = _
  rw [FMap.lookup_insert_ite, if_neg fun h => hmoves (congrArg PieceAddr.backend h)]

theorem CanRepair.primary (h : CanRepair cfg w m p body) :
    m.migrationState.primaryBackend ≠ "" ∧ m.repairTarget p = m.migrationState.primaryBackend := by
  have hmoves := h.moves
  unfold ObjectManifest.repairTarget at hmoves ⊢
  by_cases hp : m.migrationState.primaryBackend = ""
  · rw [if_pos hp] at hmoves
    exact absurd rfl hmoves
  · exact ⟨hp, if_neg hp⟩

theorem storeRepaired_ensures (hcan : CanRepair cfg w m p body)
    (hmid : Midway cfg w m p key w' m) (hcopied : w'.copied m p body = w.copied m p body) :
    Always cfg w' (storeRepaired key m 0 p body) fun r w'' => Midway cfg w m p key w'' r.2 := by
  intro x _
  rcases putPiece_exec hcan.target x p.pieceID body w' with ⟨e, hput⟩ | ⟨res, hput⟩
  · rw [hput]
    exact hmid
  rw [hput]
  have hstate : { w' with pieces := w'.pieces.insert ⟨m.repairTarget p, p.pieceID⟩ body } =
      w.copied m p body := hcopied
  rw [hstate]
  intro y _
  rcases manifestPut_exec cfg.providers y key (m.relocate 0 p (m.repairTarget p) res)
    (w.copied m p body) with ⟨e, hstore⟩ | hstore
  · rw [hstore]
    exact Or.inr ⟨body, hcan, Or.inl ⟨rfl, rfl⟩⟩
  · rw [hstore]
    exact Or.inr ⟨body, hcan, Or.inr ⟨res, rfl, rfl⟩⟩

/-- A repair with the manifest as it was read, from a state in which the piece may have been copied
by an attempt before. -/
theorem repair_ensures_pending (hfirst : m.pieces[0]? = some p) (hwired : cfg.hasReadRepair = true)
    (hgen : 1 < m.migrationState.generation) (hmid : Midway cfg w m p key w' m)
    (hlook : p.backend ≠ m.repairTarget p → w'.pieces.lookup p.addr = w.pieces.lookup p.addr)
    (hcopied : ∀ body, CanRepair cfg w m p body → w'.copied m p body = w.copied m p body) :
    Always cfg w' (repair cfg key m 0) fun r w'' => Midway cfg w m p key w'' r.2 := by
  unfold repair
  rw [hfirst]
  simp only
  split
  · exact hmid
  rename_i hmoves
  split
  · exact hmid
  rename_i hsource
  split
  · exact hmid
  rename_i htarget
  rw [Bool.not_eq_true, Option.isNone_eq_false_iff] at hsource htarget
  intro x _
  rcases getPiece_exec cfg.providers x p.addr w' with ⟨r, hexec, hread⟩
  rw [hexec]
  rcases r with e | body
  · exact hmid
  have hstored : w.pieces.lookup p.addr = some body := by
    rw [← hlook hmoves]
    exact hread body rfl
  -- a body that passes the check, or that there is no check for
  have hgo : (∀ message, verifyPiece cfg body p ≠ .failed message) →
      Always cfg w' (storeRepaired key m 0 p body) fun r w'' => Midway cfg w m p key w'' r.2 := by
    intro hintact
    have hcan : CanRepair cfg w m p body :=
      ⟨hwired, hgen, hfirst, hmoves, hsource, htarget, hstored, hintact⟩
    exact storeRepaired_ensures hcan hmid (hcopied body hcan)
  simp only [Proc.ret_bind]
  split
  · exact hmid
  · rename_i hv
    exact hgo fun message => by rw [hv]; simp
  · rename_i hv
    exact hgo fun message => by rw [hv]; simp

theorem CanRepair.repair_done (hcan : CanRepair cfg w m p body) (res : PutResult) :
    repair cfg key (m.relocate 0 p (m.repairTarget p) res) 0 =
      .ret (.error "lazy_read_repair: no backend has the piece",
        m.relocate 0 p (m.repairTarget p) res) := by
  rcases hcan.primary with ⟨hprimary, htarget⟩
  have hpieces : (m.relocate 0 p (m.repairTarget p) res).pieces[0]? =
      some (p.relocated (m.repairTarget p) res) := by
    show (m.pieces.set 0 _)[0]? = _
    rw [List.getElem?_set_self', hcan.first]
    rfl
  have hsame : (p.relocated (m.repairTarget p) res).backend =
      (m.relocate 0 p (m.repairTarget p) res).repairTarget (p.relocated (m.repairTarget p) res) := by
    show m.repairTarget p = if m.migrationState.primaryBackend = "" then _ else _
    rw [if_neg hprimary, htarget]
    rfl
  unfold repair
  rw [hpieces]
  simp only [if_pos hsame]
  rfl

theorem repair_ensures (hfirst : m.pieces[0]? = some p) {m' : ObjectManifest}
    (hwired : cfg.hasReadRepair = true) (hgen : 1 < m'.migrationState.generation)
    (h : Midway cfg w m p key w' m') :
    Always cfg w' (repair cfg key m' 0) fun r w'' => Midway cfg w m p key w'' r.2 := by
  rcases id h with ⟨rfl, rfl⟩ | ⟨body, hcan, ⟨rfl, rfl⟩ | ⟨res, rfl, rfl⟩⟩
  · exact repair_ensures_pending hfirst hwired hgen h (fun _ => rfl) fun _ _ => rfl
  · apply repair_ensures_pending hfirst hwired hgen h World.lookup_copied
    intro body' hcan'
    have hbody : body' = body := Option.some.inj (hcan'.stored.symm.trans hcan.stored)
    rw [hbody, World.copied_copied]
  · rw [hcan.repair_done]
    exact h

/-! ## 3. The reading paths -/

/-- A property of the stores and the manifest in hand that a read repair keeps. -/
def KeptByRepair (cfg : Config) (key : ManifestKey) (I : World → ObjectManifest → Prop) : Prop :=
  ∀ w m range, I w m → Always cfg w (tryReadRepair cfg key m range) fun r w' => I w' r.2

theorem keptByRepair_of_repair {I : World → ObjectManifest → Prop}
    (hI : ∀ w m, cfg.hasReadRepair = true → 1 < m.migrationState.generation → I w m →
      Always cfg w (repair cfg key m 0) fun r w' => I w' r.2) :
    KeptByRepair cfg key I := by
  intro w m range h
  unfold tryReadRepair
  split
  · exact h
  rename_i hrepair
  have hwired : cfg.hasReadRepair = true := by
    by_contra hoff
    exact hrepair (Or.inl (Bool.eq_false_iff.mpr hoff))
  have hgen : 1 < m.migrationState.generation := by
    by_contra hold
    exact hrepair (Or.inr (Or.inl (by omega)))
  apply (hI w m hwired hgen h).seq
  rintro ⟨outcome, m'⟩ w' hkept
  cases outcome with
  | error e => exact hkept
  | ok res => cases range <;> exact hkept

theorem getRange_ensures (a : PieceAddr) (range : Option ByteRange) (w : World) :
    Always cfg w (getRange a range) fun _ w' => w' = w := by
  have honly : (getRange a range).Only inspects := by
    refine ⟨trivial, fun b => ?_⟩
    cases b with
    | error e => trivial
    | ok body => cases range <;> trivial
  exact honly.ensures fun x c hc => exec_of_consults (consults_of_inspects hc) x w

theorem serveBuffered_ensures (req : GetRequest) (p : Piece) (range : Option ByteRange)
    (buf : Bytes) (preVerified : Bool) (w : World) :
    Always cfg w (serveBuffered cfg req p range buf preVerified) fun _ w' => w' = w := by
  unfold serveBuffered
  split
  · split <;> rfl
  split
  · apply (getRange_ensures _ _ w).seq
    rintro r w' rfl
    cases r <;> rfl
  · rfl

section

variable {I : World → ObjectManifest → Prop}

theorem getOrRepair_ensures (hI : KeptByRepair cfg key I) (h : I w m) (range : Option ByteRange) :
    Always cfg w (getOrRepair cfg key m p range) fun r w' => I w' r.2 := by
  apply (getRange_ensures p.addr range w).seq
  rintro r w' rfl
  cases r with
  | ok body => exact h
  | error e => ?_
  apply (hI w' m range h).seq
  rintro ⟨body, m'⟩ w'' hkept
  cases body <;> exact hkept

theorem fetchPiece_rest {range : Option ByteRange} {wantFull : Prop}
    [Decidable wantFull] {pieceSize : Int} {r : Except FetchError (Bytes × Bool) × ObjectManifest}
    (h : I w r.2) :
    (match r with
    | (.error e, m) => (return (.error e, m) : Proc Call (Except FetchError Bytes × ObjectManifest))
    | (.ok (body, preVerified), m) =>
      if ¬ wantFull ∨ maxInMemoryObjectBytes < pieceSize then
        return (.ok body, m)
      else
        return (← serveBuffered cfg req p range body preVerified, m)).Ensures
      (machine cfg.providers) (fun _ => True) w fun r w' => I w' r.2 := by
  rcases r with ⟨e | ⟨body, preVerified⟩, m⟩
  · exact h
  simp only
  split
  · exact h
  apply (serveBuffered_ensures req p range body preVerified w).seq
  rintro r w' rfl
  exact h

theorem fetchPiece_ensures (hI : KeptByRepair cfg key I) (req : GetRequest) (h : I w m)
    (range : Option ByteRange) :
    Always cfg w (fetchPiece cfg req key m p range) fun r w' => I w' r.2 := by
  apply (getOrRepair_ensures hI h _).seq
  intro r w' hkept
  exact fetchPiece_rest hkept

theorem fetchRanges_ensures (hI : KeptByRepair cfg key I) (req : GetRequest) (rs : List ByteRange)
    (parts : List Bytes) (h : I w m) :
    Always cfg w (fetchRanges (directReads cfg req) key p m rs parts)
      fun _ w' => ∃ m', I w' m' := by
  induction rs generalizing w m parts with
  | nil => exact ⟨m, h⟩
  | cons r rs ih => ?_
  apply (fetchPiece_ensures hI req h (some r)).seq
  rintro ⟨outcome, m'⟩ w' hkept
  cases outcome with
  | error e => exact ⟨m', hkept⟩
  | ok part => exact ih _ hkept

end

def GetRequest.Fetches (req : GetRequest) (m : ObjectManifest) : Prop :=
  ∃ ranges, req.ranges m.objectSize = .ok ranges ∧
    (m.encryption.mode.isGatewayEncrypted = true → ranges ≠ .whole →
      m.objectSize ≤ maxInMemoryObjectBytes)

def Follows (cfg : Config) (key : ManifestKey)
    (f : Except FetchError (Bytes × Bool) × ObjectManifest → Handler) : Prop :=
  ∀ I : World → ObjectManifest → Prop, KeptByRepair cfg key I → ∀ r w, I w r.2 →
    Always cfg w (f r) fun _ w' => ∃ m', I w' m'

/-- `q` reads the piece, or repairs it, before it does anything else. -/
def ReadsFirst (cfg : Config) (key : ManifestKey) (m : ObjectManifest) (p : Piece) (q : Handler) :
    Prop :=
  ∃ range f, q = (getOrRepair cfg key m p range).bind f ∧ Follows cfg key f

theorem readsFirst_fetchPiece {range : Option ByteRange}
    {f : Except FetchError Bytes × ObjectManifest → Handler}
    (hf : ∀ I : World → ObjectManifest → Prop, KeptByRepair cfg key I → ∀ r w, I w r.2 →
      Always cfg w (f r) fun _ w' => ∃ m', I w' m') :
    ReadsFirst cfg key m p ((fetchPiece cfg req key m p range).bind f) := by
  refine ⟨_, _, Proc.bind_assoc _ _ _, fun I hI r w h => ?_⟩
  exact (fetchPiece_rest h).seq fun r w hkept => hf I hI r w hkept

theorem streamGatewayDecryptedGet_readsFirst :
    ReadsFirst cfg key m p (streamGatewayDecryptedGet cfg (directReads cfg req) key m p) := by
  refine ⟨none, _, Proc.bind_assoc _ _ _, fun I hI r w h => ?_⟩
  rcases r with ⟨e | ⟨body, preVerified⟩, m'⟩
  · exact ⟨m', h⟩
  simp only [Proc.pure_eq, Proc.ret_bind, Except.map]
  split
  · exact ⟨m', h⟩
  · split
    · exact ⟨m', h⟩
    · split <;> exact ⟨m', h⟩

theorem getSinglePiece_cases (cfg : Config) (req : GetRequest) (key : ManifestKey)
    (m : ObjectManifest) (p : Piece) :
    (¬ req.Fetches m ∧
      ∃ response, getSinglePiece cfg (directReads cfg req) req key m p = .ret response) ∨
    (req.Fetches m ∧
      ReadsFirst cfg key m p (getSinglePiece cfg (directReads cfg req) req key m p)) := by
  unfold getSinglePiece
  rcases hranges : req.ranges m.objectSize with message | ranges
  · refine Or.inl ⟨fun ⟨ranges, hok, _⟩ => ?_, _, rfl⟩
    rw [hranges] at hok
    simp at hok
  simp only
  split
  · rename_i hgateway
    split
    · refine Or.inr ⟨⟨.whole, hranges, fun _ hpart => absurd rfl hpart⟩, ?_⟩
      exact streamGatewayDecryptedGet_readsFirst
    rename_i hpart
    unfold bufferedGatewayDecryptedGet
    split
    · rename_i hlarge
      refine Or.inl ⟨fun ⟨ranges', hok, hsmall⟩ => ?_, _, rfl⟩
      rw [hranges] at hok
      have hle := hsmall hgateway (Except.ok.inj hok ▸ hpart)
      omega
    · refine Or.inr ⟨⟨ranges, hranges, fun _ _ => by omega⟩, ?_⟩
      apply readsFirst_fetchPiece
      rintro I - ⟨e | body, m'⟩ w h
      · exact ⟨m', h⟩
      · simp only
        split <;> exact ⟨m', h⟩
  · rename_i hclient
    refine Or.inr ⟨⟨ranges, hranges, fun hgateway => absurd hgateway hclient⟩, ?_⟩
    split
    · apply readsFirst_fetchPiece
      rintro I hI ⟨e | part, m'⟩ w h
      · exact ⟨m', h⟩
      · exact (fetchRanges_ensures hI req _ [part] h).seq fun _ _ hend => hend
    · apply readsFirst_fetchPiece
      rintro I - ⟨e | part, m'⟩ w h <;> exact ⟨m', h⟩
    · apply readsFirst_fetchPiece
      rintro I - ⟨e | body, m'⟩ w h <;> exact ⟨m', h⟩

/-! ## 4. A whole GET -/

theorem getReconstructed_ensures (req : GetRequest) {reconstruct : Proc Call (Except Response Bytes)}
    (hq : reconstruct.Only inspects) :
    Always cfg w (getReconstructed req m reconstruct) fun _ w' => w' = w := by
  unfold getReconstructed
  split
  · rfl
  apply (hq.ensures fun x c hc => exec_of_consults (consults_of_inspects hc) x w).seq
  rintro r w' rfl
  cases r <;> rfl

/-- A GET that may repair the piece `p`, holding `body`, of the version `m`. -/
structure MayRepair (cfg : Config) (req : GetRequest) (w : World) (m : ObjectManifest) (p : Piece)
    (body : Bytes) : Prop extends CanRepair cfg w m p body where
  named : ¬ (req.object.bucket = "" ∨ req.object.key = "")
  found : w.manifests.get (req.object.manifestKey cfg) = .ok m
  live : m.deleteMarker = false
  served : req.diverted m = none
  striped : m.isErasureCoded = false
  multipart : m.isMultipart = false
  fetches : req.Fetches m

theorem resolve_ensures (o : ObjectRef) :
    Always cfg w (resolve cfg o) fun r w' => w' = w ∧
      ∀ m p, r = .ok (m, p) → ¬ (o.bucket = "" ∨ o.key = "") ∧
        w.manifests.get (o.manifestKey cfg) = .ok m ∧ m.deleteMarker = false ∧
        m.pieces[0]? = some p := by
  unfold resolve
  split
  · exact ⟨rfl, fun m p hr => by simp at hr⟩
  rename_i hnamed
  intro x _
  rcases machine_exec cfg.providers x (.manifestGet (o.manifestKey cfg)) w with hok | ⟨e, he, hfail⟩
  · rw [hok]
    show Proc.Ensures _ _ ((Proc.ret (w.manifests.get (o.manifestKey cfg))).bind _) _ _
    rcases hget : w.manifests.get (o.manifestKey cfg) with e | m
    · cases e <;> exact ⟨rfl, fun m p hr => by simp at hr⟩
    simp only [Proc.ret_bind]
    split
    · split <;> exact ⟨rfl, fun m p hr => by simp at hr⟩
    rename_i hlive
    split
    · exact ⟨rfl, fun m p hr => by simp at hr⟩
    rename_i p _ hpieces
    split
    · exact ⟨rfl, fun m p hr => by simp at hr⟩
    · refine ⟨rfl, fun m' p' hr => ?_⟩
      obtain ⟨rfl, rfl⟩ := Prod.mk.inj (Except.ok.inj hr)
      exact ⟨hnamed, rfl, Bool.eq_false_iff.mpr hlive, by rw [hpieces]; rfl⟩
  · have he' : Except.error (.other "unavailable") = e := Option.some.inj he
    rw [hfail, ← he']
    exact ⟨rfl, fun m p hr => by simp at hr⟩

theorem resolve_admits {o : ObjectRef} (hnamed : ¬ (o.bucket = "" ∨ o.key = ""))
    (hfound : w.manifests.get (o.manifestKey cfg) = .ok m) (hlive : m.deleteMarker = false)
    (hfirst : m.pieces[0]? = some p) (hsource : (cfg.providers p.backend).isSome = true) :
    Sometimes cfg w (resolve cfg o) fun r w' => r = .ok (m, p) ∧ w' = w := by
  unfold resolve
  rw [if_neg hnamed]
  refine ⟨{}, trivial, ?_⟩
  show Proc.Admits _ _ ((Proc.ret (w.manifests.get (o.manifestKey cfg))).bind _) w _
  rw [hfound]
  simp only [Proc.ret_bind]
  rw [if_neg (by simp [hlive])]
  rcases hpieces : m.pieces with _ | ⟨q, qs⟩
  · simp [hpieces] at hfirst
  obtain rfl : q = p := by simpa [hpieces] using hfirst
  simp only
  rw [if_neg (by simpa using Option.isSome_iff_ne_none.mp hsource)]
  exact ⟨rfl, rfl⟩

theorem readKey_eq (hkeyed : w.manifests.Keyed) {o : ObjectRef}
    (hfound : w.manifests.get (o.manifestKey cfg) = .ok m) :
    { o.manifestKey cfg with objectKeyHash := m.objectKeyHash, versionID := m.versionID } = m.key := by
  obtain ⟨target, hresolve, hlook⟩ := ManifestStore.get_eq_ok hfound
  have hkey : m.key = target := hkeyed target m hlook
  have hlatest : m.key.latestKey = (o.manifestKey cfg).latestKey := by
    rw [hkey]
    exact ManifestStore.resolve_latestKey hresolve
  have htenant : m.tenantID = (o.manifestKey cfg).tenantID := congrArg LatestKey.tenantID hlatest
  have hbucket : m.bucket = (o.manifestKey cfg).bucket := congrArg LatestKey.bucket hlatest
  unfold ObjectManifest.key
  rw [htenant, hbucket]

theorem midway_kept (hfirst : m.pieces[0]? = some p) :
    KeptByRepair cfg key (Midway cfg w m p key) :=
  keptByRepair_of_repair fun _ _ hwired hgen h => repair_ensures hfirst hwired hgen h

theorem getObject_ensures (cfg : Config) (req : GetRequest) :
    Always cfg w (getObject cfg req) fun _ w' => w' = w ∨
      ∃ m p body, MayRepair cfg req w m p body ∧ (w' = w.copied m p body ∨
        ∃ key res, (w.manifests.Keyed → key = m.key) ∧ w' = w.repaired m p body key res) := by
  apply (resolve_ensures req.object).seq
  rintro r w' ⟨rfl, hr⟩
  rcases r with response | ⟨m, p⟩
  · exact Or.inl rfl
  obtain ⟨hnamed, hfound, hlive, hfirst⟩ := hr m p rfl
  simp only
  split
  · exact Or.inl rfl
  rename_i hserved
  split
  · apply (getReconstructed_ensures req (reconstructErasureCoded_only cfg m)).mono
    exact fun _ _ hsame => Or.inl hsame
  rename_i hstriped
  split
  · refine (getReconstructed_ensures req ((reconstructMultipart_only cfg m).bind fun a => ?_)).mono
      fun _ _ hsame => Or.inl hsame
    cases a <;> trivial
  rename_i hmultipart
  have hown := fun hkeyed : w'.manifests.Keyed => readKey_eq hkeyed hfound
  generalize ({ req.object.manifestKey cfg with
    objectKeyHash := m.objectKeyHash, versionID := m.versionID } : ManifestKey) = key at hown ⊢
  rcases getSinglePiece_cases cfg req key m p with ⟨-, response, hret⟩ | ⟨hfetches, range, f, hq, hf⟩
  · rw [hret]
    exact Or.inl rfl
  rw [hq]
  have hkept : KeptByRepair cfg key (Midway cfg w' m p key) := midway_kept hfirst
  apply (getOrRepair_ensures hkept (Or.inl ⟨rfl, rfl⟩) range).seq
  intro r w'' hmid
  apply (hf _ hkept r w'' hmid).mono
  rintro _ w₃ ⟨m', ⟨rfl, -⟩ | ⟨body, hcan, hend⟩⟩
  · exact Or.inl rfl
  · have hmay : MayRepair cfg req w' m p body :=
      { hcan with
        named := hnamed, found := hfound, live := hlive, served := hserved, fetches := hfetches,
        striped := Bool.eq_false_iff.mpr hstriped, multipart := Bool.eq_false_iff.mpr hmultipart }
    refine Or.inr ⟨m, p, body, hmay, ?_⟩
    rcases hend with ⟨hcopied, -⟩ | ⟨res, hrepaired, -⟩
    · exact Or.inl hcopied
    · exact Or.inr ⟨key, res, hown, hrepaired⟩

/-! ## 5. A GET that repairs -/

def Settled (w : World) (m : ObjectManifest) (p : Piece) (body : Bytes) (key : ManifestKey)
    (w' : World) (m' : ObjectManifest) : Prop :=
  ∃ res, w' = w.repaired m p body key res ∧ m' = m.relocate 0 p (m.repairTarget p) res

section

variable (hcan : CanRepair cfg w m p body)
include hcan

theorem CanRepair.settled_kept :
    KeptByRepair cfg key (Settled w m p body key) := by
  apply keptByRepair_of_repair
  rintro w' m' - - ⟨res, rfl, rfl⟩
  rw [hcan.repair_done]
  exact ⟨res, rfl, rfl⟩

theorem CanRepair.repair_admits :
    Sometimes cfg w (repair cfg key m 0) fun r w' => Settled w m p body key w' r.2 := by
  obtain ⟨provider, hprovider⟩ := Option.isSome_iff_exists.mp hcan.target
  -- the writes go through
  have hstore : Sometimes cfg w (storeRepaired key m 0 p body)
      fun r w' => Settled w m p body key w' r.2 := by
    refine ⟨{}, trivial, ?_⟩
    rw [machine_exec_of_no_fault rfl]
    simp only [World.exec, World.putPiece, hprovider]
    exact ⟨{}, trivial, _, rfl, rfl⟩
  unfold repair
  rw [hcan.first]
  simp only
  rw [if_neg hcan.moves, if_neg (by simpa using Option.isSome_iff_ne_none.mp hcan.source),
    if_neg (by simpa using Option.isSome_iff_ne_none.mp hcan.target)]
  refine ⟨{}, trivial, ?_⟩
  rw [machine_exec_of_no_fault rfl]
  simp only [World.exec, World.getPiece, hcan.stored, Proc.ret_bind]
  cases hv : verifyPiece cfg body p with
  | failed message => exact absurd hv (hcan.intact message)
  | verified | unrecognized => exact hstore

theorem CanRepair.getOrRepair_admits (range : Option ByteRange) :
    Sometimes cfg w (getOrRepair cfg key m p range) fun r w' => Settled w m p body key w' r.2 := by
  refine ⟨{ fault := true }, trivial, ?_⟩
  show Proc.Admits _ _ ((tryReadRepair cfg key m range).bind _) w _
  have hpieces : m.pieces ≠ [] := by
    intro hnil
    have hfirst := hcan.first
    simp [hnil] at hfirst
  have hgo : ¬ (cfg.hasReadRepair = false ∨ m.migrationState.generation ≤ 1 ∨ m.pieces = []) := by
    have hgen := hcan.migrating
    rintro (hoff | hold | hnil)
    · exact Bool.eq_false_iff.mp hoff hcan.wired
    · omega
    · exact hpieces hnil
  unfold tryReadRepair
  rw [if_neg hgo]
  apply Proc.Admits.bind
  apply Proc.Admits.bind
  apply hcan.repair_admits.mono
  rintro ⟨e | res, m'⟩ w' hend
  · exact hend
  · cases range with
    | none => exact hend
    | some r =>
      simp only [Proc.pure_eq]
      cases r.slice res.body <;> exact hend

end

theorem MayRepair.getObject_admits (hkeyed : w.manifests.Keyed)
    (h : MayRepair cfg req w m p body) :
    Sometimes cfg w (getObject cfg req) fun _ w' => ∃ res, w' = w.repaired m p body m.key res := by
  apply Proc.Admits.bind
  apply (resolve_admits h.named h.found h.live h.first h.source).mono
  rintro r w' ⟨rfl, rfl⟩
  simp only [h.served, h.striped, h.multipart]
  rw [readKey_eq hkeyed h.found]
  rcases getSinglePiece_cases cfg req m.key m p with ⟨hnot, -⟩ | ⟨-, range, f, hq, hf⟩
  · exact absurd h.fetches hnot
  show (getSinglePiece cfg (directReads cfg req) req m.key m p).Admits _ _ _ _
  rw [hq]
  apply Proc.Admits.bind
  apply (h.toCanRepair.getOrRepair_admits range).mono
  intro r w'' hsettled
  apply Proc.Admits.mono ((hf _ h.toCanRepair.settled_kept r w'' hsettled).admits (x := {}) trivial)
  rintro _ w₃ ⟨m', res, hend, -⟩
  exact ⟨res, hend⟩

end

/-! ## 6. When a GET is only a read -/

/-- The place `a` is not used by a stored version for other bytes. -/
def FreeFor (w : World) (a : PieceAddr) (body : Bytes) : Prop :=
  ∀ k m, w.manifests.byKey.lookup k = some m → ∀ q ∈ m.pieces, q.addr = a →
    w.pieces.lookup a = some body

section

variable {cfg : Config} {w : World} {m : ObjectManifest} {p : Piece} {body : Bytes}

theorem lookup_copied_of_freeFor (h : FreeFor w ⟨m.repairTarget p, p.pieceID⟩ body)
    {k : ManifestKey} {m' : ObjectManifest} (hk : w.manifests.byKey.lookup k = some m') {q : Piece}
    (hq : q ∈ m'.pieces) : (w.copied m p body).pieces.lookup q.addr = w.pieces.lookup q.addr := by
  show (w.pieces.insert ⟨m.repairTarget p, p.pieceID⟩ body).lookup q.addr = _
  rw [FMap.lookup_insert_ite]
  by_cases ha : q.addr = ⟨m.repairTarget p, p.pieceID⟩
  · rw [if_pos ha, ha, h k m' hk q hq ha]
  · rw [if_neg ha]

theorem unchanged_copied (h : FreeFor w ⟨m.repairTarget p, p.pieceID⟩ body) :
    Unchanged w (w.copied m p body) := by
  refine ⟨fun _ => rfl, fun k => ?_⟩
  show Option.Rel _ (w.manifests.byKey.lookup k) (w.manifests.byKey.lookup k)
  cases hk : w.manifests.byKey.lookup k with
  | none => exact .none
  | some m' => exact .some (.of_lookup fun q hq => lookup_copied_of_freeFor h hk hq)

theorem sameObject_relocate (hcan : CanRepair cfg w m p body)
    (h : FreeFor w ⟨m.repairTarget p, p.pieceID⟩ body)
    (hstored : w.manifests.byKey.lookup m.key = some m) (res : PutResult) :
    SameObject w (w.repaired m p body m.key res) m (m.relocate 0 p (m.repairTarget p) res) := by
  refine ⟨rfl, List.length_set, fun i q q' hq hq' => ?_⟩
  have hset : (m.pieces.set 0 (p.relocated (m.repairTarget p) res))[i]? = some q' := hq'
  cases i with
  | zero =>
    obtain rfl : p = q := Option.some.inj (hcan.first.symm.trans hq)
    rw [List.getElem?_set_self', hcan.first] at hset
    obtain rfl := Option.some.inj hset
    refine ⟨rfl, ?_⟩
    show (w.pieces.insert ⟨m.repairTarget p, p.pieceID⟩ body).lookup ⟨m.repairTarget p, p.pieceID⟩ = _
    rw [FMap.lookup_insert_ite, if_pos rfl, hcan.stored]
  | succ n =>
    rw [List.getElem?_set_ne (by omega), hq] at hset
    obtain rfl := Option.some.inj hset
    exact ⟨rfl, lookup_copied_of_freeFor h hstored (List.mem_of_getElem? hq)⟩

theorem unchanged_repaired (hcan : CanRepair cfg w m p body)
    (hlatest : w.manifests.latest.lookup m.key.latestKey = some m.key)
    (h : FreeFor w ⟨m.repairTarget p, p.pieceID⟩ body)
    (hstored : w.manifests.byKey.lookup m.key = some m) (res : PutResult) :
    Unchanged w (w.repaired m p body m.key res) := by
  refine ⟨fun lk => ?_, fun k => ?_⟩
  · show (w.manifests.latest.insert m.key.latestKey m.key).lookup lk = _
    rw [FMap.lookup_insert_ite]
    by_cases hlk : lk = m.key.latestKey
    · rw [if_pos hlk, hlk, hlatest]
    · rw [if_neg hlk]
  · show Option.Rel _ _ ((w.manifests.put m.key _).byKey.lookup k)
    rw [ManifestStore.lookup_put]
    by_cases hk : k = m.key
    · rw [if_pos hk, hk, hstored]
      exact .some (sameObject_relocate hcan h hstored res)
    rw [if_neg hk]
    cases hm' : w.manifests.byKey.lookup k with
    | none => exact .none
    | some m' => exact .some (.of_lookup fun q hq => lookup_copied_of_freeFor h hm' hq)

theorem MayRepair.stored_key (hkeyed : w.manifests.Keyed)
    (h : MayRepair cfg req w m p body) : w.manifests.byKey.lookup m.key = some m := by
  obtain ⟨target, -, hlook⟩ := ManifestStore.get_eq_ok h.found
  rw [hkeyed target m hlook]
  exact hlook

theorem of_unchanged_repaired (hcan : CanRepair cfg w m p body)
    (hstored : w.manifests.byKey.lookup m.key = some m) {res : PutResult}
    (h : Unchanged w (w.repaired m p body m.key res)) :
    w.manifests.latest.lookup m.key.latestKey = some m.key ∧
      FreeFor w ⟨m.repairTarget p, p.pieceID⟩ body := by
  have hnew : ∀ a, (w.repaired m p body m.key res).pieces.lookup a =
      if a = ⟨m.repairTarget p, p.pieceID⟩ then some body else w.pieces.lookup a :=
    fun a => FMap.lookup_insert_ite _ _ _ _
  refine ⟨?_, fun k m' hk q hq ha => ?_⟩
  · rw [← h.latest]
    show (w.manifests.latest.insert m.key.latestKey m.key).lookup _ = _
    rw [FMap.lookup_insert_ite, if_pos rfl]
  obtain ⟨i, hi⟩ := List.mem_iff_getElem?.mp hq
  -- the piece that lies there keeps its bytes, and they are now those of the repair
  have hbytes : ∀ {m' m''}, SameObject w (w.repaired m p body m.key res) m' m'' →
      m'.pieces[i]? = some q → m''.pieces[i]? = some q →
      w.pieces.lookup ⟨m.repairTarget p, p.pieceID⟩ = some body := by
    intro m' m'' hsame hi hi'
    have hkeep := (hsame.pieces i q q hi hi').2
    rw [hnew, if_pos ha] at hkeep
    rw [← ha, hkeep]
  have hrel := h.versions k
  have hput : (w.repaired m p body m.key res).manifests.byKey.lookup k =
      if k = m.key then some (m.relocate 0 p (m.repairTarget p) res)
      else w.manifests.byKey.lookup k := ManifestStore.lookup_put _ _ _ _
  rw [hput, hk] at hrel
  by_cases hkey : k = m.key
  · obtain rfl : m' = m := by
      rw [hkey, hstored] at hk
      exact (Option.some.inj hk).symm
    rw [if_pos hkey] at hrel
    cases i with
    | zero =>
      obtain rfl : p = q := Option.some.inj (hcan.first.symm.trans hi)
      exact absurd (congrArg PieceAddr.backend ha) hcan.moves
    | succ n => ?_
    have hq' : (m'.relocate 0 p (m'.repairTarget p) res).pieces[n + 1]? = some q := by
      show (m'.pieces.set 0 _)[n + 1]? = _
      rw [List.getElem?_set_ne (by omega), hi]
    cases hrel with
    | some hsame => exact hbytes hsame hi hq'
  · rw [if_neg hkey] at hrel
    cases hrel with
    | some hsame => exact hbytes hsame hi hi

end

/-- Whatever fails on the way, a GET changes nothing but the place of a piece, exactly when the
version it may repair is the latest one and the new place is not used for other bytes. -/
theorem get_unchanged_iff (cfg : Config) (req : GetRequest) (w : World)
    (hkeyed : w.manifests.Keyed) :
    (∀ x : Nat → Choice, Unchanged w ((getObject cfg req).run (machine cfg.providers) x [] w).2.2) ↔
      ∀ m p body, MayRepair cfg req w m p body →
        w.manifests.latest.lookup m.key.latestKey = some m.key ∧
          FreeFor w ⟨m.repairTarget p, p.pieceID⟩ body := by
  constructor
  · intro h m p body hmay
    obtain ⟨x, -, hx⟩ := (hmay.getObject_admits hkeyed).run (y := {}) trivial
    obtain ⟨res, hend⟩ := hx []
    have hsame := h x
    rw [hend] at hsame
    exact of_unchanged_repaired hmay.toCanRepair (hmay.stored_key hkeyed) hsame
  · intro h x
    have hend := (getObject_ensures (w := w) cfg req).run (x := x) (fun _ => trivial) []
    rcases hend with hsame | ⟨m, p, body, hmay, hcopied | ⟨key, res, hown, hrepaired⟩⟩
    · rw [hsame]
      exact .refl w
    · rw [hcopied]
      exact unchanged_copied (h m p body hmay).2
    · rw [hrepaired, hown hkeyed]
      obtain ⟨hlatest, hfree⟩ := h m p body hmay
      exact unchanged_repaired hmay.toCanRepair hlatest hfree (hmay.stored_key hkeyed) res

/-! A version written before its bucket began to move to another backend. -/

def repairingGateway : Config := { sampleGateway with hasReadRepair := true }

def movingPiece (pieceID : String) : Piece :=
  { pieceID, backend := "old", hash := Config.formatContentHash (sampleGateway.blake3Hex [97]),
    sizeBytes := 1 }

def movingManifest (versionID : String) : ObjectManifest :=
  { sampleManifest versionID with
    objectSize := 1
    pieces := [movingPiece versionID]
    migrationState := { generation := 2, primaryBackend := "new" } }

def movingWorld : World where
  manifests := ({} : ManifestStore).put (sampleKey "v1") (movingManifest "v1")
  pieces := (∅ : FMap PieceAddr Bytes).insert (movingPiece "v1").addr [97]

def movingHistory : World where
  manifests := movingWorld.manifests.put (sampleKey "v2") (movingManifest "v2")
  pieces := movingWorld.pieces.insert (movingPiece "v2").addr [97]

def getFirstVersion : GetRequest :=
  { object := { tenantID := "tenant", bucket := "bucket", key := "key", versionID := "v1" } }

def secondCallFails (n : Nat) : Choice := { fault := n = 1 }

theorem movingWorld_keyed : movingWorld.manifests.Keyed := by
  have hempty : ({} : ManifestStore).Keyed := by
    intro k m hk
    simp at hk
  exact hempty.put (movingManifest "v1")

/-- Reading the only version may move its piece, and does nothing else. -/
theorem get_unchanged_sample :
    movingWorld.manifests.Keyed ∧ MayRepair repairingGateway getFirstVersion movingWorld
      (movingManifest "v1") (movingPiece "v1") [97] ∧
    ∀ x, Unchanged movingWorld
      ((getObject repairingGateway getFirstVersion).run (machine repairingGateway.providers) x []
        movingWorld).2.2 := by
  refine ⟨movingWorld_keyed, ?_, ?_⟩
  · exact
      { wired := rfl, migrating := by decide, first := rfl, moves := by decide, source := rfl,
        target := rfl, stored := by decide +kernel, named := by decide, found := by decide +kernel,
        intact := fun message h => absurd (h.symm.trans
          (by decide +kernel : verifyPiece repairingGateway [97] (movingPiece "v1") = .verified)) (by simp)
        live := rfl, served := rfl, striped := by decide, multipart := by decide,
        fetches := ⟨.whole, rfl, fun _ hpart => absurd rfl hpart⟩ }
  · apply (get_unchanged_iff repairingGateway getFirstVersion movingWorld movingWorld_keyed).mpr
    intro m p body hmay
    have hget : movingWorld.manifests.get (getFirstVersion.object.manifestKey repairingGateway) =
        .ok (movingManifest "v1") := by decide +kernel
    obtain rfl : movingManifest "v1" = m := Except.ok.inj (hget.symm.trans hmay.found)
    obtain rfl : movingPiece "v1" = p := Option.some.inj hmay.first
    refine ⟨by decide +kernel, fun k m hk q hq ha => ?_⟩
    -- the one stored version has its piece on the old backend
    rw [show movingWorld.manifests.byKey.lookup k = _ from ManifestStore.lookup_put _ _ _ _] at hk
    by_cases hkey : k = sampleKey "v1"
    · rw [if_pos hkey] at hk
      obtain rfl := Option.some.inj hk
      obtain rfl : q = movingPiece "v1" := List.mem_singleton.mp hq
      exact absurd ha (by decide)
    · rw [if_neg hkey] at hk
      simp at hk

/-- Reading the first of two versions makes it the latest. -/
theorem get_changes_latest :
    ¬ ∀ x, Unchanged movingHistory
      ((getObject repairingGateway getFirstVersion).run (machine repairingGateway.providers) x []
        movingHistory).2.2 := by
  intro h
  have hlatest := (h secondCallFails).latest (sampleKey "v1").latestKey
  exact absurd hlatest (by decide +kernel)

end ObjectFabric
