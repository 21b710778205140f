import ObjectFabric.Gateway.Delete
import ObjectFabric.Gateway.PutContent
import ObjectFabric.Safety.Amendments
import ObjectFabric.Safety.LatestVersion

/-!
# ObjectState — what an object of an unversioned bucket reads as

`KeyState` ties the content of one object to the manifest store, the pieces and the content index.
A PUT that is acknowledged sets the content, a DELETE clears it, a request that is refused leaves it,
and a GET answers with it, on each of the write paths and over each manifest store.
-/

namespace ObjectFabric

open Interleaving

/-! ## 1. The state of one object -/

def ObjectRef.latestKey (cfg : Config) (o : ObjectRef) : LatestKey :=
  ⟨o.tenantID, o.bucket, cfg.hashObjectKey o.key⟩

/-- A row of the content index whose piece is there with the bytes its hash was taken of. -/
structure RowSound (cfg : Config) (pieces : FMap PieceAddr Bytes) (e : ContentIndexEntry) :
    Prop where
  provider : (cfg.providers e.backend).isSome = true
  stored : ∃ bytes, pieces.lookup e.addr = some bytes ∧
    e.contentHash = Config.formatContentHash (cfg.blake3Hex bytes)
  counted : 0 ≤ e.refCount

structure IndexSound (cfg : Config) (tenantID : String) (w : World) : Prop where
  row : ∀ k e, w.index.rows.lookup k = some e → k.tenantID = tenantID → RowSound cfg w.pieces e
  apart : ∀ k k' e e', w.index.rows.lookup k = some e → w.index.rows.lookup k' = some e' →
    k.tenantID = tenantID → k'.tenantID = tenantID → e.addr = e'.addr → k = k'

/-- A version that reads as `body`.  A row that names one of its pieces is its own row, and that
row counts it. -/
structure VersionSound (cfg : Config) (tenantID : String) (w : World) (m : ObjectManifest)
    (body : Bytes) : Prop where
  marker : m.deleteMarker = false
  version : m.versionID ≠ ""
  holds : Holds cfg w.pieces m body
  own : ∀ k e, w.index.rows.lookup k = some e → k.tenantID = tenantID →
    (∃ p ∈ m.pieces, p.addr = e.addr) → e.contentHash = m.contentHash
  counted : m.contentHash ≠ "" → cfg.hasContentIndex = true ∧
    ∃ e, w.index.rows.lookup ⟨tenantID, m.contentHash⟩ = some e ∧ 0 < e.refCount

structure Grounded (cfg : Config) (b : StoreKind) (o : ObjectRef) (st : World × b.State) :
    Prop where
  versioning : st.1.buckets.versioningOf o.tenantID o.bucket = .unset
  index : IndexSound cfg o.tenantID st.1
  keyed : b.KeyedAt st.2 (o.latestKey cfg)

/-- The object reads as `content`. -/
structure KeyState (cfg : Config) (b : StoreKind) (o : ObjectRef) (content : Option Bytes)
    (st : World × b.State) : Prop extends Grounded cfg b o st where
  empty : content = none → b.current st.2 (o.latestKey cfg) = none
  full : ∀ body, content = some body → ∃ m, b.current st.2 (o.latestKey cfg) = some m ∧
    VersionSound cfg o.tenantID st.1 m body

def InUse (cfg : Config) (b : StoreKind) (o : ObjectRef) (st : World × b.State) (a : PieceAddr) :
    Prop :=
  (∃ k e, st.1.index.rows.lookup k = some e ∧ k.tenantID = o.tenantID ∧ e.addr = a) ∨
    ∃ m, b.current st.2 (o.latestKey cfg) = some m ∧ ∃ p ∈ m.pieces, p.addr = a

/-- What is fixed: the primitives work, BLAKE3 has no collisions, and the request names an object. -/
structure RegisterSetting (cfg : Config) (o : ObjectRef) : Prop where
  opens : OpensBack cfg
  blake3 : Function.Injective cfg.blake3
  sha256 : ∀ s, cfg.sha256Hex s ≠ ""
  tenantID : o.tenantID ≠ ""
  bucket : o.bucket ≠ ""
  key : o.key ≠ ""
  versionID : o.versionID = ""

variable {e : ContentIndexEntry} {tenantID : String} {w : World}

section

variable {cfg : Config} {b : StoreKind} {o : ObjectRef} {st : World × b.State}
  {content : Option Bytes} {body : Bytes} {m : ObjectManifest}

theorem RegisterSetting.named (hset : RegisterSetting cfg o) : (o.latestKey cfg).Named :=
  ⟨hset.tenantID, hset.bucket, hset.sha256 o.key⟩

theorem RowSound.congr {pieces pieces' : FMap PieceAddr Bytes}
    (h : RowSound cfg pieces e) (hsame : pieces'.lookup e.addr = pieces.lookup e.addr) :
    RowSound cfg pieces' e := by
  rcases h.stored with ⟨bytes, hfound, hhash⟩
  exact ⟨h.provider, ⟨bytes, hsame.trans hfound, hhash⟩, h.counted⟩

theorem RowSound.contentHash_ne {pieces : FMap PieceAddr Bytes}
    (h : RowSound cfg pieces e) : e.contentHash ≠ "" := by
  rcases h.stored with ⟨bytes, -, hhash⟩
  intro hempty
  rw [hhash] at hempty
  have hlist := congrArg String.toList hempty
  unfold Config.formatContentHash at hlist
  rw [String.toList_append] at hlist
  exact absurd hlist (by simp)

theorem IndexSound.of_rows {w w' : World} (h : IndexSound cfg tenantID w)
    (hrows : ∀ k e, w'.index.rows.lookup k = some e → k.tenantID = tenantID →
      w.index.rows.lookup k = some e ∧ w'.pieces.lookup e.addr = w.pieces.lookup e.addr) :
    IndexSound cfg tenantID w' := by
  constructor
  · intro k e he ht
    have hold := hrows k e he ht
    exact (h.row k e hold.1 ht).congr hold.2
  · intro k k' e e' he he' ht ht' haddr
    exact h.apart k k' e e' (hrows k e he ht).1 (hrows k' e' he' ht').1 ht ht' haddr

theorem IndexSound.set (h : IndexSound cfg tenantID w)
    (he : RowSound cfg w.pieces e)
    (hother : ∀ k e', w.index.rows.lookup k = some e' → k.tenantID = tenantID → k ≠ e.key →
      e'.addr ≠ e.addr) :
    IndexSound cfg tenantID { w with index := w.index.set e } := by
  constructor
  · intro k e' he' ht
    rw [ContentIndex.lookup_set] at he'
    by_cases hk : k = e.key
    · rw [if_pos hk] at he'
      rw [← Option.some.inj he']
      exact he
    · rw [if_neg hk] at he'
      exact h.row k e' he' ht
  · intro k k' e₁ e₂ h₁ h₂ ht ht' haddr
    rw [ContentIndex.lookup_set] at h₁ h₂
    by_cases hk : k = e.key <;> by_cases hk' : k' = e.key
    · rw [hk, hk']
    · rw [if_pos hk] at h₁
      rw [if_neg hk'] at h₂
      rw [← Option.some.inj h₁] at haddr
      exact absurd haddr.symm (hother k' e₂ h₂ ht' hk')
    · rw [if_neg hk] at h₁
      rw [if_pos hk'] at h₂
      rw [← Option.some.inj h₂] at haddr
      exact absurd haddr (hother k e₁ h₁ ht hk)
    · rw [if_neg hk] at h₁
      rw [if_neg hk'] at h₂
      exact h.apart k k' e₁ e₂ h₁ h₂ ht ht' haddr

theorem IndexSound.recount (h : IndexSound cfg tenantID w)
    {contentHash : String}
    (he : w.index.rows.lookup ⟨tenantID, contentHash⟩ = some e) {n : Int} (hn : 0 ≤ n) :
    IndexSound cfg tenantID { w with index := w.index.set { e with refCount := n } } := by
  have hkey : e.key = ⟨tenantID, contentHash⟩ := w.index.keyed _ e he
  have hrow := h.row _ e he rfl
  refine h.set (e := { e with refCount := n }) ⟨hrow.provider, hrow.stored, hn⟩ ?_
  intro k e' he' ht hk haddr
  have hsame := h.apart k ⟨tenantID, contentHash⟩ e' e he' he ht rfl haddr
  exact hk (hsame.trans hkey.symm)

theorem VersionSound.of_fields {m' : ObjectManifest}
    (h : VersionSound cfg tenantID w m body) (hpieces : m'.pieces = m.pieces)
    (hencryption : m'.encryption = m.encryption)
    (hpolicy : m'.placementPolicy = m.placementPolicy) (hkey : m'.key = m.key)
    (hhash : m'.contentHash = m.contentHash) (hmarker : m'.deleteMarker = m.deleteMarker) :
    VersionSound cfg tenantID w m' body := by
  have hversion : m'.versionID = m.versionID := congrArg ManifestKey.versionID hkey
  constructor
  · rw [hmarker, h.marker]
  · rw [hversion]
    exact h.version
  · exact h.holds.of_fields hpieces hencryption hpolicy hkey
  · rw [hpieces, hhash]
    exact h.own
  · rw [hhash]
    exact h.counted

theorem Grounded.reindex (h : Grounded cfg b o st)
    (hindex : IndexSound cfg o.tenantID w) (hbuckets : w.buckets = st.1.buckets) :
    Grounded cfg b o (w, st.2) := by
  refine ⟨?_, hindex, h.keyed⟩
  show w.buckets.versioningOf o.tenantID o.bucket = .unset
  rw [hbuckets]
  exact h.versioning

theorem Grounded.key_of_current (h : Grounded cfg b o st)
    (hm : b.current st.2 (o.latestKey cfg) = some m) :
    b.latest st.2 (o.latestKey cfg) = some m.key ∧ m.key.latestKey = o.latestKey cfg := by
  unfold StoreKind.current at hm
  rcases hlatest : b.latest st.2 (o.latestKey cfg) with _ | k
  · rw [hlatest] at hm
    exact absurd hm (by simp)
  rw [hlatest] at hm
  have hobj := StoreKind.latestKey_of_latest hlatest
  rw [h.keyed k m hm hobj]
  exact ⟨rfl, hobj⟩

section

variable (h : KeyState cfg b o content st)
include h

/-- Rows and pieces may be added, as long as no new row names a piece in use. -/
theorem KeyState.grow (hbuckets : w.buckets = st.1.buckets)
    (hindex : IndexSound cfg o.tenantID w)
    (hsame : ∀ a, InUse cfg b o st a → w.pieces.lookup a = st.1.pieces.lookup a)
    (hkept : ∀ k e, st.1.index.rows.lookup k = some e → w.index.rows.lookup k = some e)
    (hnew : ∀ k e, w.index.rows.lookup k = some e → k.tenantID = o.tenantID →
      st.1.index.rows.lookup k = some e ∨ ¬ InUse cfg b o st e.addr) :
    KeyState cfg b o content (w, st.2) := by
  refine ⟨h.reindex hindex hbuckets, h.empty, fun body hbody => ?_⟩
  rcases h.full body hbody with ⟨m, hm, hsound⟩
  have huse : ∀ p ∈ m.pieces, InUse cfg b o st p.addr := fun p hp => Or.inr ⟨m, hm, p, hp, rfl⟩
  refine ⟨m, hm, hsound.marker, hsound.version,
    hsound.holds.congr fun p hp => hsame _ (huse p hp), ?_, fun hhash => ?_⟩
  · rintro k e he ht ⟨p, hp, hpe⟩
    rcases hnew k e he ht with hold | hfree
    · exact hsound.own k e hold ht ⟨p, hp, hpe⟩
    · exact absurd (hpe ▸ huse p hp) hfree
  · rcases hsound.counted hhash with ⟨hon, e, he, hcount⟩
    exact ⟨hon, e, hkept _ e he, hcount⟩

theorem KeyState.frame {pieces : FMap PieceAddr Bytes}
    (hsame : ∀ a, InUse cfg b o st a → pieces.lookup a = st.1.pieces.lookup a) :
    KeyState cfg b o content ({ st.1 with pieces := pieces }, st.2) := by
  refine h.grow rfl (h.index.of_rows fun k e he ht => ?_) hsame (fun _ _ he => he)
    fun _ _ he _ => Or.inl he
  exact ⟨he, hsame _ (Or.inl ⟨k, e, he, ht, rfl⟩)⟩

theorem KeyState.content_of_current (hm : b.current st.2 (o.latestKey cfg) = some m) :
    ∃ body, content = some body ∧ VersionSound cfg o.tenantID st.1 m body := by
  rcases hcontent : content with _ | body
  · rw [h.empty hcontent] at hm
    exact absurd hm (by simp)
  rcases h.full body hcontent with ⟨m', hm', hsound⟩
  rw [hm'] at hm
  rw [Option.some.inj hm] at hsound
  exact ⟨body, rfl, hsound⟩

theorem KeyState.content_of_none
    (hm : b.current st.2 (o.latestKey cfg) = none) : content = none := by
  cases hcontent : content with
  | none => rfl
  | some body =>
    rcases h.full body hcontent with ⟨m', hm', -⟩
    rw [hm'] at hm
    exact absurd hm (by simp)

end

end

/-! ## 2. The manifest is stored -/

def Responds (cfg : Config) (b : StoreKind) (o : ObjectRef) (content after : Option Bytes)
    (r : Response) (st : World × b.State) : Prop :=
  KeyState cfg b o (if r.success then after else content) st

section

variable {cfg : Config} {b : StoreKind} {o : ObjectRef} {st : World × b.State}
  {content after : Option Bytes}

theorem Responds.of_refused (h : KeyState cfg b o content st) {r : Response} (hr : r.refused) :
    Responds cfg b o content after r st := by
  have hfail : r.success = false := by
    exact decide_eq_false (by rw [Response.refused_iff] at hr; omega)
  unfold Responds
  rw [hfail]
  exact h

theorem Responds.of_success {r : Response} (hr : r.status < 300) (h : KeyState cfg b o after st) :
    Responds cfg b o content after r st := by
  unfold Responds Response.success
  rw [decide_eq_true hr]
  exact h

end

theorem fields_of_kept {b : StoreKind} {m m' : ObjectManifest} (h : b.kept m = .ok m') :
    m'.pieces = m.pieces ∧ m'.encryption = m.encryption ∧ m'.placementPolicy = m.placementPolicy ∧
      m'.key = m.key ∧ m'.contentHash = m.contentHash ∧ m'.deleteMarker = m.deleteMarker := by
  have hcases : m' = m ∨ m.fromJSON = .ok m' := by
    cases b with
    | memory => exact Or.inl (Except.ok.inj h).symm
    | sqlite | postgres => exact Or.inr h
  rcases hcases with rfl | hjson
  · exact ⟨rfl, rfl, rfl, rfl, rfl, rfl⟩
  unfold ObjectManifest.fromJSON at hjson
  split at hjson
  · cases hjson
    exact ⟨rfl, rfl, rfl, rfl, rfl, rfl⟩
  · cases hjson

theorem lookup_set_recount (ix : ContentIndex) (e : ContentIndexEntry) (n : Int) (k : IndexKey) :
    ((ix.set e).set { e with refCount := n }).rows.lookup k =
      if k = e.key then some { e with refCount := n } else ix.rows.lookup k := by
  rw [ContentIndex.lookup_set, ContentIndex.lookup_set]
  show (if k = e.key then _ else if k = e.key then _ else _) = _
  split <;> rfl

theorem requireBucket_ok {tenantID bucket : String} (ht : tenantID ≠ "") (hb : bucket ≠ "") :
    BucketConfig.requireBucket tenantID bucket = .ok () := by
  unfold BucketConfig.requireBucket
  rw [if_neg]
  rintro (h | h)
  · exact ht h
  · exact hb h

section

variable {cfg : Config} {b : StoreKind} {o : ObjectRef} {st : World × b.State}
  {content : Option Bytes} {body : Bytes} {m : ObjectManifest} {ok : Choice → Prop}
  (hok : ∀ x, ok x → x.fault = false)

include hok

theorem applyDefaultObjectLockRetention_stamps {tenantID bucket : String} (ht : tenantID ≠ "")
    (hb : bucket ≠ "") :
    (applyDefaultObjectLockRetention cfg tenantID bucket m).Ensures
      (storeMachine b.impl cfg.providers) ok st
      fun r st' => (∃ m', r = .ok m' ∧ Stamped m m') ∧ st' = st := by
  unfold applyDefaultObjectLockRetention
  split
  · exact ⟨⟨m, rfl, m.retention, rfl⟩, rfl⟩
  intro x hx
  rw [storeMachine_exec (hok x hx)]
  have hlock : st.1.buckets.getObjectLock tenantID bucket =
      .ok (st.1.buckets.objectLockOf tenantID bucket) := by
    unfold BucketConfig.getObjectLock
    rw [requireBucket_ok ht hb]
    rfl
  simp only [StoreImpl.exec, World.exec, Proc.ret_bind]
  rw [hlock]
  simp only
  split
  · exact ⟨⟨m, rfl, m.retention, rfl⟩, rfl⟩
  · refine ensures_consult (by trivial) fun now => ?_
    exact ⟨⟨_, rfl, _, rfl⟩, rfl⟩

/-- The manifest is stored, or the rollback leaves the object as it was. -/
theorem persistManifest_responds (hset : RegisterSetting cfg o) (h : Grounded cfg b o st)
    (hkey : m.key.latestKey = o.latestKey cfg) (hm : VersionSound cfg o.tenantID st.1 m body)
    (horder : b.PutInOrder st.2 (o.latestKey cfg)) {rollback : Proc Call Unit}
    (hroll : rollback.Ensures (storeMachine b.impl cfg.providers) ok st
      fun _ => KeyState cfg b o content)
    {stored : ObjectManifest → Handler} (hstored : ∀ m', ∃ r, stored m' = .ret r ∧ r.status = 200) :
    (persistManifest cfg m rollback stored).Ensures (storeMachine b.impl cfg.providers) ok st
      (Responds cfg b o content (some body)) := by
  have htenant : m.tenantID ≠ "" := by
    rw [show m.tenantID = o.tenantID from congrArg LatestKey.tenantID hkey]
    exact hset.tenantID
  have hbucket : m.bucket ≠ "" := by
    rw [show m.bucket = o.bucket from congrArg LatestKey.bucket hkey]
    exact hset.bucket
  apply (applyDefaultObjectLockRetention_stamps hok htenant hbucket).seq
  rintro r st' ⟨⟨m', hr, ret, hstamp⟩, hst⟩
  rw [hr, hst]
  have hkey' : m'.key = m.key := by rw [hstamp]; rfl
  have hlk : m'.key.latestKey = o.latestKey cfg := by rw [hkey', hkey]
  have hversion : m'.key.versionID ≠ "" := by
    rw [hkey']
    exact hm.version
  intro x hx
  rw [storeMachine_exec (hok x hx)]
  simp only [StoreImpl.exec, Proc.ret_bind]
  rcases b.put_current m' (by rw [hlk]; exact hset.named) hversion (by rw [hlk]; exact horder) with
    ⟨kept, s', hkept, hput, hlatest, hafter⟩ | ⟨e, hput⟩
  · rw [hput]
    rcases hstored m' with ⟨resp, hresp, hstatus⟩
    rw [hresp]
    rw [hlk] at hlatest
    rcases fields_of_kept hkept with ⟨hpieces, henc, hpolicy, hkeptkey, hhash, hmarker⟩
    have hm' : VersionSound cfg o.tenantID st.1 m' body :=
      hm.of_fields (by rw [hstamp]) (by rw [hstamp]) (by rw [hstamp]) hkey' (by rw [hstamp])
        (by rw [hstamp])
    have hcurrent : b.current s' (o.latestKey cfg) = some kept := by
      unfold StoreKind.current
      rw [hlatest]
      show b.stored s' m'.key = _
      rw [hafter, if_pos rfl]
    refine .of_success (by omega) ⟨⟨h.versioning, h.index, ?_⟩, by simp, fun body' hbody => ?_⟩
    · intro k m₀ hk hobj
      rw [hafter] at hk
      by_cases hkm : k = m'.key
      · rw [if_pos hkm] at hk
        rw [← Option.some.inj hk, hkeptkey, hkm]
      · rw [if_neg hkm] at hk
        exact h.keyed k m₀ hk hobj
    · rw [← Option.some.inj hbody]
      exact ⟨kept, hcurrent, hm'.of_fields hpieces henc hpolicy hkeptkey hhash hmarker⟩
  · rw [hput]
    exact hroll.seq fun _ st' hst => .of_refused hst (by simp)

end

/-! ## 3. PUT -/

/-- Nothing but pieces at the given places has gone. -/
def DropsOnly {σ : Type} (st : World × σ) (as : List PieceAddr) (st' : World × σ) : Prop :=
  ∃ pieces, st' = ({ st.1 with pieces }, st.2) ∧
    ∀ a ∉ as, pieces.lookup a = st.1.pieces.lookup a

section

variable {cfg : Config} {b : StoreKind} {st st' : World × b.State} {ok : Choice → Prop}
  {backend : String}

theorem DropsOnly.cons {a : PieceAddr} {as : List PieceAddr}
    (h : DropsOnly ({ st.1 with pieces := st.1.pieces.erase a }, st.2) as st') :
    DropsOnly st (a :: as) st' := by
  obtain ⟨pieces, hst, hsame⟩ := h
  refine ⟨pieces, hst, fun a' ha' => ?_⟩
  rw [List.mem_cons, not_or] at ha'
  rw [hsame a' ha'.2]
  show (st.1.pieces.erase a).lookup a' = _
  rw [FMap.lookup_erase_ite, if_neg ha'.1]

theorem rollbackEC_ensures (hok : ∀ x, ok x → x.fault = false) (ps : List Piece) :
    (rollbackEC backend ps).Ensures (storeMachine b.impl cfg.providers) ok st
      fun _ => DropsOnly st (ps.map fun p => ⟨backend, p.pieceID⟩) := by
  induction ps generalizing st with
  | nil => exact ⟨st.1.pieces, rfl, fun _ _ => rfl⟩
  | cons p ps ih => ?_
  intro x hx
  rw [storeMachine_exec (hok x hx)]
  exact ih.mono fun _ _ hdrops => hdrops.cons

theorem deletePiecesBestEffort_ensures (hok : ∀ x, ok x → x.fault = false) (ps : List Piece) :
    (deletePiecesBestEffort cfg ps).Ensures (storeMachine b.impl cfg.providers) ok st
      fun _ => DropsOnly st (ps.map Piece.addr) := by
  induction ps generalizing st with
  | nil => exact ⟨st.1.pieces, rfl, fun _ _ => rfl⟩
  | cons p ps ih => ?_
  unfold deletePiecesBestEffort
  split
  · intro x hx
    rw [storeMachine_exec (hok x hx)]
    exact ih.mono fun _ _ hdrops => hdrops.cons
  · apply ih.mono
    rintro _ st' ⟨pieces, hst, hsame⟩
    exact ⟨pieces, hst, fun a ha => hsame a (List.not_mem_of_not_mem_cons ha)⟩

end

def Unused (cfg : Config) (b : StoreKind) (o : ObjectRef) (st : World × b.State) (id : String) :
    Prop :=
  ∀ a, InUse cfg b o st a → beginsWith a.pieceID id = false

structure Mints (cfg : Config) (b : StoreKind) (o : ObjectRef) (st : World × b.State)
    (x : Choice) : Prop where
  fault : x.fault = false
  fresh : Unused cfg b o st (cfg.newPieceID o.tenantID o.bucket o.key x.now)

section

variable {cfg : Config} {b : StoreKind} {o : ObjectRef} {st : World × b.State}

theorem Unused.ne {id : String} (h : Unused cfg b o st id) {a : PieceAddr}
    (ha : InUse cfg b o st a) (backend : String) : a ≠ ⟨backend, id⟩ := by
  intro heq
  have hnew := h a ha
  rw [heq] at hnew
  exact Bool.noConfusion (hnew.symm.trans (beginsWith_self id))

end

/-- A PUT that is acknowledged sets the content; one that is refused leaves it. -/
def Sets (cfg : Config) (b : StoreKind) (r : PutRequest) (content : Option Bytes)
    (st : World × b.State) (p : Handler) : Prop :=
  p.Ensures (storeMachine b.impl cfg.providers) (Mints cfg b r.object st) st
    (Responds cfg b r.object content (some r.body))

/-- Equal hashes: the piece of the row has the bytes of the request. -/
theorem RowSound.bytes_eq {cfg : Config} (hblake : Function.Injective cfg.blake3)
    {c : DedupContent} (hrow : RowSound cfg w.pieces e)
    (he : w.index.rows.lookup ⟨tenantID, c.contentHash⟩ = some e)
    (hhash : c.contentHash = Config.formatContentHash (cfg.blake3Hex c.bytes)) :
    w.pieces.lookup e.addr = some c.bytes := by
  have hkey : e.key = ⟨tenantID, c.contentHash⟩ := w.index.keyed _ e he
  have hcontent : e.contentHash = c.contentHash := congrArg IndexKey.contentHash hkey
  rcases hrow.stored with ⟨bytes, hbytes, hrowhash⟩
  rw [hbytes]
  rw [hcontent, hhash] at hrowhash
  rw [bytes_of_formatContentHash hblake hrowhash]

section

variable {cfg : Config} {b : StoreKind} {r : PutRequest} {st : World × b.State}
  {content : Option Bytes} {backend : String} {policy : PlacementPolicy} {c : DedupContent}
  {ok : Choice → Prop} (hok : ∀ x, ok x → x.fault = false)
  (hset : RegisterSetting cfg r.object)
  (hopens : ∀ id, c.contentHash = Config.formatContentHash (cfg.blake3Hex c.bytes) ∧
    Opens cfg c.encryption id c.bytes r.body)
  (hcindex : cfg.hasContentIndex = true)

include hok hset hopens hcindex

theorem putDedupedManifest_responds (h : Grounded cfg b r.object st)
    (horder : b.PutInOrder st.2 (r.object.latestKey cfg))
    (he : st.1.index.rows.lookup ⟨r.tenantID, c.contentHash⟩ = some e) (hcount : 0 < e.refCount)
    {p : DedupPiece} (hp : ⟨p.backend, p.pieceID⟩ = e.addr)
    (hundone : KeyState cfg b r.object content
      ({ st.1 with index := st.1.index.set { e with refCount := e.refCount - 1 } }, st.2)) :
    (putDedupedManifest cfg r policy c p).Ensures (storeMachine b.impl cfg.providers) ok st
      (Responds cfg b r.object content (some r.body)) := by
  have hrow := h.index.row _ e he rfl
  have hhash := congrArg IndexKey.contentHash (st.1.index.keyed _ e he)
  have hfound : st.1.pieces.lookup ⟨p.backend, p.pieceID⟩ = some c.bytes := by
    rw [hp]
    exact hrow.bytes_eq hset.blake3 he (hopens (r.aadIdentity cfg "")).1
  have hbackend : p.backend = e.backend := (PieceAddr.mk.inj hp).1
  intro x hx
  rw [storeMachine_exec (hok x hx)]
  simp only [StoreImpl.exec, World.exec, Proc.ret_bind]
  have hversion : cfg.newPieceID r.tenantID r.bucket r.key x.now ≠ "" := hset.sha256 _
  generalize cfg.newPieceID r.tenantID r.bucket r.key x.now = versionID at hversion ⊢
  refine ensures_consult (by trivial) fun createdAt => ?_
  have hholds : Holds cfg st.1.pieces (dedupedManifest cfg r policy c p versionID createdAt)
      r.body :=
    dedupedManifest_holds (by rw [hbackend]; exact hrow.provider) hfound
      (hopens (r.aadIdentity cfg versionID)).1 (hopens (r.aadIdentity cfg versionID)).2
  refine persistManifest_responds hok hset h rfl ⟨rfl, hversion, hholds, ?_, ?_⟩ horder
    (fun y hy => ?_) fun m => ⟨_, rfl, rfl⟩
  · -- a row that names the piece is this row
    rintro k e' he' ht ⟨q, hq, hqe⟩
    rw [List.mem_singleton.mp hq] at hqe
    have hsame := h.index.apart k ⟨r.tenantID, c.contentHash⟩ e' e he' he ht rfl
      (hqe.symm.trans hp)
    rw [hsame, he] at he'
    exact (congrArg ContentIndexEntry.contentHash (Option.some.inj he')).symm.trans hhash
  · exact fun _ => ⟨hcindex, e, he, hcount⟩
  · rw [storeMachine_exec (hok y hy)]
    simp only [StoreImpl.exec, World.exec, World.onIndex, ContentIndex.decrementRef, he,
      if_neg (show ¬ e.refCount ≤ 0 by omega), Proc.ret_bind]
    exact hundone

end

section

variable {cfg : Config} {b : StoreKind} {r : PutRequest} {st : World × b.State}
  {content : Option Bytes} {backend : String} {provider : Provider} {policy : PlacementPolicy}
  (hset : RegisterSetting cfg r.object) (h : KeyState cfg b r.object content st)
  (horder : b.PutInOrder st.2 (r.object.latestKey cfg))
  (hprovider : cfg.providers backend = some provider)

include hset h horder hprovider

theorem putSinglePiece_responds :
    Sets cfg b r content st (putSinglePiece cfg r backend policy) := by
  intro x hx
  rw [storeMachine_exec hx.fault]
  simp only [StoreImpl.exec, World.exec, Proc.ret_bind]
  have hnew : Unused cfg b r.object st (cfg.newPieceID r.tenantID r.bucket r.key x.now) := hx.fresh
  have hversion : cfg.newPieceID r.tenantID r.bucket r.key x.now ≠ "" := hset.sha256 _
  generalize cfg.newPieceID r.tenantID r.bucket r.key x.now = pieceID at hnew hversion ⊢
  have hfresh : ∀ bytes a, InUse cfg b r.object st a →
      (st.1.pieces.insert ⟨backend, pieceID⟩ bytes).lookup a = st.1.pieces.lookup a := by
    intro bytes a ha
    rw [FMap.lookup_insert_ite, if_neg (hnew.ne ha backend)]
  cases hsealed : prepareSinglePieceEncryption cfg r policy.encryptionMode
      (r.aadIdentity cfg pieceID) with
  | error response => exact .of_refused h (prepareSinglePieceEncryption_refused hsealed)
  | ok sealed =>
    intro y hy
    rw [storeMachine_exec hy.fault]
    simp only [StoreImpl.exec, World.exec, Proc.ret_bind]
    rw [World.putPiece_of_provider hprovider]
    have hdropped : KeyState cfg b r.object content ({ st.1 with
        pieces := (st.1.pieces.insert ⟨backend, pieceID⟩ sealed.2).erase ⟨backend, pieceID⟩ },
        st.2) := by
      refine h.frame fun a ha => ?_
      rw [FMap.lookup_erase_ite, if_neg (hnew.ne ha backend)]
      exact hfresh sealed.2 a ha
    simp only
    split
    · -- an incomplete body: the piece is dropped again
      intro z hz
      rw [storeMachine_exec hz.fault]
      exact .of_refused hdropped (by simp)
    · refine ensures_consult (by trivial) fun createdAt => ?_
      have hwritten := h.frame (fun a ha => hfresh sealed.2 a ha)
      have hholds : Holds cfg (st.1.pieces.insert ⟨backend, pieceID⟩ sealed.2)
          (singlePieceManifest cfg r backend policy sealed.1 sealed.2 pieceID
            ⟨pieceID, provider.etagOf pieceID sealed.2, sealed.2.length,
              provider.locatorOf pieceID⟩ createdAt) r.body := by
        refine singlePieceManifest_holds (by rw [hprovider]; rfl) ?_
          (prepareSinglePieceEncryption_opens hset.opens hsealed)
        rw [FMap.lookup_insert_ite, if_pos rfl]
      refine persistManifest_responds (fun x hx => Mints.fault hx) hset hwritten.toGrounded rfl
        ⟨rfl, hversion, hholds, ?_, fun hne => absurd rfl hne⟩ horder (fun z hz => ?_)
        fun m => ⟨_, rfl, rfl⟩
      swap
      · rw [storeMachine_exec hz.fault]
        exact hdropped
      -- no row names the new piece
      rintro k e he ht ⟨p, hp, hpe⟩
      rw [List.mem_singleton.mp hp] at hpe
      exact absurd hpe.symm (hnew.ne (Or.inl ⟨k, e, he, ht, rfl⟩) backend)

theorem putEncodedBody_responds {lookup : String → Except String ErasureEncoder}
    {encoder : ErasureEncoder} (hregistry : cfg.erasureCoding = some lookup)
    (hprofile : policy.erasureProfile ≠ "") (hencoder : lookup policy.erasureProfile = .ok encoder) :
    Sets cfg b r content st (putEncodedBody cfg r backend policy encoder) := by
  intro x hx
  rw [storeMachine_exec hx.fault]
  simp only [StoreImpl.exec, World.exec, Proc.ret_bind]
  have hnew : Unused cfg b r.object st (cfg.newPieceID r.tenantID r.bucket r.key x.now) := hx.fresh
  have hversion : cfg.newPieceID r.tenantID r.bucket r.key x.now ≠ "" := hset.sha256 _
  generalize cfg.newPieceID r.tenantID r.bucket r.key x.now = versionID at hnew hversion ⊢
  cases hsealed : prepareErasureCodedEncryption cfg r policy.encryptionMode
      (r.aadIdentity cfg versionID) with
  | error response => exact .of_refused h (prepareErasureCodedEncryption_refused hsealed)
  | ok sealed =>
    simp only
    rcases hencode : encoder.encode sealed.2 with message | shards
    · exact .of_refused h (by simp)
    apply (putShards_ensures (fun x hx => Mints.fault hx) hprovider shards [] st).seq
    intro written st' hr
    rw [hr.1, hr.2]
    refine ensures_consult (by trivial) fun createdAt => ?_
    have hunchanged : ∀ a, InUse cfg b r.object st a →
        (withShards backend versionID shards st.1.pieces).lookup a = st.1.pieces.lookup a :=
      fun a ha => lookup_withShards_of_other (hnew a ha)
    have hwritten := h.frame hunchanged
    have hholds : Holds cfg (withShards backend versionID shards st.1.pieces)
        (erasureCodedManifest cfg r backend policy sealed.1 encoder versionID
          (shards.map (storedShard cfg provider backend versionID)) createdAt) r.body :=
      erasureCodedManifest_holds hset.opens (by rw [hprovider]; rfl) hregistry hprofile hencoder
        hencode (prepareErasureCodedEncryption_opens hset.opens hsealed)
    refine persistManifest_responds (fun x hx => Mints.fault hx) hset hwritten.toGrounded rfl
      ⟨rfl, hversion, hholds, ?_, fun hne => absurd rfl hne⟩ horder
      ((rollbackEC_ensures (fun x hx => Mints.fault hx) _).mono ?_) fun m => ⟨_, rfl, rfl⟩
    swap
    · rintro _ st' ⟨pieces, rfl, hsame⟩
      refine h.frame fun a ha => (hsame a fun hmem => ?_).trans (hunchanged a ha)
      obtain ⟨p, hp, rfl⟩ := List.mem_map.mp hmem
      rcases List.mem_map.mp hp with ⟨shard, -, rfl⟩
      exact Bool.noConfusion ((hnew _ ha).symm.trans (beginsWith_shardPieceID versionID shard))
    -- no row names a shard
    rintro k e he ht ⟨p, hp, hpe⟩
    rcases List.mem_map.mp hp with ⟨shard, -, hshard⟩
    have hunused := hnew e.addr (Or.inl ⟨k, e, he, ht, rfl⟩)
    rw [← hpe, ← hshard] at hunused
    exact Bool.noConfusion (hunused.symm.trans (beginsWith_shardPieceID versionID shard))

theorem putErasureCoded_responds (hprofile : policy.erasureProfile ≠ "") :
    Sets cfg b r content st (putErasureCoded cfg r backend policy) := by
  unfold putErasureCoded
  rcases hregistry : cfg.erasureCoding with _ | lookup
  · exact .of_refused h (by simp)
  simp only
  rcases hencoder : lookup policy.erasureProfile with message | encoder
  · exact .of_refused h (by simp)
  simp only
  split
  · exact .of_refused h (by simp)
  · split
    · exact .of_refused h (by simp)
    · exact putEncodedBody_responds hset h horder hprovider hregistry hprofile hencoder

theorem putDedupedMiss_responds {c : DedupContent}
    (hopens : ∀ id, c.contentHash = Config.formatContentHash (cfg.blake3Hex c.bytes) ∧
      Opens cfg c.encryption id c.bytes r.body)
    (hcindex : cfg.hasContentIndex = true)
    (hmiss : st.1.index.rows.lookup ⟨r.tenantID, c.contentHash⟩ = none) :
    Sets cfg b r content st (putDedupedMiss cfg r backend policy c) := by
  intro x hx
  rw [storeMachine_exec hx.fault]
  simp only [StoreImpl.exec, World.exec, Proc.ret_bind]
  have hnew : Unused cfg b r.object st (cfg.newPieceID r.tenantID r.bucket r.key x.now) := hx.fresh
  generalize cfg.newPieceID r.tenantID r.bucket r.key x.now = pieceID at hnew ⊢
  intro y hy
  rw [storeMachine_exec hy.fault]
  simp only [StoreImpl.exec, World.exec, Proc.ret_bind]
  rw [World.putPiece_of_provider hprovider]
  have hunchanged : ∀ a, InUse cfg b r.object st a →
      (st.1.pieces.insert ⟨backend, pieceID⟩ c.bytes).lookup a = st.1.pieces.lookup a := by
    intro a ha
    rw [FMap.lookup_insert_ite, if_neg (hnew.ne ha backend)]
  have hwritten := h.frame hunchanged
  -- nobody else is registering the content
  intro z hz
  rw [storeMachine_exec hz.fault]
  simp only [StoreImpl.exec, World.exec, World.onIndex, Proc.ret_bind]
  unfold ContentIndex.register
  simp only [ContentIndexEntry.key, hmiss]
  generalize hentry : (
    { tenantID := r.tenantID, contentHash := c.contentHash, pieceID, backend,
      refCount := if (0 : Int) ≤ 0 then 1 else 0, sizeBytes := c.bytes.length,
      etag := provider.etagOf pieceID c.bytes, plaintextHash := c.plaintextHash } :
    ContentIndexEntry) = entry
  have hkey : entry.key = ⟨r.tenantID, c.contentHash⟩ := by rw [← hentry]; rfl
  have haddr : entry.addr = ⟨backend, pieceID⟩ := by rw [← hentry]; rfl
  have hcount : entry.refCount = 1 := by rw [← hentry]; rfl
  have hrow : RowSound cfg (st.1.pieces.insert ⟨backend, pieceID⟩ c.bytes) entry := by
    refine ⟨by rw [← hentry, hprovider]; rfl, ⟨c.bytes, ?_, ?_⟩, by rw [hcount]; decide⟩
    · rw [haddr, FMap.lookup_insert_ite, if_pos rfl]
    · rw [← hentry]
      exact (hopens (r.aadIdentity cfg pieceID)).1
  have hindex := hwritten.index.set hrow fun k e he ht _ => by
    rw [haddr]
    exact hnew.ne (Or.inl ⟨k, e, he, ht, rfl⟩) backend
  have hlook : (st.1.index.set entry).rows.lookup ⟨r.tenantID, c.contentHash⟩ = some entry := by
    rw [ContentIndex.lookup_set, hkey, if_pos rfl]
  refine putDedupedManifest_responds (fun x hx => Mints.fault hx) hset hopens hcindex
    (h.reindex hindex rfl) horder hlook (by rw [hcount]; decide) haddr.symm ?_
  -- the row and the piece stay behind, with no reference
  refine h.grow rfl (hindex.recount hlook (by rw [hcount]; decide)) hunchanged ?_ ?_
  · intro k e' he'
    have hk : k ≠ entry.key := by
      rintro rfl
      rw [hkey, hmiss] at he'
      cases he'
    exact (lookup_set_recount st.1.index entry _ k).trans ((if_neg hk).trans he')
  · intro k e' he' ht
    rw [lookup_set_recount st.1.index entry] at he'
    by_cases hk : k = entry.key
    · rw [if_pos hk] at he'
      rw [← Option.some.inj he']
      exact Or.inr fun hin => hnew.ne hin backend haddr
    · exact Or.inl (by rwa [if_neg hk] at he')

theorem putDeduped_responds (hcindex : cfg.hasContentIndex = true) :
    Sets cfg b r content st (putDeduped cfg r backend policy) := by
  unfold putDeduped
  simp only
  split
  · exact .of_refused h (by simp)
  cases hc : dedupContent cfg r policy.encryptionMode with
  | error message => exact .of_refused h (by simp)
  | ok c => ?_
  have hopens := fun id => dedupContent_opens hset.opens id hc
  intro x hx
  rw [storeMachine_exec hx.fault]
  simp only [StoreImpl.exec, World.exec, ContentIndex.lookup, Proc.ret_bind]
  cases hrow : st.1.index.rows.lookup ⟨r.tenantID, c.contentHash⟩ with
  | none => exact putDedupedMiss_responds hset h horder hprovider hopens hcindex hrow
  | some e => ?_
  -- the hit takes a reference on the row
  intro y hy
  rw [storeMachine_exec hy.fault]
  simp only [StoreImpl.exec, World.exec, World.onIndex, ContentIndex.incrementRef, hrow,
    Proc.ret_bind]
  have hcount := (h.index.row _ e hrow rfl).counted
  have hkey : e.key = ⟨r.tenantID, c.contentHash⟩ := st.1.index.keyed _ e hrow
  have hindex := h.index.recount hrow (n := e.refCount + 1) (by omega)
  have hlook : (st.1.index.set { e with refCount := e.refCount + 1 }).rows.lookup
      ⟨r.tenantID, c.contentHash⟩ = some { e with refCount := e.refCount + 1 } := by
    rw [ContentIndex.lookup_set]
    exact if_pos hkey.symm
  have htaken : 0 < e.refCount + 1 := by omega
  refine putDedupedManifest_responds (fun x hx => Mints.fault hx) hset hopens hcindex
    (h.reindex hindex rfl) horder hlook htaken rfl ?_
  -- the reference is given back
  have hrows : ∀ k, ((st.1.index.set { e with refCount := e.refCount + 1 }).set
      { e with refCount := e.refCount + 1 - 1 }).rows.lookup k = st.1.index.rows.lookup k := by
    intro k
    rw [lookup_set_recount st.1.index { e with refCount := e.refCount + 1 }, Int.add_sub_cancel]
    by_cases hk : k = e.key
    · exact (if_pos hk).trans (by rw [hk, hkey, hrow])
    · exact if_neg hk
  have hback : 0 ≤ e.refCount + 1 - 1 := by omega
  exact h.grow rfl (hindex.recount hlook hback) (fun _ _ => rfl)
    (fun k e' he' => (hrows k).trans he') fun k e' he' _ => Or.inl ((hrows k).symm.trans he')

theorem putPlaced_responds :
    Sets cfg b r content st (putPlaced cfg r backend policy) := by
  unfold putPlaced
  simp only
  split
  · rename_i hprofile
    exact putErasureCoded_responds hset h horder hprovider hprofile
  split
  · rename_i hdedup
    have hcindex : cfg.hasContentIndex = true := by
      have henabled := hdedup.1
      unfold Config.dedupEnabled at henabled
      rw [Bool.and_eq_true] at henabled
      exact henabled.1
    exact putDeduped_responds hset h horder hprovider hcindex
  · exact putSinglePiece_responds hset h horder hprovider

end

structure PutRequest.RefusesBadHeaders (r : PutRequest) : Prop where
  tagging : ∀ response, r.tagging = .error response → response.refused
  metadata : ∀ response, r.metadataTooLarge = some response → response.refused

theorem putObject_responds {cfg : Config} {b : StoreKind} {r : PutRequest} {st : World × b.State}
    {content : Option Bytes} (hset : RegisterSetting cfg r.object)
    (h : KeyState cfg b r.object content st)
    (horder : b.PutInOrder st.2 (r.object.latestKey cfg)) (hheaders : r.RefusesBadHeaders) :
    Sets cfg b r content st (putObject cfg r) := by
  have hpath : ¬ (r.bucket = "" ∨ r.key = "") := by
    rintro (hempty | hempty)
    · exact hset.bucket hempty
    · exact hset.key hempty
  unfold putObject
  rw [if_neg hpath]
  rcases htags : r.tagging with response | tags
  · exact .of_refused h (hheaders.tagging response htags)
  cases hmeta : r.metadataTooLarge with
  | some response => exact .of_refused h (hheaders.metadata response hmeta)
  | none => ?_
  have hquiet : ∀ {β : Type} (x : Choice) (c : Call β), consults c →
      ((storeMachine b.impl cfg.providers).exec x c st).2 = st :=
    fun x c hc => storeMachine_of_consults b.impl cfg.providers hc x st
  refine orRefuse_ensures (allowObjectLockOverwrite_ensures hquiet r.object r.bypassGovernance)
    (fun response hr => .of_refused h hr) ?_
  exact placed_ensures hquiet (fun response hr => .of_refused h hr)
    fun backend provider policy hp => putPlaced_responds hset h horder hp

/-! ## 4. DELETE -/

section

variable {cfg : Config} {b : StoreKind} {o : ObjectRef} {st : World × b.State}
  {content : Option Bytes} {body : Bytes} {m : ObjectManifest} {ok : Choice → Prop}
  (hok : ∀ x, ok x → x.fault = false)

include hok

theorem releasePieces_grounded (h : Grounded cfg b o st)
    (hm : VersionSound cfg o.tenantID st.1 m body) :
    (releasePieces cfg o.tenantID m).Ensures (storeMachine b.impl cfg.providers) ok st
      fun r st' => r = none ∧ Grounded cfg b o st' ∧ st'.2 = st.2 := by
  -- after the rows in `w`, the pieces of the version go
  have hdrop : ∀ w : World, w.buckets = st.1.buckets → w.pieces = st.1.pieces →
      (∀ k e, w.index.rows.lookup k = some e → k.tenantID = o.tenantID →
        st.1.index.rows.lookup k = some e ∧ ∀ p ∈ m.pieces, p.addr ≠ e.addr) →
      ((deletePiecesBestEffort cfg m.pieces).bind fun _ => .ret (none : Option Response)).Ensures
        (storeMachine b.impl cfg.providers) ok (w, st.2)
        fun r st' => r = none ∧ Grounded cfg b o st' ∧ st'.2 = st.2 := by
    intro w hbuckets hpieces hrows
    apply (deletePiecesBestEffort_ensures hok m.pieces).seq
    rintro _ st' ⟨pieces, hst, hsame⟩
    rw [hst]
    refine ⟨rfl, h.reindex (h.index.of_rows fun k e he ht => ?_) hbuckets, rfl⟩
    have hold := hrows k e he ht
    refine ⟨hold.1, ?_⟩
    show pieces.lookup e.addr = st.1.pieces.lookup e.addr
    rw [hsame e.addr fun hmem => ?_, ← hpieces]
    obtain ⟨p, hp, hpe⟩ := List.mem_map.mp hmem
    exact hold.2 p hp hpe
  unfold releasePieces giveBack
  split
  · rename_i hplain
    refine hdrop st.1 rfl rfl fun k e he ht => ⟨he, fun p hp hpe => ?_⟩
    -- a row of the version would make it a deduplicated one
    have hhash := hm.own k e he ht ⟨p, hp, hpe⟩
    have hne : m.contentHash ≠ "" := by
      rw [← hhash]
      exact (h.index.row k e he ht).contentHash_ne
    rcases hplain with hempty | hoff
    · exact hne hempty
    · exact absurd ((hm.counted hne).1.symm.trans hoff) (by decide)
  rename_i hdedup
  have hhashed : m.contentHash ≠ "" := fun hempty => hdedup (Or.inl hempty)
  rcases (hm.counted hhashed).2 with ⟨e, he, hcount⟩
  have hkey : e.key = ⟨o.tenantID, m.contentHash⟩ := st.1.index.keyed _ e he
  intro x hx
  rw [storeMachine_exec (hok x hx)]
  simp only [StoreImpl.exec, World.exec, World.onIndex, ContentIndex.decrementRef, he,
    if_neg (show ¬ e.refCount ≤ 0 by omega), Proc.ret_bind]
  split
  · rename_i hlast
    -- the last reference: the row goes first
    intro y hy
    rw [storeMachine_exec (hok y hy)]
    have hlook : (st.1.index.set { e with refCount := e.refCount - 1 }).rows.lookup
        ⟨o.tenantID, m.contentHash⟩ = some { e with refCount := e.refCount - 1 } := by
      rw [ContentIndex.lookup_set]
      exact if_pos hkey.symm
    have hzero : ¬ 0 < e.refCount - 1 := by omega
    simp only [StoreImpl.exec, World.exec, World.onIndex, ContentIndex.delete, hlook,
      if_neg hzero, Proc.ret_bind]
    refine hdrop _ rfl rfl fun k e' he' ht => ?_
    rw [ContentIndex.lookup_erase] at he'
    by_cases hk : k = ⟨o.tenantID, m.contentHash⟩
    · rw [if_pos hk] at he'
      exact absurd he' (by simp)
    rw [if_neg hk, ContentIndex.lookup_set, if_neg (fun hke => hk (hke.trans hkey))] at he'
    refine ⟨he', fun p hp hpe => hk ?_⟩
    have hhash := hm.own k e' he' ht ⟨p, hp, hpe⟩
    have hkey' : e'.key = k := st.1.index.keyed k e' he'
    rw [← hkey', ← hhash, ← ht, ← hkey']
    rfl
  · exact ⟨rfl, h.reindex (h.index.recount he (by omega)) rfl, rfl⟩

theorem deleteVersion_responds (hset : RegisterSetting cfg o) (h : KeyState cfg b o content st)
    (hlast : b.DeletesLast st.2 (o.latestKey cfg)) (bypass : Bool) :
    (deleteVersion cfg o bypass).Ensures (storeMachine b.impl cfg.providers) ok st
      (Responds cfg b o content none) := by
  intro x hx
  rw [storeMachine_exec (hok x hx)]
  simp only [StoreImpl.exec, Proc.ret_bind]
  have hget : b.impl.get st.2 (o.manifestKey cfg) = (b.current st.2 (o.latestKey cfg)).elim
      (.error .manifestNotFound) .ok := b.get_current hset.named hset.versionID
  rw [hget]
  rcases hcurrent : b.current st.2 (o.latestKey cfg) with _ | m
  · have hnone := h.content_of_none hcurrent
    rw [hnone] at h
    exact Responds.of_success (by decide) h
  rcases h.content_of_current hcurrent with ⟨body, -, hm⟩
  rcases h.toGrounded.key_of_current hcurrent with ⟨hlatest, hlk⟩
  have hkey : cfg.manifestKey o.tenantID o.bucket o.key m.versionID = m.key := by
    rcases LatestKey.mk.inj hlk with ⟨htenant, hbucket, hhash⟩
    unfold Config.manifestKey
    rw [← htenant, ← hbucket, ← hhash]
    rfl
  refine ensures_consult (by trivial) fun now => ?_
  split
  · exact Responds.of_refused h (by simp)
  rcases b.delete_current (k := m.key) (by rw [hlk]; exact hset.named) hm.version
    (by rw [hlk]; exact hlatest) (by rw [hlk]; exact hlast) with ⟨s', hdelete, hgone, hafter⟩
  intro y hy
  rw [storeMachine_exec (hok y hy)]
  simp only [StoreImpl.exec, Proc.ret_bind]
  rw [hkey, hdelete]
  apply Proc.Ensures.bind
  have hground : Grounded cfg b o (st.1, s') := by
    refine ⟨h.versioning, h.index, fun k m₀ hk hobj => ?_⟩
    rw [hafter] at hk
    by_cases hkm : k = m.key
    · rw [if_pos hkm] at hk
      exact absurd hk (by simp)
    · rw [if_neg hkm] at hk
      exact h.keyed k m₀ hk hobj
  apply (releasePieces_grounded hok hground hm).mono
  rintro r st' ⟨hr, hground', hst⟩
  rw [hr]
  refine Responds.of_success (by decide) ⟨hground', fun _ => ?_, fun body hbody => ?_⟩
  · rw [hlk] at hgone
    unfold StoreKind.current
    rw [hst, hgone]
    rfl
  · exact absurd hbody (by simp)

theorem deleteObject_responds (hset : RegisterSetting cfg o) (h : KeyState cfg b o content st)
    (hlast : b.DeletesLast st.2 (o.latestKey cfg)) (bypass : Bool) :
    (deleteObject cfg o bypass).Ensures (storeMachine b.impl cfg.providers) ok st
      (Responds cfg b o content none) := by
  have hpath : ¬ (o.bucket = "" ∨ o.key = "") := by
    rintro (hempty | hempty)
    · exact hset.bucket hempty
    · exact hset.key hempty
  have hversioning : (cfg.bucketVersioning o.tenantID o.bucket).Ensures
      (storeMachine b.impl cfg.providers) ok st fun r st' => r = .ok .unset ∧ st' = st := by
    unfold Config.bucketVersioning
    split
    · intro x hx
      rw [storeMachine_exec (hok x hx)]
      refine ⟨?_, rfl⟩
      show st.1.buckets.getVersioning o.tenantID o.bucket = _
      unfold BucketConfig.getVersioning
      rw [requireBucket_ok hset.tenantID hset.bucket, h.versioning]
      rfl
    · exact ⟨rfl, rfl⟩
  have hhold : (refuseLegalHold cfg o).Ensures (storeMachine b.impl cfg.providers) ok st
      fun a st' => (∀ response, a = some response → response.refused) ∧ st' = st := by
    unfold refuseLegalHold
    split
    · exact ⟨by simp, rfl⟩
    refine ensures_consult (by trivial) fun holds => ?_
    rcases holds with e | n
    · exact ⟨by simp, rfl⟩
    simp only
    split <;> exact ⟨by simp, rfl⟩
  unfold deleteObject
  rw [if_neg hpath]
  apply Proc.Ensures.bind
  apply hversioning.mono
  intro r st' hr
  rw [hr.1, hr.2]
  exact orRefuse_ensures hhold (fun response hr => .of_refused h hr)
    (deleteVersion_responds hok hset h hlast bypass)

end

/-! ## 5. GET -/

def Reads (content : Option Bytes) (r : Response) : Prop :=
  match content with
  | none => r.status = 404 ∧ r.code = "NoSuchKey"
  | some body => r.status = 200 ∧ r.body = [body]

theorem getObject_reads {cfg : Config} {b : StoreKind} {o : ObjectRef} {st : World × b.State}
    {content : Option Bytes} (hset : RegisterSetting cfg o) (h : KeyState cfg b o content st)
    {req : GetRequest} (hreq : PlainGet req) (hobject : req.object = o) :
    (getObject cfg req).Ensures (storeMachine b.impl cfg.providers) Faultless st
      fun r _ => Reads content r := by
  have hget : b.impl.get st.2 (req.object.manifestKey cfg) =
      (b.current st.2 (o.latestKey cfg)).elim (.error .manifestNotFound) .ok := by
    rw [hobject]
    exact b.get_current hset.named hset.versionID
  rcases hcurrent : b.current st.2 (o.latestKey cfg) with _ | m
  · rw [hcurrent] at hget
    rw [h.content_of_none hcurrent]
    exact (getObject_missing hreq hget).mono fun r _ hr => ⟨hr.1, hr.2.1⟩
  rw [hcurrent] at hget
  rcases h.content_of_current hcurrent with ⟨body, hbody, hm⟩
  rw [hbody]
  refine (getObject_holds hreq hget hm.marker hm.holds).mono fun r _ hr => ?_
  rw [hr.1]
  exact ⟨rfl, rfl⟩

end ObjectFabric
