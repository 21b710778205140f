import ObjectFabric.Gateway.CachedGet

/-!
# CertifiedFetch — what `fetchPiece` reads

One specification for all the ways in which a piece is read: the requested bytes of the one body that
its recorded hash admits.  A cached body, a repaired one and a buffered one meet it.  A piece that is
too large to buffer, or that the memory budget does not admit, is passed on unchecked; then what is
read is the requested part of what the backend holds.
-/

namespace ObjectFabric

open Interleaving

/-! ## 1. Ranges -/

/-- The range lies within `n` bytes; a negative end stands for the last byte. -/
def ByteRange.Valid (r : ByteRange) (n : Nat) : Prop :=
  0 ≤ r.first ∧ r.first ≤ n ∧ (r.last < 0 ∨ (r.first ≤ r.last ∧ r.last < n))

instance (r : ByteRange) (n : Nat) : Decidable (r.Valid n) :=
  inferInstanceAs (Decidable (_ ∧ _ ∧ _))

def ByteRange.cut (r : ByteRange) (body : Bytes) : Bytes :=
  if r.last < 0 then body.drop r.first.toNat
  else (body.take (r.last + 1).toNat).drop r.first.toNat

def requested (range : Option ByteRange) (body : Bytes) : Bytes :=
  match range with
  | none => body
  | some r => r.cut body

theorem ByteRange.slice_of_valid {r : ByteRange} {body : Bytes} (h : r.Valid body.length) :
    r.slice body = some (r.cut body) := by
  rcases h with ⟨hfirst, hle, hlast⟩
  unfold slice cut
  rcases hlast with hopen | ⟨hordered, hinside⟩
  · simp only [hopen, true_or, if_true]
    rw [if_neg (by omega)]
    have hall : (body.drop r.first.toNat).length ≤
        ((body.length : Int) - 1 + 1 - r.first).toNat := by
      rw [List.length_drop]
      omega
    rw [List.take_of_length_le hall]
  · have hnot : ¬ (r.last < 0 ∨ (body.length : Int) ≤ r.last) := by omega
    have hnonneg : ¬ r.last < 0 := by omega
    have hcount : (r.last + 1 - r.first).toNat = (r.last + 1).toNat - r.first.toNat := by omega
    rw [if_neg hnot, if_neg hnonneg, if_neg (by omega), List.drop_take, hcount]

/-- `part` is what a reader of `whole` gets for the range. -/
def Cuts (range : Option ByteRange) (whole part : Bytes) : Prop :=
  match range with
  | none => part = whole
  | some r => r.slice whole = some part

theorem Cuts.requested {range : Option ByteRange} {whole part : Bytes}
    (hvalid : ∀ r, range = some r → r.Valid whole.length) (h : Cuts range whole part) :
    part = requested range whole := by
  cases range with
  | none => exact h
  | some r =>
    have hslice := ByteRange.slice_of_valid (hvalid r rfl)
    exact Option.some.inj (h.symm.trans hslice)

theorem cuts_of_sliceOr {range : Option ByteRange} {p : Piece} {whole part : Bytes}
    (h : sliceOr range p whole = .ok part) : Cuts range whole part := by
  cases range with
  | none => exact (Except.ok.inj h).symm
  | some r => ?_
  change (r.slice whole).elim _ Except.ok = _ at h
  cases hslice : r.slice whole with
  | none =>
    rw [hslice] at h
    exact absurd h (by simp)
  | some part' =>
    rw [hslice] at h
    rw [Cuts, hslice, Except.ok.inj h]

/-! ## 2. The body that a hash admits -/

section

variable {cfg : Config} {p : Piece} {a b : Bytes}

theorem verifyPiece_known (hhash : p.hash ≠ "") (h : verifyPiece cfg a p = .verified) (b : Bytes) :
    (verifyPiece cfg b p = .verified ∧
        (cfg.blake3Hex b = cfg.blake3Hex a ∨ cfg.sha256BodyHex b = cfg.sha256BodyHex a)) ∨
      ∃ message, verifyPiece cfg b p = .failed message := by
  unfold verifyPiece at h ⊢
  rw [if_neg hhash] at h ⊢
  by_cases hblake : beginsWith p.hash "blake3:" = true
  · rw [if_pos hblake] at h ⊢
    simp only at h ⊢
    have hdigest : cfg.blake3Hex a = String.ofList (p.hash.toList.drop 7) := by
      by_contra hne
      rw [if_neg hne] at h
      exact absurd h (by simp)
    split
    · rename_i heq
      exact Or.inl ⟨rfl, Or.inl (heq.trans hdigest.symm)⟩
    · exact Or.inr ⟨_, rfl⟩
  · rw [if_neg hblake] at h ⊢
    simp only at h ⊢
    cases hformat : isSHA256Hex (stripQuotes p.hash) with
    | false =>
      rw [hformat] at h
      exact absurd h (by simp)
    | true => ?_
    rw [hformat] at h
    simp only [Bool.not_true, Bool.false_eq_true, if_false] at h ⊢
    have hdigest : cfg.sha256BodyHex a = stripQuotes p.hash := by
      by_contra hne
      rw [if_neg hne] at h
      exact absurd h (by simp)
    split
    · rename_i heq
      exact Or.inl ⟨rfl, Or.inr (heq.trans hdigest.symm)⟩
    · exact Or.inr ⟨_, rfl⟩

structure InjectiveHashes (cfg : Config) : Prop where
  blake3 : Function.Injective cfg.blake3
  sha256 : Function.Injective cfg.sha256BodyHex

theorem verified_unique (hinj : InjectiveHashes cfg) (hhash : p.hash ≠ "")
    (ha : verifyPiece cfg a p = .verified) (hb : verifyPiece cfg b p = .verified) : b = a := by
  rcases verifyPiece_known hhash ha b with ⟨-, hblake | hsha⟩ | ⟨message, hfailed⟩
  · exact hinj.blake3 (hexEncode_injective hblake)
  · exact hinj.sha256 hsha
  · rw [hb] at hfailed
    exact absurd hfailed (by simp)

theorem verified_of_passed (hhash : p.hash ≠ "") (ha : verifyPiece cfg a p = .verified)
    (hb : (verifyPiece cfg b p).passed = true) : verifyPiece cfg b p = .verified := by
  rcases verifyPiece_known hhash ha b with ⟨hverified, -⟩ | ⟨message, hfailed⟩
  · exact hverified
  · rw [hfailed] at hb
    exact absurd hb (by simp [Integrity.passed])

/-! ## 3. Reading from the backends -/

variable {ok : Choice → Prop} {w : World} {key : ManifestKey} {m : ObjectManifest}
  {range : Option ByteRange}

theorem getRange_cuts (addr : PieceAddr) :
    (getRange addr range).Ensures (machine cfg.providers) ok w fun r w' => w' = w ∧
      ∀ body, r = .ok body → ∃ whole, w.pieces.lookup addr = some whole ∧ Cuts range whole body := by
  refine ensures_getPiece addr (fun e => ⟨rfl, fun body h => absurd h (by simp)⟩) ?_
  intro whole hfound
  cases range with
  | none =>
    refine ⟨rfl, fun body h => ⟨whole, hfound, ?_⟩⟩
    exact (Except.ok.inj h).symm
  | some r => ?_
  refine ⟨rfl, fun body h => ⟨whole, hfound, ?_⟩⟩
  cases hslice : r.slice whole with
  | none =>
    rw [hslice] at h
    exact absurd h (by simp)
  | some part =>
    rw [hslice] at h
    rw [Cuts, hslice, ← Except.ok.inj h]

theorem repair_passed (hfirst : m.pieces.head? = some p) :
    (repair cfg key m 0).Ensures (machine cfg.providers) ok w fun r _ =>
      ∀ res, r.1 = .ok res → (verifyPiece cfg res.body p).passed = true := by
  have hzero : m.pieces[0]? = some p := by
    rw [← List.head?_eq_getElem?]
    exact hfirst
  have hfail : ∀ (message : String) (w' : World), (Proc.ret (.error message, m) : Proc Call
      (Except String RepairResult × ObjectManifest)).Ensures (machine cfg.providers) ok w'
        fun r _ => ∀ res, r.1 = .ok res → (verifyPiece cfg res.body p).passed = true :=
    fun message w' res h => absurd h (by simp)
  unfold repair
  rw [hzero]
  simp only
  split
  · exact hfail _ _
  split
  · exact hfail _ _
  split
  · exact hfail _ _
  refine ensures_getPiece p.addr (fun e => hfail _ _) fun body _ => ?_
  have hstored : ∀ w', (verifyPiece cfg body p).passed = true →
      (storeRepaired key m 0 p body).Ensures (machine cfg.providers) ok w' fun r _ =>
        ∀ res, r.1 = .ok res → (verifyPiece cfg res.body p).passed = true := by
    intro w' hpassed x _
    cases ((machine cfg.providers).exec x (.putPiece ⟨m.repairTarget p, p.pieceID⟩ body) w').1 with
    | error e => exact hfail _ _
    | ok put => ?_
    intro y _
    generalize ((machine cfg.providers).exec y (.manifestPut key _) _) = stored
    cases stored.1 with
    | error e => exact hfail _ _
    | ok _ =>
      intro res h
      rw [← Except.ok.inj h]
      exact hpassed
  simp only
  cases hverify : verifyPiece cfg body p with
  | failed message => exact hfail _ _
  | verified | unrecognized => exact hstored w (by rw [hverify]; rfl)

def ReadOrRepaired (cfg : Config) (w : World) (p : Piece) (range : Option ByteRange) (w' : World)
    (body : Bytes) (preVerified : Bool) : Prop :=
  (preVerified = false ∧ w' = w ∧ ∃ whole, w.pieces.lookup p.addr = some whole ∧
    Cuts range whole body) ∨
  (preVerified = true ∧ ∃ whole, (verifyPiece cfg whole p).passed = true ∧ Cuts range whole body)

theorem getOrRepair_reads (hfirst : m.pieces.head? = some p) :
    (getOrRepair cfg key m p range).Ensures (machine cfg.providers) ok w fun r w' =>
      ∀ body preVerified, r.1 = .ok (body, preVerified) →
        ReadOrRepaired cfg w p range w' body preVerified := by
  apply (getRange_cuts p.addr).seq
  rintro r w' ⟨rfl, hread⟩
  cases r with
  | ok body =>
    intro body' preVerified h
    have hpair := Prod.mk.inj (Except.ok.inj h)
    rw [← hpair.1, ← hpair.2]
    exact Or.inl ⟨rfl, rfl, hread body rfl⟩
  | error e => ?_
  apply Proc.Ensures.bind
  unfold tryReadRepair
  split
  · exact fun body preVerified h => absurd h (by simp)
  apply (repair_passed hfirst).seq
  rintro ⟨r, m'⟩ w'' hpassed
  cases r with
  | error message => exact fun body preVerified h => absurd h (by simp)
  | ok res => ?_
  have hres := hpassed res rfl
  cases range with
  | none =>
    intro body preVerified h
    have hpair := Prod.mk.inj (Except.ok.inj h)
    rw [← hpair.1, ← hpair.2]
    exact Or.inr ⟨rfl, res.body, hres, rfl⟩
  | some range => ?_
  simp only
  cases hslice : range.slice res.body with
  | none => exact fun body preVerified h => absurd h (by simp)
  | some part => ?_
  intro body preVerified h
  have hpair := Prod.mk.inj (Except.ok.inj h)
  rw [← hpair.1, ← hpair.2]
  exact Or.inr ⟨rfl, res.body, hres, hslice⟩

/-! ## 4. Reading past the cache -/

variable {cc : CacheConfig} {s : CachedWorld}

theorem cachedBody_reads (pieceID : String) :
    (Cached.cachedBody cc pieceID).Ensures (cachedMachine cfg cc) ok s fun r s' =>
      s'.world = s.world ∧ s'.warming = s.warming ∧
      (∀ body, r = some body → ∃ e ∈ s.cache.entries, e.pieceID = pieceID ∧ e.body = body) ∧
      (r = none → cc.hasCache = true → ∃ now, (s.cache.get now pieceID).1 = none) := by
  unfold Cached.cachedBody
  split
  · intro x _
    refine ⟨rfl, rfl, fun body h => MemoryCache.body_of_get h, fun h _ => ⟨x.now, h⟩⟩
  · rename_i hoff
    exact ⟨rfl, rfl, fun body h => absurd h (by simp), fun _ hon => absurd hon hoff⟩

def OverBudget (cc : CacheConfig) (s : CachedWorld) (size : Int) : Prop :=
  ∃ budget, cc.warmBudget = some budget ∧ (budget < size ∨ budget < s.warming + size)

theorem acquireBudget_admits (size : Int) :
    (Cached.acquireBudget cc size).Ensures (cachedMachine cfg cc) ok s fun r s' =>
      s'.world = s.world ∧ (r = false → OverBudget cc s size) := by
  unfold Cached.acquireBudget
  split
  · exact ⟨rfl, fun h => absurd h (by simp)⟩
  rename_i budget hbudget
  split
  · rename_i hlarge
    exact ⟨rfl, fun _ => ⟨budget, hbudget, Or.inl hlarge⟩⟩
  intro x _
  refine ⟨CachedWorld.exec_world cc x _ s, fun h => ?_⟩
  change (CachedWorld.exec cc x (.tryAcquire size) s).1 = false at h
  unfold CachedWorld.exec at h
  simp only [hbudget, Option.getD_some] at h
  split at h
  · exact absurd h (by simp)
  · rename_i hfull
    exact ⟨budget, hbudget, Or.inr (by omega)⟩

theorem signalPromotion_world (tenantID : String) (readBytes size : Int) :
    (Cached.signalPromotion cc p tenantID readBytes size).Ensures (cachedMachine cfg cc) ok s
      fun _ s' => s'.world = s.world := by
  unfold Cached.signalPromotion
  split
  · intro x _ y _
    have hnow : ((machine cfg.providers).exec x .now s.world).2 = s.world :=
      exec_of_consults (by trivial) x s.world
    exact (CachedWorld.exec_world cc y _ _).trans hnow
  · rfl

theorem warmPiece_cuts (buf : Bytes) (preVerified : Bool) :
    (Cached.warmPiece cfg cc p range buf preVerified).Ensures (cachedMachine cfg cc) ok s
      fun r _ => ∀ body, r = .ok body → Cuts range buf body ∧
        (preVerified = false → (verifyPiece cfg buf p).passed = true) := by
  have hserved : (preVerified = false → (verifyPiece cfg buf p).passed = true) →
      (if cc.hasCache then do
        let _ ← ask (Sum.inr (.put p.pieceID buf { sizeBytes := buf.length, hash := p.hash }))
        return sliceOr range p buf
      else return sliceOr range p buf : Proc CacheCall _).Ensures (cachedMachine cfg cc) ok s
        fun r _ => ∀ body, r = .ok body → Cuts range buf body ∧
          (preVerified = false → (verifyPiece cfg buf p).passed = true) := by
    intro hpassed
    split
    · exact fun x _ body h => ⟨cuts_of_sliceOr h, hpassed⟩
    · exact fun body h => ⟨cuts_of_sliceOr h, hpassed⟩
  unfold Cached.warmPiece
  cases preVerified with
  | true => exact hserved (by simp)
  | false => ?_
  cases hverify : verifyPiece cfg buf p with
  | failed message => exact fun body h => absurd h (by simp)
  | verified | unrecognized =>
    rw [hverify] at hserved
    exact hserved fun _ => rfl

theorem passOn_cuts (buf : Bytes) (preVerified : Bool) :
    (Cached.passOn p range buf preVerified).Ensures (machine cfg.providers) ok w fun r _ =>
      ∀ body, r = .ok body → Cuts range buf body ∨ (preVerified = false ∧
        ∃ whole, w.pieces.lookup p.addr = some whole ∧ Cuts range whole body) := by
  unfold Cached.passOn
  split
  · exact fun body h => Or.inl (Except.ok.inj h).symm
  · rename_i r
    intro body h
    cases hslice : r.slice buf with
    | none =>
      rw [hslice] at h
      exact absurd h (by simp)
    | some part =>
      rw [hslice] at h
      rw [← Except.ok.inj h]
      exact Or.inl hslice
  · rename_i r
    apply (getRange_cuts p.addr).seq
    rintro a w' ⟨rfl, hread⟩
    cases a with
    | error e => exact fun body h => absurd h (by simp)
    | ok part =>
      intro body h
      rw [← Except.ok.inj h]
      exact Or.inr ⟨rfl, hread part rfl⟩

/-! ## 5. The specification -/

/-- The one way in which other bytes are read: nothing is cached, the piece is too large to buffer or
over the budget, and what the backend holds does not match the hash. -/
structure PassedUnchecked (cfg : Config) (cc : CacheConfig) (s : CachedWorld) (m : ObjectManifest)
    (p : Piece) (range : Option ByteRange) (body : Bytes) : Prop where
  missed : cc.hasCache = true → ∃ now, (s.cache.get now p.pieceID).1 = none
  unchecked : maxInMemoryObjectBytes < Cached.pieceSize m p ∨ OverBudget cc s (Cached.pieceSize m p)
  altered : ∃ whole, s.world.pieces.lookup p.addr = some whole ∧
    verifyPiece cfg whole p ≠ .verified ∧ Cuts range whole body

/-- What a read of a piece with this content may return. -/
def Fetched (cfg : Config) (cc : CacheConfig) (s : CachedWorld) (m : ObjectManifest) (p : Piece)
    (range : Option ByteRange) (content : Bytes) (r : Except FetchError Bytes) : Prop :=
  ∀ body, r = .ok body → body = requested range content ∨ PassedUnchecked cfg cc s m p range body

/-- A piece with the body that its recorded hash admits, and a range within that body. -/
structure CertifiedPiece (cfg : Config) (m : ObjectManifest) (p : Piece) (content : Bytes)
    (range : Option ByteRange) : Prop where
  first : m.pieces.head? = some p
  recorded : p.hash ≠ ""
  certified : verifyPiece cfg content p = .verified
  valid : ∀ r, range = some r → r.Valid content.length

section

variable {content : Bytes} (hinj : InjectiveHashes cfg)
  (hpiece : CertifiedPiece cfg m p content range)
include hinj hpiece

theorem CertifiedPiece.eq_requested {whole body : Bytes}
    (hpassed : (verifyPiece cfg whole p).passed = true) (hcuts : Cuts range whole body) :
    body = requested range content := by
  have hverified := verified_of_passed hpiece.recorded hpiece.certified hpassed
  rw [verified_unique hinj hpiece.recorded hpiece.certified hverified] at hcuts
  exact hcuts.requested hpiece.valid

section

variable (hmissed : cc.hasCache = true → ∃ now, (s.cache.get now p.pieceID).1 = none)
include hmissed

section

variable (hunchecked : maxInMemoryObjectBytes < Cached.pieceSize m p ∨ OverBudget cc s (Cached.pieceSize m p))
include hunchecked

theorem CertifiedPiece.eq_requested_or {whole body : Bytes}
    (hfound : s.world.pieces.lookup p.addr = some whole) (hcuts : Cuts range whole body) :
    body = requested range content ∨ PassedUnchecked cfg cc s m p range body := by
  by_cases hverified : verifyPiece cfg whole p = .verified
  · refine Or.inl (hpiece.eq_requested hinj ?_ hcuts)
    rw [hverified]
    rfl
  · exact Or.inr ⟨hmissed, hunchecked, whole, hfound, hverified, hcuts⟩

theorem ReadOrRepaired.fetched {w' : World} {buf : Bytes} {preVerified : Bool}
    (hread : ReadOrRepaired cfg s.world p range w' buf preVerified) :
    Fetched cfg cc s m p range content (.ok buf) := by
  intro body hbody
  rw [← Except.ok.inj hbody]
  rcases hread with ⟨-, -, whole, hfound, hcuts⟩ | ⟨-, whole, hgood, hcuts⟩
  · exact hpiece.eq_requested_or hinj hmissed hunchecked hfound hcuts
  · exact Or.inl (hpiece.eq_requested hinj hgood hcuts)

end

end

theorem serveWhole_reads (tenantID : String) (s' : CachedWorld)
    (hmissed : cc.hasCache = true → ∃ now, (s.cache.get now p.pieceID).1 = none)
    (hwarming : s'.warming = s.warming) {buf : Bytes} {preVerified : Bool}
    (hread : ReadOrRepaired cfg s.world p none s'.world buf preVerified) :
    (Cached.serveWhole cfg cc tenantID p range (Cached.pieceSize m p) buf preVerified).Ensures
      (cachedMachine cfg cc) ok s' fun r _ => Fetched cfg cc s m p range content r := by
  apply (acquireBudget_admits _).seq
  rintro admitted s₂ ⟨hworld₂, hover⟩
  cases admitted with
  | true =>
    -- buffered, and checked unless a repair has done that
    apply (warmPiece_cuts buf preVerified).seq
    intro served s₃ hserved
    apply Proc.Ensures.bind
    refine Proc.Ensures.of_forall fun _ _ body hbody => ?_
    rcases hserved body hbody with ⟨hcuts, hchecked⟩
    rcases hread with ⟨hfresh, -, -⟩ | ⟨-, whole, hgood, hwhole⟩
    · exact Or.inl (hpiece.eq_requested hinj (hchecked hfresh) hcuts)
    · rw [show buf = whole from hwhole] at hcuts
      exact Or.inl (hpiece.eq_requested hinj hgood hcuts)
  | false => ?_
  have hunchecked : maxInMemoryObjectBytes < Cached.pieceSize m p ∨
      OverBudget cc s (Cached.pieceSize m p) := by
    have hroom := hover rfl
    unfold OverBudget at hroom
    rw [hwarming] at hroom
    exact Or.inr hroom
  apply (signalPromotion_world tenantID _ _).seq
  intro _ s₃ hworld₃
  apply onStores_ensures
  rw [hworld₃, hworld₂]
  apply (passOn_cuts buf preVerified).mono
  intro r w₃ hpart body hbody
  rcases hread with ⟨-, hsame, whole, hfound, hcuts⟩ | ⟨hrepaired, whole, hgood, hwhole⟩
  · rw [show buf = whole from hcuts, hsame] at hpart
    rcases hpart body hbody with hdirect | ⟨-, whole', hfound', hagain⟩
    · exact hpiece.eq_requested_or hinj hmissed hunchecked hfound hdirect
    · exact hpiece.eq_requested_or hinj hmissed hunchecked hfound' hagain
  · rcases hpart body hbody with hdirect | ⟨hfresh, -⟩
    · rw [show buf = whole from hwhole] at hdirect
      exact Or.inl (hpiece.eq_requested hinj hgood hdirect)
    · exact absurd (hfresh.symm.trans hrepaired) (by simp)

theorem fetchPiece_reads (tenantID : String)
    (hcache : ∀ e ∈ s.cache.entries, e.pieceID = p.pieceID → verifyPiece cfg e.body p = .verified) :
    (Cached.fetchPiece cfg cc tenantID key m p range).Ensures (cachedMachine cfg cc) ok s
      fun r _ => Fetched cfg cc s m p range content r.1 := by
  apply (cachedBody_reads p.pieceID).seq
  rintro cached s₁ ⟨hworld, hwarming, hhit, hmissed⟩
  cases cached with
  | some cached =>
    -- a hit is cut without a second check
    intro body hbody
    rcases hhit cached rfl with ⟨e, he, hid, rfl⟩
    refine Or.inl (hpiece.eq_requested hinj ?_ (cuts_of_sliceOr hbody))
    rw [hcache e he hid]
    rfl
  | none => ?_
  have hmissed := hmissed rfl
  apply Proc.Ensures.bind
  apply onStores_ensures
  rw [hworld]
  apply (getOrRepair_reads hpiece.first).mono
  rintro ⟨read, m'⟩ w' hread
  cases read with
  | error e => exact fun body h => absurd h (by simp)
  | ok found => ?_
  rcases found with ⟨buf, preVerified⟩
  have hread := hread buf preVerified rfl
  by_cases hfull : range.isNone = true ∨
      p.hash ≠ "" ∧ Cached.pieceSize m p ≤ maxInMemoryObjectBytes
  · simp only [hfull, not_true_eq_false, if_true, if_false] at hread ⊢
    by_cases hlarge : maxInMemoryObjectBytes < Cached.pieceSize m p
    · -- too large to buffer, so the whole piece was asked for
      have hwhole : range = none := by
        rcases hfull with hnone | hfits
        · exact Option.isNone_iff_eq_none.mp hnone
        · omega
      rw [← hwhole] at hread
      have hdone := hread.fetched hinj hpiece hmissed (Or.inl hlarge)
      rw [if_pos hlarge]
      split
      · exact Proc.Ensures.bind (Proc.Ensures.of_forall fun _ _ => hdone)
      · exact hdone
    · rw [if_neg hlarge]
      apply Proc.Ensures.bind
      apply (serveWhole_reads hinj hpiece tenantID { s₁ with world := w' } hmissed hwarming
        hread).mono
      exact fun r s' hr => hr
  · -- a range of a piece that is too large to buffer
    simp only [hfull, not_false_eq_true, if_true, if_false] at hread ⊢
    have hlarge : maxInMemoryObjectBytes < Cached.pieceSize m p := by
      by_contra hfits
      exact hfull (Or.inr ⟨hpiece.recorded, by omega⟩)
    have hdone := hread.fetched hinj hpiece hmissed (Or.inl hlarge)
    cases range with
    | none => exact hdone
    | some r => exact Proc.Ensures.bind (Proc.Ensures.of_forall fun _ _ => hdone)

end

/-- Every read of a piece yields the requested part of the body that its hash admits, unless it is
passed on unchecked from a backend that has altered it. -/
theorem fetchPiece_yields_requested {content : Bytes} (hinj : InjectiveHashes cfg)
    (hpiece : CertifiedPiece cfg m p content range)
    (hcache : ∀ e ∈ s.cache.entries, e.pieceID = p.pieceID → verifyPiece cfg e.body p = .verified)
    (tenantID : String) (x : Nat → Choice) {body : Bytes}
    (hrun : ((Cached.fetchPiece cfg cc tenantID key m p range).run (cachedMachine cfg cc) x []
      s).1.1 = .ok body) :
    body = requested range content ∨ PassedUnchecked cfg cc s m p range body := by
  have hreads : (Cached.fetchPiece cfg cc tenantID key m p range).Ensures (cachedMachine cfg cc)
      (fun _ => True) s fun r _ => Fetched cfg cc s m p range content r.1 :=
    fetchPiece_reads hinj hpiece tenantID hcache
  exact hreads.run (fun _ => trivial) [] body hrun

end

/-! ## 6. Over the budget -/

def digestAb : Bytes :=
  [0x2d, 0xc9, 0x99, 0x99, 0xa6, 0xaa, 0xef, 0x3f, 0x20, 0x34, 0x9d, 0x2e, 0xd4, 0x05, 0x7a, 0x2b,
    0x54, 0x41, 0x95, 0x45, 0xda, 0xbb, 0x80, 0x9e, 0x63, 0x81, 0xde, 0x1b, 0xad, 0x83, 0x37, 0xe2]

def digestAc : Bytes :=
  [0x4c, 0x0d, 0x05, 0xaa, 0xb3, 0x7a, 0xe9, 0x64, 0xce, 0x92, 0x25, 0x52, 0xa2, 0x3a, 0xfe, 0xc4,
    0x73, 0xb7, 0x2e, 0x18, 0x00, 0x6b, 0x1c, 0x29, 0xef, 0x1e, 0xf8, 0x9c, 0x51, 0x4a, 0x76, 0xbb]

/-- An injective function that is BLAKE3 on the bodies `ab` and `ac`. -/
def fetchBlake3 (b : Bytes) : Bytes :=
  Equiv.swap [97, 98] digestAb (Equiv.swap [97, 99] digestAc b)

def fetchGateway : Config :=
  { sampleGateway with blake3 := fetchBlake3, sha256BodyHex := hexEncode }

theorem fetchGateway_injective : InjectiveHashes fetchGateway :=
  ⟨(Equiv.injective _).comp (Equiv.injective _), hexEncode_injective⟩

/-- A piece that was stored with the body `ab`. -/
def fetchedPiece : Piece :=
  { pieceID := "piece", backend := "backend", sizeBytes := 2,
    hash := "blake3:2dc99999a6aaef3f20349d2ed4057a2b54419545dabb809e6381de1bad8337e2" }

def fetchedObject : ObjectManifest :=
  { sampleManifest "v1" with objectSize := 2, pieces := [fetchedPiece] }

def budgetOf (bytes : Int) : CacheConfig := { warmBudget := some bytes, hasPublisher := false }

/-- An empty cache, and a backend that holds these bytes for the piece by now. -/
def fetchWorld (bytes : Bytes) : CachedWorld :=
  { world := { sampleWorld with
      pieces := (∅ : FMap PieceAddr Bytes).insert ⟨"backend", "piece"⟩ bytes } }

def fetchRun (budget : Int) (bytes : Bytes) : Except FetchError Bytes :=
  ((Cached.fetchPiece fetchGateway (budgetOf budget) "tenant" (sampleKey "v1") fetchedObject
    fetchedPiece (some ⟨1, 1⟩)).run (cachedMachine fetchGateway (budgetOf budget)) (fun _ => {}) []
      (fetchWorld bytes)).1.1

theorem fetchedPiece_certified :
    CertifiedPiece fetchGateway fetchedObject fetchedPiece [97, 98] (some ⟨1, 1⟩) := by
  refine ⟨rfl, by decide, by decide +kernel, fun r hr => ?_⟩
  rw [← Option.some.inj hr]
  decide

/-- The second byte has been altered and the piece is over the budget: its reader gets what is there
now. -/
theorem altered_byte_served : InjectiveHashes fetchGateway ∧
    CertifiedPiece fetchGateway fetchedObject fetchedPiece [97, 98] (some ⟨1, 1⟩) ∧
      (fetchWorld [97, 99]).cache.entries = [] ∧ fetchRun 1 [97, 99] = .ok [99] ∧
      [99] ≠ requested (some ⟨1, 1⟩) [97, 98] := by
  refine ⟨fetchGateway_injective, fetchedPiece_certified, rfl, ?_, by decide⟩
  decide +kernel

/-- With a budget that admits the piece its second byte is read. -/
theorem second_byte_read : [98] = requested (some ⟨1, 1⟩) [97, 98] ∨
    PassedUnchecked fetchGateway (budgetOf 2) (fetchWorld [97, 98]) fetchedObject fetchedPiece
      (some ⟨1, 1⟩) [98] := by
  have hrun : fetchRun 2 [97, 98] = .ok [98] := by decide +kernel
  refine fetchPiece_yields_requested fetchGateway_injective fetchedPiece_certified ?_ "tenant"
    (fun _ => {}) hrun
  exact fun e he => absurd he (by simp [fetchWorld, MemoryCache.entries])

end ObjectFabric
