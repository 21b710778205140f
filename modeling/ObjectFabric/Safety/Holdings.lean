import ObjectFabric.Gateway.World

/-!
# Holdings — what requests in flight have in hand of the deduplicated pieces

Between its calls a request may have written a piece that nothing names yet, counted itself into an
index row, or be about to delete pieces.  `DedupInv` relates the stores to the holdings of all
requests: the count of a row covers the manifests and the requests that rely on it, and a piece that
somebody owns or is about to delete is named by no row.
-/

namespace ObjectFabric

open Interleaving

inductive Hold where
  /-- A piece it has written and not published. -/
  | own (a : PieceAddr)
  /-- A reference counted into the row `k`, for the pieces `as` of that row. -/
  | counted (k : IndexKey) (as : List PieceAddr)
  /-- Its own piece, and a reference into the row `k` that was registered before it could. -/
  | raced (k : IndexKey) (a : PieceAddr)
  /-- It has given back the last reference of row `k` and will try to delete the row. -/
  | last (k : IndexKey) (as : List PieceAddr)
  /-- Pieces it will delete. -/
  | doomed (as : List PieceAddr)
  deriving DecidableEq, Repr

variable {t : Hold} {a : PieceAddr}

namespace Hold

def mentions (a : PieceAddr) : Hold → Bool
  | .own b | .raced _ b => b = a
  | .counted _ as | .last _ as | .doomed as => a ∈ as

def owns (a : PieceAddr) : Hold → Bool
  | .own b | .raced _ b => b = a
  | _ => false

def counts (k : IndexKey) : Hold → Bool
  | .counted k' _ | .raced k' _ => k' = k
  | _ => false

theorem mentions_of_owns (h : t.owns a = true) :
    t.mentions a = true := by
  cases t with
  | own | raced => exact h
  | _ => exact absurd h (by simp [owns])

end Hold

def ObjectManifest.addrs (m : ObjectManifest) : List PieceAddr := m.pieces.map Piece.addr

namespace World

def Stored (w : World) (a : PieceAddr) : Prop := (w.pieces.lookup a).isSome = true

instance (w : World) (a : PieceAddr) : Decidable (w.Stored a) :=
  inferInstanceAs (Decidable (_ = true))

def RowNames (w : World) (k : IndexKey) (a : PieceAddr) : Prop :=
  ∃ e, w.index.rows.lookup k = some e ∧ a ∈ e.addrs

structure Free (w : World) (a : PieceAddr) : Prop where
  rows : ∀ k, ¬ w.RowNames k a
  manifests : ∀ mk m, w.manifests.byKey.lookup mk = some m → a ∉ m.addrs

/-- Does the manifest stored under `mk` count into the row `k`? -/
def refersTo (k : IndexKey) (mk : ManifestKey) (m : ObjectManifest) : Bool :=
  m.contentHash ≠ "" && (mk.tenantID = k.tenantID && m.contentHash = k.contentHash)

def references (w : World) (k : IndexKey) : Nat := FMap.count (refersTo k) w.manifests.byKey

end World

def Hold.Valid (w : World) : Hold → Prop
  | .own a => w.Free a ∧ w.Stored a
  | .counted k as => ∃ e, w.index.rows.lookup k = some e ∧ ∀ a ∈ as, a ∈ e.addrs
  | .raced k a => (w.index.rows.lookup k).isSome = true ∧ w.Free a ∧ w.Stored a
  | .last k as => ∀ a ∈ as, ∀ k', w.RowNames k' a → k' = k
  | .doomed as => ∀ a ∈ as, ∀ k, ¬ w.RowNames k a

structure DedupInv (w : World) (T : Multiset Hold) : Prop where
  hashed : ∀ mk m, w.manifests.byKey.lookup mk = some m → m.contentHash ≠ "" →
    ∃ e, w.index.rows.lookup ⟨mk.tenantID, m.contentHash⟩ = some e ∧ ∀ a ∈ m.addrs, a ∈ e.addrs
  plain : ∀ mk m, w.manifests.byKey.lookup mk = some m → m.contentHash = "" →
    ∀ a ∈ m.addrs, ∀ k, ¬ w.RowNames k a
  backed : ∀ k a, w.RowNames k a → w.Stored a
  apart : ∀ k k' a, w.RowNames k a → w.RowNames k' a → k = k'
  counted : ∀ k e, w.index.rows.lookup k = some e →
    (w.references k : Int) + T.countP (Hold.counts k ·) ≤ e.refCount
  valid : ∀ t ∈ T, t.Valid w
  alone : ∀ t ∈ T, ∀ a, t.owns a = true → T.countP (Hold.mentions a ·) ≤ 1

namespace DedupInv

variable {w : World} {T R : Multiset Hold}

/-! ## 1. Giving up and gaining a holding -/

theorem anti (hw : DedupInv w T) (hle : R ≤ T) : DedupInv w R := by
  constructor
  · exact hw.hashed
  · exact hw.plain
  · exact hw.backed
  · exact hw.apart
  · intro k e he
    have hT := hw.counted k e he
    have hcount := Multiset.countP_le_of_le (Hold.counts k ·) hle
    omega
  · exact fun t ht => hw.valid t (Multiset.mem_of_le hle ht)
  · intro t ht a ha
    have hT := hw.alone t (Multiset.mem_of_le hle ht) a ha
    have hcount := Multiset.countP_le_of_le (Hold.mentions a ·) hle
    omega

theorem unmentioned (hw : DedupInv w (t ::ₘ R)) (ht : t.owns a = true) :
    ∀ s ∈ R, s.mentions a = false := by
  intro s hs
  by_contra hment
  have hone := hw.alone t (Multiset.mem_cons_self t R) a ht
  rw [Multiset.countP_cons, if_pos (Hold.mentions_of_owns ht)] at hone
  have hpos : 0 < R.countP (Hold.mentions a ·) :=
    Multiset.countP_pos_of_mem hs (by simpa using hment)
  omega

theorem disowned (hw : DedupInv w (t ::ₘ R))
    (ht : t.mentions a = true) : ∀ s ∈ R, s.owns a = false := by
  intro s hs
  by_contra hown
  have hs' : s.owns a = true := by simpa using hown
  have hone := hw.alone s (Multiset.mem_cons_of_mem hs) a hs'
  rw [Multiset.countP_cons, if_pos ht] at hone
  have hpos : 0 < R.countP (Hold.mentions a ·) :=
    Multiset.countP_pos_of_mem hs (Hold.mentions_of_owns hs')
  omega

theorem add (hw : DedupInv w R) (ht : t.Valid w)
    (hcount : ∀ k, t.counts k = true → ∀ e, w.index.rows.lookup k = some e →
      (w.references k : Int) + R.countP (Hold.counts k ·) + 1 ≤ e.refCount)
    (howned : ∀ s ∈ R, ∀ a, s.owns a = true → t.mentions a = false)
    (hfresh : ∀ a, t.owns a = true → ∀ s ∈ R, s.mentions a = false) : DedupInv w (t ::ₘ R) := by
  constructor
  · exact hw.hashed
  · exact hw.plain
  · exact hw.backed
  · exact hw.apart
  · intro k e he
    rw [Multiset.countP_cons]
    by_cases hk : t.counts k = true
    · rw [if_pos hk]
      have hslack := hcount k hk e he
      omega
    · rw [if_neg hk]
      have hold := hw.counted k e he
      omega
  · intro s hs
    rcases Multiset.mem_cons.mp hs with rfl | hs
    · exact ht
    · exact hw.valid s hs
  · intro s hs a ha
    rcases Multiset.mem_cons.mp hs with rfl | hs
    · rw [Multiset.countP_cons, if_pos (Hold.mentions_of_owns ha)]
      have hzero : R.countP (Hold.mentions a ·) = 0 := by
        rw [Multiset.countP_eq_zero]
        intro s' hs'
        simp [hfresh a ha s' hs']
      omega
    · rw [Multiset.countP_cons, if_neg (by simp [howned s hs a ha])]
      have hone := hw.alone s hs a ha
      omega

end DedupInv

variable {k : IndexKey} {e : ContentIndexEntry} {mk : ManifestKey} {m : ObjectManifest}

/-! ## 2. Changes of the stores -/

section

variable {w w' : World} {R : Multiset Hold}

/-- A holding outlives a change that keeps the rows it counts into, names no piece it mentions, and
leaves the pieces it owns alone. -/
theorem Hold.Valid.transfer (ht : t.Valid w)
    (hrow : ∀ k, t.counts k = true → ∀ e, w.index.rows.lookup k = some e →
      ∃ e', w'.index.rows.lookup k = some e' ∧ e'.addrs = e.addrs)
    (hnames : ∀ a k, t.mentions a = true → w'.RowNames k a → w.RowNames k a)
    (hfree : ∀ a, t.owns a = true → w.Free a → w.Stored a → w'.Free a ∧ w'.Stored a) :
    t.Valid w' := by
  cases t with
  | own a => exact hfree a (by simp [Hold.owns]) ht.1 ht.2
  | counted k as =>
    rcases ht with ⟨e, he, has⟩
    rcases hrow k (by simp [Hold.counts]) e he with ⟨e', he', haddrs⟩
    rw [← haddrs] at has
    exact ⟨e', he', has⟩
  | raced k a =>
    rcases ht with ⟨hsome, hfree', hstored⟩
    rcases Option.isSome_iff_exists.mp hsome with ⟨e, he⟩
    rcases hrow k (by simp [Hold.counts]) e he with ⟨e', he', -⟩
    refine ⟨?_, hfree a (by simp [Hold.owns]) hfree' hstored⟩
    rw [he']
    rfl
  | last k as => exact fun a ha k' hk' => ht a ha k' (hnames a k' (by simpa [Hold.mentions]) hk')
  | doomed as => exact fun a ha k hk => ht a ha k (hnames a k (by simpa [Hold.mentions]) hk)

theorem World.Stored.insertPiece (ha : w.Stored a) (b : PieceAddr) (body : Bytes) :
    World.Stored { w with pieces := w.pieces.insert b body } a := by
  unfold World.Stored
  rw [FMap.lookup_insert_ite]
  split
  · rfl
  · exact ha

theorem World.Stored.deletePiece {a b : PieceAddr} (ha : w.Stored a) (hne : a ≠ b) :
    (w.deletePiece b).Stored a := by
  unfold World.Stored World.deletePiece
  rw [FMap.lookup_erase_ite, if_neg hne]
  exact ha

section

variable (hw : DedupInv w R)
include hw

theorem DedupInv.insertPiece (a : PieceAddr) (body : Bytes) :
    DedupInv { w with pieces := w.pieces.insert a body } R := by
  constructor
  · exact hw.hashed
  · exact hw.plain
  · exact fun k b hb => (hw.backed k b hb).insertPiece a body
  · exact hw.apart
  · exact hw.counted
  · intro t ht
    apply (hw.valid t ht).transfer
    · exact fun k _ e he => ⟨e, he, rfl⟩
    · exact fun b k _ hb => hb
    · exact fun b _ hfree hb => ⟨⟨hfree.rows, hfree.manifests⟩, hb.insertPiece a body⟩
  · exact hw.alone

theorem DedupInv.erasePiece (hrows : ∀ k, ¬ w.RowNames k a) (hown : ∀ t ∈ R, t.owns a = false) :
    DedupInv { w with pieces := w.pieces.erase a } R := by
  constructor
  · exact hw.hashed
  · exact hw.plain
  · intro k b hb
    apply (hw.backed k b hb).deletePiece
    rintro rfl
    exact hrows k hb
  · exact hw.apart
  · exact hw.counted
  · intro t ht
    apply (hw.valid t ht).transfer
    · exact fun k _ e he => ⟨e, he, rfl⟩
    · exact fun b k _ hb => hb
    · intro b hb hfree hbstored
      refine ⟨⟨hfree.rows, hfree.manifests⟩, hbstored.deletePiece ?_⟩
      rintro rfl
      rw [hown t ht] at hb
      exact absurd hb (by decide)
  · exact hw.alone

omit hw in
theorem rowNames_setCount (n : Int)
    (he : w.index.rows.lookup k = some e) (k' : IndexKey) (a : PieceAddr) :
    World.RowNames { w with index := w.index.set { e with refCount := n } } k' a ↔
      w.RowNames k' a := by
  have hkey : ContentIndexEntry.key { e with refCount := n } = k := w.index.keyed k e he
  unfold World.RowNames
  rw [ContentIndex.lookup_set, hkey]
  by_cases hk : k' = k
  · rw [if_pos hk, hk, he]
    simp [ContentIndexEntry.addrs, ContentIndexEntry.addr]
  · rw [if_neg hk]

theorem DedupInv.setCount {n : Int} (he : w.index.rows.lookup k = some e)
    (hn : (w.references k : Int) + R.countP (Hold.counts k ·) ≤ n) :
    DedupInv { w with index := w.index.set { e with refCount := n } } R := by
  have hkey : ContentIndexEntry.key { e with refCount := n } = k := w.index.keyed k e he
  have hnames := rowNames_setCount n he
  -- every row is still there, under the same pieces
  have hrow : ∀ k' e', w.index.rows.lookup k' = some e' → ∃ e'',
      (w.index.set { e with refCount := n }).rows.lookup k' = some e'' ∧
        e''.addrs = e'.addrs := by
    intro k' e' he'
    rw [ContentIndex.lookup_set, hkey]
    by_cases hk : k' = k
    · rw [hk, he] at he'
      rw [if_pos hk, ← Option.some.inj he']
      exact ⟨_, rfl, rfl⟩
    · rw [if_neg hk]
      exact ⟨e', he', rfl⟩
  constructor
  · intro mk m hm hhash
    rcases hw.hashed mk m hm hhash with ⟨e', he', haddrs⟩
    rcases hrow _ e' he' with ⟨e'', he'', hsame⟩
    rw [← hsame] at haddrs
    exact ⟨e'', he'', haddrs⟩
  · exact fun mk m hm hhash a ha k' hk' => hw.plain mk m hm hhash a ha k' ((hnames k' a).mp hk')
  · exact fun k' a hk' => hw.backed k' a ((hnames k' a).mp hk')
  · exact fun k' k'' a h' h'' => hw.apart k' k'' a ((hnames k' a).mp h') ((hnames k'' a).mp h'')
  · intro k' e' he'
    change (w.index.set { e with refCount := n }).rows.lookup k' = some e' at he'
    rw [ContentIndex.lookup_set, hkey] at he'
    by_cases hk : k' = k
    · rw [if_pos hk] at he'
      rw [← Option.some.inj he', hk]
      exact hn
    · rw [if_neg hk] at he'
      exact hw.counted k' e' he'
  · intro t ht
    apply (hw.valid t ht).transfer
    · exact fun k' _ e' he' => hrow k' e' he'
    · exact fun a k' _ hk' => (hnames k' a).mp hk'
    · exact fun a _ hfree hstored =>
        ⟨⟨fun k' hk' => hfree.rows k' ((hnames k' a).mp hk'), hfree.manifests⟩, hstored⟩
  · exact hw.alone

theorem DedupInv.unreferenced (hnone : w.index.rows.lookup k = none) :
    w.references k = 0 ∧ ∀ t ∈ R, t.counts k = false := by
  constructor
  · apply FMap.count_eq_zero
    intro mk m hm
    by_contra hrefers
    simp only [Bool.not_eq_false, World.refersTo, Bool.and_eq_true, decide_eq_true_eq] at hrefers
    rcases hw.hashed mk m hm hrefers.1 with ⟨e, he, -⟩
    rw [hrefers.2.1, hrefers.2.2, hnone] at he
    exact absurd he (by simp)
  · intro t ht
    by_contra hcounts
    have hvalid := hw.valid t ht
    cases t with
    | counted k' as =>
      have hk : k' = k := by simpa [Hold.counts] using hcounts
      rcases hvalid with ⟨e, he, -⟩
      rw [hk, hnone] at he
      exact absurd he (by simp)
    | raced k' a =>
      have hk : k' = k := by simpa [Hold.counts] using hcounts
      have hsome := hvalid.1
      rw [hk, hnone] at hsome
      exact absurd hsome (by decide)
    | _ => simp [Hold.counts] at hcounts

omit hw in
theorem rowNames_register (hnone : w.index.rows.lookup e.key = none)
    (k : IndexKey) (a : PieceAddr) :
    World.RowNames { w with index := w.index.set e } k a ↔
      w.RowNames k a ∨ (k = e.key ∧ a ∈ e.addrs) := by
  unfold World.RowNames
  rw [ContentIndex.lookup_set]
  by_cases hk : k = e.key
  · rw [if_pos hk, hk, hnone]
    simp
  · rw [if_neg hk]
    simp [hk]

theorem DedupInv.registerRow (hnone : w.index.rows.lookup e.key = none) (hcount : 0 ≤ e.refCount)
    (hfree : ∀ a ∈ e.addrs, w.Free a ∧ w.Stored a)
    (hment : ∀ t ∈ R, ∀ a ∈ e.addrs, t.mentions a = false) :
    DedupInv { w with index := w.index.set e } R := by
  have hnames := rowNames_register hnone
  have hempty := hw.unreferenced hnone
  have hrow : ∀ k e', w.index.rows.lookup k = some e' →
      (w.index.set e).rows.lookup k = some e' := by
    intro k e' he'
    rw [ContentIndex.lookup_set, if_neg ?_]
    · exact he'
    · rintro rfl
      rw [hnone] at he'
      exact absurd he' (by simp)
  constructor
  · intro mk m hm hhash
    rcases hw.hashed mk m hm hhash with ⟨e', he', haddrs⟩
    exact ⟨e', hrow _ e' he', haddrs⟩
  · intro mk m hm hhash a ha k hk
    rcases (hnames k a).mp hk with hold | ⟨-, hnew⟩
    · exact hw.plain mk m hm hhash a ha k hold
    · exact (hfree a hnew).1.manifests mk m hm ha
  · intro k a hk
    rcases (hnames k a).mp hk with hold | ⟨-, hnew⟩
    · exact hw.backed k a hold
    · exact (hfree a hnew).2
  · intro k k' a hk hk'
    rcases (hnames k a).mp hk with hold | ⟨rfl, hnew⟩
    · rcases (hnames k' a).mp hk' with hold' | ⟨-, hnew'⟩
      · exact hw.apart k k' a hold hold'
      · exact absurd hold ((hfree a hnew').1.rows k)
    · rcases (hnames k' a).mp hk' with hold' | ⟨rfl, -⟩
      · exact absurd hold' ((hfree a hnew).1.rows k')
      · rfl
  · intro k e' he'
    change (w.index.set e).rows.lookup k = some e' at he'
    rw [ContentIndex.lookup_set] at he'
    by_cases hk : k = e.key
    · rw [if_pos hk] at he'
      rw [← Option.some.inj he', hk]
      have hrefs : w.references e.key = 0 := hempty.1
      have hflight : R.countP (Hold.counts e.key ·) = 0 := by
        rw [Multiset.countP_eq_zero]
        intro t ht
        simp [hempty.2 t ht]
      change (w.references e.key : Int) + _ ≤ _
      rw [hrefs, hflight]
      exact hcount
    · rw [if_neg hk] at he'
      exact hw.counted k e' he'
  · intro t ht
    have hsame : ∀ a k, t.mentions a = true →
        World.RowNames { w with index := w.index.set e } k a → w.RowNames k a := by
      intro a k ha hk
      rcases (hnames k a).mp hk with hold | ⟨-, hnew⟩
      · exact hold
      · rw [hment t ht a hnew] at ha
        exact absurd ha (by decide)
    apply (hw.valid t ht).transfer
    · exact fun k _ e' he' => ⟨e', hrow k e' he', rfl⟩
    · exact hsame
    · intro a ha hfree' hstored
      refine ⟨⟨fun k hk => ?_, hfree'.manifests⟩, hstored⟩
      exact hfree'.rows k (hsame a k (Hold.mentions_of_owns ha) hk)
  · exact hw.alone

theorem DedupInv.eraseRow (he : w.index.rows.lookup k = some e) (hzero : e.refCount ≤ 0) :
    DedupInv { w with index := w.index.erase k } R := by
  have hcount := hw.counted k e he
  have hrefs : w.references k = 0 := by omega
  have hflight : ∀ t ∈ R, t.counts k = false := by
    have hzero' : R.countP (Hold.counts k ·) = 0 := by omega
    intro t ht
    simpa using Multiset.countP_eq_zero.mp hzero' t ht
  have hnames : ∀ k' a, World.RowNames { w with index := w.index.erase k } k' a →
      w.RowNames k' a := by
    rintro k' a ⟨e', he', ha⟩
    change (w.index.erase k).rows.lookup k' = some e' at he'
    rw [ContentIndex.lookup_erase] at he'
    by_cases hk : k' = k
    · simp [hk] at he'
    · rw [if_neg hk] at he'
      exact ⟨e', he', ha⟩
  have hrow : ∀ k' e', k' ≠ k → w.index.rows.lookup k' = some e' →
      (w.index.erase k).rows.lookup k' = some e' := by
    intro k' e' hk he'
    rw [ContentIndex.lookup_erase, if_neg hk]
    exact he'
  constructor
  · intro mk m hm hhash
    rcases hw.hashed mk m hm hhash with ⟨e', he', haddrs⟩
    refine ⟨e', hrow _ e' ?_ he', haddrs⟩
    -- a manifest of this content would have been counted
    rintro rfl
    have hpos : 0 < w.references ⟨mk.tenantID, m.contentHash⟩ :=
      FMap.count_pos hm (by simp [World.refersTo, hhash])
    omega
  · exact fun mk m hm hhash a ha k' hk' => hw.plain mk m hm hhash a ha k' (hnames k' a hk')
  · exact fun k' a hk' => hw.backed k' a (hnames k' a hk')
  · exact fun k' k'' a h' h'' => hw.apart k' k'' a (hnames k' a h') (hnames k'' a h'')
  · intro k' e' he'
    change (w.index.erase k).rows.lookup k' = some e' at he'
    rw [ContentIndex.lookup_erase] at he'
    by_cases hk : k' = k
    · simp [hk] at he'
    · rw [if_neg hk] at he'
      exact hw.counted k' e' he'
  · intro t ht
    apply (hw.valid t ht).transfer
    · intro k' hk' e' he'
      refine ⟨e', hrow k' e' ?_ he', rfl⟩
      rintro rfl
      rw [hflight t ht] at hk'
      exact absurd hk' (by decide)
    · exact fun a k' _ hk' => hnames k' a hk'
    · exact fun a _ hfree hstored =>
        ⟨⟨fun k' hk' => hfree.rows k' (hnames k' a hk'), hfree.manifests⟩, hstored⟩
  · exact hw.alone

/-- Storing a manifest: one with a content hash needs a reference that nobody else uses, one
without must name pieces outside the index; neither names a piece that somebody owns. -/
theorem DedupInv.putManifest (hhashed : m.contentHash ≠ "" → ∃ e,
      w.index.rows.lookup ⟨mk.tenantID, m.contentHash⟩ = some e ∧ (∀ a ∈ m.addrs, a ∈ e.addrs) ∧
      (w.references ⟨mk.tenantID, m.contentHash⟩ : Int) +
        R.countP (Hold.counts ⟨mk.tenantID, m.contentHash⟩ ·) + 1 ≤ e.refCount)
    (hplain : m.contentHash = "" → ∀ a ∈ m.addrs, ∀ k, ¬ w.RowNames k a)
    (hown : ∀ t ∈ R, ∀ a, t.owns a = true → a ∉ m.addrs) :
    DedupInv { w with manifests := w.manifests.put mk m } R := by
  -- a stored manifest is the new one or an old one
  have hcases : ∀ mk' m', (w.manifests.put mk m).byKey.lookup mk' = some m' →
      (mk' = mk ∧ m' = m) ∨ w.manifests.byKey.lookup mk' = some m' := by
    intro mk' m' hm'
    rw [ManifestStore.lookup_put] at hm'
    by_cases hk : mk' = mk
    · rw [if_pos hk] at hm'
      exact Or.inl ⟨hk, (Option.some.inj hm').symm⟩
    · rw [if_neg hk] at hm'
      exact Or.inr hm'
  constructor
  · intro mk' m' hm' hhash
    rcases hcases mk' m' hm' with ⟨rfl, rfl⟩ | hold
    · rcases hhashed hhash with ⟨e, he, haddrs, -⟩
      exact ⟨e, he, haddrs⟩
    · exact hw.hashed mk' m' hold hhash
  · intro mk' m' hm' hhash
    rcases hcases mk' m' hm' with ⟨rfl, rfl⟩ | hold
    · exact hplain hhash
    · exact hw.plain mk' m' hold hhash
  · exact hw.backed
  · exact hw.apart
  · intro k e he
    have hle : World.references { w with manifests := w.manifests.put mk m } k ≤
        w.references k + if World.refersTo k mk m then 1 else 0 :=
      FMap.count_insert_le (World.refersTo k) w.manifests.byKey mk m
    have hold := hw.counted k e he
    by_cases hrefers : World.refersTo k mk m = true
    · rw [if_pos hrefers] at hle
      simp only [World.refersTo, Bool.and_eq_true, decide_eq_true_eq] at hrefers
      rcases hhashed hrefers.1 with ⟨e', he', -, hslack⟩
      have hk : (⟨mk.tenantID, m.contentHash⟩ : IndexKey) = k := by rw [hrefers.2.1, hrefers.2.2]
      rw [hk] at he' hslack
      have he : w.index.rows.lookup k = some e := he
      rw [he] at he'
      rw [← Option.some.inj he'] at hslack
      omega
    · rw [if_neg hrefers] at hle
      omega
  · intro t ht
    apply (hw.valid t ht).transfer
    · exact fun k _ e he => ⟨e, he, rfl⟩
    · exact fun a k _ hk => hk
    · intro a ha hfree hstored
      refine ⟨⟨hfree.rows, fun mk' m' hm' => ?_⟩, hstored⟩
      rcases hcases mk' m' hm' with ⟨rfl, rfl⟩ | hold
      · exact hown t ht a ha
      · exact hfree.manifests mk' m' hold
  · exact hw.alone

omit hw in
theorem references_remove
    (hm : w.manifests.byKey.lookup mk = some m) (k : IndexKey) :
    w.references k = World.references { w with manifests := w.manifests.remove mk } k +
      if World.refersTo k mk m then 1 else 0 :=
  FMap.count_erase hm

theorem DedupInv.removeManifest (hm : w.manifests.byKey.lookup mk = some m) :
    DedupInv { w with manifests := w.manifests.remove mk } R := by
  have hsub : ∀ mk' m', (w.manifests.remove mk).byKey.lookup mk' = some m' →
      w.manifests.byKey.lookup mk' = some m' := by
    intro mk' m' hm'
    rw [ManifestStore.lookup_remove] at hm'
    by_cases hk : mk' = mk
    · simp [hk] at hm'
    · rwa [if_neg hk] at hm'
  constructor
  · exact fun mk' m' hm' => hw.hashed mk' m' (hsub mk' m' hm')
  · exact fun mk' m' hm' => hw.plain mk' m' (hsub mk' m' hm')
  · exact hw.backed
  · exact hw.apart
  · intro k e he
    have hrefs := references_remove hm k
    have hold := hw.counted k e he
    omega
  · intro t ht
    apply (hw.valid t ht).transfer
    · exact fun k _ e he => ⟨e, he, rfl⟩
    · exact fun a k _ hk => hk
    · exact fun a _ hfree hstored =>
        ⟨⟨hfree.rows, fun mk' m' hm' => hfree.manifests mk' m' (hsub mk' m' hm')⟩, hstored⟩
  · exact hw.alone

end

end

/-! ## 3. The steps of the requests -/

/-- The holdings of a request that holds `o`. -/
def inFlight (o : Option Hold) : Multiset Hold := o.elim 0 ({·})

@[simp] theorem inFlight_none : inFlight none = 0 := rfl

@[simp] theorem inFlight_some_add (t : Hold) (R : Multiset Hold) :
    inFlight (some t) + R = t ::ₘ R := Multiset.singleton_add t R

def Fresh (w : World) (R : Multiset Hold) (a : PieceAddr) : Prop :=
  w.Free a ∧ ∀ t ∈ R, t.mentions a = false

section

variable {w : World} {T R : Multiset Hold} {k : IndexKey} {a : PieceAddr} {as : List PieceAddr}

theorem DedupInv.rest {o : Option Hold} (hw : DedupInv w (inFlight o + R)) : DedupInv w R :=
  hw.anti (Multiset.le_add_left R (inFlight o))

theorem DedupInv.free_of_owns (hw : DedupInv w T) (ht : t ∈ T) (ha : t.owns a = true) :
    w.Free a := by
  have hvalid := hw.valid t ht
  cases t with
  | own b =>
    have hb : b = a := by simpa [Hold.owns] using ha
    rw [← hb]
    exact hvalid.1
  | raced k b =>
    have hb : b = a := by simpa [Hold.owns] using ha
    rw [← hb]
    exact hvalid.2.1
  | _ => exact absurd ha (by simp [Hold.owns])

theorem DedupInv.not_owned (hw : DedupInv w T)
    (he : w.index.rows.lookup k = some e) (has : ∀ a ∈ as, a ∈ e.addrs) :
    ∀ s ∈ T, ∀ a, s.owns a = true → a ∉ as :=
  fun _ hs a ha hmem => (hw.free_of_owns hs ha).rows k ⟨e, he, has a hmem⟩

theorem DedupInv.written (hw : DedupInv w R) (hfresh : Fresh w R a) (body : Bytes) :
    DedupInv { w with pieces := w.pieces.insert a body } (.own a ::ₘ R) := by
  apply (hw.insertPiece a body).add
  · refine ⟨⟨hfresh.1.rows, hfresh.1.manifests⟩, ?_⟩
    unfold World.Stored
    rw [FMap.lookup_insert_ite, if_pos rfl]
    rfl
  · exact fun k hk => absurd hk (by simp [Hold.counts])
  · intro s hs b hb
    by_contra hment
    have hab : a = b := by simpa [Hold.mentions] using hment
    have hnot := hfresh.2 s hs
    rw [hab, Hold.mentions_of_owns hb] at hnot
    exact absurd hnot (by decide)
  · intro b hb s hs
    have hab : a = b := by simpa [Hold.owns] using hb
    rw [← hab]
    exact hfresh.2 s hs

theorem DedupInv.published (hw : DedupInv w (.own e.addr ::ₘ R))
    (hsingle : e.pieceIDs = []) (hnone : w.index.rows.lookup e.key = none)
    (hcount : 1 ≤ e.refCount) :
    DedupInv { w with index := w.index.set e } (.counted e.key [e.addr] ::ₘ R) := by
  have hR : DedupInv w R := hw.anti (Multiset.le_cons_self R _)
  have hown : Hold.owns e.addr (.own e.addr) = true := by simp [Hold.owns]
  have haddrs : e.addrs = [e.addr] := by simp [ContentIndexEntry.addrs, hsingle]
  have hvalid := hw.valid (.own e.addr) (Multiset.mem_cons_self _ R)
  have hunmentioned := hw.unmentioned hown
  have hR' : DedupInv { w with index := w.index.set e } R := by
    apply hR.registerRow hnone (by omega)
    · intro b hb
      rw [haddrs, List.mem_singleton] at hb
      rw [hb]
      exact hvalid
    · intro t ht b hb
      rw [haddrs, List.mem_singleton] at hb
      rw [hb]
      exact hunmentioned t ht
  have hrow : (w.index.set e).rows.lookup e.key = some e := by
    rw [ContentIndex.lookup_set, if_pos rfl]
  apply hR'.add
  · exact ⟨e, hrow, by simp [haddrs]⟩
  · intro k hk e' he'
    have hke : e.key = k := by simpa [Hold.counts] using hk
    rw [← hke] at he' ⊢
    rw [hrow] at he'
    have hempty := hR.unreferenced hnone
    have hrefs : World.references { w with index := w.index.set e } e.key = 0 := hempty.1
    have hflight : R.countP (Hold.counts e.key ·) = 0 := by
      rw [Multiset.countP_eq_zero]
      intro t ht
      simp [hempty.2 t ht]
    rw [hrefs, hflight, ← Option.some.inj he']
    simpa using hcount
  · intro s hs b hb
    by_contra hment
    have hbe : b = e.addr := by simpa [Hold.mentions] using hment
    rw [hbe, hw.disowned (Hold.mentions_of_owns hown) s hs] at hb
    exact absurd hb (by decide)
  · exact fun b hb => absurd hb (by simp [Hold.owns])

theorem DedupInv.incremented (hw : DedupInv w R)
    (he : w.index.rows.lookup k = some e)
    (hcounts : ∀ k', t.counts k' = true → k' = k)
    (hvalid : t.Valid { w with index := w.index.set { e with refCount := e.refCount + 1 } })
    (howned : ∀ s ∈ R, ∀ a, s.owns a = true → t.mentions a = false)
    (hfresh : ∀ a, t.owns a = true → ∀ s ∈ R, s.mentions a = false) :
    DedupInv { w with index := w.index.set { e with refCount := e.refCount + 1 } } (t ::ₘ R) := by
  have hkey : ContentIndexEntry.key { e with refCount := e.refCount + 1 } = k :=
    w.index.keyed k e he
  have hold := hw.counted k e he
  apply (hw.setCount he (by omega)).add hvalid _ howned hfresh
  intro k' hk' e' he'
  rw [hcounts k' hk'] at he' ⊢
  change (w.index.set { e with refCount := e.refCount + 1 }).rows.lookup k = some e' at he'
  rw [ContentIndex.lookup_set, if_pos hkey.symm] at he'
  rw [← Option.some.inj he']
  change (w.references k : Int) + _ + 1 ≤ e.refCount + 1
  omega

theorem DedupInv.countedIn (hw : DedupInv w R)
    (he : w.index.rows.lookup k = some e) (has : ∀ a ∈ as, a ∈ e.addrs) :
    DedupInv { w with index := w.index.set { e with refCount := e.refCount + 1 } }
      (.counted k as ::ₘ R) := by
  have hkey : ContentIndexEntry.key { e with refCount := e.refCount + 1 } = k :=
    w.index.keyed k e he
  apply hw.incremented he
  · exact fun k' hk' => by simpa [Hold.counts, eq_comm] using hk'
  · refine ⟨{ e with refCount := e.refCount + 1 }, ?_, has⟩
    rw [ContentIndex.lookup_set, if_pos hkey.symm]
  · exact fun s hs a ha => by simpa [Hold.mentions] using hw.not_owned he has s hs a ha
  · exact fun a ha => absurd ha (by simp [Hold.owns])

theorem DedupInv.racedIn (hw : DedupInv w (.own a ::ₘ R))
    (he : w.index.rows.lookup k = some e) :
    DedupInv { w with index := w.index.set { e with refCount := e.refCount + 1 } }
      (.raced k a ::ₘ R) := by
  have hkey : ContentIndexEntry.key { e with refCount := e.refCount + 1 } = k :=
    w.index.keyed k e he
  have hunmentioned := hw.unmentioned (a := a) (by simp [Hold.owns])
  have hown := hw.valid (.own a) (Multiset.mem_cons_self _ R)
  have hnames := rowNames_setCount (e.refCount + 1) he
  apply (hw.anti (Multiset.le_cons_self R _)).incremented he
  · exact fun k' hk' => by simpa [Hold.counts, eq_comm] using hk'
  · refine ⟨?_, ⟨fun k' hk' => hown.1.rows k' ((hnames k' a).mp hk'), hown.1.manifests⟩, hown.2⟩
    change ((w.index.set { e with refCount := e.refCount + 1 }).rows.lookup k).isSome = true
    rw [ContentIndex.lookup_set, if_pos hkey.symm]
    rfl
  · intro s hs b hb
    by_contra hment
    have hab : a = b := by simpa [Hold.mentions] using hment
    rw [← hab, hw.disowned (by simp [Hold.mentions]) s hs] at hb
    exact absurd hb (by decide)
  · intro b hb
    have hab : a = b := by simpa [Hold.owns] using hb
    rw [← hab]
    exact hunmentioned

theorem DedupInv.lookedUp (hw : DedupInv w (.counted k [] ::ₘ R))
    (he : w.index.rows.lookup k = some e) : DedupInv w (.counted k [e.addr] ::ₘ R) := by
  have haddr : ∀ b ∈ [e.addr], b ∈ e.addrs := by simp [ContentIndexEntry.addrs]
  have hcount := hw.counted k e he
  have hR : DedupInv w R := hw.anti (Multiset.le_cons_self R _)
  apply hR.add
  · exact ⟨e, he, haddr⟩
  · intro k' hk' e' he'
    have hkk : k = k' := by simpa [Hold.counts] using hk'
    rw [← hkk] at he' ⊢
    rw [he] at he'
    rw [Multiset.countP_cons, if_pos (by simp [Hold.counts])] at hcount
    rw [← Option.some.inj he']
    omega
  · exact fun s hs b hb => by simpa [Hold.mentions] using hR.not_owned he haddr s hs b hb
  · exact fun b hb => absurd hb (by simp [Hold.owns])

theorem DedupInv.decremented (hw : DedupInv w (.counted k as ::ₘ R))
    (he : w.index.rows.lookup k = some e) :
    DedupInv { w with index := w.index.set { e with refCount := e.refCount - 1 } }
      (.last k as ::ₘ R) := by
  have hR : DedupInv w R := hw.anti (Multiset.le_cons_self R _)
  have hcount := hw.counted k e he
  rw [Multiset.countP_cons, if_pos (by simp [Hold.counts])] at hcount
  rcases hw.valid (.counted k as) (Multiset.mem_cons_self _ R) with ⟨e', he', has⟩
  rw [he] at he'
  rw [← Option.some.inj he'] at has
  have hnames := rowNames_setCount (e.refCount - 1) he
  have hR' := hR.setCount (n := e.refCount - 1) he (by omega)
  apply hR'.add
  · exact fun b hb k' hk' => hw.apart k' k b ((hnames k' b).mp hk') ⟨e, he, has b hb⟩
  · exact fun k' hk' => absurd hk' (by simp [Hold.counts])
  · exact fun s hs b hb => by simpa [Hold.mentions] using hR.not_owned he has s hs b hb
  · exact fun b hb => absurd hb (by simp [Hold.owns])

theorem DedupInv.rowDeleted (hw : DedupInv w (.last k as ::ₘ R))
    (he : w.index.rows.lookup k = some e) (hzero : e.refCount ≤ 0) :
    DedupInv { w with index := w.index.erase k } (.doomed as ::ₘ R) := by
  have hlast := hw.valid (.last k as) (Multiset.mem_cons_self _ R)
  have hR : DedupInv w R := hw.anti (Multiset.le_cons_self R _)
  apply (hR.eraseRow he hzero).add
  · rintro b hb k' ⟨e', he', hbe⟩
    change (w.index.erase k).rows.lookup k' = some e' at he'
    rw [ContentIndex.lookup_erase] at he'
    by_cases hk : k' = k
    · simp [hk] at he'
    · rw [if_neg hk] at he'
      exact hk (hlast b hb k' ⟨e', he', hbe⟩)
  · exact fun k' hk' => absurd hk' (by simp [Hold.counts])
  · intro s hs b hb
    by_contra hment
    rw [hw.disowned (by simpa [Hold.mentions] using hment) s hs] at hb
    exact absurd hb (by decide)
  · exact fun b hb => absurd hb (by simp [Hold.owns])

theorem DedupInv.pieceDeleted (hw : DedupInv w (.doomed as ::ₘ R)) (ha : a ∈ as) :
    DedupInv { w with pieces := w.pieces.erase a } (.doomed as ::ₘ R) := by
  apply hw.erasePiece (hw.valid (.doomed as) (Multiset.mem_cons_self _ R) a ha)
  intro t ht
  rcases Multiset.mem_cons.mp ht with rfl | ht
  · rfl
  · exact hw.disowned (by simpa [Hold.mentions]) t ht

theorem DedupInv.ownDeleted (hw : DedupInv w (.own a ::ₘ R)) :
    DedupInv { w with pieces := w.pieces.erase a } R := by
  have hvalid := hw.valid (.own a) (Multiset.mem_cons_self _ R)
  apply (hw.anti (Multiset.le_cons_self R _)).erasePiece hvalid.1.rows
  exact hw.disowned (by simp [Hold.mentions])

theorem DedupInv.raceGivenUp (hw : DedupInv w (.raced k a ::ₘ R)) :
    DedupInv w (.counted k [] ::ₘ R) := by
  have hvalid := hw.valid (.raced k a) (Multiset.mem_cons_self _ R)
  rcases Option.isSome_iff_exists.mp hvalid.1 with ⟨e, he⟩
  apply (hw.anti (Multiset.le_cons_self R _)).add
  · exact ⟨e, he, by simp⟩
  · intro k' hk' e' he'
    have hkk : k = k' := by simpa [Hold.counts] using hk'
    have hcount := hw.counted k' e' he'
    rw [Multiset.countP_cons, if_pos (by simpa [Hold.counts] using hkk)] at hcount
    omega
  · exact fun s _ b _ => by simp [Hold.mentions]
  · exact fun b hb => absurd hb (by simp [Hold.owns])

theorem DedupInv.racedDeleted (hw : DedupInv w (.raced k a ::ₘ R)) :
    DedupInv { w with pieces := w.pieces.erase a } (.counted k [] ::ₘ R) := by
  have hvalid := hw.valid (.raced k a) (Multiset.mem_cons_self _ R)
  apply hw.raceGivenUp.erasePiece hvalid.2.1.rows
  intro t ht
  rcases Multiset.mem_cons.mp ht with rfl | ht
  · rfl
  · exact hw.disowned (by simp [Hold.mentions]) t ht

theorem DedupInv.readPlain (hw : DedupInv w R)
    (hm : w.manifests.byKey.lookup mk = some m) (hhash : m.contentHash = "") :
    DedupInv w (.doomed m.addrs ::ₘ R) := by
  apply hw.add
  · exact fun b hb k hk => hw.plain mk m hm hhash b hb k hk
  · exact fun k' hk' => absurd hk' (by simp [Hold.counts])
  · intro s hs b hb
    simpa [Hold.mentions] using (hw.free_of_owns hs hb).manifests mk m hm
  · exact fun b hb => absurd hb (by simp [Hold.owns])

theorem DedupInv.manifestRemoved (hw : DedupInv w R)
    (hm : w.manifests.byKey.lookup mk = some m) (hhash : m.contentHash ≠ "") :
    DedupInv { w with manifests := w.manifests.remove mk }
      (.counted ⟨mk.tenantID, m.contentHash⟩ m.addrs ::ₘ R) := by
  rcases hw.hashed mk m hm hhash with ⟨e, he, haddrs⟩
  apply (hw.removeManifest hm).add
  · exact ⟨e, he, haddrs⟩
  · intro k' hk' e' he'
    have hkk : (⟨mk.tenantID, m.contentHash⟩ : IndexKey) = k' := by
      simpa [Hold.counts] using hk'
    have hrefs := references_remove hm k'
    rw [if_pos (by simp [World.refersTo, hhash, ← hkk])] at hrefs
    have hcount := hw.counted k' e' he'
    omega
  · exact fun s hs b hb => by simpa [Hold.mentions] using hw.not_owned he haddrs s hs b hb
  · exact fun b hb => absurd hb (by simp [Hold.owns])

theorem DedupInv.manifestStored
    (hw : DedupInv w (.counted ⟨mk.tenantID, m.contentHash⟩ as ::ₘ R))
    (hhash : m.contentHash ≠ "") (has : ∀ a ∈ m.addrs, a ∈ as) :
    DedupInv { w with manifests := w.manifests.put mk m } R := by
  have hR : DedupInv w R := hw.anti (Multiset.le_cons_self R _)
  rcases hw.valid _ (Multiset.mem_cons_self _ R) with ⟨e, he, hrow⟩
  have hcount := hw.counted _ e he
  rw [Multiset.countP_cons, if_pos (by simp [Hold.counts])] at hcount
  have haddrs : ∀ a ∈ m.addrs, a ∈ e.addrs := fun b hb => hrow b (has b hb)
  apply hR.putManifest
  · exact fun _ => ⟨e, he, haddrs, by omega⟩
  · exact fun hempty => absurd hempty hhash
  · exact hR.not_owned he haddrs

theorem DedupInv.plainStored
    (hw : DedupInv w (.own a ::ₘ R)) (hhash : m.contentHash = "") (has : ∀ b ∈ m.addrs, b = a) :
    DedupInv { w with manifests := w.manifests.put mk m } R := by
  have hvalid := hw.valid (.own a) (Multiset.mem_cons_self _ R)
  apply (hw.anti (Multiset.le_cons_self R _)).putManifest
  · exact fun hne => absurd hhash hne
  · intro _ b hb k' hk'
    rw [has b hb] at hk'
    exact hvalid.1.rows k' hk'
  · intro t ht b hb hmem
    rw [has b hmem, hw.disowned (by simp [Hold.mentions]) t ht] at hb
    exact absurd hb (by decide)

theorem DedupInv.markerStored (hw : DedupInv w R)
    (hhash : m.contentHash = "") (hnone : m.addrs = []) :
    DedupInv { w with manifests := w.manifests.put mk m } R := by
  apply hw.putManifest
  · exact fun hne => absurd hhash hne
  · exact fun _ b hb => by simp [hnone] at hb
  · exact fun t _ b _ => by simp [hnone]

end

end ObjectFabric
