import ObjectFabric.Gateway.Sample
import ObjectFabric.Interleaving.Sequential
import ObjectFabric.Workers.OrphanGC

/-!
# OrphanSweep — one orphan-GC sweep with nothing else running

What the sweep does to every row and every piece, and from that the states in which it leaves no row
that names a missing piece and no piece of a row it removed.
-/

namespace ObjectFabric

open Interleaving Interleaving.Proc

def orphaned (w : World) (e : ContentIndexEntry) : Bool :=
  !w.manifests.hasManifestWithPieceID e.tenantID e.pieceID

def droppedRow (e : ContentIndexEntry) : Option ContentIndexEntry :=
  if 2 ≤ e.refCount then some { e with refCount := e.refCount - 1 } else none

def sweptRow (w : World) (e : ContentIndexEntry) : Option ContentIndexEntry :=
  if orphaned w e then droppedRow e else some e

/-- The state after the sweep has dealt with the rows in `done`, started from `w₀`. -/
structure SweptUpTo (w₀ : World) (done : IndexKey → Prop) (w : World) : Prop where
  manifests : w.manifests = w₀.manifests
  swept : ∀ k, done k → w.index.rows.lookup k = (w₀.index.rows.lookup k).bind (sweptRow w₀)
  rest : ∀ k, ¬ done k → w.index.rows.lookup k = w₀.index.rows.lookup k
  deleted : ∀ k e, done k → w₀.index.rows.lookup k = some e → orphaned w₀ e = true →
    w.pieces.lookup e.addr = none
  kept : ∀ a, (∀ k e, done k → w₀.index.rows.lookup k = some e → orphaned w₀ e = true →
    e.addr ≠ a) → w.pieces.lookup a = w₀.pieces.lookup a

/-- No call fails, and the index is listed in some order of the rows it started with. -/
def sweepChoice (w₀ : World) (x : Choice) : Prop := x.fault = false ∧ w₀.index.Lists x.order

variable {k : IndexKey} {done : IndexKey → Prop}

/-! ## 1. One row -/

section

variable {cfg : Config} {w₀ w : World} {e : ContentIndexEntry}

theorem delete_unreferenced {s : ContentIndex} (hrow : s.rows.lookup k = some e)
    (hzero : e.refCount ≤ 0) : s.delete k = (.ok (), s.erase k) := by
  rcases s.delete_cases k with ⟨hnone, -⟩ | ⟨e', he', hpos, -⟩ | ⟨-, -, -, hdel⟩
  · rw [hrow] at hnone
    exact absurd hnone (by simp)
  · rw [hrow] at he'
    have hsame := Option.some.inj he'
    rw [← hsame] at hpos
    omega
  · exact hdel

theorem dropRow_ensures (hrow : w.index.rows.lookup e.key = some e) (stats : SweepStats) :
    (dropRow e stats).Ensures (machine cfg.providers) (sweepChoice w₀) w fun _ w' =>
      w'.manifests = w.manifests ∧ w'.pieces = w.pieces ∧
      ∀ k, w'.index.rows.lookup k = if k = e.key then droppedRow e else w.index.rows.lookup k := by
  intro x hx
  rw [machine_exec_of_no_fault hx.1]
  rcases w.index.decrementRef_cases e.key with ⟨hnone, -⟩ | ⟨e', he', hzero, hdec⟩ |
    ⟨e', he', hpos, hdec⟩
  · rw [hrow] at hnone
    exact absurd hnone (by simp)
  · -- the count was zero already: the row goes at once
    rw [hrow] at he'
    obtain rfl := Option.some.inj he'
    simp only [World.exec, World.onIndex, hdec, Proc.ret_bind]
    intro y hy
    rw [machine_exec_of_no_fault hy.1]
    simp only [World.exec, World.onIndex, delete_unreferenced hrow hzero]
    refine ⟨rfl, rfl, fun k => ?_⟩
    have hgone : droppedRow e = none := if_neg (by omega)
    rw [ContentIndex.lookup_erase, hgone]
  · rw [hrow] at he'
    obtain rfl := Option.some.inj he'
    simp only [World.exec, World.onIndex, hdec, Proc.ret_bind]
    by_cases hlast : e.refCount - 1 = 0
    · rw [if_pos hlast]
      intro y hy
      rw [machine_exec_of_no_fault hy.1]
      -- the row now has the count zero under the same key
      have hset : (w.index.set { e with refCount := e.refCount - 1 }).rows.lookup e.key =
          some { e with refCount := e.refCount - 1 } := by
        rw [ContentIndex.lookup_set]
        exact if_pos rfl
      have hdel := delete_unreferenced hset (Int.le_of_eq hlast)
      simp only [World.exec, World.onIndex, hdel]
      refine ⟨rfl, rfl, fun k => ?_⟩
      have hgone : droppedRow e = none := if_neg (by omega)
      rw [hgone]
      change ((w.index.set { e with refCount := e.refCount - 1 }).erase e.key).rows.lookup k = _
      rw [ContentIndex.lookup_erase, ContentIndex.lookup_set]
      by_cases hk : k = e.key
      · rw [if_pos hk, if_pos hk]
      · rw [if_neg hk, if_neg hk]
        exact if_neg hk
    · rw [if_neg hlast]
      refine ⟨rfl, rfl, fun k => ?_⟩
      have hleft : droppedRow e = some { e with refCount := e.refCount - 1 } := if_pos (by omega)
      rw [hleft]
      exact ContentIndex.lookup_set w.index { e with refCount := e.refCount - 1 } k

theorem SweptUpTo.live (hw : SweptUpTo w₀ done w)
    (hrow : w₀.index.rows.lookup e.key = some e) (hlive : orphaned w₀ e = false) :
    SweptUpTo w₀ (fun k => done k ∨ k = e.key) w := by
  -- no row that is now done and orphaned is new
  have hold : ∀ k e', (done k ∨ k = e.key) → w₀.index.rows.lookup k = some e' →
      orphaned w₀ e' = true → done k := by
    intro k e' hk he' horph
    rcases hk with hk | rfl
    · exact hk
    · rw [hrow] at he'
      rw [← Option.some.inj he', hlive] at horph
      exact absurd horph (by decide)
  constructor
  · exact hw.manifests
  · intro k hk
    by_cases hd : done k
    · exact hw.swept k hd
    · have hke := hk.resolve_left hd
      rw [hw.rest k hd, hke, hrow, Option.bind_some, sweptRow, hlive]
      rfl
  · exact fun k hk => hw.rest k fun hd => hk (Or.inl hd)
  · exact fun k e' hk he' horph => hw.deleted k e' (hold k e' hk he' horph) he' horph
  · intro a ha
    apply hw.kept a
    exact fun k e' hk he' horph => ha k e' (Or.inl hk) he' horph

theorem SweptUpTo.drop {w' : World} (hw : SweptUpTo w₀ done w)
    (hrow : w₀.index.rows.lookup e.key = some e) (horph : orphaned w₀ e = true)
    (hmanifests : w'.manifests = w.manifests)
    (hpieces : w'.pieces = w.pieces.erase e.addr)
    (hrows : ∀ k, w'.index.rows.lookup k =
      if k = e.key then droppedRow e else w.index.rows.lookup k) :
    SweptUpTo w₀ (fun k => done k ∨ k = e.key) w' := by
  constructor
  · rw [hmanifests, hw.manifests]
  · intro k hk
    rw [hrows k]
    by_cases hke : k = e.key
    · rw [if_pos hke, hke, hrow, Option.bind_some, sweptRow, if_pos horph]
    · rw [if_neg hke]
      exact hw.swept k (hk.resolve_right hke)
  · intro k hk
    have hke : k ≠ e.key := fun hke => hk (Or.inr hke)
    rw [hrows k, if_neg hke]
    exact hw.rest k fun hd => hk (Or.inl hd)
  · intro k e' hk he' horph'
    rw [hpieces, FMap.lookup_erase_ite]
    by_cases ha : e'.addr = e.addr
    · rw [if_pos ha]
    rw [if_neg ha]
    rcases hk with hk | rfl
    · exact hw.deleted k e' hk he' horph'
    · rw [hrow] at he'
      exact absurd (congrArg ContentIndexEntry.addr (Option.some.inj he')).symm ha
  · intro a ha
    have hne : a ≠ e.addr := fun hae => ha e.key e (Or.inr rfl) hrow horph hae.symm
    rw [hpieces, FMap.lookup_erase_ite, if_neg hne]
    apply hw.kept a
    exact fun k e' hk he' horph' => ha k e' (Or.inl hk) he' horph'

theorem sweepRow_ensures (hw : SweptUpTo w₀ done w)
    (hrow : w₀.index.rows.lookup e.key = some e) (hnew : ¬ done e.key)
    (hreg : (cfg.providers e.backend).isSome = true) (stats : SweepStats) :
    (sweepRow cfg e stats).Ensures (machine cfg.providers) (sweepChoice w₀) w fun _ w' =>
      SweptUpTo w₀ (fun k => done k ∨ k = e.key) w' := by
  intro x hx
  rw [machine_exec_of_no_fault hx.1]
  simp only [World.exec, Proc.ret_bind]
  have hprobe : orphaned w₀ e = !w.manifests.hasManifestWithPieceID e.tenantID e.pieceID := by
    rw [hw.manifests]
    rfl
  cases hlive : w.manifests.hasManifestWithPieceID e.tenantID e.pieceID with
  | true =>
    rw [hlive] at hprobe
    exact hw.live hrow hprobe
  | false => ?_
  rw [hlive] at hprobe
  rcases Option.isSome_iff_exists.mp hreg with ⟨p, hp⟩
  simp only [hp]
  intro y hy
  rw [machine_exec_of_no_fault hy.1]
  have hcur : (w.deletePiece e.addr).index.rows.lookup e.key = some e := by
    rw [← hrow]
    exact hw.rest e.key hnew
  apply (dropRow_ensures hcur _).mono
  rintro _ w' ⟨hmanifests, hpieces, hrows⟩
  exact hw.drop hrow hprobe hmanifests hpieces hrows

/-! ## 2. The whole sweep -/

theorem sweepRows_ensures {es : List ContentIndexEntry}
    (hw : SweptUpTo w₀ done w) (hrows : ∀ e ∈ es, w₀.index.rows.lookup e.key = some e)
    (hnew : ∀ e ∈ es, ¬ done e.key) (hnodup : (es.map ContentIndexEntry.key).Nodup)
    (hreg : ∀ e ∈ es, (cfg.providers e.backend).isSome = true) (stats : SweepStats) :
    (sweepRows cfg es stats).Ensures (machine cfg.providers) (sweepChoice w₀) w fun _ w' =>
      SweptUpTo w₀ (fun k => done k ∨ k ∈ es.map ContentIndexEntry.key) w' := by
  induction es generalizing done w stats with
  | nil =>
    have hsame : (fun k => done k ∨ k ∈ ([] : List ContentIndexEntry).map ContentIndexEntry.key) =
        done := by
      funext k
      simp
    rw [hsame]
    exact hw
  | cons e es ih => ?_
  have hsplit := List.nodup_cons.mp hnodup
  apply Ensures.bind
  apply (sweepRow_ensures hw (hrows e List.mem_cons_self) (hnew e List.mem_cons_self)
    (hreg e List.mem_cons_self) stats).mono
  intro stats' w' hw'
  have hrest := ih hw' (fun e' he' => hrows e' (List.mem_cons_of_mem e he')) ?_ hsplit.2
    (fun e' he' => hreg e' (List.mem_cons_of_mem e he')) stats'
  · apply hrest.mono
    intro _ w'' hw''
    have hsame : (fun k => done k ∨ k ∈ (e :: es).map ContentIndexEntry.key) =
        fun k => (done k ∨ k = e.key) ∨ k ∈ es.map ContentIndexEntry.key := by
      funext k
      rw [List.map_cons, List.mem_cons, or_assoc]
    rw [hsame]
    exact hw''
  · rintro e' he' (hd | hk)
    · exact hnew e' (List.mem_cons_of_mem e he') hd
    · exact hsplit.1 (hk ▸ List.mem_map_of_mem he')

theorem SweptUpTo.widen {done done' : IndexKey → Prop} (hw : SweptUpTo w₀ done w)
    (hsub : ∀ k, done k → done' k)
    (hextra : ∀ k, done' k → ¬ done k → w₀.index.rows.lookup k = none) :
    SweptUpTo w₀ done' w := by
  have hback : ∀ k e, done' k → w₀.index.rows.lookup k = some e → done k := by
    intro k e hk he
    by_contra hd
    rw [hextra k hk hd] at he
    exact absurd he (by simp)
  constructor
  · exact hw.manifests
  · intro k hk
    by_cases hd : done k
    · exact hw.swept k hd
    · rw [hw.rest k hd, hextra k hk hd]
      rfl
  · exact fun k hk => hw.rest k fun hd => hk (hsub k hd)
  · exact fun k e hk he horph => hw.deleted k e (hback k e hk he) he horph
  · intro a ha
    apply hw.kept a
    exact fun k e hk he horph => ha k e (hsub k hk) he horph

theorem sweepTenant_ensures {ts : List String} {t : String} (ht : t ∉ ts)
    (hreg : ∀ k e, w₀.index.rows.lookup k = some e → (cfg.providers e.backend).isSome = true)
    (hw : SweptUpTo w₀ (fun k => k.tenantID ∈ ts) w) :
    (sweepTenant cfg t).Ensures (machine cfg.providers) (sweepChoice w₀) w fun _ w' =>
      SweptUpTo w₀ (fun k => k.tenantID ∈ t :: ts) w' := by
  intro x hx
  rw [machine_exec_of_no_fault hx.1]
  simp only [World.exec, Proc.ret_bind]
  -- the tenant's rows are still those the sweep started with
  have hcur : ∀ k, k.tenantID = t → w.index.rows.lookup k = w₀.index.rows.lookup k := by
    intro k hk
    apply hw.rest k
    rw [hk]
    exact ht
  have hmem : ∀ e ∈ w.index.scanAll x.order t,
      e.key.tenantID = t ∧ w₀.index.rows.lookup e.key = some e := by
    intro e he
    unfold ContentIndex.scanAll at he
    rw [List.mem_filterMap] at he
    rcases he with ⟨k, hk, he⟩
    have hkt : k.tenantID = t := by simpa using (List.mem_filter.mp hk).2
    have hke := w.index.keyed k e he
    rw [hcur k hkt] at he
    rw [hke]
    exact ⟨hkt, he⟩
  have hnodup : ((w.index.scanAll x.order t).map ContentIndexEntry.key).Nodup := by
    apply (w.index.keys_of_listed _).nodup
    exact hx.2.1.filter _
  apply (sweepRows_ensures hw (fun e he => (hmem e he).2) ?_ hnodup
    (fun e he => hreg e.key e (hmem e he).2) _).mono
  · intro _ w' hw'
    apply hw'.widen
    · rintro k (hk | hk)
      · exact List.mem_cons_of_mem t hk
      · rcases List.mem_map.mp hk with ⟨e, he, rfl⟩
        rw [(hmem e he).1]
        exact List.mem_cons_self
    · -- a row of the tenant would have been listed
      intro k hk hnot
      rcases hrow : w₀.index.rows.lookup k with _ | e
      · rfl
      have hkt : k.tenantID = t := (List.mem_cons.mp hk).resolve_right fun h => hnot (Or.inl h)
      have hlisted : k ∈ x.order := (hx.2.2 k).mpr (by rw [hrow]; rfl)
      have hscan : e ∈ w.index.scanAll x.order t := by
        unfold ContentIndex.scanAll
        rw [List.mem_filterMap]
        exact ⟨k, List.mem_filter.mpr ⟨hlisted, by simpa using hkt⟩, by rw [hcur k hkt, hrow]⟩
      have hkey := w₀.index.keyed k e hrow
      exact absurd (Or.inr (List.mem_map.mpr ⟨e, hscan, hkey⟩)) hnot
  · intro e he
    rw [(hmem e he).1]
    exact ht

theorem sweepTenants_ensures {ts todo : List String} (hnew : ∀ t ∈ todo, t ∉ ts)
    (hnodup : todo.Nodup)
    (hreg : ∀ k e, w₀.index.rows.lookup k = some e → (cfg.providers e.backend).isSome = true)
    (hw : SweptUpTo w₀ (fun k => k.tenantID ∈ ts) w) (stats : SweepStats) :
    (sweepTenants cfg todo stats).Ensures (machine cfg.providers) (sweepChoice w₀) w fun _ w' =>
      SweptUpTo w₀ (fun k => k.tenantID ∈ ts ∨ k.tenantID ∈ todo) w' := by
  induction todo generalizing ts w stats with
  | nil => exact hw.widen (fun k hk => Or.inl hk) fun k hk hnot => by simp_all
  | cons t todo ih => ?_
  have hsplit := List.nodup_cons.mp hnodup
  apply Ensures.bind
  apply (sweepTenant_ensures (hnew t List.mem_cons_self) hreg hw).mono
  intro tStats w' hw'
  have hrest : ∀ t' ∈ todo, t' ∉ t :: ts := by
    intro t' ht' hmem
    rcases List.mem_cons.mp hmem with rfl | hmem
    · exact hsplit.1 ht'
    · exact hnew t' (List.mem_cons_of_mem t ht') hmem
  apply (ih hrest hsplit.2 hw' _).mono
  intro _ w'' hw''
  apply hw''.widen
  · rintro k (hk | hk)
    · rcases List.mem_cons.mp hk with hk | hk
      · exact Or.inr (List.mem_cons.mpr (Or.inl hk))
      · exact Or.inl hk
    · exact Or.inr (List.mem_cons_of_mem t hk)
  · rintro k (hk | hk) hnot
    · exact absurd (Or.inl (List.mem_cons_of_mem t hk)) hnot
    · rcases List.mem_cons.mp hk with hk | hk
      · exact absurd (Or.inl (List.mem_cons.mpr (Or.inl hk))) hnot
      · exact absurd (Or.inr hk) hnot

theorem sweep_ensures
    (hreg : ∀ k e, w₀.index.rows.lookup k = some e → (cfg.providers e.backend).isSome = true) :
    (sweep cfg).Ensures (machine cfg.providers) (sweepChoice w₀) w₀ fun _ w' =>
      SweptUpTo w₀ (fun _ => True) w' := by
  intro x hx
  rw [machine_exec_of_no_fault hx.1]
  simp only [World.exec, Proc.ret_bind]
  have hstart : SweptUpTo w₀ (fun k => k.tenantID ∈ ([] : List String)) w₀ := by
    constructor
    · rfl
    · exact fun k hk => absurd hk List.not_mem_nil
    · exact fun k _ => rfl
    · exact fun k e hk => absurd hk List.not_mem_nil
    · exact fun a _ => rfl
  apply Ensures.bind
  apply (sweepTenants_ensures (fun t _ => List.not_mem_nil) (List.nodup_dedup _) hreg hstart _).mono
  intro stats w' hw'
  apply hw'.widen (fun _ _ => trivial)
  -- the tenant of every row is listed
  intro k _ hnot
  rcases hrow : w₀.index.rows.lookup k with _ | e
  · rfl
  have hlisted : k ∈ x.order := (hx.2.2 k).mpr (by rw [hrow]; rfl)
  have htenant : k.tenantID ∈ w₀.index.listTenants x.order := by
    unfold ContentIndex.listTenants
    rw [List.mem_dedup, List.mem_map]
    refine ⟨e, List.mem_filterMap.mpr ⟨k, hlisted, hrow⟩, ?_⟩
    rw [← w₀.index.keyed k e hrow]
    rfl
  exact absurd (Or.inr htenant) hnot

end

/-! ## 3. When the sweep is safe -/

def RowsBacked (w : World) : Prop :=
  ∀ k e, w.index.rows.lookup k = some e → ∀ a ∈ e.addrs, (w.pieces.lookup a).isSome = true

def NothingLeft (w w' : World) : Prop :=
  ∀ k e, w.index.rows.lookup k = some e → w'.index.rows.lookup k = none →
    ∀ a ∈ e.addrs, (w.pieces.lookup a).isSome = true → w'.pieces.lookup a = none

/-- A row without a manifest has at most one reference; the pieces of a row with a manifest exist
and are not the `PieceID` of a row without; and the existing pieces of a row without a manifest
are each the `PieceID` of such a row. -/
structure SweepSafe (w : World) : Prop where
  single : ∀ k e, w.index.rows.lookup k = some e → orphaned w e = true → e.refCount ≤ 1
  live : ∀ k e, w.index.rows.lookup k = some e → orphaned w e = false → ∀ a ∈ e.addrs,
    (w.pieces.lookup a).isSome = true ∧
      ∀ k' o, w.index.rows.lookup k' = some o → orphaned w o = true → o.addr ≠ a
  anchored : ∀ k e, w.index.rows.lookup k = some e → orphaned w e = true → ∀ a ∈ e.addrs,
    (w.pieces.lookup a).isSome = true →
      ∃ k' o, w.index.rows.lookup k' = some o ∧ orphaned w o = true ∧ o.addr = a

variable {e : ContentIndexEntry}

section

variable {w w' : World}

section

variable (hw : SweptUpTo w (fun _ => True) w')
include hw

theorem SweptUpTo.row_of_live (he : w.index.rows.lookup k = some e) (hlive : orphaned w e = false) :
    w'.index.rows.lookup k = some e := by
  rw [hw.swept k trivial, he, Option.bind_some, sweptRow, hlive]
  rfl

theorem SweptUpTo.row_of_orphaned
    (he : w.index.rows.lookup k = some e) (horph : orphaned w e = true) :
    w'.index.rows.lookup k = droppedRow e := by
  rw [hw.swept k trivial, he, Option.bind_some, sweptRow, if_pos horph]

theorem SweptUpTo.piece_iff (a : PieceAddr) :
    (w'.pieces.lookup a).isSome = true ↔ (w.pieces.lookup a).isSome = true ∧
      ∀ k e, w.index.rows.lookup k = some e → orphaned w e = true → e.addr ≠ a := by
  constructor
  · intro hsome
    have hne : ∀ k e, w.index.rows.lookup k = some e → orphaned w e = true → e.addr ≠ a := by
      rintro k e he horph rfl
      rw [hw.deleted k e trivial he horph] at hsome
      exact absurd hsome (by decide)
    rw [← hw.kept a fun k e _ => hne k e]
    exact ⟨hsome, hne⟩
  · rintro ⟨hsome, hne⟩
    rw [hw.kept a fun k e _ => hne k e]
    exact hsome

theorem SweptUpTo.sweepSafe (hbacked : RowsBacked w')
    (hnothing : NothingLeft w w') : SweepSafe w := by
  have hsingle : ∀ k e, w.index.rows.lookup k = some e → orphaned w e = true →
      e.refCount ≤ 1 := by
    intro k e he horph
    by_contra hcount
    -- the row would stay without its piece
    have hrow := hw.row_of_orphaned he horph
    rw [droppedRow, if_pos (by omega)] at hrow
    have hpiece := hbacked k _ hrow e.addr List.mem_cons_self
    exact ((hw.piece_iff e.addr).mp hpiece).2 k e he horph rfl
  constructor
  · exact hsingle
  · intro k e he hlive a ha
    exact (hw.piece_iff a).mp (hbacked k e (hw.row_of_live he hlive) a ha)
  · intro k e he horph a ha hsome
    by_contra hnone
    have hgone : w'.index.rows.lookup k = none := by
      have hcount := hsingle k e he horph
      rw [hw.row_of_orphaned he horph, droppedRow, if_neg (by omega)]
    have hlost := hnothing k e he hgone a ha hsome
    have hstays : (w'.pieces.lookup a).isSome = true := by
      apply (hw.piece_iff a).mpr
      exact ⟨hsome, fun k' o ho horph' hoa => hnone ⟨k', o, ho, horph', hoa⟩⟩
    rw [hlost] at hstays
    exact absurd hstays (by decide)

end

theorem SweepSafe.backed (hs : SweepSafe w) (hw : SweptUpTo w (fun _ => True) w') :
    RowsBacked w' := by
  intro k e he a ha
  rw [hw.swept k trivial] at he
  rcases Option.bind_eq_some_iff.mp he with ⟨e₀, he₀, hswept⟩
  cases horph : orphaned w e₀ with
  | true =>
    -- such a row had one reference and is gone
    have hcount := hs.single k e₀ he₀ horph
    rw [sweptRow, if_pos horph, droppedRow, if_neg (by omega)] at hswept
    exact absurd hswept (by simp)
  | false =>
    rw [sweptRow, horph] at hswept
    obtain rfl := Option.some.inj hswept
    exact (hw.piece_iff a).mpr (hs.live k e₀ he₀ horph a ha)

theorem SweepSafe.nothing (hs : SweepSafe w) (hw : SweptUpTo w (fun _ => True) w') :
    NothingLeft w w' := by
  intro k e he hgone a ha hsome
  cases horph : orphaned w e with
  | false =>
    rw [hw.row_of_live he horph] at hgone
    exact absurd hgone (by simp)
  | true =>
    rcases hs.anchored k e he horph a ha hsome with ⟨k', o, ho, horph', rfl⟩
    exact hw.deleted k' o trivial ho horph'

end

/-- A sweep that runs alone and without failures leaves every remaining row backed by its pieces and
no piece of a removed row, exactly when it starts from a safe state. -/
theorem sweep_clean_iff (cfg : Config) (w : World) (x : Nat → Choice)
    (hx : ∀ n, sweepChoice w (x n))
    (hreg : ∀ k e, w.index.rows.lookup k = some e → (cfg.providers e.backend).isSome = true) :
    let w' := ((sweep cfg).run (machine cfg.providers) x [] w).2.2
    (RowsBacked w' ∧ NothingLeft w w') ↔ SweepSafe w := by
  intro w'
  have hswept : SweptUpTo w (fun _ => True) w' := (sweep_ensures hreg).run hx []
  constructor
  · rintro ⟨hbacked, hnothing⟩
    exact hswept.sweepSafe hbacked hnothing
  · intro hs
    exact ⟨hs.backed hswept, hs.nothing hswept⟩

theorem abandonedWorld_row {n : Int}
    (he : (abandonedWorld n).index.rows.lookup k = some e) : e = abandonedRow n := by
  rw [abandonedWorld, ContentIndex.lookup_set] at he
  by_cases hk : k = (abandonedRow n).key
  · rw [if_pos hk] at he
    exact (Option.some.inj he).symm
  · rw [if_neg hk] at he
    exact absurd he (by simp)

/-- One abandoned reference: the sweep takes the row and the piece. -/
theorem sweep_clean_one_reference :
    let w' := ((sweep sampleGateway).run (machine sampleGateway.providers)
      (fun _ => abandonedListing) [] (abandonedWorld 1)).2.2
    RowsBacked w' ∧ NothingLeft (abandonedWorld 1) w' := by
  apply (sweep_clean_iff sampleGateway (abandonedWorld 1) (fun _ => abandonedListing) ?_ ?_).mpr
  · constructor
    · intro k e he _
      rw [abandonedWorld_row he]
      decide
    · intro k e he hlive
      rw [abandonedWorld_row he] at hlive
      exact absurd hlive (by decide)
    · intro k e he horph a ha _
      have haddr : a = e.addr := by
        rw [abandonedWorld_row he] at ha ⊢
        exact List.mem_singleton.mp ha
      exact ⟨k, e, he, horph, haddr.symm⟩
  · intro n
    refine ⟨rfl, List.nodup_singleton _, fun k => ?_⟩
    -- the listing names the one row there is
    rw [abandonedWorld, ContentIndex.lookup_set]
    change k ∈ [(abandonedRow 1).key] ↔ _
    by_cases hk : k = (abandonedRow 1).key
    · simp [hk]
    · rw [if_neg hk, List.mem_singleton]
      simp [hk]
  · intro k e _
    rfl

/-- Two abandoned references: the row stays with one and names the piece that the sweep deleted. -/
theorem orphan_row_outlives_piece :
    let w' := ((sweep sampleGateway).run (machine sampleGateway.providers)
      (fun _ => abandonedListing) [] (abandonedWorld 2)).2.2
    ¬ (RowsBacked w' ∧ NothingLeft (abandonedWorld 2) w') := by
  rintro _ ⟨hbacked, -⟩
  have hpiece := hbacked ⟨"tenant", "blake3:61"⟩ (abandonedRow 1) (by decide)
    ⟨"backend", "piece"⟩ (by decide)
  exact absurd hpiece (by decide)

end ObjectFabric
