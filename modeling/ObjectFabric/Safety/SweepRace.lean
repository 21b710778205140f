import ObjectFabric.Safety.SharedPieces
import ObjectFabric.Workers.OrphanGC

/-!
# SweepRace — the orphan sweep against deduplicated PUTs

A PUT takes a piece (it writes it, or counts itself into the row that names it) some calls before it
stores the manifest; the sweep looks for a manifest some calls before it deletes the piece.  The
sweep does no harm when these two stretches never overlap on one piece, and when a row that a PUT
takes up still has its piece.
-/

namespace ObjectFabric

open Interleaving

/-- What a thread has in hand: a PUT its piece, the sweep a piece ID without a manifest. -/
inductive SweepHold where
  | taken (t : Hold)
  | condemned (pieceID : String)

/-- The piece ID that the sweep has found no manifest for and is about to delete. -/
def condemnedPiece : History Call → Option String
  | [] => none
  | ⟨.hasManifestWithPieceID _ p, .ok false⟩ :: _ => some p
  | ⟨.hasManifestWithPieceID _ _, _⟩ :: _ => none
  | ⟨.deletePiece _, _⟩ :: _ => none
  | ⟨.indexDecrementRef _, _⟩ :: _ => none
  | _ :: h => condemnedPiece h

def takenBy (o : Option Hold) : Multiset SweepHold := o.elim 0 fun t => {.taken t}

def condemnedBy (o : Option String) : Multiset SweepHold := o.elim 0 fun p => {.condemned p}

def sweepHeld (h : History Call) : Multiset SweepHold :=
  takenBy (holding h) + condemnedBy (condemnedPiece h)

def World.ManifestNames (w : World) (a : PieceAddr) : Prop :=
  ∃ mk m, w.manifests.byKey.lookup mk = some m ∧ a ∈ m.addrs

/-- The conditions on the steps.
* Probe: no PUT has the piece in hand, and no manifest that the probe overlooks names it.
* A PUT takes a piece: the sweep has not condemned it, and the piece of a row exists.
* A PUT drops its own piece: nobody else uses it. -/
def sweepUndisturbed : Condition Call Choice World (Multiset SweepHold)
  | _, _, _, .hasManifestWithPieceID t p, _, w, R =>
    w.manifests.hasManifestWithPieceID t p = false →
      (∀ a, w.ManifestNames a → a.pieceID ≠ p) ∧
        ∀ t', .taken t' ∈ R → ∀ a, t'.mentions a = true → a.pieceID ≠ p
  | _, h, _, .putPiece a _, _, _, R => .condemned a.pieceID ∉ sweepHeld h + R
  | _, h, _, .indexIncrementRef _, _, w, R =>
    ∀ a ∈ claimed h, w.Stored a ∧ .condemned a.pieceID ∉ sweepHeld h + R
  | _, h, _, .indexLookup k, _, w, R =>
    (∃ k', holding h = some (.counted k' [])) → ∀ e, w.index.rows.lookup k = some e →
      w.Stored e.addr ∧ .condemned e.pieceID ∉ sweepHeld h + R
  | _, h, _, .deletePiece a, _, w, R =>
    holding h ≠ none → ¬ w.ManifestNames a ∧ ∀ t, .taken t ∈ R → t.mentions a = false
  | _, _, _, _, _, _, _ => True

def sweepingSpec : Spec Call where
  pre h c := holding h = none ∧ match c with
    | .indexScanAll _ | .hasManifestWithPieceID _ _ | .indexDecrementRef _ | .indexDelete _ => True
    | .deletePiece a => condemnedPiece h = some a.pieceID
    | _ => False
  post _ _ _ := True

/-- Every piece that a manifest names exists, or is one of the pieces `lost` from the start. -/
structure SweepInv (lost : PieceAddr → Prop) (w : World) (T : Multiset SweepHold) : Prop where
  named : ∀ a, w.ManifestNames a → w.Stored a ∨ lost a
  taken : ∀ t, .taken t ∈ T → ∀ a, t.mentions a = true → w.Stored a
  condemned : ∀ p, .condemned p ∈ T → (∀ a, w.ManifestNames a → a.pieceID ≠ p) ∧
    ∀ t, .taken t ∈ T → ∀ a, t.mentions a = true → a.pieceID ≠ p

variable {o : Option Hold} {p : String}

/-! ## 1. Changes of the stores and of what is in hand -/

section

variable {lost : PieceAddr → Prop} {w w' : World} {T R : Multiset SweepHold}

theorem mem_takenBy {t : Hold} : .taken t ∈ takenBy o ↔ o = some t := by
  cases o with
  | none => simp [takenBy]
  | some t' => simp [takenBy, eq_comm]

theorem mem_condemnedBy {o : Option String} :
    .condemned p ∈ condemnedBy o ↔ o = some p := by
  cases o with
  | none => simp [condemnedBy]
  | some p' => simp [condemnedBy, eq_comm]

theorem taken_not_mem_condemnedBy {o : Option String} {t : Hold} :
    .taken t ∉ condemnedBy o := by
  cases o <;> simp [condemnedBy]

theorem condemned_not_mem_takenBy :
    .condemned p ∉ takenBy o := by
  cases o <;> simp [takenBy]

section

variable (hw : SweepInv lost w T)
include hw

theorem SweepInv.anti (hle : R ≤ T) : SweepInv lost w R := by
  constructor
  · exact hw.named
  · exact fun t ht => hw.taken t (Multiset.mem_of_le hle ht)
  · intro p hp
    have hcond := hw.condemned p (Multiset.mem_of_le hle hp)
    exact ⟨hcond.1, fun t ht => hcond.2 t (Multiset.mem_of_le hle ht)⟩

theorem SweepInv.anyIndex (index : ContentIndex) :
    SweepInv lost { w with index } T := ⟨hw.named, hw.taken, hw.condemned⟩

theorem SweepInv.take (hstored : ∀ t, o = some t → ∀ a, t.mentions a = true → w.Stored a)
    (hclear : ∀ t, o = some t → ∀ a, t.mentions a = true → .condemned a.pieceID ∉ T) :
    SweepInv lost w (takenBy o + T) := by
  constructor
  · exact hw.named
  · intro t ht
    rcases Multiset.mem_add.mp ht with ht | ht
    · exact hstored t (mem_takenBy.mp ht)
    · exact hw.taken t ht
  · intro p hp
    have hp : .condemned p ∈ T :=
      (Multiset.mem_add.mp hp).resolve_left condemned_not_mem_takenBy
    have hcond := hw.condemned p hp
    refine ⟨hcond.1, fun t ht a ha => ?_⟩
    rcases Multiset.mem_add.mp ht with ht | ht
    · rintro rfl
      exact hclear t (mem_takenBy.mp ht) a ha hp
    · exact hcond.2 t ht a ha

theorem SweepInv.condemn (hnamed : ∀ a, w.ManifestNames a → a.pieceID ≠ p)
    (htaken : ∀ t, .taken t ∈ T → ∀ a, t.mentions a = true → a.pieceID ≠ p) :
    SweepInv lost w (condemnedBy (some p) + T) := by
  have htaken' : ∀ t, .taken t ∈ condemnedBy (some p) + T → .taken t ∈ T :=
    fun t ht => (Multiset.mem_add.mp ht).resolve_left taken_not_mem_condemnedBy
  constructor
  · exact hw.named
  · exact fun t ht => hw.taken t (htaken' t ht)
  · intro q hq
    rcases Multiset.mem_add.mp hq with hq | hq
    · rw [← Option.some.inj (mem_condemnedBy.mp hq)]
      exact ⟨hnamed, fun t ht => htaken t (htaken' t ht)⟩
    · have hcond := hw.condemned q hq
      exact ⟨hcond.1, fun t ht => hcond.2 t (htaken' t ht)⟩

theorem SweepInv.storePiece (a : PieceAddr) (body : Bytes) :
    SweepInv lost { w with pieces := w.pieces.insert a body } T := by
  constructor
  · exact fun b hb => (hw.named b hb).imp_left fun hstored => hstored.insertPiece a body
  · exact fun t ht b hb => (hw.taken t ht b hb).insertPiece a body
  · exact hw.condemned

theorem SweepInv.deletePiece {a : PieceAddr}
    (hnamed : ¬ w.ManifestNames a) (htaken : ∀ t, .taken t ∈ T → t.mentions a = false) :
    SweepInv lost (w.deletePiece a) T := by
  constructor
  · intro b hb
    have hba : b ≠ a := by
      rintro rfl
      exact hnamed hb
    exact (hw.named b hb).imp_left fun hstored => hstored.deletePiece hba
  · intro t ht b hb
    have hba : b ≠ a := by
      rintro rfl
      rw [htaken t ht] at hb
      exact absurd hb (by decide)
    exact (hw.taken t ht b hb).deletePiece hba
  · exact hw.condemned

theorem SweepInv.putManifest {mk : ManifestKey} {m : ObjectManifest}
    (hstored : ∀ a ∈ m.addrs, w.Stored a)
    (hclear : ∀ a ∈ m.addrs, .condemned a.pieceID ∉ T) :
    SweepInv lost { w with manifests := w.manifests.put mk m } T := by
  have hnames : ∀ a, World.ManifestNames { w with manifests := w.manifests.put mk m } a →
      w.ManifestNames a ∨ a ∈ m.addrs := by
    rintro a ⟨mk', m', hm', ha⟩
    rw [ManifestStore.lookup_put] at hm'
    by_cases hmk : mk' = mk
    · rw [if_pos hmk] at hm'
      rw [← Option.some.inj hm'] at ha
      exact Or.inr ha
    · rw [if_neg hmk] at hm'
      exact Or.inl ⟨mk', m', hm', ha⟩
  constructor
  · intro a ha
    rcases hnames a ha with ha | ha
    · exact hw.named a ha
    · exact Or.inl (hstored a ha)
  · exact hw.taken
  · intro p hp
    have hcond := hw.condemned p hp
    refine ⟨fun a ha => ?_, hcond.2⟩
    rcases hnames a ha with ha | ha
    · exact hcond.1 a ha
    · rintro rfl
      exact hclear a ha hp

end

end

/-! ## 2. The steps -/

def NoMoreHeld (o' o : Option Hold) : Prop :=
  ∀ t', o' = some t' → ∃ t, o = some t ∧ ∀ a, t'.mentions a = true → t.mentions a = true

theorem NoMoreHeld.refl (o : Option Hold) : NoMoreHeld o o :=
  fun t ht => ⟨t, ht, fun _ ha => ha⟩

theorem NoMoreHeld.none (o : Option Hold) : NoMoreHeld .none o :=
  fun _ ht => absurd ht (by simp)

theorem noMoreHeld_dropPiece (o : Option Hold) : NoMoreHeld (Hold.dropPiece o) o := by
  rcases o with - | (a | ⟨k, as⟩ | ⟨k, a⟩ | ⟨k, as⟩ | as)
  · exact NoMoreHeld.refl none
  · exact NoMoreHeld.none _
  · exact NoMoreHeld.refl _
  · intro t' ht'
    rw [← Option.some.inj ht']
    exact ⟨_, rfl, fun b hb => absurd hb (by simp [Hold.mentions])⟩
  · exact NoMoreHeld.refl _
  · exact NoMoreHeld.refl _

theorem noMoreHeld_giveRef (left : Int) (o : Option Hold) :
    NoMoreHeld (Hold.giveRef left o) o := by
  rcases o with - | (a | ⟨k, as⟩ | ⟨k, a⟩ | ⟨k, as⟩ | as)
  case some.counted =>
    intro t' ht'
    by_cases hleft : left = 0
    · rw [Hold.giveRef, if_pos hleft] at ht'
      rw [← Option.some.inj ht']
      exact ⟨_, rfl, fun _ hb => hb⟩
    · rw [Hold.giveRef, if_neg hleft] at ht'
      exact absurd ht' (by simp)
  all_goals exact NoMoreHeld.refl _

variable {β : Type}

section

variable {lost : PieceAddr → Prop} {providers : String → Option Provider} {x : Choice} {w : World}
  {R : Multiset SweepHold} {h : History Call}

theorem SweepInv.lessHeld {o o' : Option Hold} {q q' : Option String}
    (hw : SweepInv lost w (takenBy o + condemnedBy q + R)) (ho : NoMoreHeld o' o)
    (hq : q' = q ∨ q' = none) : SweepInv lost w (takenBy o' + condemnedBy q' + R) := by
  have hle : condemnedBy q' + R ≤ takenBy o + condemnedBy q + R := by
    rw [add_assoc]
    rcases hq with rfl | rfl
    · exact Multiset.le_add_left _ _
    · rw [condemnedBy, Option.elim_none, zero_add]
      exact (Multiset.le_add_left R _).trans (Multiset.le_add_left _ _)
  rw [add_assoc]
  apply (hw.anti hle).take
  · intro t' ht' a ha
    rcases ho t' ht' with ⟨t, rfl, hsub⟩
    exact hw.taken t (by simp [takenBy]) a (hsub a ha)
  · intro t' ht' a ha hp
    rcases ho t' ht' with ⟨t, rfl, hsub⟩
    exact (hw.condemned _ (Multiset.mem_of_le hle hp)).2 t (by simp [takenBy]) a (hsub a ha) rfl

theorem SweepInv.takeUp {o o' : Option Hold} {q : Option String}
    (hw : SweepInv lost w (takenBy o + condemnedBy q + R))
    (ho : ∀ t, o' = some t → ∀ a, t.mentions a = true →
      w.Stored a ∧ .condemned a.pieceID ∉ takenBy o + condemnedBy q + R) :
    SweepInv lost w (takenBy o' + condemnedBy q + R) := by
  have hle : condemnedBy q + R ≤ takenBy o + condemnedBy q + R := by
    rw [add_assoc]
    exact Multiset.le_add_left _ _
  rw [add_assoc]
  apply (hw.anti hle).take
  · exact fun t ht a ha => (ho t ht a ha).1
  · exact fun t ht a ha hp => (ho t ht a ha).2 (Multiset.mem_of_le hle hp)

theorem SweepInv.failed {c : Call β} {b : β} (hb : World.failure c = some b)
    (hw : SweepInv lost w (sweepHeld h + R)) : SweepInv lost w (sweepHeld (⟨c, b⟩ :: h) + R) := by
  cases c with
  | deletePiece a => exact hw.lessHeld (noMoreHeld_dropPiece _) (Or.inr rfl)
  | hasManifestWithPieceID | indexDecrementRef =>
    obtain rfl := Option.some.inj hb
    exact hw.lessHeld (NoMoreHeld.refl _) (Or.inr rfl)
  | _ =>
    first
    | obtain rfl := Option.some.inj hb
      exact hw
    | exact absurd hb (by simp [World.failure])

theorem SweepInv.written {a : PieceAddr} {body : Bytes}
    (hw : SweepInv lost w (sweepHeld h + R)) (hcond : .condemned a.pieceID ∉ sweepHeld h + R) :
    SweepInv lost { w with pieces := w.pieces.insert a body }
      (takenBy (some (.own a)) + condemnedBy (condemnedPiece h) + R) := by
  apply (hw.storePiece a body).takeUp
  intro t ht b hb
  rw [← Option.some.inj ht] at hb
  have hab : b = a := by simpa [Hold.mentions, eq_comm] using hb
  rw [hab]
  refine ⟨?_, hcond⟩
  unfold World.Stored
  rw [FMap.lookup_insert_ite, if_pos rfl]
  rfl

section

variable (hw : SweepInv lost w (takenBy (holding h) + condemnedBy (condemnedPiece h) + R))
include hw

theorem SweepInv.countedUp {k : IndexKey}
    (hcond : ∀ a ∈ claimed h, w.Stored a ∧ .condemned a.pieceID ∉ sweepHeld h + R) :
    SweepInv lost w
      (takenBy (Hold.takeRef k (claimed h) (holding h)) + condemnedBy (condemnedPiece h) + R) := by
  have hhit : SweepInv lost w
      (takenBy (some (.counted k (claimed h))) + condemnedBy (condemnedPiece h) + R) := by
    apply hw.takeUp
    intro t ht a ha
    rw [← Option.some.inj ht] at ha
    exact hcond a (by simpa [Hold.mentions] using ha)
  rcases hold : holding h with - | (a | ⟨k', as⟩ | ⟨k', a⟩ | ⟨k', as⟩ | as)
  case some.own =>
    rw [hold] at hw
    apply hw.lessHeld _ (Or.inl rfl)
    intro t' ht'
    rw [← Option.some.inj ht']
    exact ⟨_, rfl, fun _ hb => hb⟩
  all_goals exact hhit

theorem SweepInv.sawRow {k : IndexKey} {e : ContentIndexEntry}
    (hcond : (∃ k', holding h = some (.counted k' [])) →
      w.Stored e.addr ∧ .condemned e.pieceID ∉ sweepHeld h + R) :
    SweepInv lost w
      (takenBy (Hold.seeRow k e (holding h)) + condemnedBy (condemnedPiece h) + R) := by
  rcases hold : holding h with - | (a | ⟨k', as⟩ | ⟨k', a⟩ | ⟨k', as⟩ | as)
  case some.counted =>
    cases as with
    | cons a as =>
      rw [hold] at hw
      exact hw
    | nil => ?_
    have hcond := hcond ⟨k', hold⟩
    apply hw.takeUp
    intro t ht a ha
    rw [← Option.some.inj ht] at ha
    by_cases hk : k' = k
    · have hae : a = e.addr := by simpa [Hold.mentions, hk] using ha
      rw [hae]
      exact hcond
    · simp [Hold.mentions, hk] at ha
  all_goals
    rw [hold] at hw
    exact hw

end

theorem putting_step (i : Nat) (c : Call β) (hpre : puttingSpec.pre h c)
    (hw : SweepInv lost w (sweepHeld h + R)) (hcond : sweepUndisturbed i h c x w R) :
    puttingSpec.post h c (World.exec providers x c w).1 ∧
      SweepInv lost (World.exec providers x c w).2
        (sweepHeld (⟨c, (World.exec providers x c w).1⟩ :: h) + R) := by
  cases c with
  | manifestPut k m =>
    rcases hpre with ⟨-, as, hhold, has⟩
    refine ⟨trivial, ?_⟩
    let t : Hold := .counted ⟨k.tenantID, m.contentHash⟩ as
    have htaken : .taken t ∈ sweepHeld h + R := by simp [sweepHeld, hhold, takenBy, t]
    have hmention : ∀ a ∈ m.addrs, t.mentions a = true :=
      fun a ha => decide_eq_true (has a ha)
    have hput : SweepInv lost { w with manifests := w.manifests.put k m } (sweepHeld h + R) := by
      apply hw.putManifest
      · exact fun a ha => hw.taken t htaken a (hmention a ha)
      · exact fun a ha hp => (hw.condemned _ hp).2 t htaken a (hmention a ha) rfl
    exact hput.lessHeld (NoMoreHeld.none _) (Or.inl rfl)
  | indexRegister e =>
    refine ⟨trivial, ?_⟩
    simp only [World.exec]
    rcases w.index.register_cases e with ⟨-, hreg⟩ | ⟨-, hreg⟩
    · rw [hreg]
      exact hw
    rw [hreg]
    unfold sweepHeld at hw
    rw [hpre.2] at hw
    apply (hw.anyIndex _).lessHeld _ (Or.inl rfl)
    intro t' ht'
    rw [← Option.some.inj ht']
    exact ⟨_, rfl, fun a ha => by simpa [Hold.mentions, eq_comm] using ha⟩
  | indexIncrementRef k =>
    refine ⟨trivial, ?_⟩
    simp only [World.exec]
    rcases w.index.incrementRef_cases k with ⟨-, hinc⟩ | ⟨e, -, hinc⟩
    · rw [hinc]
      exact hw
    · rw [hinc]
      exact (hw.countedUp hcond).anyIndex _
  | indexDecrementRef k =>
    refine ⟨trivial, ?_⟩
    simp only [World.exec]
    rcases w.index.decrementRef_cases k with ⟨-, hdec⟩ | ⟨e, -, -, hdec⟩ | ⟨e, -, -, hdec⟩
    · rw [hdec]
      exact hw.lessHeld (NoMoreHeld.refl _) (Or.inr rfl)
    · rw [hdec]
      exact hw.lessHeld (NoMoreHeld.refl _) (Or.inr rfl)
    · rw [hdec]
      exact (hw.anyIndex _).lessHeld (noMoreHeld_giveRef _ _) (Or.inr rfl)
  | indexLookup k =>
    refine ⟨trivial, ?_⟩
    simp only [World.exec]
    cases hlook : w.index.lookup k with
    | error e => exact hw
    | ok e =>
      exact hw.sawRow fun hwaits => hcond hwaits e (ContentIndex.lookup_eq_ok.mp hlook)
  | putPiece a body =>
    refine ⟨fun res hres => World.putPiece_pieceID hres, ?_⟩
    simp only [World.exec, World.putPiece]
    cases providers a.backend with
    | none => exact hw
    | some p => exact hw.written hcond
  | deletePiece a =>
    refine ⟨trivial, ?_⟩
    have hholds : holding h ≠ none := by
      rcases hpre with hown | ⟨k, hraced⟩
      · simp [hown]
      · simp [hraced]
    have hclear := hcond hholds
    apply (hw.lessHeld (noMoreHeld_dropPiece _) (Or.inr rfl)).deletePiece hclear.1
    intro t ht
    rcases Multiset.mem_add.mp ht with ht | ht
    · -- what is left in hand is at most a reference
      have ht : Hold.dropPiece (holding h) = some t :=
        mem_takenBy.mp ((Multiset.mem_add.mp ht).resolve_right taken_not_mem_condemnedBy)
      rcases hpre with hown | ⟨k, hraced⟩
      · rw [hown] at ht
        exact absurd ht (by simp [Hold.dropPiece])
      · rw [hraced] at ht
        rw [← Option.some.inj ht]
        simp [Hold.mentions]
    · exact hclear.2 t ht
  | now | getVersioning | getObjectLock | getEncryption | legalHoldActive
  | getPiece => exact ⟨trivial, hw⟩
  | _ => exact absurd hpre (by simp [puttingSpec, inspects])

theorem sweeping_step (i : Nat) (c : Call β) (hpre : sweepingSpec.pre h c)
    (hw : SweepInv lost w (sweepHeld h + R)) (hcond : sweepUndisturbed i h c x w R) :
    SweepInv lost (World.exec providers x c w).2
      (sweepHeld (⟨c, (World.exec providers x c w).1⟩ :: h) + R) := by
  have hempty := hpre.1
  have hR : SweepInv lost w R := hw.anti (Multiset.le_add_left R _)
  cases c with
  | hasManifestWithPieceID t p =>
    cases hfound : w.manifests.hasManifestWithPieceID t p with
    | true =>
      simp only [World.exec, hfound]
      exact hw.lessHeld (NoMoreHeld.refl _) (Or.inr rfl)
    | false => ?_
    simp only [World.exec, hfound]
    change SweepInv lost w (takenBy (holding h) + condemnedBy (some p) + R)
    rw [hempty, takenBy, Option.elim_none, zero_add]
    exact hR.condemn (hcond hfound).1 (hcond hfound).2
  | deletePiece a =>
    have hcondemned : .condemned a.pieceID ∈ sweepHeld h + R := by
      simp [sweepHeld, hpre.2, condemnedBy]
    have hclear := hw.condemned _ hcondemned
    change SweepInv lost _ (takenBy (Hold.dropPiece (holding h)) + condemnedBy none + R)
    rw [hempty]
    simp only [Hold.dropPiece, takenBy, condemnedBy, Option.elim_none, zero_add]
    apply hR.deletePiece
    · exact fun hnames => hclear.1 a hnames rfl
    · intro t ht
      rw [Bool.eq_false_iff]
      exact fun ha => hclear.2 t (Multiset.mem_add.mpr (Or.inr ht)) a ha rfl
  | indexDecrementRef k =>
    refine SweepInv.lessHeld (hw.anyIndex _) ?_ (Or.inr rfl)
    rw [holding, hempty]
    cases (World.exec providers x (.indexDecrementRef k) w).1 with
    | error e => exact NoMoreHeld.none _
    | ok n => exact NoMoreHeld.none _
  | indexDelete k =>
    refine SweepInv.lessHeld (hw.anyIndex _) ?_ (Or.inl rfl)
    rw [holding, hempty]
    cases (World.exec providers x (.indexDelete k) w).1 with
    | error e => exact NoMoreHeld.none _
    | ok n => exact NoMoreHeld.none _
  | indexScanAll t => exact hw
  | _ => exact absurd hpre.2 (by simp)

end

/-! ## 3. Sweep and PUTs as one protocol -/

def sweepProtocol (lost : PieceAddr → Prop) : Protocol Call World Choice (Multiset SweepHold) where
  held := sweepHeld
  inv := SweepInv lost
  cond := sweepUndisturbed
  spec
    | 0 => sweepingSpec
    | _ + 1 => puttingSpec

theorem sweepProtocol_sound (lost : PieceAddr → Prop) (providers : String → Option Provider) :
    (sweepProtocol lost).Sound (machine providers) := by
  constructor
  · intro β i h c x w R hpre hw hcond
    rcases machine_exec providers x c w with hexec | ⟨b, hb, hexec⟩
    · rw [hexec]
      cases i with
      | zero => exact ⟨trivial, sweeping_step 0 c hpre hw hcond⟩
      | succ i => exact putting_step (i + 1) c hpre hw hcond
    · rw [hexec]
      refine ⟨?_, hw.failed hb⟩
      cases i with
      | zero => trivial
      | succ i => ?_
      cases c with
      | putPiece a body =>
        obtain rfl := Option.some.inj hb
        exact fun res hres => absurd hres (by simp)
      | _ => trivial
  · exact fun w r R hw => hw.anti (Multiset.le_add_left R r)

section

variable {cfg : Config} {h : History Call}

theorem dropRow_sweeping (e : ContentIndexEntry) (stats : SweepStats) (hempty : holding h = none) :
    (dropRow e stats).Conforms sweepingSpec (fun h' _ => holding h' = none) h := by
  have hgiven : ∀ b, holding (⟨.indexDecrementRef e.key, b⟩ :: h) = none := by
    intro b
    rw [holding, hempty]
    cases b <;> rfl
  have hdropped : ∀ b b', holding (⟨.indexDelete e.key, b'⟩ ::
      ⟨.indexDecrementRef e.key, b⟩ :: h) = none := by
    intro b b'
    rw [holding, hgiven b]
    cases b' <;> rfl
  refine ⟨⟨hempty, trivial⟩, fun counted _ => ?_⟩
  rcases counted with err | n
  · cases err with
    | invalidRefCount => exact ⟨⟨hgiven _, trivial⟩, fun b _ => hdropped _ b⟩
    | _ => exact hgiven _
  simp only [Proc.ret_bind]
  split
  · refine ⟨⟨hgiven _, trivial⟩, fun b _ => ?_⟩
    cases b with
    | error err => cases err <;> exact hdropped _ _
    | ok u => exact hdropped _ _
  · exact hgiven _

theorem sweepRow_sweeping (e : ContentIndexEntry) (stats : SweepStats) (hempty : holding h = none) :
    (sweepRow cfg e stats).Conforms sweepingSpec (fun h' _ => holding h' = none) h := by
  refine ⟨⟨hempty, trivial⟩, fun found _ => ?_⟩
  have hempty' : holding (⟨.hasManifestWithPieceID e.tenantID e.pieceID, found⟩ :: h) = none :=
    hempty
  rcases found with err | found
  · exact hempty'
  cases found with
  | true => exact hempty'
  | false => ?_
  rcases cfg.providers e.backend with _ | p
  · exact dropRow_sweeping e _ hempty'
  refine ⟨⟨hempty', rfl⟩, fun deleted _ => ?_⟩
  have hempty'' : holding (⟨.deletePiece e.addr, deleted⟩ ::
      ⟨.hasManifestWithPieceID e.tenantID e.pieceID, .ok false⟩ :: h) = none := by
    rw [holding, hempty']
    rfl
  cases deleted with
  | error err => exact hempty''
  | ok u => exact dropRow_sweeping e _ hempty''

theorem sweepRows_sweeping (es : List ContentIndexEntry) (stats : SweepStats)
    (hempty : holding h = none) :
    (sweepRows cfg es stats).Conforms sweepingSpec (fun h' _ => holding h' = none) h := by
  induction es generalizing h stats with
  | nil => exact hempty
  | cons e es ih =>
    apply (sweepRow_sweeping e stats hempty).seq
    exact fun h' stats' hempty' => ih stats' hempty'

theorem sweepTenant_sweeping (tenantID : String) :
    (sweepTenant cfg tenantID).Conforms sweepingSpec (fun h' _ => holding h' = none) [] := by
  refine ⟨⟨rfl, trivial⟩, fun b _ => ?_⟩
  cases b with
  | error err => rfl
  | ok entries => exact sweepRows_sweeping entries _ rfl

end

/-! ## 4. Runs -/

structure DedupedPut where
  request : PutRequest
  backend : String
  policy : PlacementPolicy

def sweepPool (cfg : Config) (w : World) (tenantID : String) (puts : List DedupedPut) :
    Pool Call (SweepStats ⊕ Response) World :=
  Pool.start w ((sweepTenant cfg tenantID).bind (fun stats => .ret (.inl stats)) ::
    puts.map fun r => (putDeduped cfg r.request r.backend r.policy).bind fun a => .ret (.inr a))

def World.Lost (w : World) (a : PieceAddr) : Prop := w.ManifestNames a ∧ ¬ w.Stored a

theorem sweepPool_good (cfg : Config) (w : World) (tenantID : String) (puts : List DedupedPut) :
    (sweepProtocol w.Lost).Good (fun _ _ _ => True) (sweepPool cfg w tenantID puts) := by
  apply Protocol.good_start rfl
  · constructor
    · intro a ha
      by_cases hstored : w.Stored a
      · exact Or.inl hstored
      · exact Or.inr ⟨ha, hstored⟩
    · exact fun t ht => absurd ht (Multiset.notMem_zero _)
    · exact fun p hp => absurd hp (Multiset.notMem_zero _)
  · intro i p hp
    cases i with
    | zero =>
      rw [← Option.some.inj hp]
      exact (sweepTenant_sweeping tenantID).seq fun _ _ _ => trivial
    | succ i => ?_
    rw [List.getElem?_cons_succ, List.getElem?_map, Option.map_eq_some_iff] at hp
    rcases hp with ⟨r, -, rfl⟩
    exact (putDeduped_conforms r.request r.backend r.policy).seq fun _ _ _ => trivial

/-- Every piece that a manifest names after a run is on its backend, unless it was missing before
the run. -/
theorem swept_pieces_kept_of_undisturbed (cfg : Config) (w : World) (tenantID : String)
    (puts : List DedupedPut) (mvs : List (Nat × Choice))
    (hmvs : (sweepPool cfg w tenantID puts).Meets sweepHeld (machine cfg.providers)
      sweepUndisturbed mvs) (a : PieceAddr) :
    ((sweepPool cfg w tenantID puts).run (machine cfg.providers) mvs).shared.Lost a → w.Lost a := by
  rintro ⟨hnames, hmissing⟩
  have hgood := (sweepProtocol_sound w.Lost cfg.providers).run
    (sweepPool_good cfg w tenantID puts) hmvs
  exact (hgood.inv.named a hnames).resolve_left hmissing

def sampleContent : IndexKey :=
  ⟨"tenant", "blake3:17762fddd969a453925d65717ac3eea21320b66b54342fde15128d6caf21215f"⟩

/-- A sweep that finds an abandoned row and the row of a PUT.  The PUT has stored its manifest
before the sweep comes to its row. -/
def sweepAroundPut : List (Nat × Choice) :=
  List.replicate 4 (1, sampleClock 0) ++
    (0, { order := [⟨"tenant", "blake3:61"⟩, sampleContent] }) :: List.replicate 4 (0, sampleClock 1) ++
    List.replicate 4 (1, sampleClock 1) ++ [(0, sampleClock 2)]

theorem swept_pieces_kept_around_put :
    let P := (sweepPool sampleGateway (abandonedWorld 1) "tenant"
      [⟨samplePut, "backend", dedupPolicy⟩]).run (machine sampleGateway.providers) sweepAroundPut
    ¬ P.shared.Stored ⟨"backend", "piece"⟩ ∧ ∀ a, P.shared.Lost a → (abandonedWorld 1).Lost a := by
  refine ⟨by decide +kernel, swept_pieces_kept_of_undisturbed sampleGateway (abandonedWorld 1)
    "tenant" _ sweepAroundPut ?_⟩
  refine ⟨?_, trivial, ?_, trivial, trivial, ?_, ?_, trivial, trivial, trivial, trivial, trivial,
    trivial, ?_, trivial⟩
  · rintro ⟨k, hk⟩
    exact absurd hk (by simp [holding])
  · exact Multiset.notMem_zero _
  · -- the probe of the abandoned row: the PUT has another piece in hand
    intro _
    refine ⟨?_, ?_⟩
    · rintro a ⟨mk, m, hm, ha⟩
      have hm : sampleWorld.manifests.byKey.lookup mk = some m := hm
      rw [sampleWorld, ManifestStore.lookup_put] at hm
      by_cases hmk : mk = sampleKey "v1"
      · rw [if_pos hmk] at hm
        rw [← Option.some.inj hm] at ha
        exact absurd ha (by simp [ObjectManifest.addrs, sampleManifest])
      · rw [if_neg hmk] at hm
        exact absurd hm (by simp)
    · intro t ht a ha
      have ht : SweepHold.taken t ∈ ({.taken (.counted sampleContent [⟨"backend",
          "496f2c1e6f3c276d2ff1d54b6f98ce9a6db83f762717accce163b4839d93e222"⟩])} :
            Multiset SweepHold) := ht
      rw [Multiset.mem_singleton] at ht
      rw [SweepHold.taken.inj ht] at ha
      have haddr : a = _ := List.mem_singleton.mp (of_decide_eq_true ha)
      rw [haddr]
      decide
  · intro hhold
    exact absurd rfl hhold
  · intro hfound
    exact absurd hfound (by decide +kernel)

/-- The sweep comes between the PUT's registration of its row and its manifest. -/
def sweepInsidePut : List (Nat × Choice) :=
  List.replicate 4 (1, sampleClock 0) ++
    (0, { order := [sampleContent] }) :: List.replicate 4 (0, sampleClock 1) ++
    List.replicate 4 (1, sampleClock 1)

theorem swept_piece_lost :
    let P := (sweepPool sampleGateway {} "tenant" [⟨samplePut, "backend", dedupPolicy⟩]).run
      (machine sampleGateway.providers) sweepInsidePut
    ¬ ∀ a, P.shared.Lost a → ({} : World).Lost a := by
  intro P hkept
  let v := "496f2c1e6f3c276d2ff1d54b6f98ce9a6db83f762717accce163b4839d93e222"
  have hlost : P.shared.Lost ⟨"backend", v⟩ := by
    refine ⟨⟨sampleKey "3505da939d0acad72ce179ea469d2c69f94b5a6c4b01464e0deac7b112b0f088", _, rfl,
      ?_⟩, by decide +kernel⟩
    decide +kernel
  rcases hkept _ hlost with ⟨⟨mk, m, hm, -⟩, -⟩
  exact absurd hm (by simp)

end ObjectFabric
