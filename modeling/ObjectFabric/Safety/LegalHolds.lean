import ObjectFabric.Gateway.Sample
import ObjectFabric.Safety.Holdings
import ObjectFabric.Workers.Evaluator
import ObjectFabric.Workers.OrphanGC

/-!
# LegalHolds — what is deleted while a compliance hold is active

A hold forbids every removal of the objects it matches: by a client's DELETE, by the lifecycle pass
and by the orphan sweep.  Of the three only DELETE asks the hold store.  A held object is kept as
long as no lifecycle rule removes it; its deduplicated pieces are kept as long as no DELETE gives
back a reference it does not own.
-/

namespace ObjectFabric

open Interleaving

/-! ## 1. The runs -/

inductive Deleter where
  | delete (o : ObjectRef) (bypassGovernance : Bool)
  | evaluate (entry : LifecycleEntry) (pageSize : Int) (pages : Nat)
  | sweep

def Deleter.program (cfg : Config) : Deleter → Proc Call Unit
  | .delete o bypass => do
    let _ ← deleteObject cfg o bypass
  | .evaluate entry pageSize pages => do
    let _ ← evalBucket cfg entry pageSize pages
  | .sweep => do
    let _ ← ObjectFabric.sweep cfg

def HeldVersion (w : World) (hold : LegalHold) (k : ManifestKey) (m : ObjectManifest) : Prop :=
  w.manifests.byKey.lookup k = some m ∧
    hold.matchesObject k.tenantID k.bucket m.objectKey = true

def HeldPiece (w : World) (hold : LegalHold) (a : PieceAddr) : Prop :=
  ∃ k m, HeldVersion w hold k m ∧ a ∈ m.addrs

def HeldRow (cfg : Config) (w : World) (hold : LegalHold) (k : IndexKey) : Prop :=
  cfg.hasContentIndex = true ∧ ∃ mk m, HeldVersion w hold mk m ∧ m.contentHash ≠ "" ∧
    k = ⟨mk.tenantID, m.contentHash⟩

/-- Stores in which versions lie under their own keys, a held piece belongs to nothing but its
object and what is deduplicated with it, and the rows of held objects count every manifest. -/
structure HoldReady (cfg : Config) (w : World) (hold : LegalHold) : Prop where
  tenant : hold.tenantID ≠ ""
  keyed : ∀ k m, w.manifests.byKey.lookup k = some m →
    m.key = k ∧ k.versionID ≠ "" ∧ k.objectKeyHash = cfg.hashObjectKey m.objectKey
  named : ∀ k m, HeldVersion w hold k m → ∀ p ∈ m.pieces, p.pieceID ≠ ""
  shared : ∀ k m k' m' a, HeldVersion w hold k m → w.manifests.byKey.lookup k' = some m' →
    ¬ HeldVersion w hold k' m' → a ∈ m.addrs → a ∈ m'.addrs →
      cfg.hasContentIndex = true ∧ m'.contentHash ≠ "" ∧ k'.tenantID = k.tenantID ∧
        m'.contentHash = m.contentHash
  counted : ∀ k m, HeldVersion w hold k m → cfg.hasContentIndex = true → m.contentHash ≠ "" →
    ∃ e, w.index.rows.lookup ⟨k.tenantID, m.contentHash⟩ = some e ∧ e.addr ∈ m.addrs ∧
      (w.references ⟨k.tenantID, m.contentHash⟩ : Int) ≤ e.refCount
  ownRows : ∀ k m k' e, HeldVersion w hold k m → w.index.rows.lookup k' = some e →
    e.addr ∈ m.addrs → k'.tenantID = k.tenantID

structure Known (w : World) (k : ManifestKey) (m : ObjectManifest) : Prop where
  key : m.key = k
  versionID : k.versionID ≠ ""
  origin : w.manifests.byKey.lookup k = some m ∨
    (w.manifests.byKey.lookup k = none ∧ m.pieces = [] ∧ m.contentHash = "")

variable {k : ManifestKey} {m : ObjectManifest} {entry : LifecycleEntry} {now : Time}
  {e : ContentIndexEntry}

section

variable {cfg : Config} {w : World} {hold : LegalHold}

variable {task : Option Deleter} {h : History Call} {k : ManifestKey} {m : ObjectManifest}

section

variable (hw : HoldReady cfg w hold)
include hw

section

variable (hhash : Function.Injective cfg.hashObjectKey)
include hhash

end

/-! ### The lifecycle pass -/

end

end

/-! ## 4. What every step keeps -/

/-- A state that a run has reached, compared with its start; `T` are the references that are owed. -/
structure Frozen (cfg : Config) (w : World) (hold : LegalHold) (s : World)
    (T : Multiset IndexKey) : Prop where
  holds : s.legalHolds = w.legalHolds
  buckets : s.buckets = w.buckets
  kept : ∀ k m, HeldVersion w hold k m → s.manifests.byKey.lookup k = some m
  known : ∀ k m, s.manifests.byKey.lookup k = some m → Known w k m
  rows : ∀ k e, s.index.rows.lookup k = some e →
    ∃ e₀, w.index.rows.lookup k = some e₀ ∧ e₀.addr = e.addr
  counted : ∀ k, HeldRow cfg w hold k → ∃ e, s.index.rows.lookup k = some e ∧
    (s.references k : Int) + T.count k ≤ e.refCount
  pieces : ∀ a, HeldPiece w hold a → s.pieces.lookup a = w.pieces.lookup a

section

variable {cfg : Config} {w s : World} {hold : LegalHold} {T R : Multiset IndexKey}

section

variable (hs : Frozen cfg w hold s T)
include hs

theorem Frozen.anti (hle : R ≤ T) : Frozen cfg w hold s R := by
  refine { hs with counted := fun k hk => ?_ }
  obtain ⟨e, he, hcount⟩ := hs.counted k hk
  have hfewer := Multiset.count_le_of_le k hle
  exact ⟨e, he, by omega⟩

theorem Frozen.setCount {k : IndexKey} {n : Int} (he : s.index.rows.lookup k = some e)
    (hn : HeldRow cfg w hold k → (s.references k : Int) + T.count k ≤ n) :
    Frozen cfg w hold { s with index := s.index.set { e with refCount := n } } T := by
  have hkey : ContentIndexEntry.key { e with refCount := n } = k := s.index.keyed k e he
  refine ⟨hs.holds, hs.buckets, hs.kept, hs.known, fun k' e' he' => ?_, fun k' hk' => ?_, hs.pieces⟩
  · change (s.index.set { e with refCount := n }).rows.lookup k' = some e' at he'
    rw [ContentIndex.lookup_set, hkey] at he'
    split at he'
    · rename_i heq
      rw [heq, ← Option.some.inj he']
      exact hs.rows k e he
    · exact hs.rows k' e' he'
  · obtain ⟨e', he', hcount⟩ := hs.counted k' hk'
    change ∃ e'', (s.index.set { e with refCount := n }).rows.lookup k' = some e'' ∧ _
    rw [ContentIndex.lookup_set, hkey]
    by_cases heq : k' = k
    · subst heq
      rw [if_pos rfl]
      exact ⟨_, rfl, hn hk'⟩
    · rw [if_neg heq]
      exact ⟨e', he', hcount⟩

theorem Frozen.eraseRow {k : IndexKey} (hk : ¬ HeldRow cfg w hold k) :
    Frozen cfg w hold { s with index := s.index.erase k } T := by
  refine ⟨hs.holds, hs.buckets, hs.kept, hs.known, fun k' e' he' => ?_, fun k' hk' => ?_, hs.pieces⟩
  · change (s.index.erase k).rows.lookup k' = some e' at he'
    rw [ContentIndex.lookup_erase] at he'
    split at he'
    · exact absurd he' (by simp)
    · exact hs.rows k' e' he'
  · obtain ⟨e', he', hcount⟩ := hs.counted k' hk'
    refine ⟨e', ?_, hcount⟩
    change (s.index.erase k).rows.lookup k' = some e'
    rw [ContentIndex.lookup_erase, if_neg ?_]
    · exact he'
    · rintro rfl
      exact hk hk'

theorem Frozen.deletePiece {a : PieceAddr}
    (ha : ¬ HeldPiece w hold a) : Frozen cfg w hold (s.deletePiece a) T := by
  refine { hs with pieces := fun b hb => ?_ }
  change (s.pieces.erase a).lookup b = _
  rw [FMap.lookup_erase_ite, if_neg ?_]
  · exact hs.pieces b hb
  · rintro rfl
    exact ha hb

end

/-! ## 5. Runs -/

variable {tasks : List Deleter} {i : Nat} {h : History Call} {x : Choice}

theorem Frozen.named (hs : Frozen cfg w hold s T) (hw : HoldReady cfg w hold) {t p : String}
    (hnone : s.manifests.hasManifestWithPieceID t p = false)
    (hheld : HeldVersion w hold k m) (htenant : k.tenantID = t) {q : Piece} (hq : q ∈ m.pieces) :
    q.pieceID ≠ p := by
  rintro rfl
  have ht : t ≠ "" := by
    rw [← htenant, ← LegalHold.tenantID_of_matchesObject hheld.2]
    exact hw.tenant
  have hfound := (s.manifests.hasManifestWithPieceID_iff ht (hw.named k m hheld q hq)).mpr
    ⟨k, m, hs.kept k m hheld, htenant, q, hq, rfl⟩
  rw [hnone] at hfound
  exact absurd hfound (by decide)

end

/-! ## 6. A lifecycle rule removes a held object -/

end ObjectFabric
