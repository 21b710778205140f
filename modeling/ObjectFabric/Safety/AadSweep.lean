import ObjectFabric.Gateway.Sample
import ObjectFabric.Interleaving.Sequential
import ObjectFabric.Workers.AadMigrator

/-!
# AadSweep — what sealing old objects again leaves as it was

The sweep stores a migrated manifest with `Put`, which makes its version the latest of its key.  So
a sweep leaves every key with the latest version it had exactly when each version that can be
migrated is the latest one already.  The contents survive: a migrated version opens to the same
plaintext under its new piece, and no other version uses the piece that is deleted.
-/

namespace ObjectFabric

open Interleaving

/-! ## 1. The plaintext of a version -/

def readPlaintext (cfg : Config) (m : ObjectManifest) : Proc Call (Except Response Bytes) :=
  if m.isErasureCoded then
    reconstructErasureCoded cfg m
  else if m.isMultipart then do
    match ← reconstructMultipart cfg m with
    | .error response => return .error response
    | .ok bodies => return .ok bodies.flatten
  else
    match m.pieces with
    | [] => reconstructError 500 "EmptyManifest" "manifest has no pieces"
    | p :: _ => do
      match ← ask (.getPiece p.addr) with
      | .error e => reconstructError 502 "BackendGetFailed" e.text
      | .ok body => return unsealShards cfg m body

def World.plaintext (cfg : Config) (w : World) (m : ObjectManifest) : Except Response Bytes :=
  ((readPlaintext cfg m).run (machine cfg.providers) (fun _ => {}) [] w).1

theorem readPlaintext_reads (cfg : Config) (m : ObjectManifest) :
    (readPlaintext cfg m).Only (readsPieces m.pieces) := by
  unfold readPlaintext
  split
  · exact reconstructErasureCoded_reads cfg m
  split
  · apply (reconstructMultipart_reads cfg m).bind
    intro r
    cases r <;> trivial
  split
  · trivial
  rename_i p ps hpieces
  refine ⟨⟨p, ?_, rfl⟩, fun b => ?_⟩
  · rw [hpieces]
    exact List.mem_cons_self
  · cases b <;> trivial

variable {cfg : Config} {m : ObjectManifest}

theorem plaintext_congr {w w' : World}
    (h : ∀ p ∈ m.pieces, w'.pieces.lookup p.addr = w.pieces.lookup p.addr) :
    w'.plaintext cfg m = w.plaintext cfg m := by
  apply (readPlaintext_reads cfg m).run_congr
  intro β x c hc
  have hquiet := consults_of_inspects (inspects_of_readsPieces hc)
  refine ⟨exec_of_consults hquiet x w', exec_of_consults hquiet x w, ?_⟩
  cases c with
  | getPiece a =>
    obtain ⟨p, hp, rfl⟩ := hc
    have hread : w'.getPiece p.addr = w.getPiece p.addr := by
      unfold World.getPiece
      rw [h p hp]
    simp only [machine]
    cases x.fault <;> simp only [World.failure, World.exec, hread]
  | _ => exact absurd hc id

variable {p : Piece}

theorem plaintext_single {w : World} {body : Bytes}
    (hpiece : m.pieces = [p]) (hwhole : m.isErasureCoded = false)
    (hbody : w.pieces.lookup p.addr = some body) :
    w.plaintext cfg m = unsealShards cfg m body := by
  have hparts : m.isMultipart = false := by
    unfold ObjectManifest.isMultipart
    rw [hpiece]
    rfl
  unfold World.plaintext readPlaintext
  rw [hwhole, hparts, hpiece]
  show (Proc.run _ _ (Proc.bind (.ret (w.getPiece p.addr)) _) _ w).1 = _
  unfold World.getPiece
  rw [hbody]
  rfl

/-- Every key has the latest version it had, and every version the plaintext it had. -/
structure Preserved (cfg : Config) (w w' : World) : Prop where
  latest : ∀ lk, w'.manifests.latest.lookup lk = w.manifests.latest.lookup lk
  versions : ∀ k, Option.Rel (fun m m' => m'.deleteMarker = m.deleteMarker ∧
    w'.plaintext cfg m' = w.plaintext cfg m) (w.manifests.byKey.lookup k) (w'.manifests.byKey.lookup k)

/-! ## 2. Versions that can be migrated -/

def Config.mintedID (cfg : Config) (m : ObjectManifest) (now : Time) : String :=
  cfg.newPieceID m.tenantID m.bucket m.objectKey now

structure Migrates (cfg : Config) (w : World) (k : ManifestKey) (m : ObjectManifest) (p : Piece)
    (body plaintext : Bytes) (entropy : Nat) (newBody : Bytes) (wrapped : WrappedDEK) : Prop where
  stored : w.manifests.byKey.lookup k = some m
  eligible : eligibility m = .migrated
  piece : m.pieces = [p]
  provider : (cfg.providers p.backend).isSome = true
  found : w.pieces.lookup p.addr = some body
  fits : ¬ maxInMemoryObjectBytes < body.length
  opened : cfg.decryptFromStorage body m.encryption m.aadIdentity = .ok plaintext
  sealed : cfg.encryptForStorage entropy plaintext m.aadIdentity = .ok (newBody, wrapped)

def Migratable (cfg : Config) (w : World) (k : ManifestKey) (m : ObjectManifest) : Prop :=
  ∃ p body plaintext entropy newBody wrapped,
    Migrates cfg w k m p body plaintext entropy newBody wrapped

def FreshClock (cfg : Config) (w : World) (x : Choice) : Prop :=
  ∀ k m, w.manifests.byKey.lookup k = some m → eligibility m = .migrated →
    ∀ k' m', w.manifests.byKey.lookup k' = some m' → ∀ p ∈ m'.pieces,
      p.pieceID ≠ cfg.mintedID m x.now

structure Sweepable (cfg : Config) (w : World) : Prop where
  /-- What the gateway seals it can open. -/
  opens : ∀ entropy plaintext id newBody wrapped (m : ObjectManifest) piece size,
    cfg.encryptForStorage entropy plaintext id = .ok (newBody, wrapped) →
      cfg.decryptFromStorage newBody (m.resealed piece size wrapped).encryption id = .ok plaintext
  /-- A version without a content hash has its piece to itself. -/
  unshared : ∀ k m, w.manifests.byKey.lookup k = some m → eligibility m = .migrated →
    ∀ p ∈ m.pieces, ∀ k' m', w.manifests.byKey.lookup k' = some m' → ∀ p' ∈ m'.pieces,
      p'.addr = p.addr → k' = k
  /-- An erasure-coded version has more than one shard. -/
  whole : ∀ k m, w.manifests.byKey.lookup k = some m → eligibility m = .migrated →
    m.isErasureCoded = false
  /-- Piece IDs minted for different objects are different. -/
  distinct : ∀ k m k' m', w.manifests.byKey.lookup k = some m →
    w.manifests.byKey.lookup k' = some m' → k.latestKey ≠ k'.latestKey →
      ∀ now now', cfg.mintedID m now ≠ cfg.mintedID m' now'
  /-- There is a clock reading the sweep can be run at. -/
  clock : ∃ x, FreshClock cfg w x

theorem FreshClock.of_now {w : World} {x x' : Choice} (h : FreshClock cfg w x)
    (hnow : x'.now = x.now) : FreshClock cfg w x' := by
  intro k m hk hm k' m' hk' p hp
  rw [hnow]
  exact h k m hk hm k' m' hk' p hp

theorem pieces_of_eligible (h : eligibility m = .migrated) :
    m.encryption.mode.isGatewayEncrypted = true ∧ ∃ p, m.pieces = [p] := by
  unfold eligibility at h
  split at h
  · simp at h
  rename_i hmode
  split at h
  · simp at h
  split at h
  · simp at h
  split at h
  · simp at h
  rename_i hlen
  exact ⟨by simpa using hmode, List.length_eq_one_iff.mp (by omega)⟩

variable {k : ManifestKey} {m₀ : ObjectManifest} {x : Choice} {e : Nat} {wrapped : WrappedDEK}

/-! ## 3. The states of a sweep -/

section

variable {cfg : Config} {w₀ w : World}

def Untouched (w₀ w : World) (m₀ m : ObjectManifest) : Prop :=
  m = m₀ ∧ ∀ p ∈ m₀.pieces, w.pieces.lookup p.addr = w₀.pieces.lookup p.addr

def Resealed (cfg : Config) (w₀ w : World) (k : ManifestKey) (m₀ m : ObjectManifest) : Prop :=
  ∃ p body plaintext entropy newBody wrapped x res,
    Migrates cfg w₀ k m₀ p body plaintext entropy newBody wrapped ∧ FreshClock cfg w₀ x ∧
    m = m₀.resealed (resealedPiece cfg p.backend newBody (cfg.mintedID m₀ x.now) res)
      res.sizeBytes wrapped ∧
    w.pieces.lookup ⟨p.backend, cfg.mintedID m₀ x.now⟩ = some newBody

/-- Between two objects of the sweep: the versions at which it has not arrived are untouched. -/
structure Progress (cfg : Config) (w₀ : World) (later : ManifestKey → Prop) (w : World) : Prop where
  latest : ∀ lk, w.manifests.latest.lookup lk = w₀.manifests.latest.lookup lk
  absent : ∀ k, w₀.manifests.byKey.lookup k = none → w.manifests.byKey.lookup k = none
  present : ∀ k m₀, w₀.manifests.byKey.lookup k = some m₀ →
    ∃ m, w.manifests.byKey.lookup k = some m ∧
      (Untouched w₀ w m₀ m ∨ ¬ later k ∧ Resealed cfg w₀ w k m₀ m)

variable {later : ManifestKey → Prop}

theorem Progress.refl (cfg : Config) (w : World) (later : ManifestKey → Prop) :
    Progress cfg w later w :=
  ⟨fun _ => rfl, fun _ h => h, fun _ m₀ h => ⟨m₀, h, Or.inl ⟨rfl, fun _ _ => rfl⟩⟩⟩

theorem Progress.mono {later' : ManifestKey → Prop} (h : Progress cfg w₀ later w)
    (hlater : ∀ k, later' k → later k) : Progress cfg w₀ later' w := by
  refine ⟨h.latest, h.absent, fun k m₀ hk => ?_⟩
  obtain ⟨m, hm, hsame | ⟨hdone, hsealed⟩⟩ := h.present k m₀ hk
  · exact ⟨m, hm, Or.inl hsame⟩
  · exact ⟨m, hm, Or.inr ⟨fun hk' => hdone (hlater k hk'), hsealed⟩⟩

theorem Progress.pending (h : Progress cfg w₀ later w) (hk : later k)
    (hm₀ : w₀.manifests.byKey.lookup k = some m₀) :
    w.manifests.byKey.lookup k = some m₀ ∧
      ∀ p ∈ m₀.pieces, w.pieces.lookup p.addr = w₀.pieces.lookup p.addr := by
  obtain ⟨m, hm, ⟨rfl, hbytes⟩ | ⟨hdone, -⟩⟩ := h.present k m₀ hm₀
  · exact ⟨hm, hbytes⟩
  · exact absurd hk hdone

theorem Progress.cases (h : Progress cfg w₀ later w)
    (hm : w.manifests.byKey.lookup k = some m) :
    ∃ m₀, w₀.manifests.byKey.lookup k = some m₀ ∧
      (Untouched w₀ w m₀ m ∨ ¬ later k ∧ Resealed cfg w₀ w k m₀ m) := by
  rcases hk : w₀.manifests.byKey.lookup k with _ | m₀
  · rw [h.absent k hk] at hm
    simp at hm
  obtain ⟨m', hm', hcases⟩ := h.present k m₀ hk
  rw [hm] at hm'
  obtain rfl := Option.some.inj hm'
  exact ⟨m₀, rfl, hcases⟩

theorem Progress.of_pieces (h : Progress cfg w₀ later w) (w' : World)
    (hmanifests : w'.manifests = w.manifests)
    (hpieces : ∀ k m, w.manifests.byKey.lookup k = some m → ∀ p ∈ m.pieces,
      w'.pieces.lookup p.addr = w.pieces.lookup p.addr) : Progress cfg w₀ later w' := by
  refine ⟨fun lk => ?_, fun k hk => ?_, fun k m₀ hk => ?_⟩
  · rw [hmanifests]
    exact h.latest lk
  · rw [hmanifests]
    exact h.absent k hk
  · obtain ⟨m, hm, hcases⟩ := h.present k m₀ hk
    refine ⟨m, by rw [hmanifests]; exact hm, ?_⟩
    rcases hcases with ⟨rfl, hbytes⟩ | ⟨hdone, p, body, plaintext, e, newBody, wrapped, x, res, hmig,
      hx, rfl, hbytes⟩
    · exact Or.inl ⟨rfl, fun p hp => (hpieces k m hm p hp).trans (hbytes p hp)⟩
    · refine Or.inr ⟨hdone, p, body, plaintext, e, newBody, wrapped, x, res, hmig, hx, rfl, ?_⟩
      rw [← hbytes]
      exact hpieces k _ hm _ List.mem_cons_self

/-- The condition of the main theorem: what can be migrated is the latest of its key. -/
def MigratesLatest (cfg : Config) (w : World) : Prop :=
  ∀ k m, Migratable cfg w k m → w.manifests.latest.lookup k.latestKey = some k

theorem Progress.unused (h : Progress cfg w₀ later w) (hw₀ : Sweepable cfg w₀)
    (hcond : MigratesLatest cfg w₀) (hk : later k)
    (hmig : Migratable cfg w₀ k m₀) (hx : FreshClock cfg w₀ x) {k' : ManifestKey}
    (hm : w.manifests.byKey.lookup k' = some m) (hp : p ∈ m.pieces) :
    p.pieceID ≠ cfg.mintedID m₀ x.now := by
  obtain ⟨q, body, plaintext, e, newBody, wrapped, hm₀⟩ := hmig
  obtain ⟨m₁, hm₁, ⟨rfl, -⟩ | ⟨hdone, q', body', plaintext', e', newBody', wrapped', x', res, hmig', -, rfl, -⟩⟩ :=
    h.cases hm
  · exact hx k m₀ hm₀.stored hm₀.eligible k' m hm₁ p hp
  -- both are the latest version of their keys, so that the keys differ
  have hlatest := hcond k m₀ ⟨q, body, plaintext, e, newBody, wrapped, hm₀⟩
  have hlatest' := hcond k' m₁ ⟨q', body', plaintext', e', newBody', wrapped', hmig'⟩
  have hobject : k'.latestKey ≠ k.latestKey := by
    intro heq
    rw [heq, hlatest] at hlatest'
    rw [← Option.some.inj hlatest'] at hdone
    exact hdone hk
  obtain rfl : p = _ := List.mem_singleton.mp hp
  exact hw₀.distinct k' m₁ k m₀ hm₁ hm₀.stored hobject x'.now x.now

/-! ## 4. One object -/

theorem Progress.insert_unused (h : Progress cfg w₀ later w) {a : PieceAddr} (newBody : Bytes)
    (ha : ∀ k m, w.manifests.byKey.lookup k = some m → ∀ p ∈ m.pieces, p.addr ≠ a) :
    Progress cfg w₀ later { w with pieces := w.pieces.insert a newBody } := by
  apply h.of_pieces { w with pieces := w.pieces.insert a newBody } rfl
  intro k m hm p hp
  show (w.pieces.insert a newBody).lookup p.addr = _
  rw [FMap.lookup_insert_ite, if_neg (ha k m hm p hp)]

theorem Progress.erase_unused (h : Progress cfg w₀ later w) {a : PieceAddr}
    (ha : ∀ k m, w.manifests.byKey.lookup k = some m → ∀ p ∈ m.pieces, p.addr ≠ a) :
    Progress cfg w₀ later (w.deletePiece a) := by
  apply h.of_pieces (w.deletePiece a) rfl
  intro k m hm p hp
  show (w.pieces.erase a).lookup p.addr = _
  rw [FMap.lookup_erase_ite, if_neg (ha k m hm p hp)]

theorem Progress.switch (h : Progress cfg w₀ later w) {m₀ m : ObjectManifest}
    (hm₀ : w₀.manifests.byKey.lookup k = some m₀)
    (hlatest : w₀.manifests.latest.lookup k.latestKey = some k)
    (hsealed : Resealed cfg w₀ w k m₀ m) :
    Progress cfg w₀ (fun k' => later k' ∧ k' ≠ k) { w with manifests := w.manifests.put k m } := by
  have hlook : ∀ k', (w.manifests.put k m).byKey.lookup k' =
      if k' = k then some m else w.manifests.byKey.lookup k' :=
    fun k' => ManifestStore.lookup_put _ _ _ _
  refine ⟨fun lk => ?_, fun k' hk' => ?_, fun k' m' hk' => ?_⟩
  · show (w.manifests.latest.insert k.latestKey k).lookup lk = _
    rw [FMap.lookup_insert_ite]
    by_cases hlk : lk = k.latestKey
    · rw [if_pos hlk, hlk, hlatest]
    · rw [if_neg hlk]
      exact h.latest lk
  · have hne : k' ≠ k := by
      intro heq
      rw [heq, hm₀] at hk'
      simp at hk'
    show (w.manifests.put k m).byKey.lookup k' = none
    rw [hlook, if_neg hne]
    exact h.absent k' hk'
  · show ∃ m'', (w.manifests.put k m).byKey.lookup k' = some m'' ∧ _
    rw [hlook]
    by_cases heq : k' = k
    · obtain rfl : m' = m₀ := by
        rw [heq, hm₀] at hk'
        exact (Option.some.inj hk').symm
      rw [if_pos heq]
      refine ⟨m, rfl, Or.inr ⟨fun hlater => hlater.2 heq, ?_⟩⟩
      rw [heq]
      exact hsealed
    · rw [if_neg heq]
      obtain ⟨m'', hm'', hsame | ⟨hdone, hsealed'⟩⟩ := h.present k' m' hk'
      · exact ⟨m'', hm'', Or.inl hsame⟩
      · exact ⟨m'', hm'', Or.inr ⟨fun hlater => hdone hlater.1, hsealed'⟩⟩

section

variable (hw₀ : Sweepable cfg w₀)
include hw₀

theorem Progress.old_unused {m₀ m : ObjectManifest}
    (hm₀ : w₀.manifests.byKey.lookup k = some m₀) (heligible : eligibility m₀ = .migrated)
    (hpiece : m₀.pieces = [p]) (h : Progress cfg w₀ later w)
    (hswitched : w.manifests.byKey.lookup k = some m) (hsealed : Resealed cfg w₀ w k m₀ m) :
    ∀ k' m', w.manifests.byKey.lookup k' = some m' → ∀ q ∈ m'.pieces, q.addr ≠ p.addr := by
  have hp : p ∈ m₀.pieces := by
    rw [hpiece]
    exact List.mem_singleton_self p
  -- a new piece has an ID that the old versions do not use
  have hnew : ∀ k' m₁ m', w₀.manifests.byKey.lookup k' = some m₁ → Resealed cfg w₀ w k' m₁ m' →
      ∀ q ∈ m'.pieces, q.addr ≠ p.addr := by
    rintro k' m₁ m' hm₁ ⟨p', body, plaintext, e, newBody, wrapped, x, res, hmig, hx, rfl, -⟩ q hq haddr
    obtain rfl : q = _ := List.mem_singleton.mp hq
    exact hx k' m₁ hm₁ hmig.eligible k m₀ hm₀ p hp (congrArg PieceAddr.pieceID haddr).symm
  intro k' m' hm' q hq
  by_cases heq : k' = k
  · obtain rfl : m = m' := by
      rw [heq, hswitched] at hm'
      exact Option.some.inj hm'
    exact hnew k m₀ m hm₀ hsealed q hq
  · obtain ⟨m₁, hm₁, ⟨rfl, -⟩ | ⟨-, hsealed'⟩⟩ := h.cases hm'
    · exact fun haddr => heq (hw₀.unshared k m₀ hm₀ heligible p hp k' m' hm₁ q hq haddr)
    · exact hnew k' m₁ m' hm₁ hsealed' q hq

section

variable (hcond : MigratesLatest cfg w₀)
include hcond

theorem switchManifest_ensures (h : Progress cfg w₀ later w) (hk : later k)
    {body plaintext newBody : Bytes}
    (hmig : Migrates cfg w₀ k m₀ p body plaintext e newBody wrapped)
    (hx : FreshClock cfg w₀ x) :
    (switchManifest cfg k m₀ p newBody wrapped (cfg.mintedID m₀ x.now)).Ensures
      (machine cfg.providers) (FreshClock cfg w₀) w
      fun _ w' => Progress cfg w₀ (fun k' => later k' ∧ k' ≠ k) w' := by
  have hmigratable : Migratable cfg w₀ k m₀ := ⟨p, body, plaintext, e, newBody, wrapped, hmig⟩
  have hunused : ∀ k' m', w.manifests.byKey.lookup k' = some m' → ∀ q ∈ m'.pieces,
      q.addr ≠ ⟨p.backend, cfg.mintedID m₀ x.now⟩ := by
    intro k' m' hm' q hq haddr
    exact h.unused hw₀ hcond hk hmigratable hx hm' hq (congrArg PieceAddr.pieceID haddr)
  intro y _
  rcases putPiece_exec hmig.provider y (cfg.mintedID m₀ x.now) newBody w with ⟨err, hput⟩ | ⟨res, hput⟩
  · rw [hput]
    exact h.mono fun _ hlater => hlater.1
  rw [hput]
  have hinserted := h.insert_unused newBody hunused
  intro z _
  rcases manifestPut_exec cfg.providers z k (m₀.resealed (resealedPiece cfg p.backend newBody
      (cfg.mintedID m₀ x.now) res) res.sizeBytes wrapped) { w with
      pieces := w.pieces.insert ⟨p.backend, cfg.mintedID m₀ x.now⟩ newBody } with ⟨err, hstore⟩ | hstore
  · -- the switch failed: the new piece is taken away again
    rw [hstore]
    intro u _
    rcases deletePiece_exec cfg.providers u ⟨p.backend, cfg.mintedID m₀ x.now⟩ { w with
      pieces := w.pieces.insert ⟨p.backend, cfg.mintedID m₀ x.now⟩ newBody } with ⟨err', hdel⟩ | hdel
    · rw [hdel]
      exact hinserted.mono fun _ hlater => hlater.1
    · rw [hdel]
      exact (hinserted.erase_unused hunused).mono fun _ hlater => hlater.1
  · rw [hstore]
    have hbytes : (w.pieces.insert ⟨p.backend, cfg.mintedID m₀ x.now⟩ newBody).lookup
        ⟨p.backend, cfg.mintedID m₀ x.now⟩ = some newBody := by
      rw [FMap.lookup_insert_ite, if_pos rfl]
    have hswitched := hinserted.switch hmig.stored (hcond k m₀ hmigratable)
      ⟨p, body, plaintext, e, newBody, wrapped, x, res, hmig, hx, rfl, hbytes⟩
    intro u _
    rcases deletePiece_exec cfg.providers u p.addr
      { w with
        manifests := w.manifests.put k (m₀.resealed (resealedPiece cfg p.backend newBody
          (cfg.mintedID m₀ x.now) res) res.sizeBytes wrapped)
        pieces := w.pieces.insert ⟨p.backend, cfg.mintedID m₀ x.now⟩ newBody } with ⟨err', hdel⟩ | hdel
    · rw [hdel]
      exact hswitched
    rw [hdel]
    refine hswitched.erase_unused (Progress.old_unused hw₀ hmig.stored hmig.eligible hmig.piece
      hswitched ?_ ⟨p, body, plaintext, e, newBody, wrapped, x, res, hmig, hx, rfl, hbytes⟩)
    show (w.manifests.put k _).byKey.lookup k = _
    rw [ManifestStore.lookup_put, if_pos rfl]

theorem migrateOne_ensures (h : Progress cfg w₀ later w) (hk : later k)
    (hm₀ : w₀.manifests.byKey.lookup k = some m₀) (e : Nat) :
    (migrateOne cfg e k m₀).Ensures (machine cfg.providers) (FreshClock cfg w₀) w
      fun _ w' => Progress cfg w₀ (fun k' => later k' ∧ k' ≠ k) w' := by
  have hsame : Progress cfg w₀ (fun k' => later k' ∧ k' ≠ k) w := h.mono fun _ hlater => hlater.1
  unfold migrateOne
  split
  · rename_i p ps heligible hpieces
    obtain rfl : ps = [] := by
      obtain ⟨-, q, hq⟩ := pieces_of_eligible heligible
      rw [hpieces] at hq
      exact (List.cons.inj hq).2
    split
    · exact hsame
    rename_i hprovider
    intro x _
    obtain ⟨r, hexec, hread⟩ := getPiece_exec cfg.providers x p.addr w
    rw [hexec]
    rcases r with err | body
    · exact hsame
    have hbody : w₀.pieces.lookup p.addr = some body := by
      rw [← (h.pending hk hm₀).2 p (by rw [hpieces]; exact List.mem_cons_self)]
      exact hread body rfl
    simp only [Proc.ret_bind]
    split
    · exact hsame
    rename_i hfits
    cases hopened : cfg.decryptFromStorage body m₀.encryption m₀.aadIdentity with
    | error message => exact hsame
    | ok plaintext => ?_
    simp only
    rcases hsealed : cfg.encryptForStorage e plaintext m₀.aadIdentity with message | newBody
    · exact hsame
    obtain ⟨newBody, wrapped⟩ := newBody
    have hmig : Migrates cfg w₀ k m₀ p body plaintext e newBody wrapped :=
      { stored := hm₀, eligible := heligible, piece := hpieces, found := hbody, fits := hfits,
        provider := by simpa [Option.isSome_iff_ne_none] using hprovider,
        opened := hopened, sealed := hsealed }
    intro y hy
    rw [now_exec]
    exact switchManifest_ensures hw₀ hcond h hk hmig hy
  · exact hsame

/-! ## 5. The whole sweep -/

theorem sweepObjects_ensures
    (delayed : Bool) (entropy : ManifestKey → Nat) {page : List (ManifestKey × ObjectManifest)}
    (hnodup : (page.map Prod.fst).Nodup)
    (hpage : ∀ k m, (k, m) ∈ page → later k ∧ w₀.manifests.byKey.lookup k = some m)
    (h : Progress cfg w₀ later w) (checks : Nat) (stats : MigrateStats) :
    (sweepObjects cfg delayed entropy checks stats page).Ensures (machine cfg.providers)
      (FreshClock cfg w₀) w
      fun _ w' => Progress cfg w₀ (fun k => later k ∧ k ∉ page.map Prod.fst) w' := by
  induction page generalizing later w checks stats with
  | nil =>
    unfold sweepObjects
    exact h.mono fun _ hlater => hlater.1
  | cons entry page ih => ?_
  obtain ⟨k, m⟩ := entry
  obtain ⟨hk, hm⟩ := hpage k m List.mem_cons_self
  obtain ⟨hnotin, hnodup⟩ := List.nodup_cons.mp hnodup
  cases checks with
  | zero =>
    exact h.mono fun _ hlater => hlater.1
  | succ checks => ?_
  unfold sweepObjects
  apply (migrateOne_ensures hw₀ hcond h hk hm (entropy k)).seq
  intro outcome w' hdone
  have hrest : ∀ k' m', (k', m') ∈ page →
      (later k' ∧ k' ≠ k) ∧ w₀.manifests.byKey.lookup k' = some m' := by
    intro k' m' hmem
    obtain ⟨hk', hm'⟩ := hpage k' m' (List.mem_cons_of_mem _ hmem)
    refine ⟨⟨hk', fun heq => hnotin ?_⟩, hm'⟩
    rw [← heq]
    exact List.mem_map.mpr ⟨(k', m'), hmem, rfl⟩
  have hlist : ∀ k', later k' ∧ k' ∉ ((k, m) :: page).map Prod.fst →
      (later k' ∧ k' ≠ k) ∧ k' ∉ page.map Prod.fst := by
    rintro k' ⟨hk', hnot⟩
    rw [List.map_cons, List.mem_cons, not_or] at hnot
    exact ⟨⟨hk', hnot.1⟩, hnot.2⟩
  have hgo := fun checks stats => (ih hnodup hrest hdone checks stats).mono
    fun _ _ hend => Progress.mono hend hlist
  split
  · cases checks with
    | zero => exact hdone.mono fun k' hk' => (hlist k' hk').1
    | succ checks => exact hgo checks _
  · exact hgo checks _

def Beyond (cursor : Option ManifestKey) (k : ManifestKey) : Prop := ∀ a ∈ cursor, a < k

theorem sweepPages_ensures
    (mig : AADMigratorConfig) (entropy : ManifestKey → Nat) (checks : List Nat)
    (cursor : Option ManifestKey) (stats : MigrateStats) (h : Progress cfg w₀ (Beyond cursor) w) :
    (sweepPages cfg mig entropy checks cursor stats).Ensures (machine cfg.providers)
      (FreshClock cfg w₀) w fun _ w' => Progress cfg w₀ (fun _ => False) w' := by
  induction checks generalizing cursor stats w with
  | nil => exact h.mono fun _ hfalse => absurd hfalse id
  | cons n checks ih => ?_
  intro x _
  rcases manifestScan_exec cfg.providers x cursor mig.pageSize w with ⟨err, hfail⟩ | hok
  · rw [hfail]
    exact h.mono fun _ hfalse => absurd hfalse id
  rw [hok]
  -- the versions of the page are those of the beginning, since the sweep has not come to them
  have hpage : ∀ k m, (k, m) ∈ (w.manifests.scanManifests cursor mig.pageSize).1 →
      Beyond cursor k ∧ w₀.manifests.byKey.lookup k = some m := by
    intro k m hmem
    obtain ⟨hm, hbeyond⟩ := ManifestStore.mem_scanManifests hmem
    obtain ⟨m₀, hm₀, ⟨rfl, -⟩ | ⟨hdone, -⟩⟩ := h.cases hm
    · exact ⟨hbeyond, hm₀⟩
    · exact absurd hbeyond hdone
  have hnext : ∀ next, (w.manifests.scanManifests cursor mig.pageSize).2 = some next → ∀ k,
      Beyond (some next) k → Beyond cursor k ∧
        k ∉ (w.manifests.scanManifests cursor mig.pageSize).1.map Prod.fst := by
    intro next hnext k hk
    obtain ⟨hmem, hlast⟩ := ManifestStore.next_scanManifests hnext
    have hlt : next < k := hk next rfl
    refine ⟨fun a ha => lt_trans ((ManifestStore.mem_scanKeys.mp hmem).2 a ha) hlt, fun hkp => ?_⟩
    exact absurd (hlast k hkp) (not_le_of_gt hlt)
  have hnodup := w.manifests.nodup_scanManifests cursor mig.pageSize
  generalize w.manifests.scanManifests cursor mig.pageSize = result at hpage hnext hnodup
  obtain ⟨page, next⟩ := result
  apply (sweepObjects_ensures hw₀ hcond mig.delayed entropy hnodup hpage h n stats).seq
  rintro ⟨stats', _ | _⟩ w' hdone
  · exact hdone.mono fun _ hfalse => absurd hfalse id
  · cases next with
    | none => exact hdone.mono fun _ hfalse => absurd hfalse id
    | some next => exact ih (some next) stats' (hdone.mono (hnext next rfl))

end

theorem Resealed.plaintext_eq {m₀ m : ObjectManifest}
    (h : Resealed cfg w₀ w k m₀ m) : w.plaintext cfg m = w₀.plaintext cfg m₀ := by
  obtain ⟨p, body, plaintext, e, newBody, wrapped, x, res, hmig, -, rfl, hbytes⟩ := h
  have hgateway := (pieces_of_eligible hmig.eligible).1
  have hunseal : ∀ (m : ObjectManifest) (b : Bytes), m.encryption.mode.isGatewayEncrypted = true →
      cfg.decryptFromStorage b m.encryption m.aadIdentity = .ok plaintext →
      unsealShards cfg m b = .ok plaintext := by
    intro m b hmode hopen
    unfold unsealShards
    rw [hmode, hopen]
    rfl
  have hwhole := hw₀.whole k m₀ hmig.stored hmig.eligible
  rw [plaintext_single (p := resealedPiece cfg p.backend newBody (cfg.mintedID m₀ x.now) res) rfl rfl
      hbytes, plaintext_single hmig.piece hwhole hmig.found, hunseal m₀ body hgateway hmig.opened]
  exact hunseal _ newBody hgateway (hw₀.opens e plaintext m₀.aadIdentity newBody wrapped m₀ _ _ hmig.sealed)

theorem Progress.preserved (h : Progress cfg w₀ later w) :
    Preserved cfg w₀ w := by
  refine ⟨h.latest, fun k => ?_⟩
  rcases hk : w₀.manifests.byKey.lookup k with _ | m₀
  · rw [h.absent k hk]
    exact .none
  obtain ⟨m, hm, ⟨rfl, hbytes⟩ | ⟨-, hsealed⟩⟩ := h.present k m₀ hk
  · rw [hm]
    exact .some ⟨rfl, plaintext_congr hbytes⟩
  rw [hm]
  refine .some ⟨?_, hsealed.plaintext_eq hw₀⟩
  obtain ⟨_, _, _, _, _, _, _, _, _, _, rfl, _⟩ := hsealed
  rfl

end

/-! ## 6. A sweep that migrates one version -/

theorem migrateOne_skips (hx : FreshClock cfg w₀ x) (e : Nat) (k : ManifestKey)
    (m : ObjectManifest) :
    (migrateOne cfg e k m).Admits (machine cfg.providers) (FreshClock cfg w₀) w
      fun outcome w' => w' = w ∧ outcome ≠ .ok .migrated := by
  unfold migrateOne
  split
  · split
    · exact ⟨rfl, by simp⟩
    · exact ⟨{ x with fault := true }, hx.of_now rfl, rfl, by simp⟩
  rename_i hnot
  refine ⟨rfl, fun heq => ?_⟩
  obtain ⟨-, p, hp⟩ := pieces_of_eligible (Except.ok.inj heq)
  exact hnot p [] (Except.ok.inj heq) hp

theorem Migrates.switches
    {body plaintext newBody : Bytes}
    (h : Migrates cfg w k m p body plaintext e newBody wrapped)
    (hx : FreshClock cfg w x) :
    (migrateOne cfg e k m).Admits (machine cfg.providers) (FreshClock cfg w) w
      fun _ w' => w'.manifests.latest.lookup k.latestKey = some k := by
  have hx' : FreshClock cfg w { x with fault := false } := hx.of_now rfl
  obtain ⟨provider, hprovider⟩ := Option.isSome_iff_exists.mp h.provider
  unfold migrateOne
  rw [h.eligible, h.piece]
  simp only
  rw [if_neg (by simp [hprovider])]
  refine ⟨{ x with fault := false }, hx', ?_⟩
  rw [machine_exec_of_no_fault rfl]
  simp only [World.exec, World.getPiece, h.found, Proc.ret_bind]
  rw [if_neg h.fits, h.opened]
  simp only
  rw [h.sealed]
  refine ⟨{ x with fault := false }, hx', ?_⟩
  rw [now_exec]
  refine ⟨{ x with fault := false }, hx', ?_⟩
  rw [machine_exec_of_no_fault rfl]
  simp only [World.exec, World.putPiece, hprovider, Proc.ret_bind]
  refine ⟨{ x with fault := false }, hx', ?_⟩
  refine ⟨{ x with fault := false }, hx', ?_⟩
  show (w.manifests.latest.insert k.latestKey k).lookup k.latestKey = some k
  rw [FMap.lookup_insert_ite, if_pos rfl]

theorem sweepObjects_skips (hx : FreshClock cfg w₀ x) (delayed : Bool)
    (entropy : ManifestKey → Nat) {Q : MigrateStats × Option Unit → World → Prop}
    {rest : List (ManifestKey × ObjectManifest)} {checks : Nat}
    (hrest : ∀ stats, (sweepObjects cfg delayed entropy checks stats rest).Admits
      (machine cfg.providers) (FreshClock cfg w₀) w Q)
    (page : List (ManifestKey × ObjectManifest)) (stats : MigrateStats) :
    (sweepObjects cfg delayed entropy (page.length + checks) stats (page ++ rest)).Admits
      (machine cfg.providers) (FreshClock cfg w₀) w Q := by
  induction page generalizing stats with
  | nil =>
    rw [List.length_nil, Nat.zero_add]
    exact hrest stats
  | cons entry page ih => ?_
  rw [List.length_cons, Nat.add_right_comm]
  obtain ⟨k, m⟩ := entry
  rw [List.cons_append]
  unfold sweepObjects
  apply Proc.Admits.bind
  apply (migrateOne_skips hx (entropy k) k m).mono
  rintro outcome w' ⟨rfl, hout⟩
  rw [if_neg fun hboth => hout hboth.2]
  exact ih _

theorem Migrates.sweepObjects_admits
    {body plaintext newBody : Bytes}
    (h : Migrates cfg w k m p body plaintext e newBody wrapped)
    (hx : FreshClock cfg w x) (delayed : Bool) {page : List (ManifestKey × ObjectManifest)}
    (hmem : (k, m) ∈ page) : ∃ checks, ∀ stats,
      (sweepObjects cfg delayed (fun _ => e) checks stats page).Admits (machine cfg.providers)
        (FreshClock cfg w) w fun _ w' => w'.manifests.latest.lookup k.latestKey = some k := by
  obtain ⟨before, after, rfl⟩ := List.append_of_mem hmem
  refine ⟨before.length + 1, sweepObjects_skips hx delayed _ (fun stats => ?_) before⟩
  apply Proc.Admits.bind
  apply (h.switches hx).mono
  intro outcome w' hlatest
  split
  · exact hlatest
  cases after with
  | nil =>
    exact hlatest
  | cons entry after =>
    exact hlatest

theorem Migrates.sweepPages_admits
    {body plaintext newBody : Bytes}
    (h : Migrates cfg w k m p body plaintext e newBody wrapped)
    (hx : FreshClock cfg w x) (mig : AADMigratorConfig) (cursor : Option ManifestKey)
    (hcursor : Beyond cursor k) : ∃ checks, ∀ stats,
      (sweepPages cfg mig (fun _ => e) checks cursor stats).Admits (machine cfg.providers)
        (FreshClock cfg w) w fun _ w' => w'.manifests.latest.lookup k.latestKey = some k := by
  -- the induction is on the number of versions the scan has still to deliver
  induction hn : (w.manifests.scanKeys cursor).length using Nat.strong_induction_on
    generalizing cursor with
  | _ n ih =>
    have hx' : FreshClock cfg w { x with fault := false } := hx.of_now rfl
    have hscan : k ∈ w.manifests.scanKeys cursor :=
      ManifestStore.mem_scanKeys.mpr ⟨by rw [h.stored]; rfl, hcursor⟩
    -- the first page, with the facts about it that the two cases need
    have hreach := ManifestStore.scanManifests_reaches mig.pageSize hscan
    have hstored : ∀ m', (k, m') ∈ (w.manifests.scanManifests cursor mig.pageSize).1 → m' = m := by
      intro m' hmem
      have hm' := (ManifestStore.mem_scanManifests hmem).1
      rw [h.stored] at hm'
      exact (Option.some.inj hm').symm
    have hfewer : ∀ next, (w.manifests.scanManifests cursor mig.pageSize).2 = some next →
        (w.manifests.scanKeys (some next)).length < (w.manifests.scanKeys cursor).length :=
      fun next hnext => ManifestStore.length_scanKeys_lt (ManifestStore.next_scanManifests hnext).1
    have hexec : (machine cfg.providers).exec { x with fault := false }
        (.manifestScan cursor mig.pageSize) w =
        (.ok (w.manifests.scanManifests cursor mig.pageSize), w) := machine_exec_of_no_fault rfl _ _
    generalize w.manifests.scanManifests cursor mig.pageSize = result at hreach hstored hfewer hexec
    obtain ⟨page, next⟩ := result
    rcases hreach with hpage | ⟨next, rfl, hlt⟩
    · obtain ⟨⟨k', m'⟩, hmem, rfl⟩ := List.mem_map.mp hpage
      rw [hstored m' hmem] at hmem
      obtain ⟨checks, hchecks⟩ := h.sweepObjects_admits hx mig.delayed hmem
      refine ⟨[checks], fun stats => ⟨{ x with fault := false }, hx', ?_⟩⟩
      rw [hexec]
      simp only [Proc.ret_bind]
      apply Proc.Admits.bind
      apply (hchecks stats).mono
      rintro ⟨stats', _ | _⟩ w' hlatest
      · exact hlatest
      · cases next <;> exact hlatest
    · have hbeyond : Beyond (some next) k := by
        intro a ha
        rw [← Option.some.inj ha]
        exact hlt
      obtain ⟨checks, hchecks⟩ := ih _ (hn ▸ hfewer next rfl) (some next) hbeyond rfl
      refine ⟨(page.length + 0) :: checks, fun stats => ⟨{ x with fault := false }, hx', ?_⟩⟩
      rw [hexec]
      simp only [Proc.ret_bind]
      have hnil : ∀ stats, (sweepObjects cfg mig.delayed (fun _ => e) 0 stats []).Admits
          (machine cfg.providers) (FreshClock cfg w) w fun r w' => r.2 = some () ∧ w' = w := by
        intro stats
        exact ⟨rfl, rfl⟩
      have hskip := sweepObjects_skips hx mig.delayed (fun _ => e) hnil page stats
      rw [List.append_nil] at hskip
      apply Proc.Admits.bind
      apply hskip.mono
      rintro ⟨stats', _⟩ w' ⟨rfl, rfl⟩
      exact hchecks stats'

end

/-! ## 7. When a sweep leaves everything as it was -/

/-- Whatever fails on the way and wherever the sweep is cancelled, every key keeps its latest version
and every version its plaintext, exactly when the versions that can be migrated are the latest
of their keys. -/
theorem aadSweep_preserves_iff (cfg : Config) (mig : AADMigratorConfig) (w : World)
    (hw : Sweepable cfg w) :
    (∀ (entropy : ManifestKey → Nat) (checks : List Nat) (x : Nat → Choice),
      (∀ n, FreshClock cfg w (x n)) → Preserved cfg w
        ((aadSweep cfg mig entropy checks).run (machine cfg.providers) x [] w).2.2) ↔
      MigratesLatest cfg w := by
  constructor
  · rintro h k m ⟨p, body, plaintext, e, newBody, wrapped, hmig⟩
    obtain ⟨y, hy⟩ := hw.clock
    have hbeyond : Beyond none k := fun a ha => by simp at ha
    obtain ⟨checks, hchecks⟩ := hmig.sweepPages_admits hy mig none hbeyond
    obtain ⟨x, hx, hend⟩ := (hchecks {}).run hy
    have hlatest := hend []
    rw [← (h (fun _ => e) checks x hx).latest k.latestKey]
    exact hlatest
  · intro hcond entropy checks x hx
    have hstart : Progress cfg w (Beyond none) w := Progress.refl cfg w _
    have hend := (sweepPages_ensures hw hcond mig entropy checks none {} hstart).run hx []
    exact hend.preserved hw

/-! A version sealed without binding, before and after a second one has been written. -/

def oneByteHeader : Bytes := List.replicate 24 0 ++ [0, 0, 0, 17]

/-- The frame of the byte `a` under the zero key, without additional data. -/
def unboundFrame : Bytes :=
  oneByteHeader ++
    [0x19, 0x84, 0x1f, 0x4c, 0x88, 0x66, 0xef, 0xab, 0x6c, 0x6b, 0x53, 0x29, 0xae, 0xf9, 0xe3, 0x67,
      0x52]

/-- The same under the key of ones, bound to the first version of the sample object. -/
def boundFrame : Bytes :=
  oneByteHeader ++
    [0x74, 0xeb, 0x59, 0x0c, 0xc3, 0x55, 0x8c, 0x7d, 0x33, 0xe7, 0xe9, 0x4f, 0x31, 0x07, 0xb2, 0xfc,
      0x1a]

def vaultPrefix : Bytes := [0x76, 0x61, 0x75, 0x6c, 0x74, 0x3a, 0x76, 0x31, 0x3a]

def boundIdentity : AadIdentity := (sampleManifest "v1").aadIdentity

def sealingGateway : Config :=
  { sampleGateway with
    blake3 := fun b =>
      if b = boundFrame then
        [0x5b, 0xc9, 0x96, 0x9f, 0x38, 0x8a, 0xe4, 0xd4, 0x3e, 0xe1, 0x54, 0xd0,
          0x0a, 0x45, 0xb0, 0x3d, 0x04, 0x92, 0xc0, 0x5b, 0x36, 0x85, 0xd8, 0xfb,
          0x05, 0x9b, 0x0f, 0x91, 0x53, 0x54, 0x9d, 0x05]
      else
        b
    generateDEK := fun _ => .ok (List.replicate 32 1)
    encryptObject := fun _ dek enc id b =>
      if dek = List.replicate 32 1 ∧ enc.aadVersion = .v1 ∧ id = boundIdentity ∧ b = [97] then
        .ok boundFrame
      else
        .error "not sampled"
    decryptObject := fun dek enc id b =>
      if dek = List.replicate 32 0 ∧ enc.aadVersion = .legacy ∧ b = unboundFrame then
        .ok [97]
      else if dek = List.replicate 32 1 ∧ enc.aadVersion = .v1 ∧ id = boundIdentity ∧
          b = boundFrame then
        .ok [97]
      else
        .error "message authentication failed"
    encryption := some
      { wrapDEK := fun _ dek => .ok { keyID := "vault", wrappedKey := vaultPrefix ++ dek,
                                      wrapAlgorithm := "vault-transit-wrap-v1" }
        unwrapDEK := fun enc => .ok (enc.wrappedDEK.drop vaultPrefix.length) } }

def unboundPiece : Piece := { pieceID := "piece", backend := "backend", sizeBytes := 45 }

def unboundManifest : ObjectManifest :=
  { sampleManifest "v1" with
    objectSize := 1, chunkSize := 45, pieces := [unboundPiece],
    encryption := { mode := .managed, algorithm := contentAlgorithm, keyID := "vault",
                    wrappedDEK := vaultPrefix ++ List.replicate 32 0,
                    wrapAlgorithm := "vault-transit-wrap-v1" } }

def unboundWorld : World where
  manifests := ({} : ManifestStore).put (sampleKey "v1") unboundManifest
  pieces := (∅ : FMap PieceAddr Bytes).insert unboundPiece.addr unboundFrame

def hiddenWorld : World :=
  { unboundWorld with
    manifests := unboundWorld.manifests.put (sampleKey "v2")
      { sampleManifest "v2" with deleteMarker := true } }

theorem stored_unboundWorld
    (h : unboundWorld.manifests.byKey.lookup k = some m) : k = sampleKey "v1" ∧ m = unboundManifest := by
  rw [show unboundWorld.manifests.byKey.lookup k = _ from ManifestStore.lookup_put _ _ _ _] at h
  by_cases hk : k = sampleKey "v1"
  · rw [if_pos hk] at h
    exact ⟨hk, (Option.some.inj h).symm⟩
  · rw [if_neg hk] at h
    simp at h

theorem freshClock_unboundWorld : FreshClock sealingGateway unboundWorld (sampleClock 0) := by
  intro k m hk _ k' m' hk' p hp
  rw [(stored_unboundWorld hk).2]
  rw [(stored_unboundWorld hk').2] at hp
  rw [List.mem_singleton.mp hp]
  decide +kernel

theorem sweepable_unboundWorld : Sweepable sealingGateway unboundWorld where
  opens := by
    intro e plaintext id newBody wrapped m piece size h
    by_cases hsampled : id = boundIdentity ∧ plaintext = [97]
    · rw [hsampled.1, hsampled.2] at h
      have hseal : sealingGateway.encryptForStorage e [97] boundIdentity =
          .ok (boundFrame, { keyID := "vault", wrappedKey := vaultPrefix ++ List.replicate 32 1,
                             wrapAlgorithm := "vault-transit-wrap-v1" }) := rfl
      obtain ⟨hbody, hwrapped⟩ := Prod.mk.inj (Except.ok.inj (hseal.symm.trans h))
      rw [hsampled.1, hsampled.2, ← hbody, ← hwrapped]
      rfl
    · simp [Config.encryptForStorage, Config.encryptWithDEK, sealingGateway, hsampled,
        Except.mapError, bind, Except.bind] at h
  unshared := by
    intro k m hk _ p _ k' m' hk' _ _ _
    rw [(stored_unboundWorld hk).1, (stored_unboundWorld hk').1]
  whole := by
    intro k m hk _
    rw [(stored_unboundWorld hk).2]
    decide
  distinct := by
    intro k m k' m' hk hk' hne
    rw [(stored_unboundWorld hk).1, (stored_unboundWorld hk').1] at hne
    exact absurd rfl hne
  clock := ⟨sampleClock 0, freshClock_unboundWorld⟩

/-- The sweep over the version alone: it is sealed again, and stays what it was. -/
theorem aadSweep_preserves_sample :
    Sweepable sealingGateway unboundWorld ∧
    Migratable sealingGateway unboundWorld (sampleKey "v1") unboundManifest ∧
    ∀ (entropy : ManifestKey → Nat) (checks : List Nat) (x : Nat → Choice),
      (∀ n, FreshClock sealingGateway unboundWorld (x n)) → Preserved sealingGateway unboundWorld
        ((aadSweep sealingGateway {} entropy checks).run (machine sealingGateway.providers) x []
          unboundWorld).2.2 := by
  refine ⟨sweepable_unboundWorld, ?_, ?_⟩
  · exact ⟨unboundPiece, unboundFrame, [97], 0, boundFrame, _,
      { stored := by decide +kernel, eligible := by decide, piece := rfl, provider := rfl,
        found := by decide +kernel, fits := by decide, opened := by decide +kernel, sealed := rfl }⟩
  apply (aadSweep_preserves_iff sealingGateway {} unboundWorld sweepable_unboundWorld).mpr
  rintro k m ⟨p, body, plaintext, e, newBody, wrapped, hmig⟩
  rw [(stored_unboundWorld hmig.stored).1]
  decide +kernel

/-- The sweep brings back the version that a delete marker hides. -/
theorem aadSweep_unhides :
    ¬ ∀ (entropy : ManifestKey → Nat) (checks : List Nat) (x : Nat → Choice),
      (∀ n, FreshClock sealingGateway hiddenWorld (x n)) → Preserved sealingGateway hiddenWorld
        ((aadSweep sealingGateway {} entropy checks).run (machine sealingGateway.providers) x []
          hiddenWorld).2.2 := by
  intro h
  -- the marker has no piece, and is not migrated
  have hfresh : FreshClock sealingGateway hiddenWorld (sampleClock 0) := by
    intro k m hk hm k' m' hk' p hp
    rw [show hiddenWorld.manifests.byKey.lookup k = _ from ManifestStore.lookup_put _ _ _ _] at hk
    rw [show hiddenWorld.manifests.byKey.lookup k' = _ from ManifestStore.lookup_put _ _ _ _] at hk'
    split at hk
    · rw [← Option.some.inj hk] at hm
      exact absurd hm (by decide)
    split at hk'
    · rw [← Option.some.inj hk'] at hp
      exact absurd hp List.not_mem_nil
    · exact freshClock_unboundWorld k m hk hm k' m' hk' p hp
  have hlatest := (h (fun _ => 0) [2] (fun _ => sampleClock 0) fun _ => hfresh).latest
    (sampleKey "v1").latestKey
  exact absurd hlatest (by decide +kernel)

end ObjectFabric
