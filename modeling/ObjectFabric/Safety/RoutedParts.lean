import ObjectFabric.Store.PostgresParts
import ObjectFabric.Streams.Blocks

/-!
# RoutedParts — which parts a completion uses

The rows of an upload hold, for each part, what the last acknowledged `PutPart` on any node wrote.  A
completion does not look at the rows when its node has a session in its cache, and nothing keeps that
session up to date with the other nodes.  Where the session agrees with the rows on the listed parts,
the completion uses the last acknowledged parts.
-/

namespace ObjectFabric

open Interleaving Interleaving.Proc

/-! ## 1. The property and the condition -/

/-- For each listed part the completion uses what the last acknowledged `PutPart` wrote, and refuses
a part only if it was never acknowledged, or was last acknowledged with another ETag. -/
def UsesLastParts (S : RoutedFleet) (r : RoutedCompletion) : Prop :=
  match (S.fleet.complete r).1 with
  | .ok (parts, session) => ∃ used, parts = used.insertionSort (fun a b => a.partNumber ≤ b.partNumber) ∧
      List.Forall₂ (fun ref p => ∃ a, S.acked.lookup (r.id, ref.partNumber) = some a ∧
        p.untimed = a.part.untimed ∧
        nullableBytes (session.partHashes.lookup ref.partNumber) = a.partHash ∧
        nullableBytes (session.plaintextPartHashes.lookup ref.partNumber) = a.plaintextPartHash)
      r.expected used
  | .error .partNotFound => ∃ ref ∈ r.expected, S.acked.lookup (r.id, ref.partNumber) = none
  | .error .partETagMismatch => ∃ ref ∈ r.expected, ∃ a,
      S.acked.lookup (r.id, ref.partNumber) = some a ∧ ref.etag ≠ "" ∧ a.part.etag ≠ "" ∧
      stripQuotes ref.etag ≠ stripQuotes a.part.etag
  | .error _ => True

structure Session.ShowsRow (session row : Session) (n : Int) : Prop where
  part : (session.part? n).map Part.untimed = (row.part? n).map Part.untimed
  partHash : nullableBytes (session.partHashes.lookup n) = row.partHashes.lookup n
  plaintextPartHash :
    nullableBytes (session.plaintextPartHashes.lookup n) = row.plaintextPartHashes.lookup n

/-- If the node has the session in its cache, it shows the listed parts as the rows do. -/
def SessionCurrent (s : PgFleet) (r : RoutedCompletion) : Prop :=
  ∀ session, s.caches.lookup (r.node, r.id) = some session →
    ∃ row, s.rows.lookup r.id = some row ∧ ∀ ref ∈ r.expected, session.ShowsRow row ref.partNumber

/-- The uploads as `Create` leaves them: no part row yet. -/
def JustCreated (s : PgFleet) : Prop :=
  ∀ id row, s.rows.lookup id = some row →
    row.parts = [] ∧ row.partHashes = ∅ ∧ row.plaintextPartHashes = ∅

/-! ## 2. What the calls do -/

/-- The session that `Get` answers with: that of the node, or else the row. -/
def PgFleet.Views (s : PgFleet) (node : Nat) (id : String) (session : Session) : Prop :=
  s.caches.lookup (node, id) = some session ∨
    s.caches.lookup (node, id) = none ∧ s.rows.lookup id = some session

section

variable {s : PgFleet} {faults : Nat → Bool} {node : Nat} {tenantID id : String}

theorem row_eq_some {row : Session} (h : s.row tenantID id = some row) :
    s.rows.lookup id = some row ∧ row.upload.tenantID = tenantID := by
  obtain ⟨hrow, htenant⟩ := Option.filter_eq_some_iff.mp h
  exact ⟨hrow, by simpa using htenant⟩

theorem PgFleet.get_cases (s : PgFleet) (faults : Nat → Bool) (node : Nat) (tenantID id : String) :
    (∃ session s', s.Views node id session ∧ s'.rows = s.rows ∧
      s.get faults node tenantID id = (.ok session, s')) ∨
    ∃ e, e ≠ .partNotFound ∧ e ≠ .partETagMismatch ∧
      s.get faults node tenantID id = (.error e, s) := by
  unfold PgFleet.get PostgresStore.get
  rcases hcached : s.caches.lookup (node, id) with _ | session
  · by_cases hload : faults 1 = true
    · refine Or.inr ⟨.other "unavailable", by decide, by decide, ?_⟩
      simp [Proc.run, ask, pgMachine, PgFleet.exec, hcached, hload]
    rcases hrow : s.row tenantID id with _ | row
    · refine Or.inr ⟨.uploadNotFound, by decide, by decide, ?_⟩
      simp [Proc.run, ask, pgMachine, PgFleet.exec, hcached, hload, hrow]
    obtain ⟨hlookup, htenant⟩ := row_eq_some hrow
    by_cases hparts : faults 2 = true
    · refine Or.inr ⟨.other "unavailable", by decide, by decide, ?_⟩
      simp [Proc.run, ask, pgMachine, PgFleet.exec, hcached, hload, hrow, htenant, hparts]
    · refine Or.inl ⟨row, { s with caches := s.caches.insert (node, id) row },
        Or.inr ⟨hcached, hlookup⟩, rfl, ?_⟩
      simp [Proc.run, ask, pgMachine, PgFleet.exec, hcached, hload, hrow, htenant, hparts]
  · by_cases htenant : session.upload.tenantID = tenantID
    · refine Or.inl ⟨session, s, Or.inl hcached, rfl, ?_⟩
      simp [Proc.run, ask, pgMachine, PgFleet.exec, hcached, htenant]
    · refine Or.inr ⟨.uploadNotFound, by decide, by decide, ?_⟩
      simp [Proc.run, ask, pgMachine, PgFleet.exec, hcached, htenant]

theorem PgFleet.rows_get (s : PgFleet) (faults : Nat → Bool) (node : Nat) (tenantID id : String) :
    (s.get faults node tenantID id).2.rows = s.rows := by
  rcases s.get_cases faults node tenantID id with ⟨session, s', -, hrows, hget⟩ | ⟨e, -, -, hget⟩
  · rw [hget]
    exact hrows
  · rw [hget]

/-- `PutPart` that is acknowledged has written the row of the part; otherwise the rows are as they
were. -/
theorem PgFleet.putPart_cases (keepTime : Time → Time) (s : PgFleet) (faults : Nat → Bool)
    (writeFault : Bool) (node : Nat) (tenantID id : String) (part : Part) :
    (∃ a s' row, s.putPart keepTime faults writeFault node tenantID id part = (.ok a, s') ∧
      a.part = part ∧ s.rows.lookup id = some row ∧
      s'.rows = s.rows.insert id (row.upsert keepTime a)) ∨
    ∃ e s', s.putPart keepTime faults writeFault node tenantID id part = (.error e, s') ∧
      s'.rows = s.rows := by
  unfold PgFleet.putPart
  by_cases hn : part.partNumber ≤ 0
  · exact Or.inr ⟨_, s, if_pos hn, rfl⟩
  rw [if_neg hn]
  have hrows := s.rows_get faults node tenantID id
  rcases hget : s.get faults node tenantID id with ⟨_ | session, s'⟩
  · rw [hget] at hrows
    exact Or.inr ⟨_, s', rfl, hrows⟩
  rw [hget] at hrows
  dsimp only at hrows ⊢
  cases writeFault with
  | true => exact Or.inr ⟨_, s', rfl, hrows⟩
  | false => ?_
  rw [hrows]
  cases hrow : s.rows.lookup id with
  | none => exact Or.inr ⟨_, s', rfl, hrows⟩
  | some row => exact Or.inl ⟨_, _, row, rfl, rfl, rfl, by rw [PgFleet.rows_modifyCached]⟩

theorem PgFleet.uploadPart_cases (keepTime : Time → Time) (s : PgFleet) (r : RoutedPart) :
    (∃ a s' row, s.uploadPart keepTime r = (.ok a, s') ∧ s.rows.lookup r.id = some row ∧
      s'.rows = s.rows.insert r.id (row.upsert keepTime a)) ∨
    ∃ e s', s.uploadPart keepTime r = (.error e, s') ∧ s'.rows = s.rows := by
  unfold PgFleet.uploadPart
  split
  · exact Or.inr ⟨_, s, rfl, rfl⟩
  have hrows := s.rows_get r.faults r.node r.tenantID r.id
  rcases hget : s.get r.faults r.node r.tenantID r.id with ⟨_ | session, s'⟩
  · rw [hget] at hrows
    exact Or.inr ⟨_, s', rfl, hrows⟩
  rw [hget] at hrows
  dsimp only at hrows ⊢
  split
  · exact Or.inr ⟨_, s', rfl, hrows⟩
  split
  · refine Or.inr ⟨_, _, rfl, ?_⟩
    rw [PgFleet.rows_setPlaintextPartHash, hrows]
  -- the digests are recorded in the session of the node only
  have hsame : ((s'.setPlaintextPartHash r.node r.id r.part.partNumber r.plaintextDigest).setPartHash
      r.node r.id r.part.partNumber r.digest).rows = s.rows := by
    rw [PgFleet.rows_setPartHash, PgFleet.rows_setPlaintextPartHash, hrows]
  rcases PgFleet.putPart_cases keepTime _ r.faults r.writeFault r.node r.tenantID r.id r.part with
    ⟨a, s₁, row, hput, -, hrow, hrows₁⟩ | ⟨e, s₁, hput, hrows₁⟩
  · rw [hsame] at hrow hrows₁
    exact Or.inl ⟨a, s₁, row, hput, hrow, hrows₁⟩
  · exact Or.inr ⟨e, s₁, hput, hrows₁.trans hsame⟩

theorem remove_run (s : PgFleet) (faults : Nat → Bool) (node : Nat) (tenantID id : String)
    (h : History PgCall) :
    (((PostgresStore.remove node tenantID id).run pgMachine faults h s).2.2.rows = s.rows ∨
      ((PostgresStore.remove node tenantID id).run pgMachine faults h s).2.2.rows =
        s.rows.erase id) ∧
    (((PostgresStore.remove node tenantID id).run pgMachine faults h s).1 = .ok () ∨
      ((PostgresStore.remove node tenantID id).run pgMachine faults h s).1 =
        .error (.other "unavailable")) := by
  unfold PostgresStore.remove
  by_cases hfault : faults 0 = true
  · simp [Proc.run, ask, pgMachine, PgFleet.exec, hfault]
  · by_cases hrow : (s.row tenantID id).isSome = true
    · simp [Proc.run, ask, pgMachine, PgFleet.exec, hfault, hrow]
    · simp [Proc.run, ask, pgMachine, PgFleet.exec, hfault, hrow]

/-- A completion looks its parts up in the session in view; no row is changed, or that of the upload
is gone. -/
theorem PgFleet.complete_cases (s : PgFleet) (r : RoutedCompletion) :
    ((s.complete r).2.rows = s.rows ∨ (s.complete r).2.rows = s.rows.erase r.id) ∧
    ((∃ session, s.Views r.node r.id session ∧
      ((∃ used, r.expected.mapM (findPart session.parts) = .ok used ∧
        (s.complete r).1 =
          .ok (used.insertionSort (fun a b => a.partNumber ≤ b.partNumber), session)) ∨
      ∃ e, r.expected.mapM (findPart session.parts) = .error e ∧ (s.complete r).1 = .error e)) ∨
    ∃ e, e ≠ .partNotFound ∧ e ≠ .partETagMismatch ∧ (s.complete r).1 = .error e) := by
  unfold PgFleet.complete PostgresStore.complete
  rw [bind_eq]
  obtain ⟨x, hrun⟩ := run_bind pgMachine r.faults (PostgresStore.get r.node r.tenantID r.id) _ [] s
  rw [hrun]
  have hget := s.get_cases r.faults r.node r.tenantID r.id
  unfold PgFleet.get at hget
  generalize (PostgresStore.get r.node r.tenantID r.id).run pgMachine r.faults [] s = g at hget ⊢
  obtain ⟨loaded, h, s'⟩ := g
  rcases hget with ⟨session, s₁, hview, hrows, heq⟩ | ⟨e, hfound, hetag, heq⟩
  · obtain ⟨rfl, rfl⟩ : loaded = .ok session ∧ s' = s₁ := by simpa using heq
    dsimp only
    split
    · exact ⟨Or.inl hrows, Or.inr ⟨.uploadMismatch, by decide, by decide, rfl⟩⟩
    rcases hparts : r.expected.mapM (findPart session.parts) with e | used
    · exact ⟨Or.inl hrows, Or.inl ⟨session, hview, Or.inr ⟨e, hparts, rfl⟩⟩⟩
    dsimp only
    rw [bind_eq]
    obtain ⟨y, hrun'⟩ :=
      run_bind pgMachine x (PostgresStore.remove r.node r.tenantID r.id) _ h s'
    rw [hrun']
    have hremove := remove_run s' x r.node r.tenantID r.id h
    generalize (PostgresStore.remove r.node r.tenantID r.id).run pgMachine x h s' = g at hremove ⊢
    obtain ⟨removed, h', s₂⟩ := g
    rw [hrows] at hremove
    obtain ⟨hafter, hok | hfail⟩ := hremove
    · obtain rfl : removed = .ok () := hok
      exact ⟨hafter, Or.inl ⟨session, hview, Or.inl ⟨used, hparts, rfl⟩⟩⟩
    · obtain rfl : removed = .error (.other "unavailable") := hfail
      exact ⟨hafter, Or.inr ⟨.other "unavailable", by decide, by decide, rfl⟩⟩
  · obtain ⟨rfl, rfl⟩ : loaded = .error e ∧ s' = s := by simpa using heq
    exact ⟨Or.inl rfl, Or.inr ⟨e, hfound, hetag, rfl⟩⟩

end

/-! ## 3. The rows hold what was acknowledged last -/

structure RowsAcked (S : RoutedFleet) : Prop where
  part : ∀ id row, S.fleet.rows.lookup id = some row → ∀ n,
    (row.part? n).map Part.untimed = (S.acked.lookup (id, n)).map fun a => a.part.untimed
  partHash : ∀ id row, S.fleet.rows.lookup id = some row → ∀ n,
    row.partHashes.lookup n = (S.acked.lookup (id, n)).bind AckedPart.partHash
  plaintextPartHash : ∀ id row, S.fleet.rows.lookup id = some row → ∀ n,
    row.plaintextPartHashes.lookup n = (S.acked.lookup (id, n)).bind AckedPart.plaintextPartHash

variable {s : PgFleet}

theorem rowsAcked_start (hs : JustCreated s) : RowsAcked ⟨s, ∅⟩ := by
  refine ⟨fun id row hrow n => ?_, fun id row hrow n => ?_, fun id row hrow n => ?_⟩
  · rw [Session.part?, (hs id row hrow).1]
    rfl
  · rw [(hs id row hrow).2.1]
    rfl
  · rw [(hs id row hrow).2.2]
    rfl

variable {S : RoutedFleet}

theorem RowsAcked.of_rows (hS : RowsAcked S)
    (hrows : ∀ id row, s.rows.lookup id = some row → S.fleet.rows.lookup id = some row) :
    RowsAcked { S with fleet := s } :=
  ⟨fun id row hrow => hS.part id row (hrows id row hrow),
    fun id row hrow => hS.partHash id row (hrows id row hrow),
    fun id row hrow => hS.plaintextPartHash id row (hrows id row hrow)⟩

theorem RowsAcked.upsert (hS : RowsAcked S) {keepTime : Time → Time}
    {id : String} {row : Session} {a : AckedPart} (hrow : S.fleet.rows.lookup id = some row)
    (hrows : s.rows = S.fleet.rows.insert id (row.upsert keepTime a)) :
    RowsAcked ⟨s, S.acked.insert (id, a.part.partNumber) a⟩ := by
  -- the new row, and the rows of the other uploads
  have hcases : ∀ id' row', s.rows.lookup id' = some row' →
      id' = id ∧ row' = row.upsert keepTime a ∨ id' ≠ id ∧ S.fleet.rows.lookup id' = some row' := by
    intro id' row' hrow'
    rw [hrows, FMap.lookup_insert_ite] at hrow'
    by_cases hid : id' = id
    · rw [if_pos hid] at hrow'
      exact Or.inl ⟨hid, (Option.some.inj hrow').symm⟩
    · rw [if_neg hid] at hrow'
      exact Or.inr ⟨hid, hrow'⟩
  have hacked : ∀ id' n, (S.acked.insert (id, a.part.partNumber) a).lookup (id', n) =
      if id' = id ∧ n = a.part.partNumber then some a else S.acked.lookup (id', n) := by
    intro id' n
    rw [FMap.lookup_insert_ite]
    simp only [Prod.mk.injEq]
  refine ⟨fun id' row' hrow' n => ?_, fun id' row' hrow' n => ?_, fun id' row' hrow' n => ?_⟩
  · rw [hacked]
    rcases hcases id' row' hrow' with ⟨rfl, rfl⟩ | ⟨hid, hold⟩
    · rw [Session.part?, Session.upsert, find_setPart]
      by_cases hn : n = a.part.partNumber
      · rw [if_pos hn.symm, if_pos ⟨rfl, hn⟩]
        rfl
      · rw [if_neg (fun h => hn h.symm), if_neg (fun h => hn h.2)]
        exact hS.part id' row hrow n
    · rw [if_neg (fun h => hid h.1)]
      exact hS.part id' row' hold n
  · rw [hacked]
    rcases hcases id' row' hrow' with ⟨rfl, rfl⟩ | ⟨hid, hold⟩
    · rw [Session.upsert, lookup_setHash]
      by_cases hn : n = a.part.partNumber
      · rw [if_pos hn, if_pos ⟨rfl, hn⟩]
        rfl
      · rw [if_neg hn, if_neg (fun h => hn h.2)]
        exact hS.partHash id' row hrow n
    · rw [if_neg (fun h => hid h.1)]
      exact hS.partHash id' row' hold n
  · rw [hacked]
    rcases hcases id' row' hrow' with ⟨rfl, rfl⟩ | ⟨hid, hold⟩
    · rw [Session.upsert, lookup_setHash]
      by_cases hn : n = a.part.partNumber
      · rw [if_pos hn, if_pos ⟨rfl, hn⟩]
        rfl
      · rw [if_neg hn, if_neg (fun h => hn h.2)]
        exact hS.plaintextPartHash id' row hrow n
    · rw [if_neg (fun h => hid h.1)]
      exact hS.plaintextPartHash id' row' hold n

theorem RowsAcked.step (hS : RowsAcked S) (keepTime : Time → Time)
    (c : RoutedCall) : RowsAcked (S.step keepTime c) := by
  cases c with
  | uploadPart r =>
    rcases S.fleet.uploadPart_cases keepTime r with ⟨a, s, row, hput, hrow, hrows⟩ | ⟨e, s, hput, hrows⟩
    · simp only [RoutedFleet.step, hput]
      exact hS.upsert hrow hrows
    · simp only [RoutedFleet.step, hput]
      exact hS.of_rows fun id row hrow => hrows ▸ hrow
  | complete r => ?_
  apply hS.of_rows
  intro id row hrow
  rcases (S.fleet.complete_cases r).1 with hsame | herased
  · rwa [hsame] at hrow
  rw [herased, FMap.lookup_erase_ite] at hrow
  split at hrow
  · exact nomatch hrow
  · exact hrow

theorem RowsAcked.run (hS : RowsAcked S) (keepTime : Time → Time)
    (calls : List RoutedCall) : RowsAcked (S.run keepTime calls) := by
  induction calls generalizing S with
  | nil => exact hS
  | cons c calls ih => exact ih (hS.step keepTime c)

/-! ## 4. Completions -/

structure Session.ShowsAcked (session : Session) (S : RoutedFleet) (id : String) (n : Int) :
    Prop where
  part : (session.part? n).map Part.untimed = (S.acked.lookup (id, n)).map fun a => a.part.untimed
  partHash : nullableBytes (session.partHashes.lookup n) =
    (S.acked.lookup (id, n)).bind AckedPart.partHash
  plaintextPartHash : nullableBytes (session.plaintextPartHashes.lookup n) =
    (S.acked.lookup (id, n)).bind AckedPart.plaintextPartHash

theorem nullableBytes_bind (a? : Option AckedPart) :
    nullableBytes (a?.bind AckedPart.partHash) = a?.bind AckedPart.partHash ∧
    nullableBytes (a?.bind AckedPart.plaintextPartHash) = a?.bind AckedPart.plaintextPartHash := by
  cases a? with
  | none => exact ⟨rfl, rfl⟩
  | some a => exact ⟨nullableBytes_of_ne a.partHash_ne, nullableBytes_of_ne a.plaintextPartHash_ne⟩

theorem RowsAcked.showsAcked (hS : RowsAcked S) {r : RoutedCompletion}
    (hcurrent : SessionCurrent S.fleet r) {session : Session}
    (hview : S.fleet.Views r.node r.id session) {ref : PartReference} (href : ref ∈ r.expected) :
    session.ShowsAcked S r.id ref.partNumber := by
  rcases hview with hcached | ⟨-, hrow⟩
  · obtain ⟨row, hrow, hshows⟩ := hcurrent session hcached
    have h := hshows ref href
    exact ⟨h.part.trans (hS.part r.id row hrow _), h.partHash.trans (hS.partHash r.id row hrow _),
      h.plaintextPartHash.trans (hS.plaintextPartHash r.id row hrow _)⟩
  · obtain ⟨hhash, hplain⟩ := nullableBytes_bind (S.acked.lookup (r.id, ref.partNumber))
    refine ⟨hS.part r.id session hrow _, ?_, ?_⟩
    · rw [hS.partHash r.id session hrow]
      exact hhash
    · rw [hS.plaintextPartHash r.id session hrow]
      exact hplain

theorem findPart_cases (session : Session) (ref : PartReference) :
    (session.part? ref.partNumber = none ∧ findPart session.parts ref = .error .partNotFound) ∨
    ∃ p, session.part? ref.partNumber = some p ∧
      (findPart session.parts ref = .ok p ∨
        findPart session.parts ref = .error .partETagMismatch ∧
          ref.etag ≠ "" ∧ p.etag ≠ "" ∧ stripQuotes ref.etag ≠ stripQuotes p.etag) := by
  unfold findPart Session.part?
  cases session.parts.find? fun p => p.partNumber = ref.partNumber with
  | none => exact Or.inl ⟨rfl, rfl⟩
  | some p => ?_
  refine Or.inr ⟨p, rfl, ?_⟩
  dsimp only
  split
  · rename_i hdiffers
    exact Or.inr ⟨rfl, hdiffers⟩
  · exact Or.inl rfl

/-- After any calls on any nodes, a completion on a node whose session, if it has one, agrees with the
rows on the listed parts uses for each of them what was acknowledged last. -/
theorem completion_uses_last_parts (keepTime : Time → Time) (s : PgFleet) (hs : JustCreated s)
    (calls : List RoutedCall) (r : RoutedCompletion)
    (hcurrent : SessionCurrent (RoutedFleet.run keepTime ⟨s, ∅⟩ calls).fleet r) :
    UsesLastParts (RoutedFleet.run keepTime ⟨s, ∅⟩ calls) r := by
  have hS : RowsAcked (RoutedFleet.run keepTime ⟨s, ∅⟩ calls) :=
    (rowsAcked_start hs).run keepTime calls
  generalize RoutedFleet.run keepTime ⟨s, ∅⟩ calls = S at hS hcurrent ⊢
  unfold UsesLastParts
  rcases (S.fleet.complete_cases r).2 with
    ⟨session, hview, ⟨used, hparts, hanswer⟩ | ⟨e, hparts, hanswer⟩⟩ | ⟨e, hfound, hetag, hanswer⟩
  · rw [hanswer]
    refine ⟨used, rfl, ?_⟩
    have hall := Streams.forall₂_of_mapM hparts
    rw [List.forall₂_iff_get] at hall ⊢
    refine ⟨hall.1, fun i hi hi' => ?_⟩
    have hfind := hall.2 i hi hi'
    have href : r.expected.get ⟨i, hi⟩ ∈ r.expected := List.get_mem _ _
    generalize r.expected.get ⟨i, hi⟩ = ref at hfind href ⊢
    generalize used.get ⟨i, hi'⟩ = p at hfind ⊢
    have hshows := hS.showsAcked hcurrent hview href
    have hpart : session.part? ref.partNumber = some p := by
      rcases findPart_cases session ref with ⟨-, herror⟩ | ⟨p', hp', hok | ⟨herror, -⟩⟩
      · exact nomatch herror.symm.trans hfind
      · rw [hp', Except.ok.inj (hok.symm.trans hfind)]
      · exact nomatch herror.symm.trans hfind
    obtain ⟨hsame, hhash, hplain⟩ := hshows
    rw [hpart] at hsame
    cases hacked : S.acked.lookup (r.id, ref.partNumber) with
    | none =>
      rw [hacked] at hsame
      exact nomatch hsame
    | some a =>
      rw [hacked] at hsame hhash hplain
      exact ⟨a, rfl, Option.some.inj hsame, hhash, hplain⟩
  · rw [hanswer]
    obtain ⟨ref, href, hfind⟩ := Streams.exists_of_mapM_error hparts
    have hsame := (hS.showsAcked hcurrent hview href).part
    rcases findPart_cases session ref with ⟨hnone, herror⟩ | ⟨p, hp, hok | ⟨herror, hdiffers⟩⟩
    · obtain rfl : e = .partNotFound := Except.error.inj (hfind.symm.trans herror)
      rw [hnone] at hsame
      exact ⟨ref, href, Option.map_eq_none_iff.mp hsame.symm⟩
    · exact nomatch hok.symm.trans hfind
    · obtain rfl : e = .partETagMismatch := Except.error.inj (hfind.symm.trans herror)
      rw [hp] at hsame
      obtain ⟨a, hacked, ha⟩ := Option.map_eq_some_iff.mp hsame.symm
      -- the ETag is the same with and without the time
      have hetag : a.part.etag = p.etag := by
        change a.part.untimed.etag = p.untimed.etag
        rw [ha]
      rw [← hetag] at hdiffers
      exact ⟨ref, href, a, hacked, hdiffers⟩
  · rw [hanswer]
    cases e <;> trivial

def routedUpload : Upload :=
  { id := "u", tenantID := "t", bucket := "b", objectKey := "k", backend := "s3" }

def routedFleet : PgFleet where
  rows := (∅ : FMap String Session).insert "u" { upload := routedUpload }
  caches := (∅ : FMap (Nat × String) Session).insert (0, "u") { upload := routedUpload }

def routedPart (node : Nat) (etag : String) (digest : Bytes) : RoutedCall :=
  .uploadPart { node, tenantID := "t", id := "u", digest
                part := { partNumber := 1, pieceID := "u/1", backend := "s3", etag, sizeBytes := 5 } }

def routedCompletion (node : Nat) (etag : String) : RoutedCompletion :=
  { node, tenantID := "t", id := "u", bucket := "b", objectKey := "k",
    expected := [{ partNumber := 1, etag }] }

theorem justCreated_routedFleet : JustCreated routedFleet := by
  intro id row hrow
  change ((∅ : FMap String Session).insert "u" { upload := routedUpload }).lookup id = some row at hrow
  rw [FMap.lookup_insert_ite] at hrow
  split at hrow
  · obtain rfl := Option.some.inj hrow
    exact ⟨rfl, rfl, rfl⟩
  · exact nomatch hrow

/-- The part is acknowledged on node 1; node 0 then finds no such part.  Uploaded again on node 1
after an upload on node 0, the part is refused on node 0 with its last ETag. -/
theorem completion_misses_part :
    let once := RoutedFleet.run id ⟨routedFleet, ∅⟩ [routedPart 1 "e1" [7]]
    let twice := RoutedFleet.run id ⟨routedFleet, ∅⟩ [routedPart 0 "e1" [7], routedPart 1 "e2" [8]]
    (once.fleet.complete (routedCompletion 0 "e1")).1.map (·.1) = .error .partNotFound ∧
    (once.acked.lookup ("u", 1)).map (·.part.etag) = some "e1" ∧
    (twice.fleet.complete (routedCompletion 0 "e2")).1.map (·.1) = .error .partETagMismatch ∧
    (twice.acked.lookup ("u", 1)).map (·.part.etag) = some "e2" := by
  refine ⟨rfl, rfl, rfl, rfl⟩

/-- Node 2 has no session of the upload and loads the rows. -/
theorem completion_on_fresh_node :
    let twice := RoutedFleet.run id ⟨routedFleet, ∅⟩ [routedPart 0 "e1" [7], routedPart 1 "e2" [8]]
    (twice.fleet.complete (routedCompletion 2 "e2")).1.map (fun r => r.1.map Part.etag) =
      .ok ["e2"] ∧
    UsesLastParts twice (routedCompletion 2 "e2") := by
  refine ⟨rfl, completion_uses_last_parts id routedFleet justCreated_routedFleet _ _ ?_⟩
  intro session hsession
  have hnone : (RoutedFleet.run id ⟨routedFleet, ∅⟩
      [routedPart 0 "e1" [7], routedPart 1 "e2" [8]]).fleet.caches.lookup (2, "u") = none := rfl
  exact nomatch hnone.symm.trans hsession

end ObjectFabric
