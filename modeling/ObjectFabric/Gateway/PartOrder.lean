import ObjectFabric.Gateway.Complete
import ObjectFabric.Store.PostgresParts

/-!
# PartOrder — the parts that a completion assembles

Both stores look every reference up and sort what they have found.  Neither looks at the order of the
list, nor whether it names a part twice.
-/

namespace ObjectFabric

open Interleaving

abbrev Ascending (refs : List PartReference) : Prop :=
  (refs.map PartReference.partNumber).Pairwise (· < ·)

/-- The parts with which `Complete` of either store succeeds on a session. -/
inductive Completes (session : Session) (refs : List PartReference) : List Part → Prop
  | memory (s : MultipartStore) (id : String) {result : List Part}
      (hsession : s.sessions.lookup id = some session)
      (hok : (s.collect id refs).1 = .ok result) : Completes session refs result
  | postgres (node : Nat) (id tenantID bucket objectKey : String) (x : Nat → Bool)
      (h : History PgCall) (s : PgFleet) {result : List Part}
      (hok : ((PostgresStore.complete node id tenantID bucket objectKey refs).run pgMachine
        x h s).1 = .ok (result, session)) : Completes session refs result

def Session.sizeOf (session : Session) (n : Int) : Int := (session.part? n).elim 0 Part.sizeBytes

/-- The list was in order, the parts are those it names, in strictly ascending order, and the object
is as long as the distinct parts together. -/
structure Proper (session : Session) (refs : List PartReference) (result : List Part) : Prop where
  listed : Ascending refs
  sorted : (result.map Part.partNumber).Pairwise (· < ·)
  once : result.map Part.partNumber = refs.map PartReference.partNumber
  size : ∀ cfg r u pieces versionID createdAt,
    (multipartManifest cfg r u result pieces versionID createdAt).objectSize =
      ((refs.map PartReference.partNumber).dedup.map session.sizeOf).sum

variable {session : Session}

theorem findPart_ok {ref : PartReference} {p : Part}
    (h : findPart session.parts ref = .ok p) :
    p.partNumber = ref.partNumber ∧ p.sizeBytes = session.sizeOf ref.partNumber := by
  unfold findPart at h
  rcases hfind : session.parts.find? fun p => p.partNumber = ref.partNumber with _ | q
  · simp [hfind] at h
  simp only [hfind] at h
  split at h
  · cases h
  · obtain rfl := Except.ok.inj h
    have hnumber := List.find?_some hfind
    exact ⟨of_decide_eq_true hnumber, by rw [Session.sizeOf, Session.part?, hfind]; rfl⟩

variable {refs : List PartReference}

theorem mapM_findPart {found : List Part}
    (h : refs.mapM (findPart session.parts) = .ok found) :
    found.map Part.partNumber = refs.map PartReference.partNumber ∧
      found.map Part.sizeBytes = (refs.map PartReference.partNumber).map session.sizeOf := by
  have hall := Streams.forall₂_of_mapM h
  clear h
  induction hall with
  | nil => exact ⟨rfl, rfl⟩
  | cons hpart _ ih =>
    obtain ⟨hnumber, hsize⟩ := findPart_ok hpart
    simp [hnumber, hsize, ih]

/-- Either store returns the parts found, sorted. -/
theorem Completes.found {result : List Part}
    (h : Completes session refs result) :
    ∃ found, refs.mapM (findPart session.parts) = .ok found ∧
      result = found.insertionSort fun a b => a.partNumber ≤ b.partNumber := by
  cases h with
  | memory s id hsession hok =>
    unfold MultipartStore.collect at hok
    simp only [hsession, Option.elim_some] at hok
    split at hok
    · cases hok
    · exact ⟨_, ‹_›, (Except.ok.inj hok).symm⟩
  | postgres node id tenantID bucket objectKey x h s hok => ?_
  unfold PostgresStore.complete at hok
  obtain ⟨y, hrun⟩ := Proc.run_bind pgMachine x _ _ h s
  rw [Proc.bind_eq, hrun] at hok
  split at hok
  · cases hok
  split at hok
  · cases hok
  split at hok
  · cases hok
  rename_i found hfound
  obtain ⟨z, hremoved⟩ := Proc.run_bind pgMachine y (PostgresStore.remove node tenantID id) _ _ _
  rw [Proc.bind_eq, hremoved] at hok
  split at hok
  · cases hok
  · cases hok
    exact ⟨found, hfound, rfl⟩

/-- What is found for a list in order is in order, and stays as it is. -/
theorem proper_of_ascending {result : List Part}
    (h : Completes session refs result) (hrefs : Ascending refs) : Proper session refs result := by
  obtain ⟨found, hfound, rfl⟩ := h.found
  obtain ⟨hnumbers, hsizes⟩ := mapM_findPart hfound
  have hsorted : (found.map Part.partNumber).Pairwise (· < ·) := hnumbers ▸ hrefs
  have hfixed : found.insertionSort (fun a b => a.partNumber ≤ b.partNumber) = found := by
    apply List.Pairwise.insertionSort_eq
    exact (List.pairwise_map.mp hsorted).imp Int.le_of_lt
  rw [hfixed]
  refine ⟨hrefs, hsorted, hnumbers, fun _ _ _ _ _ _ => ?_⟩
  show (found.map Part.sizeBytes).sum = _
  rw [hsizes, List.Nodup.dedup (hrefs.imp Int.ne_of_lt)]

/-- Exactly the lists in order are assembled as they should be, and those that name a part which was
not uploaded, or has another ETag, since these are refused. -/
theorem completes_proper_iff (session : Session) (refs : List PartReference) :
    (∀ result, Completes session refs result → Proper session refs result) ↔
      Ascending refs ∨ ∃ ref ∈ refs, ∀ p, findPart session.parts ref ≠ .ok p := by
  constructor
  · intro hproper
    rcases hfound : refs.mapM (findPart session.parts) with e | found
    · obtain ⟨ref, href, hfail⟩ := Streams.exists_of_mapM_error hfound
      exact .inr ⟨ref, href, fun p hp => by rw [hfail] at hp; cases hp⟩
    let s : MultipartStore := { sessions := (∅ : FMap String Session).insert "" session }
    have hlookup : s.sessions.lookup "" = some session := Finmap.lookup_insert _
    have hcollect : (s.collect "" refs).1 =
        .ok (found.insertionSort fun a b => a.partNumber ≤ b.partNumber) := by
      unfold MultipartStore.collect
      simp only [hlookup, Option.elim_some, hfound]
    exact .inl (hproper _ (.memory s "" hlookup hcollect)).listed
  · rintro (hrefs | ⟨ref, href, hno⟩) result hcompletes
    · exact proper_of_ascending hcompletes hrefs
    · obtain ⟨found, hfound, -⟩ := hcompletes.found
      have hfails : ∃ e, findPart session.parts ref = .error e := by
        cases hpart : findPart session.parts ref with
        | error e => exact ⟨e, rfl⟩
        | ok p => exact absurd hpart (hno p)
      obtain ⟨-, -, e, -, herror⟩ := Streams.mapM_of_error ⟨ref, href, hfails⟩
      rw [hfound] at herror
      cases herror

/-- One uploaded part of five bytes, listed twice: the object has the part twice, and ten bytes. -/
theorem completes_listed_twice :
    let p : Part := { partNumber := 1, pieceID := "p", backend := "x", sizeBytes := 5 }
    let upload : Upload := { id := "u", tenantID := "t", bucket := "b", objectKey := "k", backend := "x" }
    let refs : List PartReference := [{ partNumber := 1 }, { partNumber := 1 }]
    Completes { upload, parts := [p] } refs [p, p] ∧ totalSize [p, p] = 10 ∧
      ¬ Proper { upload, parts := [p] } refs [p, p] := by
  intro p upload refs
  refine ⟨?_, by decide, fun h => absurd h.listed (by decide)⟩
  let s : MultipartStore :=
    { sessions := (∅ : FMap String Session).insert "u" { upload, parts := [p] } }
  exact .memory s "u" (Finmap.lookup_insert _) rfl

end ObjectFabric
