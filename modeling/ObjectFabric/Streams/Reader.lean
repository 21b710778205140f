import Mathlib

/-!
# Reader — finite streams and readers with a pending buffer

A `Source` hands out a finite stream in pieces of its own choosing, and reports the end together
with the last piece or after it.  `readFull` collects a given number of elements from it; its result
depends on the contents alone and not on how they are cut up (`readFull_eq`).

A `Buffered` reader keeps what it has produced and not yet handed out, and asks `refill` for more
when that is used up.  Whatever buffer sizes its caller uses, it delivers the concatenation of what
the refills give (`drain_of_yields`).
-/

namespace Streams

inductive ReadError where
  | eof
  | unexpectedEOF
  | failed (message : String)
  deriving DecidableEq, Repr

/-! ## 1. Sources -/

structure Source (α : Type) where
  segments : List (List α)
  /-- The end is reported together with the last piece. -/
  eager : Bool := false
  finish : ReadError := .eof

variable {α ι : Type}

namespace Source

def contents (s : Source α) : List α := s.segments.flatten

/-- One read into a buffer of `n` elements. -/
def read (s : Source α) (n : Nat) : (List α × Option ReadError) × Source α :=
  match s.segments with
  | [] => (([], some s.finish), s)
  | seg :: rest =>
    let left := if n < seg.length then seg.drop n :: rest else rest
    ((seg.take n, if s.eager ∧ left = [] then some s.finish else none), { s with segments := left })

/-- The loop of `io.ReadAtLeast`; `got` is what the buffer holds already. -/
def readLoop : Nat → Source α → Nat → List α → Option ReadError →
    (List α × Option ReadError) × Source α
  | 0, s, _, got, err => ((got, err), s)
  | fuel + 1, s, n, got, err =>
    if got.length < n ∧ err = none then
      let r := s.read (n - got.length)
      readLoop fuel r.2 n (got ++ r.1.1) r.1.2
    else
      ((got, err), s)

/-- `io.ReadFull` into a buffer of `n` elements.  Each round of the loop fills the buffer, drops a
segment or reports the end. -/
def readFull (s : Source α) (n : Nat) : (List α × Option ReadError) × Source α :=
  let r := readLoop (s.segments.length + 1) s n [] none
  if n ≤ r.1.1.length then
    ((r.1.1, none), r.2)
  else if r.1.1 ≠ [] ∧ r.1.2 = some .eof then
    ((r.1.1, some .unexpectedEOF), r.2)
  else
    r

/-- The error of a `readFull` of `n` elements. -/
def fullError (s : Source α) (n : Nat) : Option ReadError :=
  if n ≤ s.contents.length then none
  else if s.contents ≠ [] ∧ s.finish = .eof then some .unexpectedEOF
  else some s.finish

theorem le_of_fullError {s : Source α} {n : Nat} (h : s.fullError n = none) :
    n ≤ s.contents.length := by
  by_contra hshort
  rw [fullError, if_neg hshort] at h
  split at h <;> simp at h

theorem readLoop_done {fuel n : Nat} {s : Source α} {got : List α} {err : Option ReadError}
    (h : ¬ (got.length < n ∧ err = none)) : readLoop fuel s n got err = ((got, err), s) := by
  cases fuel with
  | zero => rfl
  | succ fuel => rw [readLoop, if_neg h]

structure Collected (s : Source α) (n : Nat) (got : List α)
    (r : (List α × Option ReadError) × Source α) : Prop where
  bytes : r.1.1 = got ++ s.contents.take (n - got.length)
  rest : r.2.contents = s.contents.drop (n - got.length)
  finish : r.2.finish = s.finish
  short : got.length + s.contents.length < n → r.1.2 = some s.finish

theorem readLoop_collects {fuel n : Nat} {s : Source α} {got : List α}
    (hfuel : s.segments.length < fuel) (hgot : got.length ≤ n) :
    Collected s n got (readLoop fuel s n got none) := by
  induction fuel generalizing s got with
  | zero => omega
  | succ fuel ih => ?_
  by_cases hfull : got.length < n
  · rw [readLoop, if_pos ⟨hfull, rfl⟩]
    cases hseg : s.segments with
    | nil =>
      -- the stream is at its end
      have hcont : s.contents = [] := by rw [contents, hseg, List.flatten_nil]
      have hread : s.read (n - got.length) = (([], some s.finish), s) := by
        rw [read, hseg]
      rw [hread, readLoop_done (by simp)]
      constructor <;> simp [hcont]
    | cons seg rest => ?_
    have hcont : s.contents = seg ++ rest.flatten := by
      rw [contents, hseg, List.flatten_cons]
    by_cases hlong : n - got.length < seg.length
    · -- this piece fills the buffer
      have hread : s.read (n - got.length) = ((seg.take (n - got.length), none),
          { s with segments := seg.drop (n - got.length) :: rest }) := by
        simp [read, hseg, hlong]
      have hlen : (got ++ seg.take (n - got.length)).length = n := by
        rw [List.length_append, List.length_take]
        omega
      rw [hread, readLoop_done (by rw [hlen]; simp)]
      constructor
      · rw [hcont, List.take_append_of_le_length (by omega)]
      · rw [hcont, List.drop_append_of_le_length (by omega), contents, List.flatten_cons]
      · rfl
      · intro hshort
        rw [hcont, List.length_append] at hshort
        omega
    · -- the piece goes in whole and the loop goes on, or the end came with it
      have htake : seg.take (n - got.length) = seg := List.take_of_length_le (by omega)
      have hlen : (got ++ seg).length = got.length + seg.length := List.length_append
      have hread : s.read (n - got.length) =
          ((seg, if s.eager ∧ rest = [] then some s.finish else none),
            { s with segments := rest }) := by
        simp only [read, hseg, if_neg hlong, htake]
      have hdrop : s.contents.drop (n - got.length) =
          rest.flatten.drop (n - (got.length + seg.length)) := by
        rw [hcont, List.drop_append, List.drop_eq_nil_of_le (by omega), List.nil_append,
          Nat.sub_sub]
      have htakes : got ++ s.contents.take (n - got.length) =
          got ++ seg ++ rest.flatten.take (n - (got.length + seg.length)) := by
        rw [hcont, List.take_append, htake, List.append_assoc, Nat.sub_sub]
      rw [hread]
      by_cases hend : s.eager ∧ rest = []
      · rw [if_pos hend, readLoop_done (by simp)]
        constructor
        · rw [htakes, hend.2]
          simp
        · rw [hdrop, hend.2]
          simp [contents]
        · rfl
        · exact fun _ => rfl
      · rw [if_neg hend]
        have hfuel' : rest.length < fuel := by
          rw [hseg, List.length_cons] at hfuel
          omega
        have hrest : Collected { s with segments := rest } n (got ++ seg) _ :=
          ih hfuel' (by omega)
        constructor
        · rw [hrest.bytes, htakes, hlen]
          rfl
        · rw [hrest.rest, hdrop, hlen]
          rfl
        · exact hrest.finish
        · intro hshort
          apply hrest.short
          rw [hcont, List.length_append] at hshort
          rw [hlen]
          change _ + rest.flatten.length < n
          omega
  · rw [readLoop_done (by simp [hfull])]
    have hzero : n - got.length = 0 := by omega
    constructor
    · simp [hzero]
    · simp [hzero]
    · rfl
    · intro hshort
      omega

theorem readFull_eq (s : Source α) (n : Nat) :
    ∃ s' : Source α, s.readFull n = ((s.contents.take n, s.fullError n), s') ∧
      s'.contents = s.contents.drop n ∧ s'.finish = s.finish := by
  have hloop : Collected s n [] (readLoop (s.segments.length + 1) s n [] none) :=
    readLoop_collects (Nat.lt_succ_self s.segments.length) (Nat.zero_le n)
  generalize hr : readLoop (s.segments.length + 1) s n [] none = r at hloop
  have hbytes : r.1.1 = s.contents.take n := hloop.bytes
  refine ⟨r.2, ?_, hloop.rest, hloop.finish⟩
  unfold readFull fullError
  simp only [hr, hbytes, List.length_take]
  by_cases hn : n ≤ s.contents.length
  · rw [if_pos (by omega), if_pos hn]
  have hshort : r.1.2 = some s.finish := hloop.short (by simpa using hn)
  have hall : s.contents.take n = s.contents := List.take_of_length_le (by omega)
  rw [if_neg (by omega), if_neg hn, hall, hshort]
  by_cases hcut : s.contents ≠ [] ∧ s.finish = .eof
  · rw [if_pos hcut, if_pos ⟨hcut.1, congrArg some hcut.2⟩]
  · rw [if_neg hcut, if_neg fun h => hcut ⟨h.1, Option.some.inj h.2⟩, ← hshort, ← hall, ← hbytes]

end Source

/-! ## 2. Readers with a pending buffer -/

/-- `inner` is what `refill` works on; `eof` says that no more will come. -/
structure Buffered (ι α : Type) where
  inner : ι
  pending : List α := []
  eof : Bool := false

abbrev Refill (ι α : Type) := ι → Except ReadError (List α × Bool × ι)

/-- Every refill gives something or ends the stream, so that one is always enough. -/
def Refill.Productive (refill : Refill ι α) : Prop :=
  ∀ i bytes last i', refill i = .ok (bytes, last, i') → bytes = [] → last = true

namespace Buffered

def fill (refill : Refill ι α) (b : Buffered ι α) : Except ReadError (Buffered ι α) :=
  if b.pending = [] ∧ b.eof = false then
    match refill b.inner with
    | .error e => .error e
    | .ok (bytes, last, inner) => .ok ⟨inner, bytes, last⟩
  else
    .ok b

/-- One read into a buffer of `n` elements; the end is reported with the last of them. -/
def read (refill : Refill ι α) (b : Buffered ι α) (n : Nat) :
    (List α × Option ReadError) × Buffered ι α :=
  match b.fill refill with
  | .error e => (([], some e), b)
  | .ok b' =>
    let left := b'.pending.drop n
    let err := if b'.pending = [] ∧ n ≠ 0 then some .eof
      else if left = [] ∧ b'.eof then some .eof
      else none
    ((b'.pending.take n, err), { b' with pending := left })

/-- Read with the buffer sizes `sizes 0`, `sizes 1`, … until an error or the end. -/
def drain (refill : Refill ι α) :
    Nat → (Nat → Nat) → Buffered ι α → List α × Option ReadError
  | 0, _, _ => ([], none)
  | fuel + 1, sizes, b =>
    let r := b.read refill (sizes 0)
    match r.1.2 with
    | some e => (r.1.1, some e)
    | none =>
      let rest := drain refill fuel (fun n => sizes (n + 1)) r.2
      (r.1.1 ++ rest.1, rest.2)

end Buffered

/-- From `i` on the refills give `bytes` in all and then end with `e`. -/
inductive Yields (refill : Refill ι α) : ι → List α → ReadError → Prop
  | fails {i : ι} {e : ReadError} : refill i = .error e → Yields refill i [] e
  | ends {i i' : ι} {bytes : List α} : refill i = .ok (bytes, true, i') →
      Yields refill i bytes .eof
  | more {i i' : ι} {bytes rest : List α} {e : ReadError} : refill i = .ok (bytes, false, i') →
      Yields refill i' rest e → Yields refill i (bytes ++ rest) e

namespace Buffered

variable {refill : Refill ι α}

/-- The reader delivers `bytes` and ends with `e`, whatever the sizes of the buffers. -/
def Delivers (refill : Refill ι α) (b : Buffered ι α) (bytes : List α) (e : ReadError) : Prop :=
  ∀ sizes : Nat → Nat, (∀ n, 0 < sizes n) → ∃ fuel, b.drain refill fuel sizes = (bytes, some e)

theorem fill_of_ready {b : Buffered ι α} (h : ¬ (b.pending = [] ∧ b.eof = false)) :
    b.fill refill = .ok b := by
  rw [fill, if_neg h]

theorem drain_last {b : Buffered ι α} {sizes : Nat → Nat} {bytes : List α} {e : ReadError}
    (h : (b.read refill (sizes 0)).1 = (bytes, some e)) :
    b.drain refill 1 sizes = (bytes, some e) := by
  rw [drain, h]

theorem drain_next {b b' : Buffered ι α} {sizes : Nat → Nat} {bytes rest : List α}
    {e : ReadError} {fuel : Nat} (h : b.read refill (sizes 0) = ((bytes, none), b'))
    (hrest : b'.drain refill fuel (fun n => sizes (n + 1)) = (rest, some e)) :
    b.drain refill (fuel + 1) sizes = (bytes ++ rest, some e) := by
  rw [drain, h]
  simp only [hrest]

theorem read_pending {b : Buffered ι α} {n : Nat} (hb : b.pending ≠ []) :
    b.read refill n = ((b.pending.take n,
      if b.pending.drop n = [] ∧ b.eof then some .eof else none),
        { b with pending := b.pending.drop n }) := by
  rw [read, fill_of_ready fun h => hb h.1]
  simp only [hb, false_and, if_false]

theorem delivers_pending {i : ι} {eof : Bool} {rest : List α} {e : ReadError}
    (hempty : eof = false → Delivers refill ⟨i, [], false⟩ rest e)
    (hend : eof = true → rest = [] ∧ e = .eof) (pending : List α)
    (hpending : pending ≠ []) : Delivers refill ⟨i, pending, eof⟩ (pending ++ rest) e := by
  -- induction on what is pending: each read takes at least one element of it
  induction hlen : pending.length using Nat.strongRecOn generalizing pending with
  | ind len ih => ?_
  intro sizes hsizes
  have hpos := hsizes 0
  have hread : read refill ⟨i, pending, eof⟩ (sizes 0) = ((pending.take (sizes 0),
      if pending.drop (sizes 0) = [] ∧ eof then some .eof else none),
        ⟨i, pending.drop (sizes 0), eof⟩) := read_pending hpending
  have hsplit : pending ++ rest = pending.take (sizes 0) ++ (pending.drop (sizes 0) ++ rest) := by
    rw [← List.append_assoc, List.take_append_drop]
  by_cases hleft : pending.drop (sizes 0) = []
  · cases eof with
    | true =>
      rw [if_pos ⟨hleft, rfl⟩] at hread
      refine ⟨1, ?_⟩
      rw [drain_last (by rw [hread]), hsplit, hleft, (hend rfl).1, (hend rfl).2]
      simp
    | false => ?_
    rw [if_neg (by simp), hleft] at hread
    obtain ⟨fuel, hfuel⟩ := hempty rfl (fun n => sizes (n + 1)) fun n => hsizes (n + 1)
    refine ⟨fuel + 1, ?_⟩
    rw [drain_next hread hfuel, hsplit, hleft, List.nil_append]
  · rw [if_neg fun h => hleft h.1] at hread
    have hshorter : (pending.drop (sizes 0)).length < len := by
      have hlenpos : 0 < pending.length := List.length_pos_of_ne_nil hpending
      rw [List.length_drop]
      omega
    obtain ⟨fuel, hfuel⟩ := ih _ hshorter (pending.drop (sizes 0)) hleft rfl
      (fun n => sizes (n + 1)) fun n => hsizes (n + 1)
    refine ⟨fuel + 1, ?_⟩
    rw [drain_next hread hfuel, hsplit]

theorem delivers_of_refill {i i' : ι} {bytes all : List α} {last : Bool} {e : ReadError}
    (hr : refill i = .ok (bytes, last, i')) (hb : bytes ≠ [])
    (h : Delivers refill ⟨i', bytes, last⟩ all e) : Delivers refill ⟨i, [], false⟩ all e := by
  have hsame : ∀ n, read refill ⟨i, [], false⟩ n = read refill ⟨i', bytes, last⟩ n := by
    intro n
    rw [read, read, fill_of_ready (b := ⟨i', bytes, last⟩) fun h => hb h.1, fill,
      if_pos ⟨rfl, rfl⟩, hr]
  intro sizes hsizes
  obtain ⟨fuel, hfuel⟩ := h sizes hsizes
  refine ⟨fuel, ?_⟩
  cases fuel with
  | zero => exact hfuel
  | succ fuel =>
    rw [drain, hsame]
    exact hfuel

theorem drain_of_yields (hprod : refill.Productive) {i : ι} {bytes : List α} {e : ReadError}
    (hy : Yields refill i bytes e) : Delivers refill ⟨i, [], false⟩ bytes e := by
  induction hy with
  | fails hr =>
    refine fun sizes _ => ⟨1, drain_last ?_⟩
    rw [read, fill, if_pos ⟨rfl, rfl⟩, hr]
  | @ends i i' bytes hr =>
    by_cases hb : bytes = []
    · -- the end without any more elements
      intro sizes hsizes
      have hpos := hsizes 0
      refine ⟨1, drain_last ?_⟩
      rw [read, fill, if_pos ⟨rfl, rfl⟩, hr]
      have hne : sizes 0 ≠ 0 := by omega
      simp [hb, hne]
    · apply delivers_of_refill hr hb
      have hall : Delivers refill ⟨i', bytes, true⟩ (bytes ++ []) .eof :=
        delivers_pending (fun h => absurd h (by decide)) (fun _ => ⟨rfl, rfl⟩) bytes hb
      rwa [List.append_nil] at hall
  | @more i i' bytes rest e hr _ ih =>
    have hb : bytes ≠ [] := fun hb => absurd (hprod i bytes false i' hr hb) (by decide)
    apply delivers_of_refill hr hb
    exact delivers_pending (fun _ => ih) (fun h => absurd h (by decide)) bytes hb

end Buffered

end Streams
