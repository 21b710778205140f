import ObjectFabric.Gateway.Get

/-!
# DualWrite — one provider in front of two during a migration

`migration/dual_write/dual_write.go`.  Writes go to the primary and then to the secondary; reads fall
back to the secondary.  What the secondary fails to do is logged and not reported.
-/

namespace ObjectFabric

variable {pieceID : String}

namespace DualWrite

structure Backends where
  primary : FMap String Bytes := ∅
  secondary : FMap String Bytes := ∅

structure Faults where
  primary : Option String := none
  secondary : Option String := none
  deriving DecidableEq, Repr

inductive Request where
  | put (pieceID : String) (body : Except String Bytes)
  | get (pieceID : String) (range : Option ByteRange)
  | delete (pieceID : String)

inductive Answer where
  | stored (res : PutResult)
  | read (body : Bytes)
  | deleted
  | failed (message : String)
  deriving DecidableEq, Repr

def readRange (range : Option ByteRange) (body : Bytes) : Except String Bytes :=
  match range with
  | none => .ok body
  | some r => (r.slice body).elim (.error "range out of bounds") .ok

/-- `GetPiece` of one backend. -/
def readPiece (fault : Option String) (pieces : FMap String Bytes) (pieceID : String)
    (range : Option ByteRange) : Except String Bytes :=
  match fault, pieces.lookup pieceID with
  | some message, _ => .error message
  | none, none => .error "piece not found"
  | none, some body => readRange range body

def putPiece (primary : Provider) (s : Backends) (x : Faults) (pieceID : String)
    (body : Except String Bytes) : Answer × Backends :=
  match body, x.primary with
  | .error message, _ => (.failed ("dual_write: buffer piece: " ++ message), s)
  | .ok _, some message => (.failed ("dual_write: primary put: " ++ message), s)
  | .ok buf, none =>
    (.stored ⟨pieceID, primary.etagOf pieceID buf, buf.length, primary.locatorOf pieceID⟩,
      { primary := s.primary.insert pieceID buf
        secondary := if x.secondary.isNone then s.secondary.insert pieceID buf else s.secondary })

def getPiece (s : Backends) (x : Faults) (pieceID : String) (range : Option ByteRange) : Answer :=
  match readPiece x.primary s.primary pieceID range with
  | .ok body => .read body
  | .error _ =>
    match readPiece x.secondary s.secondary pieceID range with
    | .ok body => .read body
    | .error message => .failed message

def deletePiece (s : Backends) (x : Faults) (pieceID : String) : Answer × Backends :=
  (x.primary.elim .deleted .failed,
    { primary := if x.primary.isNone then s.primary.erase pieceID else s.primary
      secondary := if x.secondary.isNone then s.secondary.erase pieceID else s.secondary })

/-! ## 1. Runs -/

structure Answered where
  request : Request
  faults : Faults
  answer : Answer

structure Run where
  store : Backends := {}
  log : List Answered := []

def Run.step (primary : Provider) (s : Run) (call : Request × Faults) : Run :=
  let done (r : Answer × Backends) : Run := ⟨r.2, ⟨call.1, call.2, r.1⟩ :: s.log⟩
  match call.1 with
  | .put pieceID body => done (putPiece primary s.store call.2 pieceID body)
  | .get pieceID range => done (getPiece s.store call.2 pieceID range, s.store)
  | .delete pieceID => done (deletePiece s.store call.2 pieceID)

def run (primary : Provider) (calls : List (Request × Faults)) : Run :=
  calls.foldl (Run.step primary) {}

def Answered.puts (e : Answered) (pieceID : String) : Option Bytes :=
  match e.request, e.answer with
  | .put id (.ok body), .stored _ => if id = pieceID then some body else none
  | _, _ => none

def Answered.deletes (e : Answered) (pieceID : String) : Bool :=
  match e.request, e.answer with
  | .delete id, .deleted => id = pieceID
  | _, _ => false

/-- The body of the last successful put, unless the piece has been deleted since. -/
def current (pieceID : String) : List Answered → Option Bytes
  | [] => none
  | e :: log => (e.puts pieceID).or (if e.deletes pieceID then none else current pieceID log)

def mirrored (pieceID : String) : List Answered → Bool
  | [] => true
  | e :: log =>
    if (e.puts pieceID).isSome ∨ e.deletes pieceID then e.faults.secondary.isNone
    else mirrored pieceID log

/-! ## 2. What a read returns -/

section Writes

variable {pieceID : String} {e : Answered} (log : List Answered)

theorem current_cons_of_other (hputs : e.puts pieceID = none)
    (hdeletes : e.deletes pieceID = false) :
    current pieceID (e :: log) = current pieceID log ∧
      mirrored pieceID (e :: log) = mirrored pieceID log := by
  simp [current, mirrored, hputs, hdeletes]

theorem mirrored_cons_of_write (h : (e.puts pieceID).isSome ∨ e.deletes pieceID)
    (hm : mirrored pieceID (e :: log) = true) : e.faults.secondary.isNone = true := by
  rw [mirrored, if_pos h] at hm
  exact hm

end Writes

/-- The primary has the last write; so has the secondary when that write reached it, or it has
nothing. -/
structure Tracks (pieceID : String) (s : Run) : Prop where
  primary : s.store.primary.lookup pieceID = current pieceID s.log
  secondary : mirrored pieceID s.log = true → ∀ body,
    s.store.secondary.lookup pieceID = some body → current pieceID s.log = some body

/-- A call that is no successful write of the piece, and after which the primary has what it had of it
and the secondary not more. -/
theorem Tracks.other {s : Run} (h : Tracks pieceID s) {e : Answered}
    {store : Backends}
    (hputs : e.puts pieceID = none) (hdeletes : e.deletes pieceID = false)
    (hprimary : store.primary.lookup pieceID = s.store.primary.lookup pieceID)
    (hsecondary : ∀ body, store.secondary.lookup pieceID = some body →
      s.store.secondary.lookup pieceID = some body) : Tracks pieceID ⟨store, e :: s.log⟩ := by
  obtain ⟨hcurrent, hmirrored⟩ := current_cons_of_other s.log hputs hdeletes
  constructor
  · show store.primary.lookup pieceID = current pieceID (e :: s.log)
    rw [hprimary, hcurrent]
    exact h.primary
  show mirrored pieceID (e :: s.log) = true → _
  rw [hmirrored]
  intro hm body hbody
  show current pieceID (e :: s.log) = some body
  rw [hcurrent]
  exact h.secondary hm body (hsecondary body hbody)

theorem lookup_ite {p : Prop} [Decidable p] {pieces pieces' : FMap String Bytes}
    (h : pieces.lookup pieceID = pieces'.lookup pieceID) :
    (if p then pieces else pieces').lookup pieceID = pieces'.lookup pieceID := by
  split
  · exact h
  · rfl

theorem Tracks.put {s : Run} (h : Tracks pieceID s) (primary : Provider)
    (id : String) (body : Except String Bytes) (x : Faults) :
    Tracks pieceID (s.step primary (.put id body, x)) := by
  match body, hprimary : x.primary with
  | .error message, _ => exact h.other rfl rfl rfl (fun _ hbody => hbody)
  | .ok buf, some message =>
    simp only [Run.step, putPiece, hprimary]
    exact h.other rfl rfl rfl (fun _ hbody => hbody)
  | .ok buf, none =>
    simp only [Run.step, putPiece, hprimary]
    by_cases hid : pieceID = id
    · subst hid
      refine ⟨by simp [current, Answered.puts], fun hm body hbody => ?_⟩
      have hreached := mirrored_cons_of_write _ (.inl (by simp [Answered.puts])) hm
      -- the secondary has taken the same body
      simp only [show x.secondary.isNone = true from hreached, if_true, Finmap.lookup_insert] at hbody
      simpa [current, Answered.puts] using hbody
    · have hother : ∀ pieces : FMap String Bytes,
          (pieces.insert id buf).lookup pieceID = pieces.lookup pieceID :=
        fun pieces => Finmap.lookup_insert_of_ne pieces hid
      refine h.other ?_ rfl (hother _) (fun body hbody => ?_)
      · simp [Answered.puts, Ne.symm hid]
      · rw [← hbody, lookup_ite (hother _)]

theorem Tracks.delete {s : Run} (h : Tracks pieceID s) (primary : Provider)
    (id : String) (x : Faults) : Tracks pieceID (s.step primary (.delete id, x)) := by
  simp only [Run.step, deletePiece]
  by_cases hid : pieceID = id
  · subst hid
    -- what the secondary still has after the call it had before
    have hleft : ∀ body, (if x.secondary.isNone then s.store.secondary.erase pieceID
        else s.store.secondary).lookup pieceID = some body →
        x.secondary.isNone = false ∧ s.store.secondary.lookup pieceID = some body := by
      intro body hbody
      cases hreached : x.secondary.isNone with
      | true => simp [hreached] at hbody
      | false => exact ⟨rfl, by simpa [hreached] using hbody⟩
    cases hprimary : x.primary with
    | some message => exact h.other rfl rfl rfl (fun body hbody => (hleft body hbody).2)
    | none => ?_
    refine ⟨by simp [current, Answered.puts, Answered.deletes], fun hm body hbody => ?_⟩
    have hreached := mirrored_cons_of_write _ (.inr (by simp [Answered.deletes])) hm
    have hkept := (hleft body hbody).1
    rw [show x.secondary.isNone = true from hreached] at hkept
    cases hkept
  · have hother : ∀ pieces : FMap String Bytes,
        (pieces.erase id).lookup pieceID = pieces.lookup pieceID :=
      fun pieces => Finmap.lookup_erase_ne hid
    refine h.other rfl ?_ (lookup_ite (hother _)) (fun body hbody => ?_)
    · cases x.primary <;> simp [Answered.deletes, Ne.symm hid]
    · rw [← hbody, lookup_ite (hother _)]

theorem Tracks.step {s : Run} (h : Tracks pieceID s) (primary : Provider)
    (call : Request × Faults) : Tracks pieceID (s.step primary call) := by
  obtain ⟨request, x⟩ := call
  cases request with
  | put id body => exact h.put primary id body x
  | get id range => exact h.other rfl rfl rfl (fun _ hbody => hbody)
  | delete id => exact h.delete primary id x

theorem tracks_foldl (pieceID : String) (primary : Provider) (calls : List (Request × Faults)) (s : Run)
    (h : Tracks pieceID s) : Tracks pieceID (calls.foldl (Run.step primary) s) := by
  induction calls generalizing s with
  | nil => exact h
  | cons call calls ih => exact ih _ (h.step primary call)

theorem tracks_run (pieceID : String) (primary : Provider) (calls : List (Request × Faults)) :
    Tracks pieceID (run primary calls) :=
  tracks_foldl pieceID primary calls {} ⟨rfl, fun _ _ hbody => by cases hbody⟩

theorem readPiece_eq_ok {fault : Option String} {pieces : FMap String Bytes}
    {range : Option ByteRange} {body : Bytes} (h : readPiece fault pieces pieceID range = .ok body) :
    ∃ whole, pieces.lookup pieceID = some whole ∧ readRange range whole = .ok body := by
  unfold readPiece at h
  split at h
  · cases h
  · cases h
  · exact ⟨_, ‹_›, h⟩

/-- After any sequence of calls, what a read returns is the requested part of the last body put, and
the piece has not been deleted since, if the primary has served the read or the last successful
write has reached the secondary. -/
theorem getPiece_eq_current (primary : Provider) (calls : List (Request × Faults)) (x : Faults)
    (pieceID : String) (range : Option ByteRange) (body : Bytes)
    (hread : getPiece (run primary calls).store x pieceID range = .read body)
    (hserved : readPiece x.primary (run primary calls).store.primary pieceID range = .ok body ∨
      mirrored pieceID (run primary calls).log = true) :
    ∃ whole, current pieceID (run primary calls).log = some whole ∧
      readRange range whole = .ok body := by
  have htracks := tracks_run pieceID primary calls
  unfold getPiece at hread
  split at hread
  · rename_i found hfound
    cases hread
    have ⟨whole, hwhole, hrange⟩ := readPiece_eq_ok hfound
    exact ⟨whole, htracks.primary.symm.trans hwhole, hrange⟩
  · rename_i message hfailed
    -- the primary has not served it: the secondary has, and has the last write
    rw [hfailed] at hserved
    have hm : mirrored pieceID (run primary calls).log = true := by simpa using hserved
    split at hread
    · rename_i found hfound
      cases hread
      have ⟨whole, hwhole, hrange⟩ := readPiece_eq_ok hfound
      exact ⟨whole, htracks.secondary hm whole hwhole, hrange⟩
    · cases hread

/-- A delete that the secondary has failed, then a read of another piece that both have. -/
theorem getPiece_eq_current_deleted :
    let calls : List (Request × Faults) :=
      [(.put "p" (.ok [1]), {}), (.delete "q", { secondary := some "down" })]
    ∃ whole, current "p" (run {} calls).log = some whole ∧ readRange none whole = .ok [1] :=
  getPiece_eq_current {} _ { primary := some "down" } "p" none [1] (by decide +kernel)
    (.inr (by decide +kernel))

/-- An overwrite and a delete that the secondary has failed: the read that falls back to it returns
the body from before them. -/
theorem getPiece_stale_or_deleted :
    let failing : Faults := { secondary := some "down" }
    let first : Request × Faults := (.put "p" (.ok [1]), {})
    let overwritten := run {} [first, (.put "p" (.ok [2]), failing)]
    let deleted := run {} [first, (.delete "p", failing)]
    current "p" overwritten.log = some [2] ∧
      getPiece overwritten.store { primary := some "down" } "p" none = .read [1] ∧
      current "p" deleted.log = none ∧ getPiece deleted.store {} "p" none = .read [1] := by
  decide +kernel

end DualWrite

end ObjectFabric
