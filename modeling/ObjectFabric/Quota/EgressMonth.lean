import ObjectFabric.Interleaving.ClockedLock
import ObjectFabric.Metadata.ErasureCoding

/-!
# EgressMonth — the monthly egress counters

`AllowEgress` and `Observe` of `internal/auth/rate_limit.go`, `allowBudget` and `Observe` of
`internal/auth/abuse.go`, without the anomaly windows.  A call that has read another month than the
counter's resets the counter, also when the month that it has read is over.
-/

namespace ObjectFabric.EgressMonth

open Interleaving

inductive Component where
  | rateLimiter
  | abuseGuard
  deriving DecidableEq

/-- A year and a month, in the order of time. -/
abbrev Month := ℤ ×ₗ ℤ

structure EgressTracker where
  monthStart : Month
  bytes : Int

/-- The counters of both components, each made at its tenant's first call. -/
abbrev Trackers := Component × String → Option EgressTracker

/-- The counter is a new one, or is reset, when it is not for the month. -/
def counter (month : Month) : Option EgressTracker → Int
  | none => 0
  | some t => if t.monthStart = month then t.bytes else 0

section

-- the year and the month of `t.UTC().Date()`
variable (date : Time → Month)

/-- The locked section; the checks add no bytes. -/
def touch (key : Component × String) (bytes : Int) (now : Time) (x : Trackers) : Trackers :=
  Function.update x key
    (some ⟨date now, ErasureCoding.wrap64 (counter (date now) (x key) + bytes)⟩)

/-- `found` is what `EgressLookup` answers, when there is one. -/
def allowEgress (failClosed : Bool) (found : Option (Option Int)) (tenantID : String) (now : Time)
    (x : Trackers) : Bool × Trackers :=
  match found with
  | none => (true, x)
  | some none => (!failClosed, x)
  | some (some budget) =>
    if budget ≤ 0 then (true, x)
    else (!decide (budget ≤ counter (date now) (x (.rateLimiter, tenantID))),
      touch date (.rateLimiter, tenantID) 0 now x)

/-- `budget` is `tenantEgressBudgetBytes` of the tenant. -/
def allowBudget (budget : Int) (tenantID : String) (now : Time) (x : Trackers) : Bool × Trackers :=
  if budget ≤ 0 then (true, x)
  else (!decide (budget ≤ counter (date now) (x (.abuseGuard, tenantID))),
    touch date (.abuseGuard, tenantID) 0 now x)

/-- The limiter counts negative bytes as none, the guard returns at once when there are none. -/
def observe (component : Component) (tenantID : String) (egressBytes : Int) (now : Time)
    (x : Trackers) : Trackers :=
  if tenantID = "" ∨ component = .abuseGuard ∧ egressBytes ≤ 0 then x
  else touch date (component, tenantID) (max 0 egressBytes) now x

inductive Call where
  | allowEgress (failClosed : Bool) (found : Option (Option Int)) (tenantID : String)
  | allowBudget (budget : Int) (tenantID : String)
  | observe (component : Component) (tenantID : String) (egressBytes : Int)

def Call.key : Call → Component × String
  | allowEgress _ _ tenantID => (.rateLimiter, tenantID)
  | allowBudget _ tenantID => (.abuseGuard, tenantID)
  | observe component tenantID _ => (component, tenantID)

/-- The bytes that a call reports as served. -/
def Call.bytes : Call → Int
  | observe _ _ egressBytes => max 0 egressBytes
  | _ => 0

/-- A check answers whether it lets the request pass, `Observe` answers nothing. -/
def body : Call → Time → Trackers → Option Bool × Trackers
  | .allowEgress failClosed found tenantID, now, x =>
    ((allowEgress date failClosed found tenantID now x).1,
      (allowEgress date failClosed found tenantID now x).2)
  | .allowBudget budget tenantID, now, x =>
    ((allowBudget date budget tenantID now x).1, (allowBudget date budget tenantID now x).2)
  | .observe component tenantID egressBytes, now, x =>
    (none, observe date component tenantID egressBytes now x)

theorem body_cases {call : Call} (now : Time) (x : Trackers) (htenant : call.key.2 ≠ "") :
    (call.bytes = 0 ∧ (body date call now x).2 = x) ∨
      (body date call now x).2 = touch date call.key call.bytes now x := by
  cases call with
  | allowEgress failClosed found tenantID =>
    rcases found with _ | _ | budget
    · exact Or.inl ⟨rfl, rfl⟩
    · exact Or.inl ⟨rfl, rfl⟩
    · simp only [body, allowEgress]
      split
      · exact Or.inl ⟨rfl, rfl⟩
      · exact Or.inr rfl
  | allowBudget budget tenantID =>
    simp only [body, allowBudget]
    split
    · exact Or.inl ⟨rfl, rfl⟩
    · exact Or.inr rfl
  | observe component tenantID egressBytes =>
    simp only [body, observe]
    split
    · rename_i hskipped
      exact Or.inl ⟨max_eq_left (hskipped.resolve_left htenant).2, rfl⟩
    · exact Or.inr rfl

/-- A call leaves the counters of the others as they are. -/
theorem body_frame {call : Call} (now : Time) (x : Trackers) {key : Component × String}
    (hkey : call.key ≠ key) : (body date call now x).2 key = x key := by
  have htouch : ∀ bytes, touch date call.key bytes now x key = x key :=
    fun bytes => Function.update_of_ne (Ne.symm hkey) _ _
  cases call with
  | allowEgress failClosed found tenantID =>
    rcases found with _ | _ | budget
    · rfl
    · rfl
    · simp only [body, allowEgress]
      split
      · rfl
      · exact htouch 0
  | allowBudget budget tenantID =>
    simp only [body, allowBudget]
    split
    · rfl
    · exact htouch 0
  | observe component tenantID egressBytes =>
    simp only [body, observe]
    split
    · rfl
    · exact htouch _

/-! ## The sum of a month -/

/-- The calls that have returned. -/
abbrev Log := List (ClockedLock.Entry Call Time (Option Bool))

/-- The bytes that were observed for the tenant by calls whose reading is in the month. -/
def observedIn (log : Log) (key : Component × String) (month : Month) : Int :=
  ((log.filter fun e => e.call.key = key ∧ date e.reading = month).map (·.call.bytes)).sum

theorem observedIn_cons (log : Log) (key : Component × String) (month : Month)
    (e : ClockedLock.Entry Call Time (Option Bool)) :
    observedIn date (e :: log) key month =
      (if e.call.key = key ∧ date e.reading = month then e.call.bytes else 0) +
        observedIn date log key month := by
  unfold observedIn
  by_cases he : e.call.key = key ∧ date e.reading = month
  · rw [List.filter_cons_of_pos (by simpa using he), if_pos he, List.map_cons, List.sum_cons]
  · rw [List.filter_cons_of_neg (by simpa using he), if_neg he, Int.zero_add]

/-- The counter is not for a later month. -/
def UpTo (month : Month) (found : Option EgressTracker) : Prop := ∀ t ∈ found, t.monthStart ≤ month

instance (month : Month) (found : Option EgressTracker) : Decidable (UpTo month found) :=
  inferInstanceAs (Decidable (∀ t ∈ found, t.monthStart ≤ month))

/-- What the log of the calls says about the counter of `key`. -/
structure Exact (clock : Time) (log : Log) (key : Component × String) (found : Option EgressTracker) :
    Prop where
  past : UpTo (date clock) found
  nonneg : ∀ month, 0 ≤ counter month found
  sum : ∀ month, UpTo month found → counter month found = observedIn date log key month

/-- The call has not read a month before the counter's, and the sum of its month fits. -/
def InOrder (call : Call) (now : Time) (x : Trackers) : Prop :=
  UpTo (date now) (x call.key) ∧ counter (date now) (x call.key) + call.bytes < 2 ^ 63

instance (call : Call) (now : Time) (x : Trackers) : Decidable (InOrder date call now x) :=
  inferInstanceAs (Decidable (UpTo (date now) (x call.key) ∧ _))

variable {date} {clock now : Time} {log : Log} {key : Component × String}

/-- An entry that observes nothing in `key` changes nothing. -/
theorem Exact.skip {found : Option EgressTracker} (h : Exact date clock log key found)
    {e : ClockedLock.Entry Call Time (Option Bool)} (he : e.call.key = key → e.call.bytes = 0) :
    Exact date clock (e :: log) key found := by
  refine { h with sum := fun month hmonth => ?_ }
  rw [observedIn_cons, h.sum month hmonth]
  split
  · rename_i hin
    rw [he hin.1, Int.zero_add]
  · rw [Int.zero_add]

theorem Call.bytes_nonneg (call : Call) : 0 ≤ call.bytes := by
  cases call with
  | observe component tenantID egressBytes => exact le_max_left _ _
  | _ => exact le_rfl

theorem Exact.touch (hdate : Monotone date) {x : Trackers} {call : Call} {answer : Option Bool}
    (h : Exact date clock log call.key (x call.key)) (hnow : now ≤ clock)
    (horder : InOrder date call now x) :
    Exact date clock (⟨call, now, answer⟩ :: log) call.key
      (touch date call.key call.bytes now x call.key) := by
  rcases horder with ⟨hupto, hfits⟩
  have hcounter := h.nonneg (date now)
  have hbytes := call.bytes_nonneg
  unfold EgressMonth.touch
  rw [Function.update_self, ErasureCoding.wrap64_eq (by omega) hfits]
  refine ⟨fun t ht => Option.some.inj ht ▸ hdate hnow, fun month => ?_, fun month hmonth => ?_⟩
  · show 0 ≤ if date now = month then counter (date now) (x call.key) + call.bytes else 0
    split <;> omega
  have hle : date now ≤ month := hmonth _ rfl
  have hsum := h.sum month fun t ht => (hupto t ht).trans hle
  rw [observedIn_cons, ← hsum]
  show (if date now = month then counter (date now) (x call.key) + call.bytes else 0) = _
  by_cases heq : date now = month
  · rw [if_pos heq, if_pos ⟨rfl, heq⟩, heq, Int.add_comm]
  · rw [if_neg heq, if_neg fun hin => heq hin.2, Int.zero_add]
    -- the old counter is for no later month than the reading's
    cases ht : x call.key with
    | none => rfl
    | some t => exact (if_neg ((hupto t ht).trans_lt (lt_of_le_of_ne hle heq)).ne).symm

theorem body_exact (hdate : Monotone date) {x : Trackers}
    (h : ∀ k, k.2 ≠ "" → Exact date clock log k (x k)) (hnow : now ≤ clock) {call : Call}
    (horder : InOrder date call now x) (k : Component × String) (hk : k.2 ≠ "") :
    Exact date clock (⟨call, now, (body date call now x).1⟩ :: log) k ((body date call now x).2 k) := by
  by_cases hcall : call.key = k
  · subst hcall
    rcases body_cases date now x hk with ⟨hbytes, heq⟩ | heq <;> rw [heq]
    · exact (h _ hk).skip fun _ => hbytes
    · exact (h _ hk).touch hdate hnow horder
  · rw [body_frame date now x hcall]
    exact (h k hk).skip fun heq => absurd heq hcall

end

/-- Two components that no call has reached yet. -/
def idle (start : Time) : ClockedLock.State Call Time (Option Bool) Trackers :=
  { clock := start, shared := fun _ => none }

def run (date : Time → Month) (start : Time) (moves : List (ClockedLock.Move Call Time)) :
    ClockedLock.State Call Time (Option Bool) Trackers :=
  moves.foldl (ClockedLock.step (body date)) (idle start)

section

variable (date : Time → Month) (hdate : Monotone date) (start : Time)
  (moves : List (ClockedLock.Move Call Time))
  (horder : ClockedLock.Meets (body date) (InOrder date) (idle start) moves)

include hdate horder

theorem run_exact (key : Component × String) (hkey : key.2 ≠ "") :
    Exact date (run date start moves).clock (run date start moves).log key
      ((run date start moves).shared key) :=
  ClockedLock.run_inv
    (I := fun clock log (x : Trackers) =>
      ∀ k : Component × String, k.2 ≠ "" → Exact date clock log k (x k))
    (fun _ _ _ _ hle hx k hk =>
      { hx k hk with past := fun t ht => ((hx k hk).past t ht).trans (hdate hle) })
    (fun _ _ _ _ _ hnow hok hx => body_exact hdate hx hnow hok) horder nofun
    (fun _ _ => ⟨nofun, fun _ => le_rfl, fun _ _ => rfl⟩) key hkey

/-- Whatever the interleaving, when no call enters with a month before its counter's, each tenant's
counter is the sum of what was observed in the current month. -/
theorem egress_counter_exact (key : Component × String) (hkey : key.2 ≠ "") :
    counter (date (run date start moves).clock) ((run date start moves).shared key) =
      observedIn date (run date start moves).log key (date (run date start moves).clock) := by
  have hexact := run_exact date hdate start moves horder key hkey
  exact hexact.sum _ hexact.past

/-- After a run in order, a check in order admits a tenant exactly when it has no budget or the bytes of
the month are below it. -/
theorem egress_budget_enforced (failClosed : Bool) (budget : Int) (tenantID : String)
    (htenant : tenantID ≠ "") (now : Time)
    (hnow : ∀ component, UpTo (date now) ((run date start moves).shared (component, tenantID))) :
    let s := run date start moves
    ((allowEgress date failClosed (some (some budget)) tenantID now s.shared).1 = true ↔
      budget ≤ 0 ∨ observedIn date s.log (.rateLimiter, tenantID) (date now) < budget) ∧
    ((allowBudget date budget tenantID now s.shared).1 = true ↔
      budget ≤ 0 ∨ observedIn date s.log (.abuseGuard, tenantID) (date now) < budget) := by
  intro s
  have hcounter component : counter (date now) (s.shared (component, tenantID)) = _ :=
    (run_exact date hdate start moves horder (component, tenantID) htenant).sum _
      (hnow component)
  rw [← hcounter, ← hcounter]
  unfold allowEgress allowBudget
  by_cases hbudget : budget ≤ 0
  · simp [hbudget]
  · simp [hbudget]

end

def civilMonth (t : Time) : Month :=
  toLex ((civilFromDays (t / nanosPerDay)).1, (civilFromDays (t / nanosPerDay)).2.1)

/-- The first call reads the last instant of January and enters after the one that has read
February. -/
def lateRun (component : Component) : ClockedLock.State Call Time (Option Bool) Trackers :=
  let february := daysFromCivil 2026 2 1 * nanosPerDay
  run civilMonth 0 [.read 0 (.observe component "t" 5) (february - 1),
    .read 1 (.observe component "t" 7) february, .enter 1, .enter 0]

/-- The late call takes February's bytes away. -/
theorem egress_counter_lost :
    (counter (toLex (2026, 2)) ((lateRun .rateLimiter).shared (.rateLimiter, "t")) = 0 ∧
      observedIn civilMonth (lateRun .rateLimiter).log (.rateLimiter, "t") (toLex (2026, 2)) = 7) ∧
    counter (toLex (2026, 2)) ((lateRun .abuseGuard).shared (.abuseGuard, "t")) = 0 ∧
      observedIn civilMonth (lateRun .abuseGuard).log (.abuseGuard, "t") (toLex (2026, 2)) = 7 := by
  decide +kernel

def january : Time → Month := fun _ => toLex (2026, 1)

/-- Two callers observe bytes of one tenant while a third checks the budget. -/
def threeCalls : List (ClockedLock.Move Call Time) :=
  [.read 0 (.observe .abuseGuard "t" 5) 3, .read 1 (.observe .abuseGuard "t" 7) 4,
    .read 2 (.allowBudget 10 "t") 4, .enter 1, .enter 2, .enter 0]

theorem egress_counter_exact_three :
    observedIn january (run january 0 threeCalls).log (.abuseGuard, "t") (toLex (2026, 1)) = 12 ∧
    counter (toLex (2026, 1)) ((run january 0 threeCalls).shared (.abuseGuard, "t")) =
      observedIn january (run january 0 threeCalls).log (.abuseGuard, "t") (toLex (2026, 1)) :=
  ⟨by decide +kernel, egress_counter_exact january monotone_const 0 threeCalls (by decide +kernel)
    (.abuseGuard, "t") (by decide)⟩

theorem egress_budget_enforced_three :
    (allowBudget january 12 "t" 5 (run january 0 threeCalls).shared).1 = true ↔ (12 : Int) ≤ 0 ∨
      observedIn january (run january 0 threeCalls).log (.abuseGuard, "t") (toLex (2026, 1)) < 12 :=
  (egress_budget_enforced january monotone_const 0 threeCalls (by decide +kernel) false 12 "t"
    (by decide) 5 fun component => by cases component <;> decide +kernel).2

end ObjectFabric.EgressMonth
