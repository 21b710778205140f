import ObjectFabric.Interleaving.ClockedLock

/-!
# RateLimiter — the token bucket of a tenant

`RateLimiter.Allow` of `internal/auth/rate_limit.go`, with exact numbers of seconds and tokens.  The
clock is read before the lock is taken, and the time of the last event is set to the reading also
when another call has already entered with a later one.
-/

namespace ObjectFabric.RateLimiter

open Interleaving

structure Bucket where
  tokens : ℚ
  capacity : ℚ
  refillPS : ℚ
  lastEvent : ℚ

/-- `Lookup` gives requests per second and burst. -/
structure Config where
  lookup : String → Option (Int × Int)
  failClosed : Bool := false

def effectiveBurst (rps burst : Int) : Int := if burst ≤ 0 then rps else burst

/-- The tenants' buckets, each made at the tenant's first call. -/
abbrev Buckets := String → Option Bucket

/-- The bucket, made full at the first call, with the limits of this call. -/
def current (capacity refillPS now : ℚ) : Option Bucket → Bucket
  | none => ⟨capacity, capacity, refillPS, now⟩
  | some b => { b with capacity, refillPS }

/-- The locked section, for a tenant with a ceiling. -/
def take (capacity refillPS now : ℚ) (found : Option Bucket) : Bool × Bucket :=
  let b := current capacity refillPS now found
  let tokens :=
    if 0 < now - b.lastEvent then min capacity (b.tokens + (now - b.lastEvent) * refillPS)
    else b.tokens
  if tokens < 1 then (false, { b with tokens, lastEvent := now })
  else (true, { b with tokens := tokens - 1, lastEvent := now })

def allow (cfg : Config) (tenantID : String) (now : ℚ) (x : Buckets) : Bool × Buckets :=
  match cfg.lookup tenantID with
  | none => (!cfg.failClosed, x)
  | some (rps, burst) =>
    if rps ≤ 0 then (true, x)
    else
      let (admitted, b) := take (effectiveBurst rps burst) rps now (x tenantID)
      (admitted, Function.update x tenantID (some b))

/-! ## Windows -/

/-- The calls of `Allow` that have returned, with their answers. -/
abbrev Log := List (ClockedLock.Entry String ℚ Bool)

/-- The readings of the tenant's calls that were answered with true. -/
def admissions (log : Log) (tenantID : String) : List ℚ :=
  (log.filter fun e => e.call = tenantID ∧ e.answer).map (·.reading)

def admittedIn (log : Log) (tenantID : String) (s t : ℚ) : Nat :=
  (admissions log tenantID).countP fun r => s ≤ r ∧ r ≤ t

theorem admissions_cons (log : Log) (tenantID : String) (e : ClockedLock.Entry String ℚ Bool) :
    admissions (e :: log) tenantID =
      if e.call = tenantID ∧ e.answer then e.reading :: admissions log tenantID
      else admissions log tenantID := by
  unfold admissions
  by_cases he : e.call = tenantID ∧ e.answer
  · rw [List.filter_cons_of_pos (by simpa using he), if_pos he, List.map_cons]
  · rw [List.filter_cons_of_neg (by simpa using he), if_neg he]

/-- The tokens that are left pay for what the bucket would admit beyond the bound. -/
structure Paid (capacity rate last tokens : ℚ) (l : List ℚ) : Prop where
  nonneg : 0 ≤ tokens
  full : tokens ≤ capacity
  past : ∀ r ∈ l, r ≤ last
  since : ∀ s ≤ last, l.countP (s ≤ ·) + tokens ≤ capacity + rate * (last - s)
  window : ∀ s t, s ≤ t → l.countP (fun r => s ≤ r ∧ r ≤ t) ≤ capacity + rate * (t - s)

section

variable {capacity rate last tokens now : ℚ} {l : List ℚ}

theorem Paid.fresh (hrate : 0 < rate) (hcap : 0 ≤ capacity) : Paid capacity rate last capacity [] := by
  refine ⟨hcap, le_rfl, by simp, fun s hs => ?_, fun s t hst => ?_⟩
  · have := mul_nonneg hrate.le (sub_nonneg.mpr hs)
    simpa
  · have := mul_nonneg hrate.le (sub_nonneg.mpr hst)
    simp only [List.countP_nil, Nat.cast_zero]
    linarith

theorem Paid.refill (h : Paid capacity rate last tokens l) (hrate : 0 < rate) (hnow : last ≤ now) :
    Paid capacity rate now (min capacity (tokens + (now - last) * rate)) l := by
  have hmore : 0 ≤ (now - last) * rate := mul_nonneg (sub_nonneg.mpr hnow) hrate.le
  refine ⟨le_min (h.nonneg.trans h.full) (add_nonneg h.nonneg hmore), min_le_left _ _,
    fun r hr => (h.past r hr).trans hnow, fun s hs => ?_, h.window⟩
  rcases le_or_gt s last with hlast | hlast
  · have hsince := h.since s hlast
    have hmin := min_le_right capacity (tokens + (now - last) * rate)
    linarith
  · -- nothing has been admitted since
    have hnone : l.countP (s ≤ ·) = 0 :=
      List.countP_eq_zero.mpr fun r hr => by simpa using (h.past r hr).trans_lt hlast
    have hmin := min_le_left capacity (tokens + (now - last) * rate)
    have := mul_nonneg hrate.le (sub_nonneg.mpr hs)
    rw [hnone, Nat.cast_zero]
    linarith

theorem Paid.spend (h : Paid capacity rate now tokens l) (hrate : 0 < rate) (hone : 1 ≤ tokens) :
    Paid capacity rate now (tokens - 1) (now :: l) := by
  have hsince : ∀ s ≤ now, (now :: l).countP (s ≤ ·) + (tokens - 1) ≤ capacity + rate * (now - s) := by
    intro s hs
    have := h.since s hs
    rw [List.countP_cons_of_pos (by simpa using hs)]
    push_cast
    linarith
  refine ⟨by linarith, by linarith [h.full], ?_, hsince, fun s t hst => ?_⟩
  · simpa using h.past
  by_cases hin : s ≤ now ∧ now ≤ t
  · have hle : ((now :: l).countP fun r => s ≤ r ∧ r ≤ t) ≤ (now :: l).countP (s ≤ ·) :=
      List.countP_mono_left fun r _ hr => by simpa using (of_decide_eq_true hr).1
    have hcast : (((now :: l).countP fun r => s ≤ r ∧ r ≤ t : Nat) : ℚ) ≤
        (now :: l).countP (s ≤ ·) := by exact_mod_cast hle
    have := mul_le_mul_of_nonneg_left (sub_le_sub_right hin.2 s) hrate.le
    linarith [hsince s hin.1]
  · rw [List.countP_cons_of_neg (by simpa using hin)]
    exact h.window s t hst

end

/-- The tenants' buckets when all calls have entered in the order of their readings. -/
def Fair (cfg : Config) (log : Log) (x : Buckets) : Prop :=
  ∀ tenantID rps burst, cfg.lookup tenantID = some (rps, burst) → 0 < rps →
    (x tenantID = none → admissions log tenantID = []) ∧
    ∀ b, x tenantID = some b →
      Paid (effectiveBurst rps burst) rps b.lastEvent b.tokens (admissions log tenantID)

/-- No call enters with a reading before that of the call that entered last. -/
def InOrder (tenantID : String) (now : ℚ) (x : Buckets) : Prop :=
  ∀ b ∈ x tenantID, b.lastEvent ≤ now

instance (tenantID : String) (now : ℚ) (x : Buckets) : Decidable (InOrder tenantID now x) :=
  inferInstanceAs (Decidable (∀ b ∈ x tenantID, b.lastEvent ≤ now))

theorem effectiveBurst_pos {rps burst : Int} (h : 0 < rps) : (0 : ℚ) < effectiveBurst rps burst := by
  unfold effectiveBurst
  split <;> exact_mod_cast (by omega)

theorem take_paid {found : Option Bucket} {capacity rate now : ℚ} {l : List ℚ} (hrate : 0 < rate)
    (hcap : 0 < capacity) (hnone : found = none → l = [])
    (hpaid : ∀ b, found = some b → Paid capacity rate b.lastEvent b.tokens l)
    (horder : ∀ b, found = some b → b.lastEvent ≤ now) :
    Paid capacity rate (take capacity rate now found).2.lastEvent
      (take capacity rate now found).2.tokens
      (if (take capacity rate now found).1 then now :: l else l) := by
  have hcurrent : (current capacity rate now found).lastEvent ≤ now ∧
      Paid capacity rate (current capacity rate now found).lastEvent
        (current capacity rate now found).tokens l := by
    cases found with
    | none => exact ⟨le_rfl, hnone rfl ▸ Paid.fresh hrate hcap.le⟩
    | some b => exact ⟨horder b rfl, hpaid b rfl⟩
  unfold take
  generalize current capacity rate now found = b at hcurrent
  rcases hcurrent with ⟨hlast, hold⟩
  simp only
  have hfilled : Paid capacity rate now (if 0 < now - b.lastEvent then
      min capacity (b.tokens + (now - b.lastEvent) * rate) else b.tokens) l := by
    split
    · exact hold.refill hrate hlast
    · rwa [show now = b.lastEvent by linarith]
  by_cases hone : (if 0 < now - b.lastEvent then
      min capacity (b.tokens + (now - b.lastEvent) * rate) else b.tokens) < 1
  · rw [if_pos hone]
    exact hfilled
  · rw [if_neg hone]
    exact hfilled.spend hrate (not_lt.mp hone)

theorem Fair.allow {cfg : Config} {log : Log} {x : Buckets} (h : Fair cfg log x) {tenantID : String}
    {now : ℚ} (horder : InOrder tenantID now x) :
    Fair cfg (⟨tenantID, now, (allow cfg tenantID now x).1⟩ :: log) (allow cfg tenantID now x).2 := by
  intro t rps burst hr hpos
  rcases h t rps burst hr hpos with ⟨hnone, hpaid⟩
  rw [admissions_cons]
  by_cases ht : tenantID = t
  · subst ht
    have hceiling : ¬ rps ≤ 0 := not_le.mpr hpos
    simp only [RateLimiter.allow, hr, if_neg hceiling, Function.update_self, true_and]
    exact ⟨(by cases ·), fun b hb => Option.some.inj hb ▸
      take_paid (by exact_mod_cast hpos) (effectiveBurst_pos hpos) hnone hpaid horder⟩
  · rw [if_neg (by simp [ht])]
    -- another tenant's call leaves the bucket as it is
    have hsame : (RateLimiter.allow cfg tenantID now x).2 t = x t := by
      unfold RateLimiter.allow
      cases cfg.lookup tenantID with
      | none => rfl
      | some r =>
        simp only
        split
        · rfl
        · exact Function.update_of_ne (Ne.symm ht) _ _
    rw [hsame]
    exact ⟨hnone, hpaid⟩

/-- A limiter that no call has reached yet. -/
def idle (start : ℚ) : ClockedLock.State String ℚ Bool Buckets :=
  { clock := start, shared := fun _ => none }

def run (cfg : Config) (start : ℚ) (moves : List (ClockedLock.Move String ℚ)) :
    ClockedLock.State String ℚ Bool Buckets :=
  moves.foldl (ClockedLock.step (allow cfg)) (idle start)

/-- Whatever the interleaving, when the calls enter in the order of their readings no window has more
admissions than the burst and the refill of its length. -/
theorem token_bucket_window (cfg : Config) (start : ℚ) (moves : List (ClockedLock.Move String ℚ))
    (horder : ClockedLock.Meets (allow cfg) InOrder (idle start) moves)
    {tenantID : String} {rps burst : Int} (hlookup : cfg.lookup tenantID = some (rps, burst))
    (hrps : 0 < rps) {s t : ℚ} (hst : s ≤ t) :
    admittedIn (run cfg start moves).log tenantID s t ≤
      (effectiveBurst rps burst : ℚ) + rps * (t - s) := by
  have hfair : Fair cfg (run cfg start moves).log (run cfg start moves).shared :=
    ClockedLock.run_inv (I := fun _ => Fair cfg) (fun _ _ _ _ _ hx => hx)
      (fun _ _ _ _ _ _ hok hx => Fair.allow hx hok) horder nofun
      fun _ _ _ _ _ => ⟨fun _ => rfl, fun _ hb => by cases hb⟩
  rcases hfair tenantID rps burst hlookup hrps with ⟨hnone, hpaid⟩
  unfold admittedIn
  cases hbucket : (run cfg start moves).shared tenantID with
  | none =>
    rw [hnone hbucket]
    exact (Paid.fresh (by exact_mod_cast hrps) (effectiveBurst_pos hrps).le : Paid _ _ 0 _ _).window s t hst
  | some b => exact (hpaid b hbucket).window s t hst

def oneASecond : Config := ⟨fun _ => some (1, 1), false⟩

/-- The second caller reads the clock at 0 and enters after the one that read 1: the second between
them is refilled twice, and three requests pass within it. -/
theorem token_bucket_refills_twice :
    admittedIn (run oneASecond 0 [.read 0 "t" 0, .enter 0, .read 1 "t" 0, .read 0 "t" 1, .enter 0,
      .enter 1, .read 0 "t" 1, .enter 0]).log "t" 0 1 = 3 := by
  decide +kernel

/-- Two callers of one tenant read the clock at 0 and enter in the other order, a third reads it at 1
beside a caller of another tenant. -/
def fourCallers : List (ClockedLock.Move String ℚ) :=
  [.read 0 "t" 0, .read 1 "t" 0, .enter 1, .enter 0, .read 2 "t" 1, .read 3 "u" 1, .enter 3, .enter 2]

theorem token_bucket_window_four :
    admittedIn (run oneASecond 0 fourCallers).log "t" 0 1 = 2 ∧
      (admittedIn (run oneASecond 0 fourCallers).log "t" 0 1 : ℚ) ≤
        ((effectiveBurst 1 1 : Int) : ℚ) + (1 : Int) * (1 - 0) :=
  ⟨by decide +kernel,
    token_bucket_window oneASecond 0 fourCallers (by decide +kernel) rfl (by decide) (by norm_num)⟩

end ObjectFabric.RateLimiter
