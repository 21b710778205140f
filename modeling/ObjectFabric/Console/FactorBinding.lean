import ObjectFabric.Console.SecondFactor

/-!
# FactorBinding — a code counts for the enrollment that is there

A request verifies its code against the secret that it has read, and the store accepts the time step
of whatever enrollment is there by then.  `Activate` compares the secret again; `MarkTOTPStep`,
`ConsumeRecoveryCode` and `Disable` do not, so a code of a removed enrollment can be accepted by its
successor.  As long as no enrollment is replaced between a request's read and its later steps, every
accepted code is one of the enrollment that accepts it.
-/

namespace ObjectFabric

open Interleaving Proc

namespace MFATask

def activates : MFATask → Bool
  | activate _ _ => true
  | _ => false

def disables : MFATask → Bool
  | disable _ => true
  | _ => false

def enrolls : MFATask → Prop
  | enroll _ _ => True
  | _ => False

end MFATask

def lastRecord : History MFACall → Option MFARecord
  | [] => none
  | ⟨.getMFA, .ok (some rec)⟩ :: _ => some rec
  | _ :: h => lastRecord h

def accepts (e : Event MFACall) : Bool := (acceptedFactor e.call e.result).isSome

/-! ## 1. The property -/

/-- The code that the request presents is one of the enrollment that accepted it: for the clock
reading of the request it has this time step, or it is one of the unused recovery codes.  An
activation finds the enrollment pending, any other request active. -/
def Acceptance.genuine (lib : FactorLibrary) (tasks : List MFATask) (a : Acceptance) : Bool :=
  tasks[a.thread]?.any fun task =>
    (a.row.active = !task.activates) &&
      match a.factor with
      | .step n => (a.clock.bind fun t =>
          totpVerify lib a.row.secret (trimmed task.req.totpCode) t) = some n
      | .recovery hash => hash = hashRecoveryCode lib (trimmed task.req.recoveryCode) &&
          decide (hash ∈ a.row.recovery)

def removedAt (P : Pool MFACall AuthAnswer (Option MFARow)) (mv : Nat × MFAChoice) :
    Option MFARow :=
  match P.shared, (P.step mfaMachine mv).shared with
  | some row, none => if row.active then some row else none
  | _, _ => none

def enrollmentKept (h : History MFACall) (row? : Option MFARow) : Bool :=
  row?.all fun row => !row.active || (lastRecord h).all fun rec => row.secret = rec.secret

variable {h : History MFACall} {row : MFARow} {rec : MFARecord}

theorem secret_of_enrollmentKept
    (hkept : enrollmentKept h (some row) = true) (hactive : row.active = true)
    (hread : lastRecord h = some rec) : row.secret = rec.secret := by
  simpa [enrollmentKept, hactive, hread] using hkept

/-- No enrollment is replaced between a request's read and its later steps: where the store is to
accept a time step or to remove the enrollment, and where a disable request consumes a recovery
code. -/
def sameEnrollment (tasks : List MFATask) : Condition MFACall MFAChoice (Option MFARow) PUnit :=
  fun i h _ c _ row? _ =>
    match c with
    | .markTOTPStep _ => enrollmentKept h row? = true
    | .disable => enrollmentKept h row? = true
    | .consumeRecoveryCode _ => tasks[i]?.any MFATask.disables = true → enrollmentKept h row? = true
    | _ => True

instance (tasks : List MFATask) (i : Nat) (h : History MFACall) {β : Type} (c : MFACall β)
    (x : MFAChoice) (row? : Option MFARow) (R : PUnit) :
    Decidable (sameEnrollment tasks i h c x row? R) :=
  match c with
  | .markTOTPStep _ => inferInstanceAs (Decidable (enrollmentKept h row? = true))
  | .disable => inferInstanceAs (Decidable (enrollmentKept h row? = true))
  | .consumeRecoveryCode _ => inferInstanceAs (Decidable
      (tasks[i]?.any MFATask.disables = true → enrollmentKept h row? = true))
  | .beginEnrollment _ | .getMFA | .activate _ _ _ | .disablePending | .now | .issueToken =>
    .isTrue trivial

/-! ## 2. What a request has checked -/

section

variable (lib : FactorLibrary) (acct : Account)

/-- The code of the request has this time step under a secret, at the clock that it has read. -/
def CodeVerified (task : MFATask) (h : History MFACall) (secret : String) (n : Int) : Prop :=
  ∃ t, lastClock h = some t ∧ totpVerify lib secret (trimmed task.req.totpCode) t = some n

/-- The last call of a request accepted a factor, after the request had read this record. -/
def AcceptedAfter (rec : MFARecord) : History MFACall → Prop
  | [] => False
  | e :: h => accepts e = true ∧ lastRecord h = some rec

def factorSpec (task : MFATask) : Spec MFACall where
  pre h c :=
    match c with
    | .activate secret n _ => task.activates = true ∧ CodeVerified lib task h secret n
    | .markTOTPStep n => task.activates = false ∧
        ∃ rec, lastRecord h = some rec ∧ CodeVerified lib task h rec.secret n
    | .consumeRecoveryCode hash => task.activates = false ∧
        hash = hashRecoveryCode lib (trimmed task.req.recoveryCode)
    | .disable => task.disables = true ∧
        ∃ rec, lastRecord h = some rec ∧ AcceptedAfter rec h
    | .beginEnrollment _ => task.enrolls
    | _ => True
  post _ _ _ := True

/-- A session without a factor is one for which no active enrollment was read; an activation always
has its factor. -/
def Justified (h : History MFACall) : AuthAnswer → Prop
  | .session => (∀ rec, lastRecord h = some rec → rec.active = false) ∨ ∃ e ∈ h, accepts e = true
  | .activated _ => ∃ e ∈ h, accepts e = true
  | _ => True

-- which strings are compared does not matter to which calls are made
attribute [local irreducible] trimmed totpVerify hashRecoveryCode

variable {lib acct}

theorem checkSecondFactor_conforms (task : MFATask) (hact : task.activates = false)
    (hrec : lastRecord h = some rec) :
    (checkSecondFactor lib rec task.req).Conforms (factorSpec lib task)
      (fun h' valid => valid = .ok true → AcceptedAfter rec h' ∧ lastRecord h' = some rec) h := by
  unfold checkSecondFactor
  split
  · refine ⟨⟨hact, rfl⟩, fun b _ => ?_⟩
    rintro rfl
    exact ⟨⟨rfl, hrec⟩, hrec⟩
  split
  · exact fun hfalse => nomatch hfalse
  refine ⟨trivial, fun t _ => ?_⟩
  have hread : lastRecord (⟨.now, t⟩ :: h) = some rec := hrec
  simp only [Proc.ret_bind]
  split
  · exact fun hfalse => nomatch hfalse
  rename_i step hverify
  refine ⟨⟨hact, rec, hread, t, rfl, hverify⟩, fun b _ => ?_⟩
  rintro rfl
  exact ⟨⟨rfl, hread⟩, hread⟩

theorem issueSession_conforms {task : MFATask}
    (hjust : (∀ rec, lastRecord h = some rec → rec.active = false) ∨ ∃ e ∈ h, accepts e = true) :
    issueSession.Conforms (factorSpec lib task) Justified h := by
  refine ⟨trivial, fun b _ => ?_⟩
  rcases b with err | u
  · trivial
  rcases hjust with hnone | ⟨e, he, hacc⟩
  · exact Or.inl hnone
  · exact Or.inr ⟨e, List.mem_cons_of_mem _ he, hacc⟩

theorem exists_accepts (hacc : AcceptedAfter rec h) :
    ∃ e ∈ h, accepts e = true := by
  cases h with
  | nil => exact hacc.elim
  | cons e h => exact ⟨e, List.mem_cons_self, hacc.1⟩

theorem login_conforms (req : FactorRequest) :
    (login lib acct req).Conforms (factorSpec lib (.login req)) Justified [] := by
  unfold login
  cases authenticateMFARequest lib acct req with
  | some refusal => trivial
  | none => ?_
  dsimp only
  split
  · trivial
  refine ⟨trivial, fun rec? _ => ?_⟩
  match rec? with
  | .error _ => trivial
  | .ok none => exact issueSession_conforms (Or.inl fun rec hrec => nomatch hrec)
  | .ok (some rec) =>
    simp only [Proc.ret_bind]
    split
    · rename_i hactive
      refine issueSession_conforms (Or.inl fun rec' hrec' => ?_)
      obtain rfl : rec = rec' := Option.some.inj hrec'
      simpa using hactive
    · refine (checkSecondFactor_conforms (.login req) rfl rfl).seq fun h' valid hvalid => ?_
      match valid with
      | .error _ => trivial
      | .ok false => trivial
      | .ok true => exact issueSession_conforms (Or.inr (exists_accepts (hvalid rfl).1))

theorem mfaEnroll_conforms (req : FactorRequest) (secret : Option String) :
    (mfaEnroll lib acct req secret).Conforms (factorSpec lib (.enroll req secret)) Justified [] := by
  unfold mfaEnroll
  cases authenticateMFARequest lib acct req with
  | some refusal => trivial
  | none => ?_
  rcases secret with _ | secret
  · trivial
  refine ⟨trivial, fun b _ => ?_⟩
  match b with
  | .ok _ => trivial
  | .error .alreadyActive => trivial
  | .error .notEnrolled => trivial
  | .error (.other _) => trivial

theorem mfaActivate_conforms (req : FactorRequest) (codes : Option (List String)) :
    (mfaActivate lib acct req codes).Conforms (factorSpec lib (.activate req codes)) Justified
      [] := by
  unfold mfaActivate
  cases authenticateMFARequest lib acct req with
  | some refusal => trivial
  | none => ?_
  refine ⟨trivial, fun rec? _ => ?_⟩
  match rec? with
  | .error _ => trivial
  | .ok none => trivial
  | .ok (some rec) =>
    simp only [Proc.ret_bind]
    split
    · trivial
    split
    · trivial
    refine .ask trivial fun t _ => ?_
    split
    · trivial
    rename_i step hverify
    rcases codes with _ | codes
    · trivial
    refine ⟨⟨rfl, t, rfl, hverify⟩, fun b _ => ?_⟩
    match b with
    | .ok _ => exact ⟨_, List.mem_cons_self, rfl⟩
    | .error .notEnrolled => trivial
    | .error .alreadyActive => trivial
    | .error (.other _) => trivial

theorem disableActive_conforms {req : FactorRequest}
    (hrec : lastRecord h = some rec) :
    (disableActive lib rec req).Conforms (factorSpec lib (.disable req)) Justified h := by
  refine (checkSecondFactor_conforms (.disable req) rfl hrec).seq fun h' valid hvalid => ?_
  match valid with
  | .error _ => trivial
  | .ok false => trivial
  | .ok true =>
    obtain ⟨hacc, hread⟩ := hvalid rfl
    refine ⟨⟨rfl, rec, hread, hacc⟩, fun b _ => ?_⟩
    cases b <;> trivial

theorem mfaDisable_conforms (req : FactorRequest) :
    (mfaDisable lib acct req).Conforms (factorSpec lib (.disable req)) Justified [] := by
  unfold mfaDisable
  cases authenticateMFARequest lib acct req with
  | some refusal => trivial
  | none => ?_
  refine ⟨trivial, fun rec? _ => ?_⟩
  match rec? with
  | .error _ => trivial
  | .ok none => trivial
  | .ok (some rec) =>
    simp only [Proc.ret_bind]
    split
    · exact disableActive_conforms rfl
    refine ⟨trivial, fun cleared _ => ?_⟩
    match cleared with
    | .error _ => trivial
    | .ok true => trivial
    | .ok false =>
      refine ⟨trivial, fun again _ => ?_⟩
      match again with
      | .error _ => trivial
      | .ok none => trivial
      | .ok (some rec) =>
        simp only [Proc.ret_bind]
        split
        · exact disableActive_conforms rfl
        · trivial

theorem MFATask.program_conforms (task : MFATask) :
    (task.program lib acct).Conforms (factorSpec lib task) Justified [] := by
  cases task with
  | login req => exact login_conforms req
  | enroll req secret => exact mfaEnroll_conforms req secret
  | activate req codes => exact mfaActivate_conforms req codes
  | disable req => exact mfaDisable_conforms req

end

variable {i : Nat}

/-! ## 3. One step -/

section

variable {lib : FactorLibrary} {acct : Account} {tasks : List MFATask}

def factorProtocol (lib : FactorLibrary) (tasks : List MFATask) :
    Protocol MFACall (Option MFARow) MFAChoice PUnit where
  held _ := 0
  inv _ _ := True
  cond := sameEnrollment tasks
  spec i := (tasks[i]?.map (factorSpec lib)).getD anyCalls

theorem factorProtocol_spec {task : MFATask} (htask : tasks[i]? = some task) :
    (factorProtocol lib tasks).spec i = factorSpec lib task := by
  show (tasks[i]?.map (factorSpec lib)).getD anyCalls = factorSpec lib task
  rw [htask]
  rfl

theorem factorProtocol_sound : (factorProtocol lib tasks).Sound mfaMachine where
  step i h c x s R _ _ _ := by
    refine ⟨?_, trivial⟩
    show ((tasks[i]?.map (factorSpec lib)).getD anyCalls).post h c _
    cases tasks[i]? <;> trivial
  drop _ _ _ _ := trivial

/-- A call that accepts a factor does so rightly, if the enrollment is still the one that was read. -/
theorem genuine_of_accepted {β : Type} {c : MFACall β} {x : MFAChoice} {f : Factor}
    {task : MFATask} (htask : tasks[i]? = some task)
    (hpre : (factorSpec lib task).pre h c)
    (hcond : sameEnrollment tasks i h c x (some row) 0)
    (hf : acceptedFactor c (mfaMachine.exec x c (some row)).1 = some f) :
    Acceptance.genuine lib tasks ⟨i, f, row, lastClock h⟩ = true ∧
    (task.disables = true → ∀ rec, lastRecord h = some rec → row.secret = rec.secret) := by
  obtain ⟨now, fault⟩ := x
  cases fault with
  | some err => cases c <;> exact absurd hf (by simp [acceptedFactor, mfaMachine])
  | none =>
  cases c with
  | activate secret n hashes =>
    obtain ⟨hact, t, hclock, hverify⟩ := hpre
    change acceptedFactor (.activate secret n hashes)
      (MFARow.activate (some row) secret n hashes).1 = some f at hf
    rcases activate_cases (some row) secret n hashes with
      ⟨row₀, row', hrow, hpending, hsecret, -, heq⟩ | heq
    · obtain rfl : row = row₀ := Option.some.inj hrow
      rw [heq] at hf
      obtain rfl : Factor.step n = f := Option.some.inj hf
      refine ⟨?_, fun hdis => ?_⟩
      · simp [Acceptance.genuine, htask, hact, hpending, hclock, hsecret, hverify]
      · cases task <;> simp [MFATask.activates, MFATask.disables] at hact hdis
    · rw [heq] at hf
      cases hf
  | markTOTPStep n =>
    obtain ⟨hact, rec, hread, t, hclock, hverify⟩ := hpre
    change acceptedFactor (.markTOTPStep n) (MFARow.markTOTPStep (some row) n).1 = some f at hf
    rcases markTOTPStep_cases (some row) n with ⟨row₀, row', hrow, hactive, -, -, heq⟩ | heq
    · obtain rfl : row = row₀ := Option.some.inj hrow
      rw [heq] at hf
      obtain rfl : Factor.step n = f := Option.some.inj hf
      have hsame : row.secret = rec.secret := secret_of_enrollmentKept hcond hactive hread
      refine ⟨?_, fun _ rec' hread' => secret_of_enrollmentKept hcond hactive hread'⟩
      simp [Acceptance.genuine, htask, hact, hactive, hclock, hsame, hverify]
    · rw [heq] at hf
      cases hf
  | consumeRecoveryCode hash =>
    obtain ⟨hact, hhash⟩ := hpre
    change acceptedFactor (.consumeRecoveryCode hash)
      (MFARow.consumeRecoveryCode (some row) hash).1 = some f at hf
    rcases consumeRecoveryCode_cases (some row) hash with
      ⟨row₀, row', hrow, hactive, hacc, -, heq⟩ | heq
    · obtain rfl : row = row₀ := Option.some.inj hrow
      rw [heq] at hf
      obtain rfl : Factor.recovery hash = f := Option.some.inj hf
      have hunused : hash ∈ row.recovery := by
        cases hacc
        assumption
      refine ⟨?_, fun hdis rec hread => ?_⟩
      · rw [hhash] at hunused ⊢
        simp [Acceptance.genuine, htask, hact, hactive, hunused]
      · have hkept : enrollmentKept h (some row) = true := hcond (by simp [htask, hdis])
        exact secret_of_enrollmentKept hkept hactive hread
    · rw [heq] at hf
      cases hf
  | _ => exact absurd hf (by simp [acceptedFactor])

/-! ## 4. Whole runs -/

/-- What the calls of the requests have been granted is among the acceptances so far; for a disable
request, under the secret that it has read. -/
structure Logged (tasks : List MFATask) (P : Pool MFACall AuthAnswer (Option MFARow))
    (accepted : List Acceptance) : Prop where
  granted : ∀ i t, P.threads[i]? = some t → (∃ e ∈ t.past, accepts e = true) →
    ∃ a ∈ accepted, a.thread = i
  sameSecret : ∀ i t req rec, P.threads[i]? = some t → tasks[i]? = some (.disable req) →
    AcceptedAfter rec t.past → ∃ a ∈ accepted, a.thread = i ∧ a.row.secret = rec.secret

theorem Logged.mono {P : Pool MFACall AuthAnswer (Option MFARow)} {accepted more : List Acceptance}
    (h : Logged tasks P accepted) : Logged tasks P (accepted ++ more) where
  granted i t ht he := by
    obtain ⟨a, ha, hi⟩ := h.granted i t ht he
    exact ⟨a, List.mem_append_left more ha, hi⟩
  sameSecret i t req rec ht htask hacc := by
    obtain ⟨a, ha, hi⟩ := h.sameSecret i t req rec ht htask hacc
    exact ⟨a, List.mem_append_left more ha, hi⟩

variable {P : Pool MFACall AuthAnswer (Option MFARow)} {mv : Nat × MFAChoice}
  {accepted : List Acceptance}

/-- Every thread runs the program of a task, and has kept to what it has checked. -/
def InStep (lib : FactorLibrary) (tasks : List MFATask)
    (P : Pool MFACall AuthAnswer (Option MFARow)) : Prop :=
  P.threads.length = tasks.length ∧ (factorProtocol lib tasks).Good (fun _ => Justified) P

section

variable (hP : InStep lib tasks P)
include hP

theorem InStep.task {t : Thread MFACall AuthAnswer} (ht : P.threads[i]? = some t) :
    ∃ task, tasks[i]? = some task ∧ t.rest.Conforms (factorSpec lib task) Justified t.past := by
  have hlt : i < tasks.length := hP.1 ▸ (List.getElem?_eq_some_iff.mp ht).1
  have htask : tasks[i]? = some tasks[i] := List.getElem?_eq_getElem hlt
  have hconf := hP.2.conforms i t ht
  rw [factorProtocol_spec htask] at hconf
  exact ⟨tasks[i], htask, hconf⟩

theorem InStep.justified {t : Thread MFACall AuthAnswer} {answer : AuthAnswer}
    (ht : P.threads[i]? = some t) (hanswer : t.result? = some answer) : Justified t.past answer := by
  obtain ⟨task, -, hconf⟩ := hP.task ht
  unfold Thread.result? at hanswer
  cases hrest : t.rest with
  | call c k => simp [hrest] at hanswer
  | ret answer' =>
    obtain rfl : answer' = answer := by simpa [hrest] using hanswer
    rwa [hrest] at hconf

theorem InStep.step (hmv : P.MoveMeets (factorProtocol lib tasks).held (sameEnrollment tasks) mv) :
    InStep lib tasks (P.step mfaMachine mv) := by
  refine ⟨?_, factorProtocol_sound.good_step hP.2 hmv⟩
  rcases P.step_cases mfaMachine mv with hstep | ⟨past, β, c, k, hi, hstep⟩
  · rw [hstep]
    exact hP.1
  · rw [hstep, List.length_set]
    exact hP.1

theorem accepted_step (hlog : Logged tasks P accepted)
    (hmv : P.MoveMeets (factorProtocol lib tasks).held (sameEnrollment tasks) mv) :
    (∀ a, acceptedAt P mv = some a → a.genuine lib tasks = true) ∧
    Logged tasks (P.step mfaMachine mv) (accepted ++ (acceptedAt P mv).toList) := by
  rcases acceptedAt_cases P mv with ⟨hat, hstep⟩ | ⟨past, β, c, k, hi, hstep, hat⟩
  · rw [hat, hstep]
    exact ⟨fun a ha => absurd ha (by simp), hlog.mono⟩
  obtain ⟨task, htask, hpre, -⟩ := hP.task hi
  have hcond : sameEnrollment tasks mv.1 past c mv.2 P.shared 0 := by
    simpa only [Pool.MoveMeets, hi] using hmv
  have hlt : mv.1 < P.threads.length := (List.getElem?_eq_some_iff.mp hi).1
  -- the acceptance of this move, if it is one
  have hnew : ∀ f, acceptedFactor c (mfaMachine.exec mv.2 c P.shared).1 = some f →
      ∃ row, P.shared = some row ∧ acceptedAt P mv = some ⟨mv.1, f, row, lastClock past⟩ := by
    intro f hf
    obtain ⟨row, row', hrow, -, -⟩ := exec_accepts hf
    refine ⟨row, hrow, ?_⟩
    rw [hat, hf, hrow]
    rfl
  refine ⟨fun a ha => ?_, ?_⟩
  · rw [hat] at ha
    obtain ⟨row, hrow, hmap⟩ := Option.bind_eq_some_iff.mp ha
    obtain ⟨f, hf, rfl⟩ := Option.map_eq_some_iff.mp hmap
    rw [hrow] at hf hcond
    exact (genuine_of_accepted htask hpre hcond hf).1
  · rw [hstep]
    refine ⟨fun i t ht he => ?_, fun i t req rec ht hdis hacc => ?_⟩
    · by_cases hsame : mv.1 = i
      · subst hsame
        rw [List.getElem?_set_self hlt] at ht
        obtain rfl := Option.some.inj ht
        obtain ⟨e, he, hacce⟩ := he
        rcases List.mem_cons.mp he with rfl | hold
        · obtain ⟨f, hf⟩ := Option.isSome_iff_exists.mp hacce
          obtain ⟨row, -, hsome⟩ := hnew f hf
          exact ⟨_, List.mem_append_right _ (by rw [hsome]; exact List.mem_singleton_self _), rfl⟩
        · exact hlog.mono.granted mv.1 _ hi ⟨e, hold, hacce⟩
      · rw [List.getElem?_set_ne hsame] at ht
        exact hlog.mono.granted i t ht he
    · by_cases hsame : mv.1 = i
      · subst hsame
        rw [List.getElem?_set_self hlt] at ht
        obtain rfl := Option.some.inj ht
        obtain ⟨hacce, hread⟩ := hacc
        obtain ⟨f, hf⟩ := Option.isSome_iff_exists.mp hacce
        obtain ⟨row, hrow, hsome⟩ := hnew f hf
        have hf' : acceptedFactor c (mfaMachine.exec mv.2 c P.shared).1 = some f := hf
        obtain rfl : task = .disable req := Option.some.inj (htask.symm.trans hdis)
        rw [hrow] at hf' hcond
        have hsecret := (genuine_of_accepted htask hpre hcond hf').2 rfl rec hread
        exact ⟨_, List.mem_append_right _ (by rw [hsome]; exact List.mem_singleton_self _), rfl,
          hsecret⟩
      · rw [List.getElem?_set_ne hsame] at ht
        exact hlog.mono.sameSecret i t req rec ht hdis hacc

/-- A move that removes an active enrollment is one of a request whose factor that enrollment has
accepted. -/
theorem removed_step (hlog : Logged tasks P accepted)
    (hmv : P.MoveMeets (factorProtocol lib tasks).held (sameEnrollment tasks) mv)
    (hremoved : removedAt P mv = some row) :
    ∃ a ∈ accepted, a.thread = mv.1 ∧ a.row.secret = row.secret := by
  unfold removedAt at hremoved
  rcases hshared : P.shared with _ | row₀
  · simp [hshared] at hremoved
  rcases hafter : (P.step mfaMachine mv).shared with _ | row₁
  · rw [hshared, hafter] at hremoved
    have hactive : row₀.active = true := by
      by_contra hpending
      simp [hpending] at hremoved
    obtain rfl : row₀ = row := by simpa [hactive] using hremoved
    rcases P.step_cases mfaMachine mv with hstep | ⟨past, β, c, k, hi, hstep⟩
    · rw [hstep, hshared] at hafter
      exact nomatch hafter
    rw [hstep, hshared] at hafter
    have hdisables : c.disables := disables_of_removed hactive hafter
    obtain ⟨task, htask, hpre, -⟩ := hP.task hi
    have hcond : sameEnrollment tasks mv.1 past c mv.2 P.shared 0 := by
      simpa only [Pool.MoveMeets, hi] using hmv
    cases c with
    | disable =>
      obtain ⟨hdis, rec, hread, hacc⟩ := hpre
      have hsame : row₀.secret = rec.secret := by
        rw [hshared] at hcond
        exact secret_of_enrollmentKept hcond hactive hread
      cases task with
      | disable req =>
        obtain ⟨a, ha, hthread, hsecret⟩ := hlog.sameSecret mv.1 _ req rec hi htask hacc
        exact ⟨a, ha, hthread, hsecret.trans hsame.symm⟩
      | _ => exact nomatch hdis
    | _ => exact hdisables.elim
  · simp [hshared, hafter] at hremoved

theorem bound_run (hlog : Logged tasks P accepted) {mvs : List (Nat × MFAChoice)}
    (hmvs : P.Meets (factorProtocol lib tasks).held mfaMachine (sameEnrollment tasks) mvs) :
    (∀ a ∈ acceptances P mvs, a.genuine lib tasks = true) ∧
    (∀ l mv l' row, mvs = l ++ mv :: l' → removedAt (P.run mfaMachine l) mv = some row →
      ∃ a ∈ accepted ++ acceptances P l, a.thread = mv.1 ∧ a.row.secret = row.secret) ∧
    InStep lib tasks (P.run mfaMachine mvs) ∧
    Logged tasks (P.run mfaMachine mvs) (accepted ++ acceptances P mvs) := by
  induction mvs generalizing P accepted with
  | nil =>
    refine ⟨fun a ha => absurd ha List.not_mem_nil, fun l mv l' row hsplit => ?_, hP, ?_⟩
    · exact absurd hsplit (by simp)
    · exact hlog.mono
  | cons mv mvs ih => ?_
  obtain ⟨hgenuine, hlog'⟩ := accepted_step hP hlog hmvs.1
  obtain ⟨hall, hremovals, hP', hlogged⟩ := ih (hP.step hmvs.1) hlog' hmvs.2
  rw [List.append_assoc] at hlogged
  refine ⟨fun a ha => ?_, fun l mv' l' row hsplit hremoved => ?_, hP', hlogged⟩
  · rcases List.mem_append.mp ha with hfirst | hrest
    · exact hgenuine a (Option.mem_toList.mp hfirst)
    · exact hall a hrest
  rcases l with _ | ⟨mv₀, l⟩
  · obtain ⟨rfl, -⟩ : mv = mv' ∧ mvs = l' := by simpa using hsplit
    rw [acceptances, List.append_nil]
    exact removed_step hP hlog hmvs.1 hremoved
  obtain ⟨rfl, hrest⟩ : mv = mv₀ ∧ mvs = l ++ mv' :: l' := by simpa using hsplit
  obtain ⟨a, ha, hbound⟩ := hremovals l mv' l' row hrest hremoved
  rw [List.append_assoc] at ha
  exact ⟨a, ha, hbound⟩

end

theorem inStep_start (acct : Account) (row? : Option MFARow) :
    InStep lib tasks (mfaPool lib acct row? tasks) := by
  refine ⟨?_, Protocol.good_start rfl trivial fun i p hp => ?_⟩
  · show ((tasks.map (MFATask.program lib acct)).map Thread.start).length = tasks.length
    rw [List.length_map, List.length_map]
  rw [List.getElem?_map, Option.map_eq_some_iff] at hp
  obtain ⟨task, htask, rfl⟩ := hp
  rw [factorProtocol_spec htask]
  exact task.program_conforms

theorem logged_start (lib : FactorLibrary) (acct : Account) (row? : Option MFARow) :
    Logged tasks (mfaPool lib acct row? tasks) [] where
  granted i t ht he := by
    rw [Pool.past_start ht] at he
    obtain ⟨e, he, -⟩ := he
    exact absurd he List.not_mem_nil
  sameSecret i t req rec ht _ hacc := by
    rw [Pool.past_start ht] at hacc
    exact hacc.elim

end

/-- In any run of login, enroll, activate and disable requests in which no enrollment is replaced
between a request's read and its later steps: every accepted code is one of the enrollment that
accepts it; a request that removes an active enrollment has had its code accepted by that
enrollment; and a login that issues a session has had its code accepted, unless it had read that
no enrollment is active. -/
theorem factors_bound_to_enrollment (lib : FactorLibrary) (acct : Account) (row? : Option MFARow)
    (tasks : List MFATask) (mvs : List (Nat × MFAChoice))
    (hmvs : (mfaPool lib acct row? tasks).Meets (fun _ => 0) mfaMachine (sameEnrollment tasks) mvs) :
    (∀ a ∈ acceptances (mfaPool lib acct row? tasks) mvs, a.genuine lib tasks = true) ∧
    (∀ l mv l' row, mvs = l ++ mv :: l' →
      removedAt ((mfaPool lib acct row? tasks).run mfaMachine l) mv = some row →
      ∃ a ∈ acceptances (mfaPool lib acct row? tasks) l,
        a.thread = mv.1 ∧ a.row.secret = row.secret) ∧
    (∀ (i : Nat) (t : Thread MFACall AuthAnswer),
      ((mfaPool lib acct row? tasks).run mfaMachine mvs).threads[i]? = some t →
      t.result? = some .session →
      (∀ rec, lastRecord t.past = some rec → rec.active = false) ∨
      ∃ a ∈ acceptances (mfaPool lib acct row? tasks) mvs, a.thread = i) := by
  obtain ⟨hgenuine, hremovals, hend, hlogged⟩ :=
    bound_run (inStep_start acct row?) (logged_start lib acct row?) hmvs
  refine ⟨hgenuine, hremovals, fun i t ht hsession => ?_⟩
  rcases hend.justified ht hsession with hnone | haccepted
  · exact Or.inl hnone
  · exact Or.inr (hlogged.granted i t ht haccepted)

/-! ## 5. A replaced enrollment -/

/-- A login with the first key's code of step 1; a disable with a recovery code; a new enrollment and
its activation with the second key's code of step 0. -/
def replacingTasks : List MFATask :=
  [.login (accountRequest "287082" ""), .disable (accountRequest "" "MZXW6YTBOI2DKNRX"),
    .enroll (accountRequest "" "") (some secondSecret),
    .activate (accountRequest "963258" "") (some ["MZXW6YTBOI2DKNRX"])]

def firstEnrollment : MFARow :=
  { secret := firstSecret, active := true, lastStep := 0, recovery := {sampleRecoveryHash} }

def replacingPool : Pool MFACall AuthAnswer (Option MFARow) :=
  mfaPool sampleLibrary sampleAccount (some firstEnrollment) replacingTasks

/-- The login reads the first enrollment and the clock, the three others run to their end, and the
login goes on. -/
def replacingMoves : List (Nat × MFAChoice) :=
  [0, 0, 1, 1, 1, 2, 3, 3, 3, 0, 0].map fun i => (i, { now := sampleTime })

/-- The login gets its session from the second enrollment, for which its code was never valid. -/
theorem stale_code_accepted :
    ((replacingPool.run mfaMachine replacingMoves).threads[0]?.bind Thread.result?) = some .session ∧
    totpVerify sampleLibrary secondSecret "287082" sampleTime = none ∧
    ¬ ∀ a ∈ acceptances replacingPool replacingMoves,
      a.genuine sampleLibrary replacingTasks = true := by
  refine ⟨by decide +kernel, by decide +kernel, by decide +kernel⟩

def loginFirstMoves : List (Nat × MFAChoice) :=
  [0, 0, 0, 0, 1, 1, 1, 2, 3, 3, 3].map fun i => (i, { now := sampleTime })

theorem login_first_genuine :
    ((replacingPool.run mfaMachine loginFirstMoves).threads[0]?.bind Thread.result?) =
      some .session ∧
    (acceptances replacingPool loginFirstMoves).map Acceptance.thread = [0, 1, 3] ∧
    (acceptances replacingPool loginFirstMoves).all (·.genuine sampleLibrary replacingTasks) := by
  refine ⟨by decide +kernel, by decide +kernel, List.all_eq_true.mpr ?_⟩
  exact (factors_bound_to_enrollment sampleLibrary sampleAccount (some firstEnrollment)
    replacingTasks loginFirstMoves (by decide +kernel)).1

end ObjectFabric
