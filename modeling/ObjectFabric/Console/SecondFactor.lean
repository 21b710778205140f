import ObjectFabric.Compliance.Residency
import ObjectFabric.Interleaving.Pool
import ObjectFabric.Metadata.Manifest
import ObjectFabric.Streams.BigEndian

/-!
# SecondFactor — time-based codes and recovery codes

`api/console/totp.go`, `mfa_store.go` (the store in memory) and the login and MFA handlers of
`auth_handler.go`, for the requests of one account.  Every operation of the store is one atomic step;
what a handler checks and what the store then accepts are different steps.
-/

namespace ObjectFabric

open Interleaving Proc

/-! ## 1. Codes -/

/-- What the handlers use of the standard library: `base32Decode` is RFC 4648 without padding. -/
structure FactorLibrary where
  hmacSHA1 : Bytes → Bytes → Bytes
  base32Decode : String → Option Bytes
  toUpper : String → String
  sha256Hex : String → String
  compareHashAndPassword : String → String → Bool

def trimmed (s : String) : String := String.ofList (trimUnicodeSpace s.toList)

/-- `t.Unix() / 30`, truncated; `62135596800` seconds lie between the zero time and 1970. -/
def totpStep (t : Time) : Int := (t / 1000000000 - 62135596800).tdiv 30

/-- `%06d` -/
def sixDigits (n : Nat) : String :=
  String.ofList ([5, 4, 3, 2, 1, 0].map fun i => Nat.digitChar (n / 10 ^ i % 10))

section

variable (lib : FactorLibrary)

def hotpCode (key : Bytes) (counter : Int) : String :=
  let sum := lib.hmacSHA1 key (Streams.bigEndian 8 (counter % 2 ^ 64).toNat)
  -- the low four bits of the last byte select the window
  let offset := (sum.getD (sum.length - 1) 0).toNat % 16
  let bin := (sum.getD offset 0).toNat % 128 * 2 ^ 24 + (sum.getD (offset + 1) 0).toNat * 2 ^ 16 +
    (sum.getD (offset + 2) 0).toNat * 2 ^ 8 + (sum.getD (offset + 3) 0).toNat
  sixDigits (bin % 10 ^ 6)

/-- `strconv.Atoi` succeeds, for a string of six bytes. -/
def isInteger (s : String) : Bool :=
  match s.toList with
  | [] => false
  | c :: rest =>
    if c = '+' || c = '-' then rest ≠ [] && rest.all Char.isDigit else (c :: rest).all Char.isDigit

def decodeTOTPSecret (secret : String) : Option Bytes :=
  lib.base32Decode (String.ofList ((lib.toUpper (trimmed secret)).toList.rdropWhile (· = '=')))

def totpVerify (secret code : String) (t : Time) : Option Int :=
  let code := trimmed code
  if code.utf8ByteSize ≠ 6 then none
  else if !isInteger code then none
  else
    match decodeTOTPSecret lib secret with
    | none => none
    | some key => ([-1, 0, 1].map fun delta => totpStep t + delta).find? fun step =>
        hotpCode lib key step = code

def hashRecoveryCode (code : String) : String := lib.sha256Hex (lib.toUpper (trimmed code))

end

/-! ## 2. The store -/

/-- The enrollment of a tenant; `recovery` has the hashes of the unused recovery codes. -/
structure MFARow where
  secret : String
  active : Bool := false
  lastStep : Int := 0
  recovery : Finset String := ∅
  deriving DecidableEq

structure MFARecord where
  secret : String
  active : Bool
  lastStep : Int
  recoveryRemaining : Nat
  deriving DecidableEq

inductive MFAError where
  | alreadyActive
  | notEnrolled
  | other (text : String)
  deriving DecidableEq

/-- The operations on the row of one tenant, and the two calls of the handlers outside the store. -/
inductive MFACall : Type → Type where
  | beginEnrollment (secret : String) : MFACall (Except MFAError Unit)
  | getMFA : MFACall (Except MFAError (Option MFARecord))
  | activate (expectedSecret : String) (firstStep : Int) (recoveryHashes : List String) :
      MFACall (Except MFAError Unit)
  | markTOTPStep (step : Int) : MFACall (Except MFAError Bool)
  | consumeRecoveryCode (codeHash : String) : MFACall (Except MFAError Bool)
  | disable : MFACall (Except MFAError Unit)
  | disablePending : MFACall (Except MFAError Bool)
  | now : MFACall Time
  | issueToken : MFACall (Except MFAError Unit)

namespace MFARow

def record (row : MFARow) : MFARecord :=
  ⟨row.secret, row.active, row.lastStep, row.recovery.card⟩

def beginEnrollment (row? : Option MFARow) (secret : String) :
    Except MFAError Unit × Option MFARow :=
  if secret = "" then (.error (.other "console: tenantID and secret are required"), row?)
  else if row?.any MFARow.active then (.error .alreadyActive, row?)
  else (.ok (), some { secret })

def activate (row? : Option MFARow) (expectedSecret : String) (firstStep : Int)
    (recoveryHashes : List String) : Except MFAError Unit × Option MFARow :=
  match row? with
  | none => (.error .notEnrolled, none)
  | some row =>
    if row.active then (.error .notEnrolled, row)
    else if row.secret ≠ expectedSecret then (.error .notEnrolled, row)
    else (.ok (), some { row with
      active := true, lastStep := firstStep, recovery := recoveryHashes.toFinset })

def markTOTPStep (row? : Option MFARow) (step : Int) : Except MFAError Bool × Option MFARow :=
  match row? with
  | none => (.ok false, none)
  | some row =>
    if !row.active then (.ok false, row)
    else if step ≤ row.lastStep then (.ok false, row)
    else (.ok true, some { row with lastStep := step })

def consumeRecoveryCode (row? : Option MFARow) (codeHash : String) :
    Except MFAError Bool × Option MFARow :=
  match row? with
  | none => (.ok false, none)
  | some row =>
    if !row.active then (.ok false, row)
    else if codeHash ∉ row.recovery then (.ok false, row)
    else (.ok true, some { row with recovery := row.recovery.erase codeHash })

def disablePending (row? : Option MFARow) : Except MFAError Bool × Option MFARow :=
  match row? with
  | none => (.ok false, none)
  | some row => if row.active then (.ok false, row) else (.ok true, none)

end MFARow

structure MFAChoice where
  now : Time := 0
  fault : Option String := none

def mfaMachine : Machine MFACall (Option MFARow) MFAChoice where
  exec x c row? :=
    match c, x.fault with
    | .now, _ => (x.now, row?)
    | .beginEnrollment _, some err => (.error (.other err), row?)
    | .beginEnrollment secret, none => MFARow.beginEnrollment row? secret
    | .getMFA, some err => (.error (.other err), row?)
    | .getMFA, none => (.ok (row?.map MFARow.record), row?)
    | .activate _ _ _, some err => (.error (.other err), row?)
    | .activate secret step hashes, none => MFARow.activate row? secret step hashes
    | .markTOTPStep _, some err => (.error (.other err), row?)
    | .markTOTPStep step, none => MFARow.markTOTPStep row? step
    | .consumeRecoveryCode _, some err => (.error (.other err), row?)
    | .consumeRecoveryCode hash, none => MFARow.consumeRecoveryCode row? hash
    | .disable, some err => (.error (.other err), row?)
    | .disable, none => (.ok (), none)
    | .disablePending, some err => (.error (.other err), row?)
    | .disablePending, none => MFARow.disablePending row?
    | .issueToken, some err => (.error (.other err), row?)
    | .issueToken, none => (.ok (), row?)

/-! ## 3. The handlers -/

inductive AuthAnswer where
  | session
  | challenge (mfaInvalid : Bool)
  | enrolled (secret : String)
  | activated (recoveryCodes : List String)
  | inactive
  | error (status : Nat) (text : String)
  deriving DecidableEq

structure FactorRequest where
  email : String
  password : String
  totpCode : String := ""
  recoveryCode : String := ""

/-- What the auth and tenant stores know of the account: the password hash of an email address that
is one of its users. -/
structure Account where
  lookupUser : String → Option String
  tenantPresent : Bool := true

section

variable (lib : FactorLibrary) (acct : Account)

/-- The password check that login and the MFA endpoints share: status and text for a request that
fails. -/
def authenticateMFARequest (req : FactorRequest) : Option (Nat × String) :=
  if trimmed req.email = "" ∨ req.password = "" then
    some (400, "email and password are required")
  else
    match acct.lookupUser (trimmed req.email) with
    | none => some (401, "invalid email or password")
    | some hash =>
      if hash = "" ∨ "oauth:".toList <+: hash.toList then
        some (401, "invalid email or password")
      else if !lib.compareHashAndPassword hash req.password then
        some (401, "invalid email or password")
      else none

def checkSecondFactor (rec : MFARecord) (req : FactorRequest) :
    Proc MFACall (Except MFAError Bool) :=
  if trimmed req.recoveryCode ≠ "" then
    ask (.consumeRecoveryCode (hashRecoveryCode lib (trimmed req.recoveryCode)))
  else if trimmed req.totpCode = "" then
    .ret (.ok false)
  else do
    let t ← ask .now
    match totpVerify lib rec.secret (trimmed req.totpCode) t with
    | none => return .ok false
    | some step => ask (.markTOTPStep step)

def issueSession : Proc MFACall AuthAnswer := do
  match ← ask .issueToken with
  | .ok _ => return .session
  | .error _ => return .error 500 "issue token failed"

def login (req : FactorRequest) : Proc MFACall AuthAnswer :=
  match authenticateMFARequest lib acct req with
  | some (status, text) => .ret (.error status text)
  | none =>
    if !acct.tenantPresent then .ret (.error 500 "tenant record missing for user")
    else do
      match ← ask .getMFA with
      | .error _ => return .error 503 "login temporarily unavailable; please retry"
      | .ok none => issueSession
      | .ok (some rec) =>
        if !rec.active then issueSession
        else do
          match ← checkSecondFactor lib rec req with
          | .error _ => return .error 503 "login temporarily unavailable; please retry"
          | .ok false =>
            return .challenge (trimmed req.totpCode ≠ "" || trimmed req.recoveryCode ≠ "")
          | .ok true => issueSession

/-- `secret` is the random draw. -/
def mfaEnroll (req : FactorRequest) (secret : Option String) : Proc MFACall AuthAnswer :=
  match authenticateMFARequest lib acct req with
  | some (status, text) => .ret (.error status text)
  | none =>
    match secret with
    | none => .ret (.error 500 "enroll failed; please retry")
    | some secret => do
      match ← ask (.beginEnrollment secret) with
      | .ok _ => return .enrolled secret
      | .error .alreadyActive =>
        return .error 409 "mfa is already active; disable it before re-enrolling"
      | .error _ => return .error 503 "enroll temporarily unavailable; please retry"

/-- `codes` are the recovery codes drawn. -/
def mfaActivate (req : FactorRequest) (codes : Option (List String)) : Proc MFACall AuthAnswer :=
  match authenticateMFARequest lib acct req with
  | some (status, text) => .ret (.error status text)
  | none => do
    match ← ask .getMFA with
    | .error _ => return .error 503 "activate temporarily unavailable; please retry"
    | .ok none => return .error 409 "no pending mfa enrollment to activate"
    | .ok (some rec) =>
      if rec.active then return .error 409 "no pending mfa enrollment to activate"
      else if trimmed req.totpCode = "" then return .error 400 "totpCode is required"
      else do
        let t ← ask .now
        match totpVerify lib rec.secret (trimmed req.totpCode) t with
        | none => return .error 401 "invalid authenticator code"
        | some step =>
          match codes with
          | none => return .error 500 "activate failed; please retry"
          | some codes => do
            match ← ask (.activate rec.secret step (codes.map (hashRecoveryCode lib))) with
            | .ok _ => return .activated codes
            | .error .notEnrolled => return .error 409 "no pending mfa enrollment to activate"
            | .error _ => return .error 503 "activate temporarily unavailable; please retry"

/-- The end of `mfaDisable`, for an active enrollment. -/
def disableActive (rec : MFARecord) (req : FactorRequest) : Proc MFACall AuthAnswer := do
  match ← checkSecondFactor lib rec req with
  | .error _ => return .error 503 "disable temporarily unavailable; please retry"
  | .ok false =>
    return .error 401 "a valid authenticator or recovery code is required to disable mfa"
  | .ok true =>
    match ← ask .disable with
    | .error _ => return .error 503 "disable temporarily unavailable; please retry"
    | .ok _ => return .inactive

def mfaDisable (req : FactorRequest) : Proc MFACall AuthAnswer :=
  match authenticateMFARequest lib acct req with
  | some (status, text) => .ret (.error status text)
  | none => do
    match ← ask .getMFA with
    | .error _ => return .error 503 "disable temporarily unavailable; please retry"
    | .ok none => return .inactive
    | .ok (some rec) =>
      if rec.active then disableActive lib rec req
      else do
        match ← ask .disablePending with
        | .error _ => return .error 503 "disable temporarily unavailable; please retry"
        | .ok true => return .inactive
        | .ok false =>
          -- activated or disabled by another request meanwhile
          match ← ask .getMFA with
          | .error _ => return .error 503 "disable temporarily unavailable; please retry"
          | .ok none => return .inactive
          | .ok (some rec) => if rec.active then disableActive lib rec req else return .inactive

inductive MFATask where
  | login (req : FactorRequest)
  | enroll (req : FactorRequest) (secret : Option String)
  | activate (req : FactorRequest) (codes : Option (List String))
  | disable (req : FactorRequest)

namespace MFATask

def req : MFATask → FactorRequest
  | login req => req
  | enroll req _ => req
  | activate req _ => req
  | disable req => req

def program : MFATask → Proc MFACall AuthAnswer
  | login req => ObjectFabric.login lib acct req
  | enroll req secret => mfaEnroll lib acct req secret
  | activate req codes => mfaActivate lib acct req codes
  | disable req => mfaDisable lib acct req

end MFATask

def mfaPool (row? : Option MFARow) (tasks : List MFATask) :
    Pool MFACall AuthAnswer (Option MFARow) :=
  Pool.start row? (tasks.map (MFATask.program lib acct))

end

/-! ## 4. What is accepted -/

inductive Factor where
  | step (n : Int)
  | recovery (hash : String)
  deriving DecidableEq

def acceptedFactor : {β : Type} → MFACall β → β → Option Factor
  | _, .activate _ step _, .ok _ => some (.step step)
  | _, .markTOTPStep step, .ok true => some (.step step)
  | _, .consumeRecoveryCode hash, .ok true => some (.recovery hash)
  | _, _, _ => none

def lastClock : History MFACall → Option Time
  | [] => none
  | ⟨.now, t⟩ :: _ => some t
  | _ :: h => lastClock h

/-- The request, what was accepted of it, the enrollment at that step, and the time for which the
request has checked its code. -/
structure Acceptance where
  thread : Nat
  factor : Factor
  row : MFARow
  clock : Option Time
  deriving DecidableEq

def acceptedAt (P : Pool MFACall AuthAnswer (Option MFARow)) (mv : Nat × MFAChoice) :
    Option Acceptance :=
  match P.threads[mv.1]?, P.shared with
  | some ⟨past, .call c _⟩, some row =>
    (acceptedFactor c (mfaMachine.exec mv.2 c P.shared).1).map fun factor =>
      ⟨mv.1, factor, row, lastClock past⟩
  | _, _ => none

def acceptances (P : Pool MFACall AuthAnswer (Option MFARow)) :
    List (Nat × MFAChoice) → List Acceptance
  | [] => []
  | mv :: mvs => (acceptedAt P mv).toList ++ acceptances (P.step mfaMachine mv) mvs

theorem acceptedAt_cases (P : Pool MFACall AuthAnswer (Option MFARow)) (mv : Nat × MFAChoice) :
    (acceptedAt P mv = none ∧ P.step mfaMachine mv = P) ∨
    ∃ past, ∃ β : Type, ∃ c : MFACall β, ∃ k, P.threads[mv.1]? = some ⟨past, .call c k⟩ ∧
      P.step mfaMachine mv = ⟨(mfaMachine.exec mv.2 c P.shared).2,
        P.threads.set mv.1 ⟨⟨c, (mfaMachine.exec mv.2 c P.shared).1⟩ :: past,
          k (mfaMachine.exec mv.2 c P.shared).1⟩⟩ ∧
      acceptedAt P mv = P.shared.bind fun row =>
        (acceptedFactor c (mfaMachine.exec mv.2 c P.shared).1).map fun factor =>
          ⟨mv.1, factor, row, lastClock past⟩ := by
  unfold acceptedAt Pool.step
  rcases hi : P.threads[mv.1]? with _ | ⟨past, a | ⟨c, k⟩⟩
  · exact Or.inl ⟨rfl, rfl⟩
  · exact Or.inl ⟨rfl, rfl⟩
  · refine Or.inr ⟨past, _, c, k, rfl, rfl, ?_⟩
    cases P.shared <;> rfl

/-! ## 5. What one call does to the row -/

inductive Accepts : MFARow → Factor → MFARow → Prop where
  | activation {row : MFARow} (n : Int) (hashes : Finset String) (hactive : row.active = false) :
      Accepts row (.step n) { row with active := true, lastStep := n, recovery := hashes }
  | later {row : MFARow} {n : Int} (hactive : row.active = true) (hlater : row.lastStep < n) :
      Accepts row (.step n) { row with lastStep := n }
  | unused {row : MFARow} {hash : String} (hactive : row.active = true)
      (hunused : hash ∈ row.recovery) :
      Accepts row (.recovery hash) { row with recovery := row.recovery.erase hash }

theorem activate_cases (row? : Option MFARow) (secret : String) (n : Int) (hashes : List String) :
    (∃ row row', row? = some row ∧ row.active = false ∧ row.secret = secret ∧
      Accepts row (.step n) row' ∧
      MFARow.activate row? secret n hashes = (.ok (), some row')) ∨
    MFARow.activate row? secret n hashes = (.error .notEnrolled, row?) := by
  unfold MFARow.activate
  rcases row? with _ | row
  · exact Or.inr rfl
  by_cases hactive : row.active = true
  · exact Or.inr (if_pos hactive)
  by_cases hsecret : row.secret = secret
  · have hpending : row.active = false := Bool.eq_false_iff.mpr hactive
    refine Or.inl ⟨row, _, rfl, hpending, hsecret, .activation n hashes.toFinset hpending, ?_⟩
    simp only [if_neg hactive, hsecret, ne_eq, not_true, if_false]
  · exact Or.inr (by simp only [if_neg hactive, ne_eq, hsecret, not_false_eq_true, if_true])

theorem markTOTPStep_cases (row? : Option MFARow) (n : Int) :
    (∃ row row', row? = some row ∧ row.active = true ∧ Accepts row (.step n) row' ∧
      row'.secret = row.secret ∧ MFARow.markTOTPStep row? n = (.ok true, some row')) ∨
    MFARow.markTOTPStep row? n = (.ok false, row?) := by
  unfold MFARow.markTOTPStep
  rcases row? with _ | row
  · exact Or.inr rfl
  rcases hactive : row.active with _ | _
  · exact Or.inr (by simp [hactive])
  by_cases hlater : n ≤ row.lastStep
  · exact Or.inr (by simp [hactive, hlater])
  · refine Or.inl ⟨row, _, rfl, hactive, .later hactive (not_le.mp hlater), rfl, ?_⟩
    simp [hactive, hlater]

theorem consumeRecoveryCode_cases (row? : Option MFARow) (hash : String) :
    (∃ row row', row? = some row ∧ row.active = true ∧ Accepts row (.recovery hash) row' ∧
      row'.secret = row.secret ∧ MFARow.consumeRecoveryCode row? hash = (.ok true, some row')) ∨
    MFARow.consumeRecoveryCode row? hash = (.ok false, row?) := by
  unfold MFARow.consumeRecoveryCode
  rcases row? with _ | row
  · exact Or.inr rfl
  rcases hactive : row.active with _ | _
  · exact Or.inr (by simp [hactive])
  by_cases hunused : hash ∈ row.recovery
  · refine Or.inl ⟨row, _, rfl, hactive, .unused hactive hunused, rfl, ?_⟩
    simp [hactive, hunused]
  · exact Or.inr (by simp [hactive, hunused])

def MFACall.enrolls : {β : Type} → MFACall β → Prop
  | _, .beginEnrollment _ => True
  | _, _ => False

/-- A call that accepts a factor changes the row accordingly; any other call that is not an
enrollment keeps the row or removes it. -/
theorem mfaMachine_cases {β : Type} {c : MFACall β} (hc : ¬ c.enrolls) (x : MFAChoice)
    (row? : Option MFARow) :
    (∃ row f row', row? = some row ∧ Accepts row f row' ∧
      acceptedFactor c (mfaMachine.exec x c row?).1 = some f ∧
      (mfaMachine.exec x c row?).2 = some row') ∨
    (acceptedFactor c (mfaMachine.exec x c row?).1 = none ∧
      ((mfaMachine.exec x c row?).2 = row? ∨ (mfaMachine.exec x c row?).2 = none)) := by
  obtain ⟨now, fault⟩ := x
  cases c with
  | beginEnrollment secret => exact absurd trivial hc
  | now => exact Or.inr ⟨rfl, Or.inl rfl⟩
  | getMFA | issueToken => cases fault <;> exact Or.inr ⟨rfl, Or.inl rfl⟩
  | disable =>
    cases fault with
    | some err => exact Or.inr ⟨rfl, Or.inl rfl⟩
    | none => exact Or.inr ⟨rfl, Or.inr rfl⟩
  | disablePending =>
    cases fault with
    | some err => exact Or.inr ⟨rfl, Or.inl rfl⟩
    | none => ?_
    refine Or.inr ⟨rfl, ?_⟩
    show (MFARow.disablePending row?).2 = row? ∨ (MFARow.disablePending row?).2 = none
    unfold MFARow.disablePending
    cases row? with
    | none => exact Or.inl rfl
    | some row => by_cases hactive : row.active = true <;> simp [hactive]
  | activate secret n hashes =>
    cases fault with
    | some err => exact Or.inr ⟨rfl, Or.inl rfl⟩
    | none => ?_
    show (∃ row f row', row? = some row ∧ Accepts row f row' ∧
      acceptedFactor (.activate secret n hashes) (MFARow.activate row? secret n hashes).1 =
        some f ∧ (MFARow.activate row? secret n hashes).2 = some row') ∨ _
    rcases activate_cases row? secret n hashes with ⟨row, row', hrow, -, -, hacc, heq⟩ | heq
    · exact Or.inl ⟨row, _, row', hrow, hacc, by rw [heq]; rfl, by rw [heq]⟩
    refine Or.inr ⟨?_, Or.inl ?_⟩
    · show acceptedFactor (.activate secret n hashes) (MFARow.activate row? secret n hashes).1 = _
      rw [heq]
      rfl
    · show (MFARow.activate row? secret n hashes).2 = _
      rw [heq]
  | markTOTPStep n =>
    cases fault with
    | some err => exact Or.inr ⟨rfl, Or.inl rfl⟩
    | none => ?_
    show (∃ row f row', row? = some row ∧ Accepts row f row' ∧
      acceptedFactor (.markTOTPStep n) (MFARow.markTOTPStep row? n).1 = some f ∧
        (MFARow.markTOTPStep row? n).2 = some row') ∨ _
    rcases markTOTPStep_cases row? n with ⟨row, row', hrow, -, hacc, -, heq⟩ | heq
    · exact Or.inl ⟨row, _, row', hrow, hacc, by rw [heq]; rfl, by rw [heq]⟩
    refine Or.inr ⟨?_, Or.inl ?_⟩
    · show acceptedFactor (.markTOTPStep n) (MFARow.markTOTPStep row? n).1 = _
      rw [heq]
      rfl
    · show (MFARow.markTOTPStep row? n).2 = _
      rw [heq]
  | consumeRecoveryCode hash => ?_
  cases fault with
  | some err => exact Or.inr ⟨rfl, Or.inl rfl⟩
  | none => ?_
  show (∃ row f row', row? = some row ∧ Accepts row f row' ∧
    acceptedFactor (.consumeRecoveryCode hash) (MFARow.consumeRecoveryCode row? hash).1 =
      some f ∧ (MFARow.consumeRecoveryCode row? hash).2 = some row') ∨ _
  rcases consumeRecoveryCode_cases row? hash with ⟨row, row', hrow, -, hacc, -, heq⟩ | heq
  · exact Or.inl ⟨row, _, row', hrow, hacc, by rw [heq]; rfl, by rw [heq]⟩
  refine Or.inr ⟨?_, Or.inl ?_⟩
  · show acceptedFactor (.consumeRecoveryCode hash)
      (MFARow.consumeRecoveryCode row? hash).1 = _
    rw [heq]
    rfl
  · show (MFARow.consumeRecoveryCode row? hash).2 = _
    rw [heq]

theorem exec_accepts {β : Type} {c : MFACall β} {x : MFAChoice} {row? : Option MFARow} {f : Factor}
    (hf : acceptedFactor c (mfaMachine.exec x c row?).1 = some f) :
    ∃ row row', row? = some row ∧ Accepts row f row' ∧ (mfaMachine.exec x c row?).2 = some row' := by
  have hc : ¬ c.enrolls := by
    cases c with
    | beginEnrollment secret => exact absurd hf (by simp [acceptedFactor])
    | _ => exact id
  rcases mfaMachine_cases hc x row? with ⟨row, f', row', hrow, hacc, hf', hrow'⟩ | ⟨hnone, -⟩
  · obtain rfl : f' = f := Option.some.inj (hf'.symm.trans hf)
    exact ⟨row, row', hrow, hacc, hrow'⟩
  · exact absurd (hnone.symm.trans hf) (by simp)

def MFACall.disables : {β : Type} → MFACall β → Prop
  | _, .disable => True
  | _, _ => False

theorem disables_of_removed {β : Type} {c : MFACall β} {x : MFAChoice} {row : MFARow}
    (hactive : row.active = true) (hgone : (mfaMachine.exec x c (some row)).2 = none) :
    c.disables := by
  obtain ⟨now, fault⟩ := x
  cases c with
  | disable => trivial
  | now => exact nomatch hgone
  | getMFA | issueToken => cases fault <;> exact nomatch hgone
  | beginEnrollment secret =>
    cases fault with
    | some err => exact nomatch hgone
    | none => ?_
    change (MFARow.beginEnrollment (some row) secret).2 = none at hgone
    unfold MFARow.beginEnrollment at hgone
    split at hgone
    · exact nomatch hgone
    split at hgone <;> exact nomatch hgone
  | disablePending =>
    cases fault with
    | some err => exact nomatch hgone
    | none =>
      change (MFARow.disablePending (some row)).2 = none at hgone
      rw [MFARow.disablePending, if_pos hactive] at hgone
      exact nomatch hgone
  | activate secret n hashes =>
    cases fault with
    | some err => exact nomatch hgone
    | none =>
      change (MFARow.activate (some row) secret n hashes).2 = none at hgone
      rcases activate_cases (some row) secret n hashes with ⟨_, row', -, -, -, -, heq⟩ | heq <;>
        rw [heq] at hgone <;> exact nomatch hgone
  | markTOTPStep n =>
    cases fault with
    | some err => exact nomatch hgone
    | none =>
      change (MFARow.markTOTPStep (some row) n).2 = none at hgone
      rcases markTOTPStep_cases (some row) n with ⟨_, row', -, -, -, -, heq⟩ | heq <;>
        rw [heq] at hgone <;> exact nomatch hgone
  | consumeRecoveryCode hash => ?_
  cases fault with
  | some err => exact nomatch hgone
  | none =>
    change (MFARow.consumeRecoveryCode (some row) hash).2 = none at hgone
    rcases consumeRecoveryCode_cases (some row) hash with ⟨_, row', -, -, -, -, heq⟩ | heq <;>
      rw [heq] at hgone <;> exact nomatch hgone

/-! ## 6. A sample account -/

def firstSecret : String := "GEZDGNBVGY3TQOJQGEZDGNBVGY3TQOJQ"

def secondSecret : String := "GA4TQNZWGU2DGMRRGA4TQNZWGU2DGMRR"

def firstKey : Bytes := [49, 50, 51, 52, 53, 54, 55, 56, 57, 48, 49, 50, 51, 52, 53, 54, 55, 56, 57, 48]

def secondKey : Bytes :=
  [48, 57, 56, 55, 54, 53, 52, 51, 50, 49, 48, 57, 56, 55, 54, 53, 52, 51, 50, 49]

def sampleDigests : List ((Bytes × Nat) × Bytes) :=
  [((firstKey, 0),
      [204, 147, 207, 24, 80, 141, 148, 147, 76, 100, 182, 93, 139, 167, 102, 127, 183, 205, 228, 176]),
    ((firstKey, 1),
      [117, 164, 138, 25, 212, 203, 225, 0, 100, 78, 138, 193, 57, 126, 234, 116, 122, 45, 51, 171]),
    ((firstKey, 2),
      [11, 172, 183, 250, 8, 47, 239, 48, 120, 34, 17, 147, 139, 193, 197, 231, 4, 22, 255, 68]),
    ((secondKey, 0),
      [114, 253, 185, 198, 157, 72, 236, 127, 80, 54, 122, 237, 53, 187, 72, 131, 94, 210, 160, 199]),
    ((secondKey, 1),
      [138, 78, 137, 36, 3, 180, 195, 78, 254, 105, 179, 47, 113, 23, 233, 35, 129, 95, 124, 185]),
    ((secondKey, 2),
      [23, 170, 72, 43, 31, 59, 170, 85, 76, 105, 74, 26, 189, 38, 77, 202, 253, 235, 237, 81])]

/-- The hash of the recovery code `MZXW6YTBOI2DKNRX`. -/
def sampleRecoveryHash : String :=
  "d68a607c418efecdb97b5b6dcca76e4d19bceb4425b1d6c277eb7251ed057962"

def samplePasswordHash : String := "$2a$05$CCCCCCCCCCCCCCCCCCCCC.E5YPO9kmyuRGyh0XouQYb4YMJKvyOeW"

def sampleLibrary : FactorLibrary where
  hmacSHA1 key message :=
    ((sampleDigests.find? fun d => d.1.1 = key ∧ Streams.bigEndian 8 d.1.2 = message).map
      Prod.snd).getD []
  base32Decode s :=
    if s = firstSecret then some firstKey else if s = secondSecret then some secondKey else none
  toUpper := id
  sha256Hex s := if s = "MZXW6YTBOI2DKNRX" then sampleRecoveryHash else ""
  compareHashAndPassword hash password := hash = samplePasswordHash && password = "U*U"

def sampleAccount : Account where
  lookupUser email := if email = "ada@example.org" then some samplePasswordHash else none

def accountRequest (totpCode recoveryCode : String) : FactorRequest :=
  { email := "ada@example.org", password := "U*U", totpCode, recoveryCode }

def sampleTime : Time := (62135596800 + 59) * 1000000000

example : [0, 1, 2].map (hotpCode sampleLibrary firstKey) = ["755224", "287082", "359152"] := by
  decide +kernel

end ObjectFabric
