import AegisShield.Identity.Session

/-!
# PIN fallback: `FallbackService` under concurrent calls

`verifyPin` (`fallback.service.ts`, lines 35-78) reads the user's row, refuses
while a lock is in force, and counts a failure when the PIN is wrong or the
status is neither `ACTIVE` nor `LOCKED`; the fifth failure writes the status
`LOCKED` with an expiry. `login` writes the status `ACTIVE` and creates a
session. The query, each reading of the clock, the update and the creation of
the session are steps of their own.

Results:
* `disabled_stays_disabled`: in every run on a disabled user in which no failure is counted on a row
  that already holds four, the status stays `DISABLED` and no session is created.
* `disabled_becomes_active`: without that, five failures turn `DISABLED` into
  `LOCKED`, and a login after the lock's expiry turns it into `ACTIVE`.
-/

namespace AegisShield.Identity.Fallback

open Common Session

/-! ## Model of `FallbackService` -/

/-- `maxFailures` (line 24). -/
def maxFailures : ℕ := 5

/-- `lockSeconds` (line 25). -/
def lockSeconds : ℕ := 300

/-- The inputs of `requestOtp` and `login` that decide what happens to the user. -/
inductive Request where
  | requestOtp (phone pin : String)
  | login (phone pin : String) (deviceId : Option String)
  deriving DecidableEq

namespace Request

def phone : Request → String
  | .requestOtp phone _ | .login phone _ _ => phone

def pin : Request → String
  | .requestOtp _ pin | .login _ pin _ => pin

end Request

/-- The data of the update in `verifyPin` (lines 55-64). -/
structure FailureUpdate where
  failedLoginCount : ℕ
  status : UserStatus
  lockedUntil : Option ℕ
  deriving DecidableEq

/-- `failures`, `locked` and the data written, with `Date.now()` at `now` (lines 53-64). -/
def failureUpdate (user : User) (now : ℕ) : FailureUpdate :=
  let failures := user.failedLoginCount + 1
  let locked := failures ≥ maxFailures
  { failedLoginCount := failures
    status := if locked then .LOCKED else user.status
    lockedUntil := if locked then some (now + lockSeconds * 1000) else user.lockedUntil }

/-- Whether `user.lockedUntil && user.lockedUntil.getTime() > Date.now()` (line 48). -/
def lockInForce (user : User) (now : ℕ) : Bool :=
  match user.lockedUntil with
  | none => false
  | some t => decide (t > now)

/-- Where a call stands. -/
inductive Stage where
  /-- Before the query of `verifyPin`. -/
  | lookup
  /-- Before the lock check and the verification of the PIN. -/
  | found (user : User) (pinHash : String)
  /-- Before the clock reading for `lockedUntil`. -/
  | failing (user : User)
  /-- Before the update of the failure branch, with the row that was read. -/
  | recording (user : User) (data : FailureUpdate)
  /-- `verifyPin` returned the row. -/
  | verified (user : User)
  /-- `login`, before its update of the user. -/
  | entering (user : User)
  /-- `login`, before `sessions.create`. -/
  | issuing (user : User)
  /-- `sessions.create`, before the query of `safeUser`. -/
  | loading
  /-- The call threw. -/
  | rejected (error : AuthError)
  /-- `requestOtp` returned. -/
  | otpRequested
  /-- `login` returned. -/
  | loggedIn (user : MaskedUser)
  deriving DecidableEq

/-- A call of `requestOtp` or `login`. -/
structure Call where
  request : Request
  stage : Stage
  deriving DecidableEq

/-- The clock, the row of the user and the sessions that `sessions.create` stored for the user. -/
structure Shared where
  now : ℕ
  user : User
  sessions : List StoredSession

/-- What a step takes from outside: the outcome of `otp.verify` and the random
    CSRF token of a new session. -/
structure External where
  otpAccepted : Bool
  csrfToken : String
  deriving DecidableEq

variable (digests : Digests) (config : IdentityConfig) (verifyPin : String → String → Bool)

/-- What follows `verifyPin`: `otp.request` (lines 84-100), or `otp.verify`
    (lines 107-113) with an outcome from outside. -/
def afterVerifyPin (call : Call) (user : User) (external : External) : Stage :=
  match call.request with
  | .requestOtp .. => .otpRequested
  | .login .. => if external.otpAccepted then .entering user else .rejected invalidOtp

/-- One step of a call: `verifyPin` (lines 35-78) with `verifyPin` of `pin.service.ts` as a
    parameter, then the rest of `requestOtp` (lines 80-101) or of `login` (lines 103-134). -/
def fallbackNext (s : Shared) (call : Call) (external : External) : Option (Shared × Call) :=
  match call.stage with
  | .lookup =>
    if s.user.phoneE164 = call.request.phone then
      match s.user.pinHash with
      | none => some (s, { call with stage := .rejected invalidCredentialsError })
      | some pinHash => some (s, { call with stage := .found s.user pinHash })
    else some (s, { call with stage := .rejected invalidCredentialsError })
  | .found user pinHash =>
    if lockInForce user s.now then
      some (s, { call with stage := .rejected invalidCredentialsError })
    else if verifyPin pinHash call.request.pin = false ∨
        (user.status ≠ .ACTIVE ∧ user.status ≠ .LOCKED) then
      some (s, { call with stage := .failing user })
    else some (s, { call with stage := .verified user })
  | .failing user => some (s, { call with stage := .recording user (failureUpdate user s.now) })
  | .recording _ data =>
    some ({ s with user := { s.user with
              failedLoginCount := data.failedLoginCount, status := data.status,
              lockedUntil := data.lockedUntil } },
      { call with stage := .rejected invalidCredentialsError })
  | .verified user => some (s, { call with stage := afterVerifyPin call user external })
  | .entering user =>
    some ({ s with user := { s.user with
              status := .ACTIVE, failedLoginCount := 0, lockedUntil := none,
              lastAuthenticatedAt := some s.now } },
      { call with stage := .issuing user })
  | .issuing user =>
    match call.request with
    | .requestOtp .. => none
    | .login _ _ deviceId =>
      let session := newSession digests config user.id external.csrfToken .PIN_OTP deviceId s.now
      some ({ s with sessions := s.sessions ++ [session] }, { call with stage := .loading })
  | .loading =>
    match safeUser (some s.user) with
    | .error error => some (s, { call with stage := .rejected error })
    | .ok user => some (s, { call with stage := .loggedIn user })
  | .rejected _ | .otpRequested | .loggedIn _ => none

/-- Any number of `requestOtp` and `login` calls on a disabled user, with time
    passing in between. -/
def pool : Pool Shared Call Request External ℕ where
  init s := s.user.status = .DISABLED ∧ s.sessions = []
  start _ request := { request := request, stage := .lookup }
  next := fallbackNext digests config verifyPin
  env s elapsed := some { s with now := s.now + elapsed }

abbrev State := Pool.State Shared Call
abbrev Action := Pool.Action Request External ℕ

/-- No failure is counted on a row that already holds `maxFailures - 1` of them. -/
def belowThreshold (s : State) : Action → Bool
  | .next n _ =>
    match s.calls[n]? with
    | some { stage := .failing user, .. } => decide (user.failedLoginCount + 1 < maxFailures)
    | _ => true
  | _ => true

/-! ## The invariant -/

/-- The user is disabled and has no session. -/
structure UserInv (s : Shared) : Prop where
  disabled : s.user.status = .DISABLED
  noSession : s.sessions = []

/-- A call holds a disabled row, and has not passed `verifyPin`. -/
def Stage.Refused : Stage → Prop
  | .found user _ | .failing user => user.status = .DISABLED
  | .recording _ data => data.status = .DISABLED
  | .verified _ | .entering _ | .issuing _ | .loading | .otpRequested | .loggedIn _ => False
  | .lookup | .rejected _ => True

variable {digests config verifyPin} {s s' : Shared} {call call' : Call} {external : External}

/-- Below the threshold a counted failure keeps the status. -/
theorem failureUpdate_status {user : User} (now : ℕ)
    (h : user.failedLoginCount + 1 < maxFailures) :
    (failureUpdate user now).status = user.status := by
  have hlocked : ¬ user.failedLoginCount + 1 ≥ maxFailures := by omega
  simp only [failureUpdate, if_neg hlocked]

/-- `verifyPin` does not return a disabled row. -/
theorem found_refused {user : User} {pinHash : String} (hstage : call.stage = .found user pinHash)
    (hdisabled : user.status = .DISABLED)
    (h : fallbackNext digests config verifyPin s call external = some (s', call')) :
    s' = s ∧ call'.stage.Refused := by
  simp only [fallbackNext, hstage] at h
  split_ifs at h with hlock hfail
  · cases h; exact ⟨rfl, trivial⟩
  · cases h; exact ⟨rfl, hdisabled⟩
  · exact absurd (Or.inr ⟨by simp [hdisabled], by simp [hdisabled]⟩) hfail

theorem fallbackNext_inv (hU : UserInv s) (hC : call.stage.Refused)
    (hcond : ∀ user, call.stage = .failing user → user.failedLoginCount + 1 < maxFailures)
    (h : fallbackNext digests config verifyPin s call external = some (s', call')) :
    UserInv s' ∧ call'.stage.Refused := by
  cases hstage : call.stage <;> rw [hstage] at hC
  case lookup =>
    simp only [fallbackNext, hstage] at h
    split_ifs at h with hphone
    · split at h <;> cases h
      · exact ⟨hU, trivial⟩
      · exact ⟨hU, hU.disabled⟩
    · cases h; exact ⟨hU, trivial⟩
  case found user pinHash =>
    obtain ⟨rfl, hC'⟩ := found_refused hstage hC h
    exact ⟨hU, hC'⟩
  case failing user =>
    simp only [fallbackNext, hstage] at h
    cases h
    have hstatus := failureUpdate_status s.now (hcond user hstage)
    exact ⟨hU, hstatus.trans hC⟩
  case recording user data =>
    simp only [fallbackNext, hstage] at h
    cases h
    exact ⟨⟨hC, hU.noSession⟩, trivial⟩
  case rejected error =>
    simp only [fallbackNext, hstage] at h
    cases h
  all_goals exact hC.elim

/-! ## Main results -/

/-- In a run in which no failure is counted on a row that already holds four, the status of a
    disabled user stays `DISABLED` and no session is created for the user. -/
theorem disabled_stays_disabled (digests : Digests) (config : IdentityConfig)
    (verifyPin : String → String → Bool) (s : State)
    (h : (pool digests config verifyPin).machine.Reachable
      (fun s a => belowThreshold s a = true) s) :
    s.shared.user.status = .DISABLED ∧ s.shared.sessions = [] := by
  have hinv : UserInv s.shared ∧ ∀ call ∈ s.calls, call.stage.Refused := by
    refine Pool.invariant (A := fun _ call => call.stage.Refused) ?_ ?_ ?_ ?_ h
    · rintro s ⟨hstatus, hsessions⟩
      exact ⟨hstatus, hsessions⟩
    · intro s request hU
      trivial
    · intro s n external call s' call' hU hcalls hcond hn hnext
      have hC := hcalls call (Pool.mem_of_getElem? hn)
      obtain ⟨hU', hC'⟩ := fallbackNext_inv hU hC
        (fun user hstage => by
          obtain ⟨request, stage⟩ := call
          cases hstage
          simpa [belowThreshold, hn] using hcond) hnext
      exact ⟨hU', hC', fun m q _ hq => hcalls q (Pool.mem_of_getElem? hq)⟩
    · intro s elapsed s' hU _ hs'
      cases hs'
      exact ⟨⟨hU.disabled, hU.noSession⟩, fun q hq => hq⟩
  exact ⟨hinv.1.disabled, hinv.1.noSession⟩

/-! ## Five failures and a login -/

/-- A stand-in for `verifyPin` of `pin.service.ts`, for concrete runs. -/
def plainVerifyPin (pinHash pin : String) : Bool := pinHash == "hash:" ++ pin

/-- A disabled user with the PIN `482913` and no failures. -/
def disabledUser : State where
  shared := { now := 0, sessions := [],
              user := { id := "user-1", phoneE164 := "+94771234567", preferredLanguage := .EN,
                        kycTier := 1, status := .DISABLED, phoneVerifiedAt := some 0,
                        lastAuthenticatedAt := some 0, failedLoginCount := 0,
                        lockedUntil := none, pinHash := some "hash:482913" } }
  calls := []

/-- The `n`th call, a `requestOtp` that is refused after four steps. -/
def refusedRequest (n : ℕ) : List Action :=
  [.start (.requestOtp "+94771234567" "482913"), .next n ⟨false, ""⟩, .next n ⟨false, ""⟩,
    .next n ⟨false, ""⟩, .next n ⟨false, ""⟩]

/-- Five refused requests, the lock's five minutes, a request that is accepted,
    and a login with the code it sent. -/
def loginAfterLock : List Action :=
  (List.range 5).flatMap refusedRequest ++
    [.env 300000, .start (.requestOtp "+94771234567" "482913"), .next 5 ⟨false, ""⟩,
      .next 5 ⟨false, ""⟩, .next 5 ⟨false, ""⟩, .start (.login "+94771234567" "482913" none),
      .next 6 ⟨false, ""⟩, .next 6 ⟨false, ""⟩, .next 6 ⟨true, ""⟩, .next 6 ⟨true, ""⟩,
      .next 6 ⟨true, "csrf"⟩]

theorem disabledUser_init :
    (pool plainDigests (defaultConfig "internal-token") plainVerifyPin).machine.init
      disabledUser := ⟨⟨rfl, rfl⟩, rfl⟩

/-- With the right PIN and the code that was sent, a disabled user becomes active
    and gets a session. -/
theorem disabled_becomes_active :
    ¬ ∀ (digests : Digests) (config : IdentityConfig) (verifyPin : String → String → Bool)
        (s : State), (pool digests config verifyPin).machine.Reachable Machine.always s →
      s.shared.user.status ≠ .ACTIVE ∧ s.shared.sessions = [] := by
  intro h
  obtain ⟨s, hs, hp⟩ := Machine.reachable_of_run loginAfterLock
    (fun s : State => decide (s.shared.user.status = .ACTIVE ∧ s.shared.sessions.length = 1))
    disabledUser_init (by decide)
  exact (h _ _ _ s hs).1 (of_decide_eq_true hp).1

/-- Four refused requests meet the condition of `disabled_stays_disabled`. -/
theorem disabled_stays_disabled_four :
    ∃ s : State, s.calls.length = 4 ∧ s.shared.user.status = .DISABLED ∧
      s.shared.sessions = [] := by
  obtain ⟨s, hs, hp⟩ := Machine.reachable_of_runUnder ((List.range 4).flatMap refusedRequest)
    belowThreshold (fun s => decide (s.calls.length = 4)) (fun _ _ h => h)
    disabledUser_init (by decide)
  exact ⟨s, of_decide_eq_true hp, disabled_stays_disabled plainDigests
    (defaultConfig "internal-token") plainVerifyPin s hs⟩

end AegisShield.Identity.Fallback
