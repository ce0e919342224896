import AegisShield.Identity.Session

/-!
# Onboarding: `OnboardingService` under concurrent calls

`verifyOtp` (`onboarding.service.ts`, lines 71-146) creates or updates the user of a mobile
number and stores an enrollment token in Redis. `createPin` (lines 148-197) takes the token
with `GETDEL`, and in one transaction writes the PIN credential and activates the user, which
must be `PENDING`. Each Redis command and each statement is a step of its own; a statement of
a transaction waits for the row locks that it needs, sees what is committed then, and takes
effect at the commit. A call may stop, and a statement fail, at any step.

Results:
* `onboarding_one_shot`: in every run a token takes effect no more often than it was issued,
  no step changes the PIN credential of an active user, and a `createPin` whose transaction
  fails has changed neither the status nor the PIN credential.
-/

namespace AegisShield.Identity.Onboarding

open Common Session

/-! ## Model of `OnboardingService` -/

/-- The columns of `User` (`schema.prisma`, lines 24-43) that onboarding reads or writes. -/
structure UserRow where
  id : String
  phoneE164 : String
  preferredLanguage : PreferredLanguage
  kycTier : ℕ
  status : UserStatus
  consentAcceptedAt : ℕ
  phoneVerifiedAt : Option ℕ
  lastAuthenticatedAt : Option ℕ
  failedLoginCount : ℕ
  lockedUntil : Option ℕ
  deriving DecidableEq

/-- `PinCredential` (`schema.prisma`, lines 45-56). -/
structure PinCredential where
  userId : String
  pinHash : String
  algorithm : String
  rotatedAt : Option ℕ
  deriving DecidableEq

/-- `PIN_ALGORITHM` (`pin.service.ts`, line 5). -/
def PIN_ALGORITHM : String := "argon2id-v=19-m=19456,t=2,p=1"

/-- `enrollmentTtlSeconds` (line 35). -/
def enrollmentTtlSeconds : ℕ := 600

/-- The error of lines 84-90. -/
def onboardingUnavailable : AuthError :=
  { code := "ONBOARDING_UNAVAILABLE", message := "Onboarding could not be completed.",
    status := 409 }

/-- The error of lines 158-164. -/
def invalidEnrollment : AuthError :=
  { code := "INVALID_ENROLLMENT", message := "The enrollment token is invalid or expired.",
    status := 401 }

/-- What a call throws: an error of its own, or that of a store. -/
inductive Failure where
  | auth (error : AuthError)
  | store
  deriving DecidableEq

/-- What `verifyOtp` takes from the challenge that `otp.verify` returns; `none` where the
    property is missing. -/
structure Challenge where
  preferredLanguage : Option PreferredLanguage
  consentAcceptedAt : Option ℕ
  deriving DecidableEq

/-- The calls, for one mobile number. -/
inductive Request where
  | verifyOtp
  | createPin (enrollmentToken pin : String) (deviceId : Option String)
  deriving DecidableEq

/-- Where a call stands. -/
inductive Stage where
  /-- `verifyOtp`, before `otp.verify` returns. -/
  | verifying
  /-- Before the query of the user. -/
  | looking (challenge : Challenge)
  /-- Before the update of an existing user. -/
  | updating (id : String) (challenge : Challenge) (verifiedAt : ℕ)
  /-- Before the insert of a new one. -/
  | creating (challenge : Challenge) (verifiedAt : ℕ)
  /-- Before the `SET` of the token. -/
  | issuing (user : UserRow)
  | enrolled (enrollmentToken : String) (user : MaskedUser)
  /-- `createPin`, before `hashPin` returns. -/
  | hashing
  /-- Before the `GETDEL` of the token. -/
  | taking (pinHash : String)
  /-- In the transaction, before the upsert of the PIN credential; `key` is that of the token. -/
  | upserting (key userId pinHash : String)
  /-- Before the update of the user. -/
  | activating (key userId : String) (credential : PinCredential)
  /-- Before the commit. -/
  | committing (key : String) (credential : PinCredential) (user : UserRow)
  /-- The transaction has failed. -/
  | rolledBack
  /-- The transaction has committed. -/
  | activated (user : UserRow)
  | loggedIn
  /-- The call threw outside its transaction. -/
  | rejected (failure : Failure)
  deriving DecidableEq

/-- A call; `changed` records whether one of its steps has changed the status of the user or
    the PIN credential. -/
structure Call where
  request : Request
  changed : Bool
  stage : Stage
  deriving DecidableEq

/-- The clock of Redis and its enrollment keys, the committed rows of the number, their locks,
    the sessions that were created, and two records for the statements: the keys of the tokens
    that were issued, and of those that took effect. -/
structure Shared where
  now : ℕ
  enrollments : String → Cell String
  user : Option UserRow
  pin : Option PinCredential
  userLocked : Bool
  pinLocked : Bool
  sessions : List StoredSession
  issued : List String
  effects : List String

/-- What a step takes from outside: the answer of `otp.verify`, a clock reading, and what the
    service and Prisma generate. -/
structure External where
  otp : Except AuthError Challenge
  now : ℕ
  uuid : String
  token : String
  salt : String
  csrfToken : String

/-- How a step runs. -/
inductive Input where
  | run (e : External)
  /-- The store refuses the statement. -/
  | fail

/-- The row that `verifyOtp` creates (lines 105-115), with the defaults of `schema.prisma`. -/
def newUser (phone : String) (challenge : Challenge) (verifiedAt : ℕ) (uuid : String) : UserRow where
  id := uuid
  phoneE164 := phone
  preferredLanguage := challenge.preferredLanguage.getD .EN
  kycTier := 0
  status := .PENDING
  consentAcceptedAt := challenge.consentAcceptedAt.getD verifiedAt
  phoneVerifiedAt := some verifiedAt
  lastAuthenticatedAt := none
  failedLoginCount := 0
  lockedUntil := none

/-- The update of an existing row (lines 94-104). -/
def UserRow.verify (user : UserRow) (challenge : Challenge) (verifiedAt : ℕ) : UserRow :=
  { user with
    phoneVerifiedAt := some verifiedAt
    preferredLanguage := challenge.preferredLanguage.getD user.preferredLanguage
    consentAcceptedAt := challenge.consentAcceptedAt.getD verifiedAt }

/-- The user that `verifyOtp` returns (lines 137-144). -/
def UserRow.masked (user : UserRow) : MaskedUser where
  id := user.id
  phoneMasked := maskPhone user.phoneE164
  preferredLanguage := user.preferredLanguage
  kycTier := user.kycTier
  status := user.status
  phoneVerified := true

/-- The upsert of `createPin` (lines 167-175). -/
def upsertPin (pin : Option PinCredential) (userId pinHash : String) (now : ℕ) : PinCredential :=
  match pin with
  | none => { userId := userId, pinHash := pinHash, algorithm := PIN_ALGORITHM, rotatedAt := none }
  | some pin =>
    { pin with pinHash := pinHash, algorithm := PIN_ALGORITHM, rotatedAt := some now }

/-- The update of `createPin` (lines 176-184). -/
def UserRow.activate (user : UserRow) (now : ℕ) : UserRow :=
  { user with
    status := .ACTIVE
    failedLoginCount := 0
    lockedUntil := none
    lastAuthenticatedAt := some now }

/-- The row of an id. -/
def Shared.findUser (s : Shared) (id : String) : Option UserRow :=
  s.user.filter fun user => user.id = id

variable (digests : Digests) (config : IdentityConfig) (hashPin : String → String → String)
  (phone : String)

/-- The store refuses a statement: a transaction is rolled back, which releases its locks. -/
def failed (s : Shared) (stage : Stage) : Option (Shared × Stage) :=
  match stage with
  | .verifying | .hashing => none
  | .enrolled .. | .rolledBack | .loggedIn | .rejected _ => none
  | .upserting .. => some (s, .rolledBack)
  | .activating .. => some ({ s with pinLocked := false }, .rolledBack)
  | .committing .. => some ({ s with pinLocked := false, userLocked := false }, .rolledBack)
  | .looking _ | .updating .. | .creating .. | .issuing _ | .taking _ | .activated _ =>
    some (s, .rejected .store)

/-- One step of a call that runs: `verifyOtp` (lines 71-146), then `createPin` (lines 148-197). -/
def ran (s : Shared) (request : Request) (stage : Stage) (e : External) :
    Option (Shared × Stage) :=
  match stage with
  | .verifying =>
    match e.otp with
    | .error error => some (s, .rejected (.auth error))
    | .ok challenge => some (s, .looking challenge)
  | .looking challenge =>
    match s.user with
    | none => some (s, .creating challenge e.now)
    | some existing =>
      if existing.status ≠ .PENDING then some (s, .rejected (.auth onboardingUnavailable))
      else some (s, .updating existing.id challenge e.now)
  | .updating id challenge verifiedAt =>
    if s.userLocked then none
    else
      match s.findUser id with
      | none => some (s, .rejected .store)
      | some user =>
        let user := user.verify challenge verifiedAt
        some ({ s with user := some user }, .issuing user)
  | .creating challenge verifiedAt =>
    match s.user with
    | some _ => some (s, .rejected .store)
    | none =>
      let user := newUser phone challenge verifiedAt e.uuid
      some ({ s with user := some user }, .issuing user)
  | .issuing user =>
    let key := digests.sha256 e.token
    let cell := Cell.setEx s.now user.id enrollmentTtlSeconds
    some ({ s with
        enrollments := fun k => if k = key then cell else s.enrollments k
        issued := key :: s.issued }, .enrolled e.token user.masked)
  | .hashing =>
    match request with
    | .verifyOtp => none
    | .createPin _ pin _ => some (s, .taking (hashPin pin e.salt))
  | .taking pinHash =>
    match request with
    | .verifyOtp => none
    | .createPin enrollmentToken _ _ =>
      let key := digests.sha256 enrollmentToken
      match (s.enrollments key).get s.now with
      | none => some (s, .rejected (.auth invalidEnrollment))
      | some userId =>
        some ({ s with enrollments := fun k => if k = key then Cell.del else s.enrollments k },
          .upserting key userId pinHash)
  | .upserting key userId pinHash =>
    if s.pinLocked then none
    else
      match s.findUser userId with
      -- the foreign key of the credential
      | none => some (s, .rolledBack)
      | some _ =>
        some ({ s with pinLocked := true },
          .activating key userId (upsertPin s.pin userId pinHash e.now))
  | .activating key userId credential =>
    if s.userLocked then none
    else
      match (s.findUser userId).filter fun user => user.status = .PENDING with
      | none => some ({ s with pinLocked := false }, .rolledBack)
      | some user =>
        some ({ s with userLocked := true }, .committing key credential (user.activate e.now))
  | .committing key credential user =>
    some ({ s with
        user := some user
        pin := some credential
        userLocked := false
        pinLocked := false
        effects := key :: s.effects }, .activated user)
  | .activated user =>
    match request with
    | .verifyOtp => none
    | .createPin _ _ deviceId =>
      let session := newSession digests config user.id e.csrfToken .PIN_OTP deviceId e.now
      some ({ s with sessions := s.sessions ++ [session] }, .loggedIn)
  | .enrolled .. | .rolledBack | .loggedIn | .rejected _ => none

/-- A step. -/
def onboardingNext (s : Shared) (request : Request) (stage : Stage) :
    Input → Option (Shared × Stage)
  | .run e => ran digests config hashPin phone s request stage e
  | .fail => failed s stage

/-- The step changes the status of the user or the PIN credential. -/
def changes (s s' : Shared) : Bool :=
  decide (s'.user.map UserRow.status ≠ s.user.map UserRow.status ∨ s'.pin ≠ s.pin)

/-- Any number of calls, from any committed rows and no token, with time passing in between. -/
def pool : Pool Shared Call Request Input ℕ where
  init s := (∀ key, s.enrollments key = none) ∧ s.userLocked = false ∧ s.pinLocked = false ∧
    s.issued = [] ∧ s.effects = []
  start _ request :=
    { request := request
      changed := false
      stage := match request with
        | .verifyOtp => .verifying
        | .createPin .. => .hashing }
  next s call input :=
    (onboardingNext digests config hashPin phone s call.request call.stage input).map fun r =>
      (r.1, { call with changed := call.changed || changes s r.1, stage := r.2 })
  env s elapsed := some { s with now := s.now + elapsed }

abbrev State := Pool.State Shared Call
abbrev Action := Pool.Action Request Input ℕ

/-- Onboarding takes effect once. -/
structure OneShot : Prop where
  /-- A token takes effect no more often than it was issued. -/
  token : ∀ s, (pool digests config hashPin phone).machine.Reachable Machine.always s →
    ∀ key, s.shared.effects.count key ≤ s.shared.issued.count key
  /-- No step creates or changes the PIN credential of an active user. -/
  active : ∀ s t a user, (pool digests config hashPin phone).machine.Reachable Machine.always s →
    (pool digests config hashPin phone).machine.step s a = some t →
    s.shared.user = some user → user.status = .ACTIVE → t.shared.pin = s.shared.pin
  /-- A `createPin` whose transaction fails leaves the status and the PIN credential alone. -/
  unchanged : ∀ s, (pool digests config hashPin phone).machine.Reachable Machine.always s →
    ∀ call ∈ s.calls, call.stage = .rolledBack → call.changed = false

/-! ## What a step does -/

namespace Stage

/-- The token that the call has taken, until its transaction ends. -/
def key? : Stage → Option String
  | .upserting key _ _ | .activating key _ _ | .committing key _ _ => some key
  | _ => none

/-- The call holds the lock of the PIN credential. -/
def holdsPin : Stage → Bool
  | .activating .. | .committing .. => true
  | _ => false

/-- The call holds the lock of the user. -/
def holdsUser : Stage → Bool
  | .committing .. => true
  | _ => false

/-- A `createPin` before its commit, or without one. -/
def uncommitted : Stage → Bool
  | .hashing | .taking _ | .upserting .. | .activating .. | .committing .. | .rolledBack => true
  | _ => false

end Stage

/-- One step of a call, one constructor for each way it changes the stores. -/
inductive Move (s : Shared) : Stage → Shared → Stage → Prop
  | idle {stage stage'} (hkey : stage.key? = none) (hkey' : stage'.key? = none)
      (huncommitted : stage'.uncommitted = true → stage.uncommitted = true) : Move s stage s stage'
  | verified {id challenge verifiedAt} {user : UserRow} (hfree : s.userLocked = false) :
      Move s (.updating id challenge verifiedAt)
        { s with user := some (user.verify challenge verifiedAt) }
        (.issuing (user.verify challenge verifiedAt))
  | created {challenge verifiedAt user} (hnone : s.user = none) :
      Move s (.creating challenge verifiedAt) { s with user := some user } (.issuing user)
  | issued {user token key cell} :
      Move s (.issuing user)
        { s with
          enrollments := fun k => if k = key then cell else s.enrollments k
          issued := key :: s.issued } (.enrolled token user.masked)
  | taken {pinHash key userId} (hget : (s.enrollments key).get s.now = some userId) :
      Move s (.taking pinHash)
        { s with enrollments := fun k => if k = key then Cell.del else s.enrollments k }
        (.upserting key userId pinHash)
  | stopped {key userId pinHash} : Move s (.upserting key userId pinHash) s .rolledBack
  | upserted {key userId pinHash credential} (hfree : s.pinLocked = false) :
      Move s (.upserting key userId pinHash) { s with pinLocked := true }
        (.activating key userId credential)
  | refused {key userId credential} :
      Move s (.activating key userId credential) { s with pinLocked := false } .rolledBack
  | updated {key userId credential user now}
      (hfree : s.userLocked = false) (huser : s.user = some user) (hstatus : user.status = .PENDING) :
      Move s (.activating key userId credential) { s with userLocked := true }
        (.committing key credential (user.activate now))
  | aborted {key credential user} :
      Move s (.committing key credential user) { s with pinLocked := false, userLocked := false }
        .rolledBack
  | committed {key credential user} :
      Move s (.committing key credential user)
        { s with
          user := some user
          pin := some credential
          userLocked := false
          pinLocked := false
          effects := key :: s.effects } (.activated user)
  | entered {user sessions} :
      Move s (.activated user) { s with sessions := sessions } .loggedIn

variable {digests config hashPin phone} {s s' : Shared} {request : Request} {stage stage' : Stage}
  {input : Input}

theorem findUser_some {id : String} {user : UserRow} (h : s.findUser id = some user) :
    s.user = some user := (Option.filter_eq_some_iff.mp h).1

theorem move_of_failed (h : failed s stage = some (s', stage')) : Move s stage s' stage' := by
  cases stage with
  | upserting key userId pinHash =>
    cases h
    exact .stopped
  | activating key userId credential =>
    cases h
    exact .refused
  | committing key credential user =>
    cases h
    exact .aborted
  | _ => cases h <;> exact .idle rfl rfl nofun

theorem move_of_ran {e : External} (h : ran digests config hashPin phone s request stage e =
    some (s', stage')) : Move s stage s' stage' := by
  cases stage with
  | verifying =>
    simp only [ran] at h
    split at h <;> cases h <;> exact .idle rfl rfl nofun
  | looking challenge =>
    simp only [ran] at h
    split at h
    · cases h
      exact .idle rfl rfl nofun
    · split_ifs at h <;> cases h <;> exact .idle rfl rfl nofun
  | updating id challenge verifiedAt =>
    simp only [ran] at h
    split_ifs at h with hlocked
    split at h
    · cases h
      exact .idle rfl rfl nofun
    · cases h
      exact .verified (Bool.not_eq_true _ |>.mp hlocked)
  | creating challenge verifiedAt =>
    simp only [ran] at h
    split at h
    · cases h
      exact .idle rfl rfl nofun
    next hnone =>
      cases h
      exact .created hnone
  | issuing user =>
    cases h
    exact .issued
  | hashing =>
    simp only [ran] at h
    split at h
    · cases h
    · cases h
      exact .idle rfl rfl fun _ => rfl
  | taking pinHash =>
    simp only [ran] at h
    split at h
    · cases h
    · split at h
      · cases h
        exact .idle rfl rfl nofun
      next hget =>
        cases h
        exact .taken hget
  | upserting key userId pinHash =>
    simp only [ran] at h
    split_ifs at h with hlocked
    split at h
    · cases h
      exact .stopped
    · cases h
      exact .upserted (Bool.not_eq_true _ |>.mp hlocked)
  | activating key userId credential =>
    simp only [ran] at h
    split_ifs at h with hlocked
    split at h
    · cases h
      exact .refused
    next user hfind =>
      obtain ⟨hfind, hstatus⟩ := Option.filter_eq_some_iff.mp hfind
      cases h
      exact .updated (Bool.not_eq_true _ |>.mp hlocked) (findUser_some hfind)
        (of_decide_eq_true hstatus)
  | committing key credential user =>
    cases h
    exact .committed
  | activated user =>
    simp only [ran] at h
    split at h
    · cases h
    · cases h
      exact .entered
  | _ => cases h

theorem move_of_next
    (h : onboardingNext digests config hashPin phone s request stage input = some (s', stage')) :
    Move s stage s' stage' := by
  cases input with
  | run e => exact move_of_ran h
  | fail => exact move_of_failed h

/-- Whether an entry is stored under a key. -/
def Shared.stored (s : Shared) (key : String) : Bool := (s.enrollments key).isSome

/-- A call without a token holds no lock. -/
theorem free_of_key? (h : stage.key? = none) :
    stage.holdsPin = false ∧ stage.holdsUser = false := by
  cases stage <;> first | exact ⟨rfl, rfl⟩ | cases h

namespace Move

/-- A lock is held by the calls that have taken it. -/
theorem locks (h : Move s stage s' stage') (hpin : stage.holdsPin = true → s.pinLocked = true)
    (huser : stage.holdsUser = true → s.userLocked = true) :
    stage'.holdsPin.toNat + s.pinLocked.toNat = stage.holdsPin.toNat + s'.pinLocked.toNat ∧
      stage'.holdsUser.toNat + s.userLocked.toNat = stage.holdsUser.toNat + s'.userLocked.toNat := by
  cases h with
  | idle hkey hkey' huncommitted =>
    obtain ⟨hpin, huser⟩ := free_of_key? hkey
    obtain ⟨hpin', huser'⟩ := free_of_key? hkey'
    rw [hpin, huser, hpin', huser']
    exact ⟨rfl, rfl⟩
  | verified | created | issued | taken | stopped | entered => exact ⟨rfl, rfl⟩
  | upserted hfree | updated hfree huser hstatus =>
    rw [hfree]
    exact ⟨rfl, rfl⟩
  | refused =>
    rw [hpin rfl]
    exact ⟨rfl, rfl⟩
  | aborted | committed =>
    rw [hpin rfl, huser rfl]
    exact ⟨rfl, rfl⟩

/-- A token is stored, taken or has taken effect once for each time it was issued. -/
theorem tokens (h : Move s stage s' stage') (key : String) :
    s'.effects.count key + (decide (stage'.key? = some key)).toNat + (s'.stored key).toNat +
        s.issued.count key ≤
      s.effects.count key + (decide (stage.key? = some key)).toNat + (s.stored key).toNat +
        s'.issued.count key := by
  cases h with
  | idle hkey hkey' huncommitted =>
    simp only [hkey, hkey', Nat.le_refl]
  | @issued user token issuedKey cell =>
    unfold Shared.stored
    simp only [Stage.key?, List.count_cons, reduceCtorEq, decide_false]
    by_cases hkey : issuedKey = key
    · subst hkey
      have hle := Bool.toNat_le cell.isSome
      simp only [if_true, beq_self_eq_true]
      omega
    · rw [if_neg (Ne.symm hkey), if_neg (by simpa using hkey)]
      exact Nat.le_refl _
  | @taken pinHash takenKey userId hget =>
    unfold Shared.stored
    simp only [Stage.key?, Option.some.injEq]
    by_cases hkey : takenKey = key
    · subst hkey
      obtain ⟨e, he, -, -⟩ := Cell.get_eq_some.mp hget
      rw [he]
      simp [Cell.del]
    · rw [if_neg (Ne.symm hkey), decide_eq_false hkey]
      simp
  | @stopped takenKey userId pinHash =>
    show _ + 0 + _ + _ ≤ _
    omega
  | @refused takenKey userId credential =>
    show _ + 0 + _ + _ ≤ _
    simp only [Shared.stored]
    omega
  | @aborted takenKey credential user =>
    show _ + 0 + _ + _ ≤ _
    simp only [Shared.stored]
    omega
  | @committed takenKey credential user =>
    simp only [Shared.stored, Stage.key?, List.count_cons, Option.some.injEq, reduceCtorEq, decide_false,
      Bool.toNat_false]
    by_cases hkey : takenKey = key
    · simp [hkey]
    · simp [hkey]
  | verified | created | upserted | updated | entered => exact Nat.le_refl _

/-- Nobody changes the row of a user that another call has locked. -/
theorem user_of_locked (h : Move s stage s' stage') (hholds : stage.holdsUser = false)
    (hlocked : s.userLocked = true) {user : UserRow} (huser : s.user = some user) :
    s'.user = some user := by
  cases h with
  | verified hfree =>
    rw [hlocked] at hfree
    cases hfree
  | created hnone =>
    rw [huser] at hnone
    cases hnone
  | aborted | committed => cases hholds
  | _ => exact huser

/-- A call that is about to commit has locked a pending user. -/
theorem pending (h : Move s stage s' stage') (hcommitting : stage'.holdsUser = true) :
    ∃ user, s'.user = some user ∧ user.status = .PENDING := by
  cases h with
  | idle hkey hkey' huncommitted =>
    rw [(free_of_key? hkey').2] at hcommitting
    cases hcommitting
  | updated hfree huser hstatus => exact ⟨_, huser, hstatus⟩
  | _ => cases hcommitting

/-- A `createPin` changes nothing of the user before its commit. -/
theorem unchanged (h : Move s stage s' stage') (huncommitted : stage'.uncommitted = true) :
    stage.uncommitted = true ∧ changes s s' = false := by
  have hsame : ∀ s' : Shared, s'.user = s.user → s'.pin = s.pin → changes s s' = false := by
    intro s' huser hpin
    unfold changes
    rw [huser, hpin]
    simp
  cases h with
  | idle hkey hkey' huncommitted' => exact ⟨huncommitted' huncommitted, hsame _ rfl rfl⟩
  | taken | stopped | upserted | refused | updated | aborted => exact ⟨rfl, hsame _ rfl rfl⟩
  | _ => cases huncommitted

/-- Only a commit changes the PIN credential. -/
theorem pin_cases (h : Move s stage s' stage') : s'.pin = s.pin ∨ stage.holdsUser = true := by
  cases h with
  | committed => exact .inr rfl
  | _ => exact .inl rfl

end Move

/-! ## The invariant -/

/-- The locks are held by calls, one each; a call that is about to commit has locked a pending
    user; tokens are used once; and a `createPin` without a commit has changed nothing. -/
structure Inv (p : State) : Prop where
  pinLock : p.calls.countP (fun call => call.stage.holdsPin) = p.shared.pinLocked.toNat
  userLock : p.calls.countP (fun call => call.stage.holdsUser) = p.shared.userLocked.toNat
  pending : ∀ call ∈ p.calls, call.stage.holdsUser = true →
    ∃ user, p.shared.user = some user ∧ user.status = .PENDING
  token : ∀ key, p.shared.effects.count key +
    p.calls.countP (fun call => decide (call.stage.key? = some key)) +
      (p.shared.stored key).toNat ≤ p.shared.issued.count key
  unchanged : ∀ call ∈ p.calls, call.stage.uncommitted = true → call.changed = false

section Runs

variable {p : State} {n : ℕ} {call : Call}

/-- What a call holds is locked. -/
theorem locked_of_holds {f : Call → Bool} {calls : List Call} {locked : Bool}
    (hcount : calls.countP f = locked.toNat) (hcall : call ∈ calls) (hholds : f call = true) :
    locked = true := by
  have hpos := List.countP_pos_iff.mpr ⟨call, hcall, hholds⟩
  cases locked with
  | true => rfl
  | false =>
    rw [hcount] at hpos
    cases hpos

theorem inv_next (h : Inv p) (hn : p.calls[n]? = some call)
    (hmove : Move p.shared call.stage s' stage') :
    Inv { shared := s'
          calls := p.calls.set n
            { call with changed := call.changed || changes p.shared s', stage := stage' } } := by
  generalize hcall' : { call with changed := call.changed || changes p.shared s', stage := stage' } =
    call'
  have hstage' : call'.stage = stage' := by rw [← hcall']
  have hmem := Pool.mem_of_getElem? hn
  have hpin := Pool.countP_next (f := fun call : Call => call.stage.holdsPin) call' hn
  have huser := Pool.countP_next (f := fun call : Call => call.stage.holdsUser) call' hn
  obtain ⟨hpinLock, huserLock⟩ := hmove.locks
    (locked_of_holds h.pinLock hmem) (locked_of_holds h.userLock hmem)
  have hpinOld := h.pinLock
  have huserOld := h.userLock
  simp only [hstage'] at hpin huser
  constructor
  case pinLock =>
    show (p.calls.set n call').countP (fun call => call.stage.holdsPin) = s'.pinLocked.toNat
    omega
  case userLock =>
    show (p.calls.set n call').countP (fun call => call.stage.holdsUser) = s'.userLocked.toNat
    omega
  case pending =>
    refine Pool.forall_set (fun m other hmn hm hholds => ?_) fun hholds => ?_
    · -- another call that is about to commit keeps the row locked
      have hother := Pool.mem_of_getElem? hm
      obtain ⟨user, hrow, hstatus⟩ := h.pending other hother hholds
      have hlocked := locked_of_holds h.userLock hother hholds
      have hfree : call.stage.holdsUser = false := by
        by_contra hheld
        have htwo := Pool.two_le_countP hmn hn hm (f := fun call : Call => call.stage.holdsUser)
          (Bool.not_eq_false _ |>.mp hheld) hholds
        rw [hlocked, Bool.toNat_true] at huserOld
        omega
      exact ⟨user, hmove.user_of_locked hfree hlocked hrow, hstatus⟩
    · rw [hstage'] at hholds
      exact hmove.pending hholds
  case token =>
    intro key
    have hcount := Pool.countP_next
      (f := fun call : Call => decide (call.stage.key? = some key)) call' hn
    have hold := h.token key
    have hstep := hmove.tokens key
    simp only [hstage'] at hcount
    show s'.effects.count key +
      (p.calls.set n call').countP (fun call => decide (call.stage.key? = some key)) +
        (s'.stored key).toNat ≤ s'.issued.count key
    omega
  case unchanged =>
    refine Pool.forall_set (fun m other _ hm => h.unchanged other (Pool.mem_of_getElem? hm)) ?_
    intro huncommitted
    rw [hstage'] at huncommitted
    obtain ⟨hbefore, hsame⟩ := hmove.unchanged huncommitted
    rw [← hcall']
    show (call.changed || changes p.shared s') = false
    rw [h.unchanged call hmem hbefore, hsame]
    rfl

theorem inv_reachable
    (h : (pool digests config hashPin phone).machine.Reachable Machine.always p) : Inv p := by
  refine Machine.invariant (I := Inv) ?_ ?_ h
  · rintro s ⟨⟨henrollments, huser, hpin, hissued, heffects⟩, hcalls⟩
    have hnil : ∀ call ∈ s.calls, False := by simp [hcalls]
    refine ⟨?_, ?_, fun call hcall => (hnil call hcall).elim, fun key => ?_,
      fun call hcall => (hnil call hcall).elim⟩
    · rw [hcalls, hpin]
      rfl
    · rw [hcalls, huser]
      rfl
    · rw [hcalls, heffects, hissued, Shared.stored, henrollments]
      exact Nat.le_refl _
  · intro s a t hinv _ hstep
    cases a with
    | start request =>
      cases Pool.step_start hstep
      have hnew : ∀ request : Request, ∀ call ∈ s.calls ++
          [(pool digests config hashPin phone).start s.shared request], call ∈ s.calls ∨
            (call.changed = false ∧ call.stage.holdsUser = false) := by
        intro request call hcall
        rcases List.mem_append.mp hcall with hold | hnew
        · exact .inl hold
        · cases List.mem_singleton.mp hnew
          cases request <;> exact .inr ⟨rfl, rfl⟩
      have hcount : ∀ f : Call → Bool,
          f ((pool digests config hashPin phone).start s.shared request) = false →
            (s.calls ++ [(pool digests config hashPin phone).start s.shared request]).countP f =
              s.calls.countP f := by
        intro f hf
        simp [List.countP_append, hf]
      constructor
      · refine (hcount _ ?_).trans hinv.pinLock
        cases request <;> rfl
      · refine (hcount _ ?_).trans hinv.userLock
        cases request <;> rfl
      · intro call hcall hholds
        rcases hnew request call hcall with hold | ⟨-, hnone⟩
        · exact hinv.pending call hold hholds
        · rw [hnone] at hholds
          cases hholds
      · intro key
        have hold := hinv.token key
        rw [← hcount (fun call => decide (call.stage.key? = some key)) (by cases request <;> rfl)]
          at hold
        exact hold
      · intro call hcall huncommitted
        rcases hnew request call hcall with hold | ⟨hchanged, -⟩
        · exact hinv.unchanged call hold huncommitted
        · exact hchanged
    | next n input =>
      obtain ⟨call, s', call', hn, hnext, rfl⟩ := Pool.step_next hstep
      obtain ⟨r, hr, heq⟩ := Option.map_eq_some_iff.mp hnext
      cases heq
      exact inv_next hinv hn (move_of_next hr)
    | env elapsed =>
      obtain ⟨s', hs', rfl⟩ := Pool.step_env hstep
      cases hs'
      exact ⟨hinv.pinLock, hinv.userLock, hinv.pending, hinv.token, hinv.unchanged⟩

end Runs

/-! ## Main result -/

/-- Onboarding is one-shot. -/
theorem onboarding_one_shot (digests : Digests) (config : IdentityConfig)
    (hashPin : String → String → String) (phone : String) :
    OneShot digests config hashPin phone where
  token s hs key := by
    have htoken := (inv_reachable hs).token key
    omega
  active s t a user hs hstep huser hactive := by
    have hinv := inv_reachable hs
    cases a with
    | start request =>
      cases Pool.step_start hstep
      rfl
    | next n input =>
      obtain ⟨call, s', call', hn, hnext, rfl⟩ := Pool.step_next hstep
      obtain ⟨r, hr, heq⟩ := Option.map_eq_some_iff.mp hnext
      cases heq
      rcases (move_of_next hr).pin_cases with hsame | hholds
      · exact hsame
      · -- a commit finds the user pending
        obtain ⟨row, hrow, hpending⟩ := hinv.pending call (Pool.mem_of_getElem? hn) hholds
        cases hrow.symm.trans huser
        rw [hactive] at hpending
        cases hpending
    | env elapsed =>
      obtain ⟨s', hs', rfl⟩ := Pool.step_env hstep
      cases hs'
      rfl
  unchanged s hs call hcall hrolledBack := by
    refine (inv_reachable hs).unchanged call hcall ?_
    rw [hrolledBack]
    rfl

/-- No user, and no call. -/
def nobody : State where
  shared := { now := 0, enrollments := fun _ => none, user := none, pin := none,
              userLocked := false, pinLocked := false, sessions := [], issued := [], effects := [] }
  calls := []

/-- Call `n` takes `k` steps, in which a token or a salt may be generated. -/
def steps (n k : ℕ) (generated : String) : List Action :=
  List.replicate k (.next n (.run {
    otp := .ok { preferredLanguage := some .SI, consentAcceptedAt := none }
    now := 0, uuid := "user-1", token := generated, salt := generated, csrfToken := "csrf" }))

/-- The first of two racing calls has activated the user, and the other one is rolled back. -/
def raced (s : State) : Bool :=
  decide (s.shared.user.map UserRow.status = some .ACTIVE ∧
    s.shared.pin.map PinCredential.pinHash = some "a:482913" ∧
    s.calls[3]?.map Call.stage = some .rolledBack)

/-- Two tokens are issued, and two calls that have taken them race. -/
theorem onboarding_one_shot_race : ∃ s : State, raced s = true ∧
    (∀ key, s.shared.effects.count key ≤ s.shared.issued.count key) ∧
    ∀ call ∈ s.calls, call.stage = .rolledBack → call.changed = false := by
  have honce := onboarding_one_shot plainDigests (defaultConfig "internal-token")
    (fun pin salt => salt ++ pin) "+94771234567"
  have hinit : (pool plainDigests (defaultConfig "internal-token") (fun pin salt => salt ++ pin)
      "+94771234567").machine.init nobody := ⟨⟨fun _ => rfl, rfl, rfl, rfl, rfl⟩, rfl⟩
  obtain ⟨s, hs, hraced⟩ := Machine.reachable_of_run ([.start .verifyOtp] ++
      steps 0 4 "token-1" ++ [.start .verifyOtp] ++ steps 1 4 "token-2" ++
      [.start (.createPin "token-1" "482913" none), .start (.createPin "token-2" "000000" none)] ++
      steps 2 2 "a:" ++ steps 3 2 "b:" ++ steps 2 3 "" ++ steps 3 2 "")
    raced hinit (by decide)
  exact ⟨s, hraced, honce.token s hs, honce.unchanged s hs⟩

end AegisShield.Identity.Onboarding
