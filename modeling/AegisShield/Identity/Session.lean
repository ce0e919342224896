import AegisShield.Identity.Basic

/-!
# Sessions: `SessionService` under concurrent calls

A session is a Redis entry. `get` reads it and writes it back with a new idle
lifetime; `subject`, `authorize`, `revoke` and `revokeTrusted` only read it, and
the last two then delete it. Each Redis command, each reading of the service's
clock and each database query is a step of its own, so a `get` may write back an
entry that a revocation deleted since the `get` read it.

Results:
* `session_dies`: in every run in which no `get` writes the entry back after a
  revocation deleted it, no call that starts after the deletion authenticates;
  in every run, no call accepts the session at or past its absolute expiry.
* `session_resurrected`: without that, a call that starts after the deletion authenticates.
-/

namespace AegisShield.Identity.Session

open Common

/-! ## Model of `SessionService` -/

/-- `AuthenticationMethod` (`session.service.ts`, line 18). -/
inductive AuthenticationMethod where
  | PIN_OTP
  | PASSKEY
  deriving DecidableEq

/-- `StoredSession` (`session.service.ts`, lines 20-29). -/
structure StoredSession where
  userId : String
  createdAt : ℕ
  lastSeenAt : ℕ
  absoluteExpiresAt : ℕ
  csrfHash : String
  authenticationMethod : AuthenticationMethod
  device : Option String
  version : ℕ
  deriving DecidableEq

/-- `MaskedUser`, as `safeUser` builds it. -/
structure MaskedUser where
  id : String
  phoneMasked : String
  preferredLanguage : PreferredLanguage
  kycTier : ℕ
  status : UserStatus
  phoneVerified : Bool
  deriving DecidableEq

/-- `SessionResponse`, as `get` builds it. -/
structure SessionResponse where
  authenticated : Bool
  authenticationMethod : AuthenticationMethod
  expiresAt : ℕ
  user : MaskedUser
  deriving DecidableEq

variable (digests : Digests) (config : IdentityConfig)

/-- `safeUser` (lines 50-69) on the row that `findUnique` returned. -/
def safeUser (user : Option User) : Except AuthError MaskedUser :=
  match user with
  | none => .error unauthenticated
  | some user =>
    if user.status ≠ .ACTIVE then .error unauthenticated
    else .ok { id := user.id, phoneMasked := maskPhone user.phoneE164,
               preferredLanguage := user.preferredLanguage, kycTier := user.kycTier,
               status := user.status, phoneVerified := user.phoneVerifiedAt.isSome }

/-- The session that `create` stores at `now` (lines 77-91). -/
def newSession (userId csrfToken : String) (authenticationMethod : AuthenticationMethod)
    (deviceId : Option String) (now : ℕ) : StoredSession where
  userId := userId
  createdAt := now
  lastSeenAt := now
  absoluteExpiresAt := now + config.sessionAbsoluteTtlSeconds * 1000
  csrfHash := digests.sha256 csrfToken
  authenticationMethod := authenticationMethod
  device := maskDevice digests deviceId
  version := 1

/-- `absoluteRemaining` (lines 137-140). -/
def absoluteRemaining (value : StoredSession) (now : ℕ) : ℕ :=
  max 1 ((value.absoluteExpiresAt - now) / 1000)

/-- The calls on one session id, with the CSRF token where the call takes one. -/
inductive Request where
  | get
  | subject
  | authorize (csrfToken : String)
  | revoke (csrfToken : String)
  | revokeTrusted
  deriving DecidableEq

/-- Where a call stands. From `accepted` on, `acceptedAt` is the clock reading at
    which `read` found the session unexpired. -/
inductive Stage where
  /-- Before the `GET` of `read`. -/
  | reading
  /-- Before `read` compares the absolute expiry with the clock. -/
  | fetched (value : StoredSession)
  /-- Before the `DEL` of an expired session in `read`. -/
  | expiring
  /-- `get`, before it computes the lifetime of the refreshed entry. -/
  | accepted (value : StoredSession) (acceptedAt : ℕ)
  /-- `get`, before its `SET`. -/
  | refreshing (value : StoredSession) (ttl acceptedAt : ℕ)
  /-- `get`, before the query of `safeUser`. -/
  | loading (value : StoredSession) (acceptedAt : ℕ)
  /-- `revoke` and `revokeTrusted`, before their `DEL`. -/
  | deleting (value : StoredSession) (acceptedAt : ℕ)
  /-- The call threw. -/
  | failed (error : AuthError)
  /-- `revokeTrusted` returned `null`. -/
  | unknown
  /-- `get` returned. -/
  | authenticated (response : SessionResponse) (acceptedAt : ℕ)
  /-- `subject` or `authorize` returned the user id. -/
  | owner (userId : String) (acceptedAt : ℕ)
  /-- `revoke` or `revokeTrusted` returned, the latter with the user id. -/
  | revoked (userId : Option String) (acceptedAt : ℕ)
  deriving DecidableEq

/-- A call; `late` records that the session had been revoked when it started. -/
structure Call where
  request : Request
  late : Bool
  stage : Stage
  deriving DecidableEq

/-- The clocks of the service and of Redis, the entry of the session, the row of
    its user, and two records for the statements: the session as `create` made
    it, and whether a revocation has deleted the entry. -/
structure Shared where
  now : ℕ
  storeNow : ℕ
  cell : Cell StoredSession
  user : Option User
  created : StoredSession
  revoked : Bool

/-- `read` throws: `revokeTrusted` turns a 401 into `null` (lines 189-192). -/
def reject (request : Request) (error : AuthError) : Stage :=
  if request = .revokeTrusted ∧ error.status = 401 then .unknown else .failed error

/-- The caller of `read`, once `read` returned `value` at `now`: `get` (line 136),
    `subject` (line 157), `authorize` and `revoke` through `requireCsrf`
    (lines 160-182), `revokeTrusted` (lines 184-188). -/
def proceed (request : Request) (value : StoredSession) (now : ℕ) : Stage :=
  match request with
  | .get => .accepted value now
  | .subject => .owner value.userId now
  | .authorize csrfToken =>
    if timingSafeStringEqual value.csrfHash (digests.sha256 csrfToken) then
      .owner value.userId now
    else .failed invalidCsrf
  | .revoke csrfToken =>
    if timingSafeStringEqual value.csrfHash (digests.sha256 csrfToken) then
      .deleting value now
    else .failed invalidCsrf
  | .revokeTrusted => .deleting value now

/-- One step of a call: `read` (lines 111-133), the rest of `get`
    (lines 135-153), and the `DEL` of a revocation (lines 181 and 187). -/
def sessionNext (s : Shared) (call : Call) : Option (Shared × Call) :=
  match call.stage with
  | .reading =>
    match s.cell.get s.storeNow with
    | none => some (s, { call with stage := reject call.request unauthenticated })
    | some value => some (s, { call with stage := .fetched value })
  | .fetched value =>
    if value.absoluteExpiresAt ≤ s.now then some (s, { call with stage := .expiring })
    else some (s, { call with stage := proceed digests call.request value s.now })
  | .expiring =>
    some ({ s with cell := Cell.del },
      { call with stage := reject call.request unauthenticated })
  | .accepted value acceptedAt =>
    let ttl := min config.sessionIdleTtlSeconds (absoluteRemaining value s.now)
    some (s, { call with stage := .refreshing { value with lastSeenAt := s.now } ttl acceptedAt })
  | .refreshing value ttl acceptedAt =>
    some ({ s with cell := Cell.setEx s.storeNow value ttl },
      { call with stage := .loading value acceptedAt })
  | .loading value acceptedAt =>
    match safeUser s.user with
    | .error error => some (s, { call with stage := .failed error })
    | .ok user =>
      let response : SessionResponse :=
        { authenticated := true, authenticationMethod := value.authenticationMethod,
          expiresAt := value.absoluteExpiresAt, user := user }
      some (s, { call with stage := .authenticated response acceptedAt })
  | .deleting value acceptedAt =>
    let userId := if call.request = .revokeTrusted then some value.userId else none
    some ({ s with cell := Cell.del, revoked := true },
      { call with stage := .revoked userId acceptedAt })
  | .failed _ | .unknown | .authenticated .. | .owner .. | .revoked .. => none

/-- What happens around the calls: both clocks advance, each by its own amount,
    and the user's row changes in any way. -/
inductive Env where
  | tick (service store : ℕ)
  | setUser (user : Option User)
  deriving DecidableEq

/-- Any number of calls on a session that `create` stored. -/
def pool : Pool Shared Call Request Unit Env where
  init s := s.revoked = false ∧
    s.cell = Cell.setEx s.storeNow s.created config.sessionIdleTtlSeconds ∧
    ∃ userId csrfToken method deviceId,
      s.created = newSession digests config userId csrfToken method deviceId s.now
  start s request := { request := request, late := s.revoked, stage := .reading }
  next s call _ := sessionNext digests config s call
  env s
    | .tick service store =>
      some { s with now := s.now + service, storeNow := s.storeNow + store }
    | .setUser user => some { s with user := user }

abbrev State := Pool.State Shared Call
abbrev Action := Pool.Action Request Unit Env

/-! ## Authentication and its condition -/

namespace Stage

/-- The session value a call works with. -/
def value? : Stage → Option StoredSession
  | .fetched value | .accepted value _ | .refreshing value _ _ | .loading value _
  | .deleting value _ => some value
  | _ => none

/-- When the call accepted the session as its caller's, if it did. -/
def acceptedAt? : Stage → Option ℕ
  | .accepted _ t | .refreshing _ _ t | .loading _ t | .deleting _ t
  | .authenticated _ t | .owner _ t | .revoked _ t => some t
  | _ => none

end Stage

/-- The call authenticated the session token. -/
def Call.authenticates (call : Call) : Prop := ∃ t, call.stage.acceptedAt? = some t

/-- No `get` writes the entry back once a revocation has deleted it. -/
def refreshesUnrevoked (s : State) : Action → Bool
  | .next n _ =>
    match s.calls[n]? with
    | some { stage := .refreshing .., .. } => !s.shared.revoked
    | _ => true
  | _ => true

/-! ## The invariant -/

/-- Every entry is the created session up to `lastSeenAt`; and, in a run that is
    `guarded` by the condition, a revoked session has no entry. -/
structure StoreInv (guarded : Prop) (s : Shared) : Prop where
  deleted : guarded → s.revoked = true → s.cell = none
  expiry : ∀ e, s.cell = some e → e.value.absoluteExpiresAt = s.created.absoluteExpiresAt

/-- A call works with the expiry of the created session and accepted before it; in a guarded run a
    late call works with no session value and has accepted nothing. -/
structure CallInv (guarded : Prop) (s : Shared) (call : Call) : Prop where
  late : guarded → call.late = true →
    s.revoked = true ∧ call.stage.value? = none ∧ call.stage.acceptedAt? = none
  value : ∀ v, call.stage.value? = some v →
    v.absoluteExpiresAt = s.created.absoluteExpiresAt
  accepted : ∀ t, call.stage.acceptedAt? = some t → t < s.created.absoluteExpiresAt

variable {digests config} {guarded : Prop} {s s' : Shared} {call call' : Call}

/-- The session as created never changes and a revocation is never undone. -/
theorem sessionNext_frame (h : sessionNext digests config s call = some (s', call')) :
    s'.created = s.created ∧ (s.revoked = true → s'.revoked = true) := by
  unfold sessionNext at h
  split at h <;> (try split at h) <;> cases h <;> simp

theorem CallInv.mono (h : CallInv guarded s call) (hc : s'.created = s.created)
    (hr : s.revoked = true → s'.revoked = true) : CallInv guarded s' call where
  late hg hl := ⟨hr (h.late hg hl).1, (h.late hg hl).2⟩
  value v hv := by rw [hc]; exact h.value v hv
  accepted t ht := by rw [hc]; exact h.accepted t ht

theorem value?_reject (request : Request) (error : AuthError) :
    (reject request error).value? = none ∧ (reject request error).acceptedAt? = none := by
  unfold reject
  split_ifs <;> exact ⟨rfl, rfl⟩

variable (digests) in
/-- What `read` hands on: the value it read, accepted at the clock reading of its
    expiry check, or nothing. -/
theorem proceed_spec (request : Request) (value : StoredSession) (now : ℕ) :
    (∀ v, (proceed digests request value now).value? = some v → v = value) ∧
    (∀ t, (proceed digests request value now).acceptedAt? = some t → t = now) := by
  cases request <;> simp only [proceed] <;> (try split_ifs) <;>
    simp [Stage.value?, Stage.acceptedAt?]

/-- In a guarded run a call that works with a value started before the revocation. -/
theorem CallInv.onTime (h : CallInv guarded s call) {value : StoredSession}
    (hv : call.stage.value? = some value) (hg : guarded) : call.late = false := by
  by_contra hl
  have hnone := (h.late hg (by simpa using hl)).2.1
  rw [hnone] at hv
  cases hv

/-- A call that started in time keeps its invariant when it moves to a stage with
    a value and an acceptance as the invariant asks for them. -/
theorem CallInv.ofOnTime {request : Request} {late : Bool} {stage : Stage}
    (hl : guarded → late = false)
    (hv : ∀ v, stage.value? = some v → v.absoluteExpiresAt = s.created.absoluteExpiresAt)
    (ht : ∀ t, stage.acceptedAt? = some t → t < s.created.absoluteExpiresAt) :
    CallInv guarded s { request := request, late := late, stage := stage } :=
  ⟨fun hg h => by simp [hl hg] at h, hv, ht⟩

/-- A call that throws in `read` holds nothing. -/
theorem CallInv.reject (h : CallInv guarded s call) (error : AuthError) :
    CallInv guarded s { call with stage := reject call.request error } := by
  obtain ⟨hv, ha⟩ := value?_reject call.request error
  exact ⟨fun hg hl => ⟨(h.late hg hl).1, hv, ha⟩, by simp [hv], by simp [ha]⟩

/-- The `GET` of `read`: in a guarded run a late call finds no entry. -/
theorem read_inv (hS : StoreInv guarded s) (hC : CallInv guarded s call)
    (hstage : call.stage = .reading)
    (h : sessionNext digests config s call = some (s', call')) :
    StoreInv guarded s' ∧ CallInv guarded s' call' := by
  simp only [sessionNext, hstage] at h
  split at h <;> cases h
  · exact ⟨hS, hC.reject unauthenticated⟩
  next value hget =>
    obtain ⟨e, he, -, rfl⟩ := Cell.get_eq_some.mp hget
    have hl : guarded → call.late = false := by
      intro hg
      by_contra hl
      have hnone := hS.deleted hg (hC.late hg (by simpa using hl)).1
      rw [hnone] at he
      cases he
    refine ⟨hS, .ofOnTime hl (fun v hv => ?_) (fun t ht => by cases ht)⟩
    cases hv
    exact hS.expiry e he

/-- The expiry check of `read`. -/
theorem check_inv (hS : StoreInv guarded s) (hC : CallInv guarded s call)
    {value : StoredSession} (hstage : call.stage = .fetched value)
    (h : sessionNext digests config s call = some (s', call')) :
    StoreInv guarded s' ∧ CallInv guarded s' call' := by
  have hvalue : call.stage.value? = some value := by rw [hstage]; rfl
  have hval := hC.value value hvalue
  have hl := hC.onTime hvalue
  simp only [sessionNext, hstage] at h
  split_ifs at h with hexp <;> cases h
  · exact ⟨hS, .ofOnTime hl (fun v hv => by cases hv) (fun t ht => by cases ht)⟩
  · obtain ⟨hv, ht⟩ := proceed_spec digests call.request value s.now
    refine ⟨hS, .ofOnTime hl (fun v h' => ?_) (fun t h' => ?_)⟩
    · rw [hv v h', hval]
    · rw [ht t h']; omega

/-- The steps of a call after `read` accepted the session. -/
theorem accepted_inv (hS : StoreInv guarded s) (hC : CallInv guarded s call) {t : ℕ}
    {value : StoredSession} (haccepted : call.stage.acceptedAt? = some t)
    (hvalue : call.stage.value? = some value)
    (hcond : guarded → ∀ value ttl t, call.stage = .refreshing value ttl t → s.revoked = false)
    (h : sessionNext digests config s call = some (s', call')) :
    StoreInv guarded s' ∧ CallInv guarded s' call' := by
  have hval := hC.value value hvalue
  have hl := hC.onTime hvalue
  have ht := hC.accepted t haccepted
  obtain ⟨request, late, stage⟩ := call
  cases stage <;> cases haccepted <;> cases hvalue <;> simp only [sessionNext] at h
  case accepted =>
    cases h
    refine ⟨hS, .ofOnTime hl (fun v hv => ?_) (fun t' ht' => ?_)⟩
    · cases hv; exact hval
    · cases ht'; exact ht
  case refreshing ttl =>
    cases h
    refine ⟨⟨fun hg hr => ?_, fun e he => ?_⟩,
      .ofOnTime hl (fun v hv => ?_) (fun t' ht' => ?_)⟩
    · -- the condition rules this write out
      have hrev := hcond hg value ttl t rfl
      rw [hrev] at hr
      cases hr
    · cases he; exact hval
    · cases hv; exact hval
    · cases ht'; exact ht
  case loading =>
    split at h <;> cases h
    · exact ⟨hS, .ofOnTime hl (fun v hv => by cases hv) (fun t' ht' => by cases ht')⟩
    · refine ⟨hS, .ofOnTime hl (fun v hv => by cases hv) (fun t' ht' => ?_)⟩
      cases ht'; exact ht
  case deleting =>
    cases h
    refine ⟨⟨fun _ _ => rfl, fun e he => by cases he⟩,
      .ofOnTime hl (fun v hv => by cases hv) (fun t' ht' => ?_)⟩
    cases ht'; exact ht

/-- One step of a call keeps both invariants; in a guarded run it does not write
    back the entry of a revoked session. -/
theorem sessionNext_inv (hS : StoreInv guarded s) (hC : CallInv guarded s call)
    (hcond : guarded → ∀ value ttl t, call.stage = .refreshing value ttl t → s.revoked = false)
    (h : sessionNext digests config s call = some (s', call')) :
    StoreInv guarded s' ∧ CallInv guarded s' call' := by
  cases hstage : call.stage
  case reading => exact read_inv hS hC hstage h
  case fetched value => exact check_inv hS hC hstage h
  case expiring =>
    simp only [sessionNext, hstage] at h
    cases h
    exact ⟨⟨fun _ _ => rfl, fun e he => by cases he⟩,
      (hC.reject unauthenticated).mono rfl (fun hr => hr)⟩
  case accepted | refreshing | loading | deleting =>
    exact accepted_inv hS hC (by rw [hstage]; rfl) (by rw [hstage]; rfl) hcond h
  all_goals simp only [sessionNext, hstage] at h; cases h

theorem inv_reachable {C : State → Action → Prop} {s : State}
    (hguard : guarded → ∀ s a, C s a → refreshesUnrevoked s a = true)
    (h : (pool digests config).machine.Reachable C s) :
    StoreInv guarded s.shared ∧ ∀ call ∈ s.calls, CallInv guarded s.shared call := by
  refine Pool.invariant ?_ ?_ ?_ ?_ h
  · rintro s ⟨hrev, hcell, -⟩
    refine ⟨fun _ hr => by simp [hrev] at hr, fun e he => ?_⟩
    rw [hcell] at he
    cases he
    rfl
  · intro s request hS
    exact ⟨fun _ hl => ⟨hl, rfl, rfl⟩, fun v hv => (by cases hv), fun t ht => (by cases ht)⟩
  · intro s n e call s' call' hS hcalls hcond hn hnext
    have hC := hcalls call (Pool.mem_of_getElem? hn)
    have hframe := sessionNext_frame hnext
    obtain ⟨hS', hC'⟩ := sessionNext_inv hS hC
      (fun hg value ttl t hstage => by
        have hcond := hguard hg _ _ hcond
        obtain ⟨request, late, stage⟩ := call
        cases hstage
        simpa [refreshesUnrevoked, hn] using hcond) hnext
    refine ⟨hS', hC', fun m q _ hq => ?_⟩
    exact (hcalls q (Pool.mem_of_getElem? hq)).mono hframe.1 hframe.2
  · intro s x s' hS _ hs'
    cases x <;> cases hs' <;> exact ⟨⟨hS.deleted, hS.expiry⟩, fun q hq => hq.mono rfl id⟩

/-! ## Main results -/

/-- In a run in which no `get` writes the entry back after a revocation deleted it, no call that
    starts after the deletion authenticates. In every run, a call accepts the session only before
    the absolute expiry that `create` set. -/
theorem session_dies (digests : Digests) (config : IdentityConfig) (s : State) :
    ((pool digests config).machine.Reachable (fun s a => refreshesUnrevoked s a = true) s →
      ∀ call ∈ s.calls, call.late = true → ¬ call.authenticates) ∧
    ((pool digests config).machine.Reachable Machine.always s →
      ∀ call ∈ s.calls, ∀ t, call.stage.acceptedAt? = some t →
        t < s.shared.created.absoluteExpiresAt) := by
  constructor
  · rintro h call hcall hl ⟨t, ht⟩
    obtain ⟨-, hcalls⟩ := inv_reachable (fun _ _ _ hc => hc) h
    have hnone := ((hcalls call hcall).late trivial hl).2.2
    rw [hnone] at ht
    cases ht
  · intro h call hcall t ht
    obtain ⟨-, hcalls⟩ := inv_reachable False.elim h
    exact (hcalls call hcall).accepted t ht

/-! ## A revoked session that comes back -/

/-- The row of an active user. -/
def activeUser : User where
  id := "user-1"
  phoneE164 := "+94771234567"
  preferredLanguage := .EN
  kycTier := 1
  status := .ACTIVE
  phoneVerifiedAt := some 0
  lastAuthenticatedAt := some 0
  failedLoginCount := 0
  lockedUntil := none
  pinHash := some "pin-hash"

/-- A session of `activeUser` right after `create` stored it, with the default
    lifetimes and the CSRF token `csrf`. -/
def freshSession : State :=
  let config := defaultConfig "internal-token"
  let created := newSession plainDigests config "user-1" "csrf" .PIN_OTP none 0
  { shared := { now := 0, storeNow := 0, user := some activeUser, created := created,
                revoked := false,
                cell := Cell.setEx 0 created config.sessionIdleTtlSeconds },
    calls := [] }

theorem freshSession_init :
    (pool plainDigests (defaultConfig "internal-token")).machine.init freshSession :=
  ⟨⟨rfl, rfl, _, _, _, _, rfl⟩, rfl⟩

/-- Some call that started after the revocation authenticates. -/
def lateAuthentication (s : State) : Bool :=
  s.calls.any fun call => call.late && call.stage.acceptedAt?.isSome

/-- A `get` reads the entry, a `revoke` runs to its end, and the `get` writes the
    entry back: a `subject` call that starts then returns the user id. -/
theorem session_resurrected :
    ¬ ∀ (digests : Digests) (config : IdentityConfig) (s : State),
      (pool digests config).machine.Reachable Machine.always s →
        ∀ call ∈ s.calls, call.late = true → ¬ call.authenticates := by
  intro h
  obtain ⟨s, hs, hp⟩ := Machine.reachable_of_run
    [.start .get, .next 0 (), .start (.revoke "csrf"), .next 1 (), .next 1 (), .next 1 (),
      .next 0 (), .next 0 (), .next 0 (), .start .subject, .next 2 (), .next 2 ()]
    lateAuthentication freshSession_init (by decide)
  obtain ⟨call, hcall, hlate⟩ := List.any_eq_true.mp hp
  rw [Bool.and_eq_true, Option.isSome_iff_exists] at hlate
  exact h _ _ s hs call hcall hlate.1 hlate.2

/-- A `get` and then a `revoke`, one after the other, meet the condition of
    `session_dies`; a later `subject` call is turned away. -/
theorem session_dies_sequential :
    ∃ s : State, s.calls.length = 3 ∧
      (∀ call ∈ s.calls, call.late = true → ¬ call.authenticates) ∧
      ∀ call ∈ s.calls, ∀ t, call.stage.acceptedAt? = some t →
        t < s.shared.created.absoluteExpiresAt := by
  obtain ⟨s, hs, hp⟩ := Machine.reachable_of_runUnder
    [.start .get, .next 0 (), .next 0 (), .next 0 (), .next 0 (), .next 0 (),
      .start (.revoke "csrf"), .next 1 (), .next 1 (), .next 1 (), .start .subject, .next 2 ()]
    refreshesUnrevoked (fun s => decide (s.calls.length = 3)) (fun _ _ h => h)
    freshSession_init (by decide)
  have h := session_dies plainDigests (defaultConfig "internal-token") s
  exact ⟨s, of_decide_eq_true hp, h.1 hs, h.2 (hs.mono fun _ _ _ => trivial)⟩

end AegisShield.Identity.Session
