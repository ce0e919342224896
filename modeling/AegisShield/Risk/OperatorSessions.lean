import AegisShield.Common.Expiring
import AegisShield.Common.Interleaving
import AegisShield.Risk.Operators

/-!
# Sessions of security operators

`OperatorService` (`operator.service.ts`) and the endpoints of `OperatorController`
(`operator.controller.ts`, lines 70-285) in front of the actions of `Risk.Operators`: any number of
requests against the sessions in Redis, whose commands may fail before they take effect or after.
Each command, each clock reading and each draw of a token is a step of its own.

Results:
* `operator_work_authorised`: what is done for a request is done for the operator of an issued,
  unexpired session, and what changes anything under the CSRF token issued with it.
* `logout_final`: after a logout has returned, no request that starts later gets anything under
  that session.
-/

namespace AegisShield.Risk.OperatorSessions

open Common Interaction

/-! ## Model of `OperatorService` -/

/-- `timingSafeStringEqual` (`security.ts`, lines 4-8). -/
def timingSafeStringEqual (left right : String) : Bool :=
  left.utf8ByteSize = right.utf8ByteSize && 0 < left.utf8ByteSize && left == right

/-- `OperatorIdentity` (`operator.service.ts`, lines 11-16); the role is always
    `SECURITY_OPERATOR`. -/
structure OperatorIdentity where
  operatorId : String
  createdAt : ℕ
  expiresAt : ℕ
  deriving DecidableEq

/-- What `bootstrap` stores (line 42). -/
structure StoredOperator extends OperatorIdentity where
  csrfHash : String
  deriving DecidableEq

/-- `RiskConfig`, as far as sessions depend on it. -/
structure RiskConfig where
  operatorBootstrapToken : Option String
  operatorSessionTtlSeconds : ℕ

/-- What an endpoint does once its request has been validated. -/
inductive OperatorWork where
  /-- The queries of an overview, a list or an incident. -/
  | read (path : String)
  /-- A request of `Risk.Operators`, with the header for its audit row. -/
  | mutate (correlationId : String) (request : OperatorRequest)

/-- The work changes something. -/
def OperatorWork.mutation : OperatorWork → Bool
  | .read _ => false
  | .mutate _ _ => true

inductive OperatorQuestion where
  | now
  /-- `randomBytes(32).toString('base64url')`. -/
  | randomToken
  | set (key : String) (value : StoredOperator) (ttlSeconds : ℕ)
  | get (key : String)
  | del (key : String)
  | work (operatorId : String) (work : OperatorWork)

/-- The answers; `none` when Redis fails. -/
@[reducible] def OperatorAnswer : OperatorQuestion → Type
  | .now => ℕ
  | .randomToken => String
  | .set _ _ _ => Option Unit
  | .get _ => Option (Option StoredOperator)
  | .del _ => Option Unit
  | .work _ _ => Unit

/-- What a request fails with. -/
inductive OperatorFailure where
  | unauthorized
  | forbidden
  /-- A schema rejects the body. -/
  | invalid
  | store
  deriving DecidableEq

/-- What a request is answered with. -/
inductive OperatorReply where
  | session (sessionToken csrfToken : String) (identity : OperatorIdentity)
  | identity (identity : OperatorIdentity)
  | revoked
  | worked
  deriving DecidableEq

abbrev Program (α : Type) := Interaction OperatorAnswer OperatorFailure α

/-- What Redis answered, or a throw of its client. -/
def redis {α : Type} : Option α → Except OperatorFailure α
  | none => .error .store
  | some a => .ok a

section
variable (sha256 : String → String) (config : RiskConfig)

/-- The access token is the configured one (lines 24-28). -/
def granted (accessToken : String) : Bool :=
  match config.operatorBootstrapToken with
  | none => false
  | some token => token ≠ "" && timingSafeStringEqual accessToken token

/-- The identity that `bootstrap` issues (lines 32-39). -/
def newIdentity (now : ℕ) : OperatorIdentity where
  operatorId := developmentOperator.id
  createdAt := now
  expiresAt := now + config.operatorSessionTtlSeconds * 1000

/-- `bootstrap` (lines 23-46). -/
def bootstrap (accessToken : String) : Program OperatorReply :=
  if granted config accessToken = false then raise .unauthorized
  else do
    let sessionToken ← query OperatorQuestion.randomToken
    let csrfToken ← query OperatorQuestion.randomToken
    let now ← query OperatorQuestion.now
    let stored ← query (OperatorQuestion.set (sha256 sessionToken)
      { toOperatorIdentity := newIdentity config now, csrfHash := sha256 csrfToken }
      config.operatorSessionTtlSeconds)
    let () ← lift (redis stored)
    return .session sessionToken csrfToken (newIdentity config now)

/-- The CSRF token is the one of the session (lines 63-64). -/
def csrfMatches (csrfToken : Option String) (value : StoredOperator) : Bool :=
  csrfToken.any fun token => token ≠ "" && timingSafeStringEqual (sha256 token) value.csrfHash

/-- The checks of `validate` on a stored session (lines 57-72). -/
def checkSession (csrfToken : Option String) (mutation : Bool) (value : StoredOperator) (now : ℕ) :
    Except OperatorFailure OperatorIdentity :=
  if value.expiresAt ≤ now then .error .unauthorized
  else if mutation && !csrfMatches sha256 csrfToken value then .error .forbidden
  else .ok value.toOperatorIdentity

/-- `validate` (lines 47-73). -/
def validate (sessionToken : String) (csrfToken : Option String) (mutation : Bool) :
    Program OperatorIdentity := do
  let found ← query (OperatorQuestion.get (sha256 sessionToken))
  let raw ← lift (redis found)
  match raw with
  | none => raise .unauthorized
  | some value => do
    let now ← query OperatorQuestion.now
    lift (checkSession sha256 csrfToken mutation value now)

/-! ## Model of `OperatorController` -/

/-- An endpoint with its body; `none` when a schema rejects it. -/
inductive OperatorRoute where
  | bootstrap (accessToken : Option String)
  | validate
  | logout
  | read (path : String)
  | mutate (request : Option OperatorRequest)

/-- A request; the headers of the session and the CSRF token are trimmed (lines 64-69). -/
structure OperatorHttp where
  token : String
  csrf : Option String
  correlationId : String
  route : OperatorRoute

/-- The endpoints (lines 70-285). -/
def serve (request : OperatorHttp) : Program OperatorReply :=
  match request.route with
  | .bootstrap none => raise .invalid
  | .bootstrap (some accessToken) => bootstrap sha256 config accessToken
  | .validate => do
    let identity ← validate sha256 request.token none false
    return .identity identity
  | .logout => do
    let _ ← validate sha256 request.token request.csrf true
    let deleted ← query (OperatorQuestion.del (sha256 request.token))
    let () ← lift (redis deleted)
    return .revoked
  | .read path => do
    let identity ← validate sha256 request.token none false
    let () ← query (OperatorQuestion.work identity.operatorId (.read path))
    return .worked
  | .mutate body => do
    let identity ← validate sha256 request.token request.csrf true
    match body with
    | none => raise .invalid
    | some body => do
      let () ← query
        (OperatorQuestion.work identity.operatorId (.mutate request.correlationId body))
      return .worked

end

/-! ## One request -/

section
variable {sha256 : String → String} {config : RiskConfig} {request : OperatorHttp}
  {h : History OperatorAnswer} {identity : OperatorIdentity} {mutation : Bool}

/-- A session was found under the token of the request, unexpired, and for a mutation with the
    CSRF token of the request. -/
def Validated (sha256 : String → String) (request : OperatorHttp) (h : History OperatorAnswer)
    (mutation : Bool) (identity : OperatorIdentity) : Prop :=
  ∃ value now, h = [⟨.get (sha256 request.token), some (some value)⟩, ⟨.now, now⟩] ∧
    now < value.expiresAt ∧ identity = value.toOperatorIdentity ∧
    (mutation = true → csrfMatches sha256 request.csrf value = true)

/-- The tokens and the time of a session about to be stored. -/
def draws (session csrf : String) (now : ℕ) : History OperatorAnswer :=
  [⟨.randomToken, session⟩, ⟨.randomToken, csrf⟩, ⟨.now, now⟩]

/-- The session that is stored with them. -/
def issued (sha256 : String → String) (config : RiskConfig) (csrf : String) (now : ℕ) :
    StoredOperator :=
  { toOperatorIdentity := newIdentity config now, csrfHash := sha256 csrf }

/-- The request asks for this. -/
def Requested (request : OperatorHttp) : OperatorWork → Prop
  | .read path => request.route = .read path
  | .mutate correlationId body =>
    request.route = .mutate (some body) ∧ correlationId = request.correlationId

/-- What a request may do to the sessions and for an operator, after a history. -/
def Licensed (sha256 : String → String) (config : RiskConfig) (request : OperatorHttp)
    (h : History OperatorAnswer) : OperatorQuestion → Prop
  | .set key value ttlSeconds => ∃ accessToken session csrf now,
      request.route = .bootstrap (some accessToken) ∧ granted config accessToken = true ∧
      h = draws session csrf now ∧ key = sha256 session ∧ value = issued sha256 config csrf now ∧
      ttlSeconds = config.operatorSessionTtlSeconds
  | .get key => h = [] ∧ key = sha256 request.token
  | .del key => key = sha256 request.token ∧ ∃ identity, Validated sha256 request h true identity
  | .work operatorId work => Requested request work ∧ ∃ identity,
      identity.operatorId = operatorId ∧ Validated sha256 request h work.mutation identity
  | .now | .randomToken => True

/-- What an answered request has established. -/
def Answered (sha256 : String → String) (config : RiskConfig) (request : OperatorHttp) :
    OperatorReply → History OperatorAnswer → Prop
  | .session session csrf identity, h => ∃ accessToken now reply,
      request.route = .bootstrap (some accessToken) ∧
      h = draws session csrf now ++ [⟨.set (sha256 session) (issued sha256 config csrf now)
        config.operatorSessionTtlSeconds, reply⟩] ∧ identity = newIdentity config now
  | .identity identity, h => Validated sha256 request h false identity
  | .revoked, h => ∃ identity t, Validated sha256 request t true identity ∧
      h = t ++ [⟨.del (sha256 request.token), some ()⟩]
  | .worked, h => ∃ identity t operatorId work, Validated sha256 request t false identity ∧
      h = t ++ [⟨.work operatorId work, ()⟩]

theorem eq_of_timingSafeStringEqual {left right : String}
    (h : timingSafeStringEqual left right = true) : left = right := by
  unfold timingSafeStringEqual at h
  simp only [Bool.and_eq_true, beq_iff_eq] at h
  exact h.2

variable {now : ℕ}

/-- A CSRF token that matches has the hash of the issued one. -/
theorem csrfMatches_issued {csrfToken : Option String} {csrf : String}
    (h : csrfMatches sha256 csrfToken (issued sha256 config csrf now) = true) :
    ∃ token, csrfToken = some token ∧ sha256 token = sha256 csrf := by
  obtain ⟨token, rfl, htoken⟩ := (Option.any_eq_true _ _).mp h
  exact ⟨token, rfl, eq_of_timingSafeStringEqual (Bool.and_eq_true_iff.mp htoken).2⟩

theorem Validated.weaken (hvalid : Validated sha256 request h true identity) :
    Validated sha256 request h mutation identity := by
  obtain ⟨value, now, rfl, hnow, rfl, hcsrf⟩ := hvalid
  exact ⟨value, now, rfl, hnow, rfl, fun _ => hcsrf rfl⟩

theorem checkSession_ok {csrf : Option String} {value : StoredOperator} :
    checkSession sha256 csrf mutation value now = .ok identity ↔ now < value.expiresAt ∧
      identity = value.toOperatorIdentity ∧
      (mutation = true → csrfMatches sha256 csrf value = true) := by
  unfold checkSession
  split_ifs with hexpired hcsrf
  · simp only [false_iff, not_and]
    omega
  · simp only [Bool.and_eq_true, Bool.not_eq_true'] at hcsrf
    simp [hcsrf.1, hcsrf.2]
  · simp only [Bool.and_eq_true, Bool.not_eq_true', not_and, Bool.not_eq_false] at hcsrf
    simp only [Except.ok.injEq, not_le.mp hexpired, true_and, eq_comm (a := identity)]
    exact ⟨fun heq => ⟨heq, hcsrf⟩, fun heq => heq.1⟩

theorem redis_ok {α : Type} {reply : Option α} {a : α} :
    redis reply = .ok a ↔ reply = some a := by
  cases reply <;> simp [redis]

/-- `validate` at the beginning of a request. -/
theorem wp_validate {csrf : Option String} (hcsrf : mutation = true → csrf = request.csrf) :
    Wp (Licensed sha256 config request) (validate sha256 request.token csrf mutation)
      (fun identity h => Validated sha256 request h mutation identity) [] := by
  simp only [validate, wp_bind, wp_query, wp_lift, redis_ok, List.nil_append]
  refine ⟨⟨rfl, rfl⟩, ?_⟩
  rintro _ raw rfl
  cases raw with
  | none => trivial
  | some value =>
    simp only [wp_bind, wp_query, wp_lift]
    refine ⟨trivial, fun now identity hcheck => ?_⟩
    obtain ⟨hnow, hidentity, hmatches⟩ := checkSession_ok.mp hcheck
    exact ⟨value, now, rfl, hnow, hidentity, fun hmutation => hcsrf hmutation ▸ hmatches hmutation⟩

theorem wp_bootstrap {accessToken : String}
    (hroute : request.route = .bootstrap (some accessToken)) :
    Wp (Licensed sha256 config request) (bootstrap sha256 config accessToken)
      (Answered sha256 config request) [] := by
  unfold bootstrap
  split_ifs with hgranted
  · trivial
  · simp only [wp_bind, wp_query, wp_lift, redis_ok, wp_pure, List.nil_append]
    refine ⟨trivial, fun session => ⟨trivial, fun csrf => ⟨trivial, fun now => ⟨?_, ?_⟩⟩⟩⟩
    · exact ⟨accessToken, session, csrf, now, hroute, by simpa using hgranted, rfl, rfl, rfl, rfl⟩
    · intro reply _ _
      exact ⟨accessToken, now, reply, hroute, rfl, rfl⟩

/-- What a request does is licensed, and what it is answered is established. -/
theorem wp_serve : Wp (Licensed sha256 config request) (serve sha256 config request)
    (Answered sha256 config request) [] := by
  unfold serve
  split
  · trivial
  next accessToken hroute =>
    exact wp_bootstrap hroute
  · rw [wp_bind]
    exact (wp_validate (fun hmutation => by cases hmutation)).mono fun _ _ hvalid => hvalid
  · rw [wp_bind]
    refine (wp_validate fun _ => rfl).mono fun identity t hvalid => ?_
    simp only [wp_bind, wp_query, wp_lift, redis_ok, wp_pure]
    refine ⟨⟨rfl, identity, hvalid⟩, ?_⟩
    rintro _ _ rfl
    exact ⟨identity, _, hvalid, rfl⟩
  next path hroute =>
    rw [wp_bind]
    refine (wp_validate (fun hmutation => by cases hmutation)).mono fun identity t hvalid => ?_
    simp only [wp_bind, wp_query, wp_pure]
    exact ⟨⟨hroute, identity, rfl, hvalid⟩, fun _ => ⟨identity, _, _, _, hvalid, rfl⟩⟩
  next body hroute =>
    rw [wp_bind]
    refine (wp_validate fun _ => rfl).mono fun identity t hvalid => ?_
    cases body with
    | none => trivial
    | some body =>
      simp only [wp_bind, wp_query, wp_pure]
      exact ⟨⟨⟨hroute, rfl⟩, identity, rfl, hvalid⟩,
        fun _ => ⟨identity, _, _, _, hvalid.weaken, rfl⟩⟩

end

/-! ## Model of the requests together -/

/-- What an answer takes from outside. -/
structure Outside where
  link : Link
  token : String

/-- The clocks of the service and of Redis in milliseconds, and the sessions. -/
structure Shared where
  now : ℕ
  storeNow : ℕ
  cells : String → Cell StoredOperator

/-- A command that writes a key. -/
def Shared.write (s : Shared) (link : Link) (key : String) (cell : Cell StoredOperator) : Shared :=
  if link.takesEffect then { s with cells := Function.update s.cells key cell } else s

/-- The answer to a question. -/
def Shared.answer (s : Shared) :
    (q : OperatorQuestion) → Outside → Option (Shared × OperatorAnswer q)
  | .now, _ => some (s, s.now)
  | .randomToken, outside => some (s, outside.token)
  | .set key value ttlSeconds, outside =>
    some (s.write outside.link key (Cell.setEx s.storeNow value ttlSeconds), outside.link.reply ())
  | .get key, outside => some (s, outside.link.reply (Cell.get s.storeNow (s.cells key)))
  | .del key, outside => some (s.write outside.link key Cell.del, outside.link.reply ())
  | .work _ _, _ => some (s, ())

/-- The service and its Redis, at first without sessions; time passes on both clocks. -/
def service : Host OperatorAnswer Shared Outside (ℕ × ℕ) where
  init s := ∀ key, s.cells key = none
  answer := Shared.answer
  env s elapsed := some { s with now := s.now + elapsed.1, storeNow := s.storeNow + elapsed.2 }

abbrev Call := Task OperatorHttp OperatorAnswer OperatorFailure OperatorReply
abbrev State := Pool.State Shared Call
abbrev Action := Pool.Action OperatorHttp Outside (ℕ × ℕ)

/-- The requests, interleaved. -/
def requests (sha256 : String → String) (config : RiskConfig) :
    Pool Shared Call OperatorHttp Outside (ℕ × ℕ) :=
  service.pool (serve sha256 config)

/-- A session has been stored, or tried to be. -/
def Issued (calls : List Call) (key : String) (value : StoredOperator) : Prop :=
  ∃ call ∈ calls, ∃ ttlSeconds reply,
    (⟨.set key value ttlSeconds, reply⟩ : Sigma OperatorAnswer) ∈ call.past

/-- What Redis holds and what it has answered was stored by some request. -/
structure Sound (s : State) : Prop where
  cells : ∀ key e, s.shared.cells key = some e → Issued s.calls key e.value
  found : ∀ call ∈ s.calls, ∀ key value,
    (⟨.get key, some (some value)⟩ : Sigma OperatorAnswer) ∈ call.past → Issued s.calls key value

section
variable {sha256 : String → String} {config : RiskConfig} {s t : State} {call : Call}
  {key : String} {value : StoredOperator} {q : OperatorQuestion} {a : OperatorAnswer q}
  {n : ℕ} {shared shared' : Shared} {outside : Outside}
  {rest : OperatorAnswer q → Program OperatorReply}

/-- A call after its question has been answered. -/
def after (call : Call) (x : Sigma OperatorAnswer) (rest : Program OperatorReply) : Call :=
  { call with past := call.past ++ [x], rest := rest }

theorem Issued.step {calls : List Call} {x : Sigma OperatorAnswer} {rest : Program OperatorReply}
    (h : Issued calls key value) (hn : calls[n]? = some call) :
    Issued (calls.set n (after call x rest)) key value := by
  obtain ⟨other, hother, ttlSeconds, reply, hmem⟩ := h
  obtain ⟨m, hm⟩ := List.mem_iff_getElem?.mp hother
  by_cases hmn : n = m
  · subst hmn
    cases hn.symm.trans hm
    refine ⟨after call x rest, ?_, ttlSeconds, reply, List.mem_append_left _ hmem⟩
    exact List.mem_iff_getElem?.mpr
      ⟨n, List.getElem?_set_self (List.getElem?_eq_some_iff.mp hn).1⟩
  · refine ⟨other, ?_, ttlSeconds, reply, hmem⟩
    exact List.mem_iff_getElem?.mpr ⟨m, (List.getElem?_set_ne hmn).trans hm⟩

theorem Shared.write_cells (s : Shared) (link : Link) (key other : String)
    (cell : Cell StoredOperator) : (s.write link key cell).cells other =
      if link.takesEffect = true ∧ other = key then cell else s.cells other := by
  unfold Shared.write
  by_cases hlink : link.takesEffect = true
  · simp only [hlink, if_true, true_and, Function.update_apply]
  · simp [hlink]

/-- An answer leaves in Redis what was there or what it was asked to store. -/
theorem answer_cells (h : shared.answer q outside = some (shared', a)) {e : Entry StoredOperator}
    (hkey : shared'.cells key = some e) :
    shared.cells key = some e ∨ ∃ ttlSeconds, q = .set key e.value ttlSeconds := by
  cases q with
  | set other value ttlSeconds =>
    cases h
    rw [Shared.write_cells] at hkey
    split_ifs at hkey with hwritten
    · obtain ⟨-, rfl⟩ := hwritten
      cases hkey
      exact .inr ⟨ttlSeconds, rfl⟩
    · exact .inl hkey
  | del other =>
    cases h
    rw [Shared.write_cells] at hkey
    split_ifs at hkey with hwritten
    · cases hkey
    · exact .inl hkey
  | now | randomToken | get | work => cases h; exact .inl hkey

/-- A `GET` returns what Redis holds. -/
theorem answer_get (h : shared.answer (.get key) outside = some (shared', some (some value))) :
    ∃ e, shared.cells key = some e ∧ e.value = value := by
  simp only [Shared.answer, Option.some.injEq, Prod.mk.injEq] at h
  obtain ⟨-, h⟩ := h
  unfold Link.reply at h
  split at h
  · obtain ⟨e, he, hvalue⟩ := Option.map_eq_some_iff.mp (Option.some.inj h)
    exact ⟨e, (Option.filter_eq_some_iff.mp he).1, hvalue⟩
  · cases h
  · cases h

theorem Sound.step (hs : Sound s) (hn : s.calls[n]? = some call)
    (ha : s.shared.answer q outside = some (shared', a)) :
    Sound ⟨shared', s.calls.set n (after call ⟨q, a⟩ (rest a))⟩ := by
  have hmem : after call ⟨q, a⟩ (rest a) ∈ s.calls.set n (after call ⟨q, a⟩ (rest a)) :=
    List.mem_iff_getElem?.mpr ⟨n, List.getElem?_set_self (List.getElem?_eq_some_iff.mp hn).1⟩
  constructor
  · intro key e he
    rcases answer_cells ha he with he | ⟨ttlSeconds, rfl⟩
    · exact (hs.cells key e he).step hn
    · exact ⟨_, hmem, ttlSeconds, a, List.mem_append_right _ (List.mem_singleton_self _)⟩
  · refine Pool.forall_set (fun m other _ hm key value hget =>
      (hs.found other (Pool.mem_of_getElem? hm) key value hget).step hn) ?_
    intro key value hget
    rcases List.mem_append.mp hget with hget | hget
    · exact (hs.found call (Pool.mem_of_getElem? hn) key value hget).step hn
    · cases List.mem_singleton.mp hget
      obtain ⟨e, he, rfl⟩ := answer_get ha
      exact (hs.cells key e he).step hn

variable {C : State → Action → Prop} {operatorId : String} {work : OperatorWork}

theorem sound_of_reachable (h : (requests sha256 config).machine.Reachable C s) : Sound s := by
  refine Machine.invariant (I := Sound) ?_ ?_ h
  · rintro s ⟨hcells, hcalls⟩
    exact ⟨fun key e he => absurd he (by simp [hcells key]), by simp [hcalls]⟩
  · intro s action t hs _ hstep
    cases action with
    | start request =>
      cases Pool.step_start hstep
      have hissued : ∀ {key value}, Issued s.calls key value →
          Issued (s.calls ++ [(requests sha256 config).start s.shared request]) key value := by
        rintro key value ⟨call, hcall, hset⟩
        exact ⟨call, List.mem_append_left _ hcall, hset⟩
      refine ⟨fun key e he => hissued (hs.cells key e he), fun call hcall key value hget => ?_⟩
      rcases List.mem_append.mp hcall with hcall | hcall
      · exact hissued (hs.found call hcall key value hget)
      · cases List.mem_singleton.mp hcall
        cases hget
    | next n outside =>
      obtain ⟨call, s', call', hn, hnext, rfl⟩ := Pool.step_next hstep
      obtain ⟨q, next, a, hrest, ha, rfl⟩ := Task.next_some hnext
      exact hs.step hn ha
    | env elapsed =>
      obtain ⟨s', hs', rfl⟩ := Pool.step_env hstep
      cases hs'
      exact ⟨hs.cells, hs.found⟩

/-! ## Where a session comes from -/

/-- A request with the configured access token drew the session and the CSRF token and stored
    them. -/
def OpenedBy (sha256 : String → String) (config : RiskConfig) (call : Call)
    (session csrf : String) (createdAt : ℕ) : Prop :=
  ∃ accessToken reply rest, call.input.route = .bootstrap (some accessToken) ∧
    granted config accessToken = true ∧
    call.past = draws session csrf createdAt ++ ⟨.set (sha256 session)
      (issued sha256 config csrf createdAt) config.operatorSessionTtlSeconds, reply⟩ :: rest

/-- The question that a request is about to ask. -/
def asking (call : Call) : Option OperatorQuestion :=
  match call.rest with
  | .ask q _ => some q
  | .done _ => none

/-- The request has had this done for an operator, or is about to. -/
def Works (call : Call) (operatorId : String) (work : OperatorWork) : Prop :=
  (⟨.work operatorId work, ()⟩ : Sigma OperatorAnswer) ∈ call.past ∨
    asking call = some (.work operatorId work)

theorem asks_of_asking (hstarted : call.Started (serve sha256 config))
    (h : asking call = some q) : Asks (serve sha256 config call.input) call.past q := by
  unfold asking at h
  split at h
  next next hrest =>
    cases h
    exact ⟨next, hrest ▸ hstarted⟩
  · cases h

theorem asks_of_mem_past (hstarted : call.Started (serve sha256 config))
    (h : (⟨q, a⟩ : Sigma OperatorAnswer) ∈ call.past) :
    ∃ before rest, call.past = before ++ ⟨q, a⟩ :: rest ∧
      Asks (serve sha256 config call.input) before q := by
  obtain ⟨before, rest, hpast⟩ := List.append_of_mem h
  unfold Task.Started at hstarted
  rw [hpast] at hstarted
  exact ⟨before, rest, hpast, asks_of_leads hstarted⟩

/-- Work is done after the session has been found. -/
theorem validated_of_works
    (hstarted : call.Started (serve sha256 config)) (h : Works call operatorId work) :
    Requested call.input work ∧ ∃ identity before rest, identity.operatorId = operatorId ∧
      call.past = before ++ rest ∧ Validated sha256 call.input before work.mutation identity := by
  rcases h with h | h
  · obtain ⟨before, rest, hpast, hasks⟩ := asks_of_mem_past hstarted h
    obtain ⟨hrequested, identity, hoperator, hvalid⟩ := wp_serve.asked hasks
    exact ⟨hrequested, identity, before, _, hoperator, hpast, hvalid⟩
  · obtain ⟨hrequested, identity, hoperator, hvalid⟩ :=
      wp_serve.asked (asks_of_asking hstarted h)
    exact ⟨hrequested, identity, _, [], hoperator, (List.append_nil _).symm, hvalid⟩

/-- A stored session was opened by a request with the access token. -/
theorem opened_of_issued
    (hreach : (requests sha256 config).machine.Reachable C s) (h : Issued s.calls key value) :
    ∃ call ∈ s.calls, ∃ session csrf createdAt, OpenedBy sha256 config call session csrf createdAt ∧
      key = sha256 session ∧ value = issued sha256 config csrf createdAt := by
  obtain ⟨call, hcall, ttlSeconds, reply, hset⟩ := h
  obtain ⟨before, rest, hpast, hasks⟩ := asks_of_mem_past (tasks_started hreach call hcall) hset
  obtain ⟨accessToken, session, csrf, createdAt, hroute, hgranted, rfl, rfl, rfl, rfl⟩ :=
    wp_serve.asked hasks
  exact ⟨call, hcall, session, csrf, createdAt,
    ⟨accessToken, reply, rest, hroute, hgranted, hpast⟩, rfl, rfl⟩

/-- The request asked for this, and for the operator of a session that a request with the configured
    access token has opened: it presents the session token, before the session has expired, and to
    change anything also the CSRF token. -/
def Authorised (sha256 : String → String) (config : RiskConfig) (s : State) (call : Call)
    (operatorId : String) (work : OperatorWork) : Prop :=
  Requested call.input work ∧ ∃ opener ∈ s.calls, ∃ session csrf createdAt now,
    OpenedBy sha256 config opener session csrf createdAt ∧
    sha256 call.input.token = sha256 session ∧
    (⟨.now, now⟩ : Sigma OperatorAnswer) ∈ call.past ∧
    now < createdAt + config.operatorSessionTtlSeconds * 1000 ∧
    operatorId = developmentOperator.id ∧
    (work.mutation = true → ∃ token, call.input.csrf = some token ∧ sha256 token = sha256 csrf)

theorem authorised_of_works
    (hs : (requests sha256 config).machine.Reachable C s) (hcall : call ∈ s.calls)
    (hwork : Works call operatorId work) : Authorised sha256 config s call operatorId work := by
  obtain ⟨hrequested, identity, before, rest, rfl, hpast, value, now, rfl, hnow, rfl, hcsrf⟩ :=
    validated_of_works (tasks_started hs call hcall) hwork
  have hissued := (sound_of_reachable hs).found call hcall (sha256 call.input.token) value
    (by simp [hpast])
  obtain ⟨opener, hopener, session, csrf, createdAt, hopened, hkey, rfl⟩ :=
    opened_of_issued hs hissued
  exact ⟨hrequested, opener, hopener, session, csrf, createdAt, now, hopened, hkey,
    by simp [hpast], hnow, rfl, fun hmutation => csrfMatches_issued (hcsrf hmutation)⟩

/-- Whatever is done for a request is authorised, however the requests are interleaved. -/
theorem operator_work_authorised (sha256 : String → String) (config : RiskConfig) (s : State)
    (hs : (requests sha256 config).machine.Reachable Machine.always s) :
    ∀ call ∈ s.calls, ∀ operatorId work, Works call operatorId work →
      Authorised sha256 config s call operatorId work :=
  fun _ hcall _ _ hwork => authorised_of_works hs hcall hwork

end

/-! ### A run -/

/-- A configuration with an access token. -/
def development : RiskConfig where
  operatorBootstrapToken := some "development-access-token"
  operatorSessionTtlSeconds := 900

/-- Before the first request. -/
def opening : State := ⟨⟨1000, 1000, fun _ => none⟩, []⟩

theorem opening_init (sha256 : String → String) :
    (requests sha256 development).machine.init opening := ⟨fun _ => rfl, rfl⟩

/-- Call `n` takes its next step, and draws this token if it draws one. -/
def steps (n : ℕ) (token : String) : Action := .next n ⟨.up, token⟩

/-- A request under the session that `openSession` opens. -/
def underSession (route : OperatorRoute) : Action :=
  .start ⟨"session-token", some "csrf-token", "correlation-1", route⟩

/-- An operator opens a session. -/
def openSession : List Action :=
  [.start ⟨"", none, "correlation-0", .bootstrap (some "development-access-token")⟩,
    steps 0 "session-token", steps 0 "csrf-token", steps 0 "", steps 0 ""]

/-- The request is about to change something for an operator. -/
def mutates (call : Call) : Bool :=
  match asking call with
  | some (.work _ work) => work.mutation
  | _ => false

theorem exists_of_mutates {call : Call} (h : mutates call = true) :
    ∃ operatorId work, Works call operatorId work ∧ work.mutation = true := by
  unfold mutates at h
  split at h
  next operatorId work hasking =>
    exact ⟨operatorId, work, .inr hasking, h⟩
  · cases h

/-- A release under an opened session. -/
theorem operator_work_authorised_release : ∃ s : State,
    (requests id development).machine.Reachable Machine.always s ∧
      ∃ call ∈ s.calls, ∃ operatorId work, work.mutation = true ∧
        Works call operatorId work ∧ Authorised id development s call operatorId work := by
  obtain ⟨s, hs, hmutates⟩ := Machine.reachable_of_run
    (openSession ++ [underSession (.mutate (some (.release "control-1" "The incident is closed."))),
      steps 1 "", steps 1 ""])
    (fun s => s.calls.any mutates) (opening_init id) (by decide +kernel)
  obtain ⟨call, hcall, hcallMutates⟩ := List.any_eq_true.mp hmutates
  obtain ⟨operatorId, work, hworks, hmutation⟩ := exists_of_mutates hcallMutates
  exact ⟨s, hs, call, hcall, operatorId, work, hmutation, hworks,
    operator_work_authorised id development s hs call hcall operatorId work hworks⟩

section
variable {sha256 : String → String} {config : RiskConfig} {s t : State} {call : Call}
  {identity : OperatorIdentity} {mutation : Bool} {key : String} {value : StoredOperator}
  {q : OperatorQuestion} {a : OperatorAnswer q} {n : ℕ} {shared shared' : Shared}
  {outside : Outside} {rest : OperatorAnswer q → Program OperatorReply}

/-! ## After a logout -/

/-- The hash of a token that is drawn is the hash of none that was drawn before. -/
def FreshTokens (sha256 : String → String) (s : State) : Action → Prop
  | .next n outside => ∀ call next, s.calls[n]? = some call → call.rest = .ask .randomToken next →
      ∀ other ∈ s.calls, ∀ token,
        (⟨.randomToken, token⟩ : Sigma OperatorAnswer) ∈ other.past →
          sha256 outside.token ≠ sha256 token
  | _ => True

/-- Tokens that different requests drew have different hashes. -/
def Apart (sha256 : String → String) (s : State) : Prop :=
  ∀ (n m : ℕ) (call other : Call) (token token' : String), s.calls[n]? = some call →
    s.calls[m]? = some other → (⟨.randomToken, token⟩ : Sigma OperatorAnswer) ∈ call.past →
    (⟨.randomToken, token'⟩ : Sigma OperatorAnswer) ∈ other.past → sha256 token = sha256 token' →
    n = m

/-- A session that has been stored and is gone. -/
def Spent (s : State) (key : String) : Prop :=
  s.shared.cells key = none ∧ ∃ value, Issued s.calls key value

/-- What a call of the pool is after one of them took a step. -/
theorem getElem?_after {m : ℕ} {other : Call} {calls : List Call} {new : Call}
    (h : (calls.set n new)[m]? = some other) :
    (m = n ∧ other = new) ∨ (m ≠ n ∧ calls[m]? = some other) := by
  rw [List.getElem?_set] at h
  split_ifs at h with hnm hlt
  · exact .inl ⟨hnm.symm, (Option.some.inj h).symm⟩
  · exact .inr ⟨Ne.symm hnm, h⟩

theorem Apart.step (hs : Apart sha256 s) (hn : s.calls[n]? = some call)
    (hrest : call.rest = .ask q rest) (hfresh : FreshTokens sha256 s (.next n outside))
    (ha : s.shared.answer q outside = some (shared', a)) :
    Apart sha256 ⟨shared', s.calls.set n (after call ⟨q, a⟩ (rest a))⟩ := by
  -- a token of call `n` was drawn before, or is new to all calls
  have hnew : ∀ {m other token token'}, m ≠ n → s.calls[m]? = some other →
      (⟨.randomToken, token⟩ : Sigma OperatorAnswer) ∈ (after call ⟨q, a⟩ (rest a)).past →
      (⟨.randomToken, token'⟩ : Sigma OperatorAnswer) ∈ other.past →
      sha256 token ≠ sha256 token' := by
    intro m other token token' hmn hm htoken htoken' heq
    rcases List.mem_append.mp htoken with htoken | htoken
    · exact hmn (hs n m call other token token' hn hm htoken htoken' heq).symm
    · cases List.mem_singleton.mp htoken
      cases ha
      exact hfresh call rest hn hrest other (Pool.mem_of_getElem? hm) token' htoken' heq
  intro k m one other token token' hk hm htoken htoken' heq
  rcases getElem?_after hk with ⟨hkn, rfl⟩ | ⟨hkn, hkold⟩ <;>
    rcases getElem?_after hm with ⟨hmn, rfl⟩ | ⟨hmn, hmold⟩
  · exact hkn.trans hmn.symm
  · exact absurd heq (hnew hmn hmold htoken htoken')
  · exact absurd heq.symm (hnew hkn hkold htoken' htoken)
  · exact hs k m one other token token' hkold hmold htoken htoken' heq

theorem apart_of_reachable
    (h : (requests sha256 config).machine.Reachable (FreshTokens sha256) s) : Apart sha256 s := by
  refine Machine.invariant (I := Apart sha256) ?_ ?_ h
  · rintro s ⟨-, hcalls⟩ n m call other token token' hn
    simp [hcalls] at hn
  · intro s action t hs hfresh hstep
    cases action with
    | start request =>
      cases Pool.step_start hstep
      intro n m call other token token' hn hm htoken htoken' heq
      have hold : ∀ {n : ℕ} {call : Call} {token : String},
          (s.calls ++ [(requests sha256 config).start s.shared request])[n]? = some call →
          (⟨.randomToken, token⟩ : Sigma OperatorAnswer) ∈ call.past →
          s.calls[n]? = some call := by
        intro n call token hn htoken
        rw [List.getElem?_append] at hn
        split_ifs at hn with hlt
        · exact hn
        · obtain rfl := List.mem_singleton.mp (Pool.mem_of_getElem? hn)
          cases htoken
      exact hs n m call other token token' (hold hn htoken) (hold hm htoken') htoken htoken' heq
    | next n outside =>
      obtain ⟨call, s', call', hn, hnext, rfl⟩ := Pool.step_next hstep
      obtain ⟨q, rest, a, hrest, ha, rfl⟩ := Task.next_some hnext
      exact hs.step hn hrest hfresh ha
    | env elapsed =>
      obtain ⟨s', -, rfl⟩ := Pool.step_env hstep
      exact hs

/-- What has been stored is not stored again. -/
theorem not_asks_set_of_issued {ttlSeconds : ℕ} {value' : StoredOperator}
    (hreach : (requests sha256 config).machine.Reachable (FreshTokens sha256) s)
    (hissued : Issued s.calls key value') (hn : s.calls[n]? = some call) :
    asking call ≠ some (.set key value ttlSeconds) := by
  intro hasking
  have hstarted := tasks_started hreach call (Pool.mem_of_getElem? hn)
  obtain ⟨_, session, csrf, now, -, -, hpast, rfl, -⟩ :=
    wp_serve.asked (asks_of_asking hstarted hasking)
  obtain ⟨opener, hopener, session', csrf', createdAt, ⟨_, reply, rest, -, -, hopened⟩, hkey, -⟩ :=
    opened_of_issued hreach hissued
  obtain ⟨m, hm⟩ := List.mem_iff_getElem?.mp hopener
  obtain rfl := apart_of_reachable hreach n m call opener session session' hn hm
    (by simp [hpast, draws]) (by simp [hopened, draws]) hkey
  cases hn.symm.trans hm
  rw [hpast] at hopened
  simpa [draws] using congrArg List.length hopened

variable {action : Action}

theorem Spent.step (hreach : (requests sha256 config).machine.Reachable (FreshTokens sha256) s)
    (hstep : (requests sha256 config).machine.step s action = some t) (hs : Spent s key) :
    Spent t key := by
  obtain ⟨hcell, value, hissued⟩ := hs
  cases action with
  | start request =>
    cases Pool.step_start hstep
    obtain ⟨call, hcall, hset⟩ := hissued
    exact ⟨hcell, value, call, List.mem_append_left _ hcall, hset⟩
  | next n outside =>
    obtain ⟨call, s', call', hn, hnext, rfl⟩ := Pool.step_next hstep
    obtain ⟨q, rest, a, hrest, ha, rfl⟩ := Task.next_some hnext
    refine ⟨?_, value, hissued.step hn⟩
    by_contra hsome
    obtain ⟨e, he⟩ := Option.ne_none_iff_exists'.mp hsome
    rcases answer_cells ha he with he | ⟨ttlSeconds, rfl⟩
    · simp [hcell] at he
    · have hasking : asking call = some (.set key e.value ttlSeconds) := by
        simp only [asking, hrest]
      exact not_asks_set_of_issued hreach hissued hn hasking
  | env elapsed =>
    obtain ⟨s', hs', rfl⟩ := Pool.step_env hstep
    cases hs'
    exact ⟨hcell, value, hissued⟩

theorem answer_del (h : shared.answer (.del key) outside = some (shared', some ())) :
    shared'.cells key = none := by
  simp only [Shared.answer, Option.some.injEq, Prod.mk.injEq] at h
  obtain ⟨rfl, hreply⟩ := h
  have hlink : outside.link.takesEffect = true := by
    cases hlink : outside.link with
    | up | lost => rfl
    | down => rw [hlink] at hreply; cases hreply
  rw [Shared.write_cells, if_pos ⟨hlink, rfl⟩]
  rfl

theorem Validated.mem_past {before after : History OperatorAnswer}
    (hvalid : Validated sha256 call.input before mutation identity)
    (hpast : call.past = before ++ after) : ∃ value,
      (⟨.get (sha256 call.input.token), some (some value)⟩ : Sigma OperatorAnswer) ∈ call.past := by
  obtain ⟨value, now, rfl, -⟩ := hvalid
  exact ⟨value, by simp [hpast]⟩

/-- Once a `DEL` has been answered, the session is gone for good. -/
theorem spent_of_deleted
    (h : (requests sha256 config).machine.Reachable (FreshTokens sha256) s) :
    ∀ call ∈ s.calls, ∀ key, (⟨.del key, some ()⟩ : Sigma OperatorAnswer) ∈ call.past →
      Spent s key := by
  refine Machine.invariant_of_reachable (I := fun s => ∀ call ∈ s.calls, ∀ key,
    (⟨.del key, some ()⟩ : Sigma OperatorAnswer) ∈ call.past → Spent s key) ?_ ?_ h
  · rintro s ⟨-, hcalls⟩
    simp [hcalls]
  · intro s action t hreach hs hfresh hstep call hcall key hdel
    have hspent : ∀ earlier ∈ s.calls,
        (⟨.del key, some ()⟩ : Sigma OperatorAnswer) ∈ earlier.past → Spent t key :=
      fun earlier hearlier hdel => (hs earlier hearlier key hdel).step hreach hstep
    cases action with
    | start request =>
      cases Pool.step_start hstep
      rcases List.mem_append.mp hcall with hcall | hcall
      · exact hspent call hcall hdel
      · cases List.mem_singleton.mp hcall
        cases hdel
    | next n outside =>
      obtain ⟨earlier, s', call', hn, hnext, rfl⟩ := Pool.step_next hstep
      obtain ⟨q, rest, a, hrest, ha, rfl⟩ := Task.next_some hnext
      obtain ⟨m, hm⟩ := List.mem_iff_getElem?.mp hcall
      rcases getElem?_after hm with ⟨rfl, rfl⟩ | ⟨hmn, hmold⟩
      · rcases List.mem_append.mp hdel with hdel | hdel
        · exact hspent earlier (Pool.mem_of_getElem? hn) hdel
        · cases List.mem_singleton.mp hdel
          have hearlier := Pool.mem_of_getElem? hn
          have hasking : asking earlier = some (.del key) := by simp only [asking, hrest]
          obtain ⟨rfl, identity, hvalid⟩ :=
            wp_serve.asked (asks_of_asking (tasks_started hreach earlier hearlier) hasking)
          obtain ⟨value, hfound⟩ := hvalid.mem_past (List.append_nil _).symm
          exact ⟨answer_del ha, value,
            ((sound_of_reachable hreach).found earlier hearlier _ value hfound).step hn⟩
      · exact hspent call (Pool.mem_of_getElem? hmold) hdel
    | env elapsed =>
      obtain ⟨s', -, rfl⟩ := Pool.step_env hstep
      exact hspent call hcall hdel

/-- The request has been refused, has failed or is still under way, and nothing is done for it. -/
def Unserved (call : Call) : Prop :=
  (∀ operatorId work, ¬ Works call operatorId work) ∧ ∀ reply, call.rest ≠ .done (.ok reply)

/-- A request that has not found its session is unserved. -/
theorem unserved_of_not_found (hstarted : call.Started (serve sha256 config))
    (hroute : ∀ accessToken, call.input.route ≠ .bootstrap accessToken)
    (hnone : ∀ value, (⟨.get (sha256 call.input.token), some (some value)⟩ :
      Sigma OperatorAnswer) ∉ call.past) : Unserved call := by
  refine ⟨fun operatorId work hworks => ?_, fun reply hreply => ?_⟩
  · obtain ⟨-, identity, before, rest, -, hpast, hvalid⟩ := validated_of_works hstarted hworks
    obtain ⟨value, hfound⟩ := hvalid.mem_past hpast
    exact hnone value hfound
  · unfold Task.Started at hstarted
    rw [hreply] at hstarted
    have hanswered := wp_serve.returned hstarted
    obtain ⟨before, rest, mutation, identity, hpast, hvalid⟩ : ∃ before rest mutation identity,
        call.past = before ++ rest ∧ Validated sha256 call.input before mutation identity := by
      cases reply with
      | session session csrf identity =>
        obtain ⟨accessToken, -, -, hbootstrap, -⟩ := hanswered
        exact absurd hbootstrap (hroute _)
      | identity identity => exact ⟨_, [], _, _, (List.append_nil _).symm, hanswered⟩
      | revoked =>
        obtain ⟨identity, before, hvalid, hpast⟩ := hanswered
        exact ⟨before, _, _, _, hpast, hvalid⟩
      | worked =>
        obtain ⟨identity, before, _, _, hvalid, hpast⟩ := hanswered
        exact ⟨before, _, _, _, hpast, hvalid⟩
    obtain ⟨value, hfound⟩ := hvalid.mem_past hpast
    exact hnone value hfound

/-- The session is gone, and no late request has found it. -/
def Shut (late : ℕ → Prop) (key : String) (s : State) : Prop :=
  Spent s key ∧ ∀ (n : ℕ) (call : Call), s.calls[n]? = some call → late n → ∀ value,
    (⟨.get key, some (some value)⟩ : Sigma OperatorAnswer) ∉ call.past

theorem Shut.step {late : ℕ → Prop} (hs : Shut late key s)
    (hreach : (requests sha256 config).machine.Reachable (FreshTokens sha256) s)
    (hstep : (requests sha256 config).machine.step s action = some t) : Shut late key t := by
  obtain ⟨hspent, hnone⟩ := hs
  refine ⟨hspent.step hreach hstep, fun m call hm hlate value hfound => ?_⟩
  cases action with
  | start request =>
    cases Pool.step_start hstep
    rw [List.getElem?_append] at hm
    split_ifs at hm with hlt
    · exact hnone m call hm hlate value hfound
    · obtain rfl := List.mem_singleton.mp (Pool.mem_of_getElem? hm)
      cases hfound
  | next n outside =>
    obtain ⟨earlier, s', call', hn, hnext, rfl⟩ := Pool.step_next hstep
    obtain ⟨q, rest, a, hrest, ha, rfl⟩ := Task.next_some hnext
    rcases getElem?_after hm with ⟨rfl, rfl⟩ | ⟨hmn, hmold⟩
    · rcases List.mem_append.mp hfound with hfound | hfound
      · exact hnone m earlier hn hlate value hfound
      · cases List.mem_singleton.mp hfound
        obtain ⟨e, he, -⟩ := answer_get ha
        simp [hspent.1] at he
    · exact hnone m call hmold hlate value hfound
  | env elapsed =>
    obtain ⟨s', -, rfl⟩ := Pool.step_env hstep
    exact hnone m call hm hlate value hfound

/-- Once a logout has returned, no request under its session that had not begun is served, however
    the requests go on, as long as no drawn token has the hash of another. -/
theorem logout_final (sha256 : String → String) (config : RiskConfig) (s t : State)
    (hs : (requests sha256 config).machine.Reachable (FreshTokens sha256) s)
    (hpath : (requests sha256 config).machine.Path (FreshTokens sha256) s t)
    (logout : Call) (hlogout : logout ∈ s.calls) (hrevoked : logout.rest = .done (.ok .revoked))
    (n : ℕ) (call : Call) (hn : t.calls[n]? = some call)
    (hlate : ∀ earlier, s.calls[n]? = some earlier → earlier.past = [])
    (htoken : sha256 call.input.token = sha256 logout.input.token)
    (hroute : ∀ accessToken, call.input.route ≠ .bootstrap accessToken) : Unserved call := by
  have hstarted := tasks_started hs logout hlogout
  unfold Task.Started at hstarted
  rw [hrevoked] at hstarted
  obtain ⟨identity, before, -, hpast⟩ := wp_serve.returned hstarted
  have hspent : Spent s (sha256 logout.input.token) :=
    spent_of_deleted hs logout hlogout _ (by simp [hpast])
  have hshut : Shut (fun n => ∀ earlier, s.calls[n]? = some earlier → earlier.past = [])
      (sha256 logout.input.token) s :=
    ⟨hspent, fun n call hn hlate value => by simp [hlate call hn]⟩
  obtain ⟨-, hnone⟩ := hpath.stable hs
    (fun u action v hreach _ hstep hshut => hshut.step hreach hstep) hshut
  refine unserved_of_not_found (tasks_started (hs.path hpath) call (Pool.mem_of_getElem? hn)) hroute
    fun value => ?_
  rw [htoken]
  exact hnone n call hn hlate value

end

/-! ### A run -/

/-- `FreshTokens`, decided. -/
def freshTokens (sha256 : String → String) (s : State) : Action → Bool
  | .next n outside =>
    match (s.calls[n]?).bind asking with
    | some .randomToken => s.calls.all fun other => other.past.all fun
      | ⟨.randomToken, token⟩ => sha256 outside.token != sha256 token
      | _ => true
    | _ => true
  | _ => true

theorem freshTokens_sound (sha256 : String → String) (s : State) (action : Action)
    (h : freshTokens sha256 s action = true) : FreshTokens sha256 s action := by
  cases action with
  | start | env => trivial
  | next n outside =>
    intro call next hn hrest other hother token htoken
    have hasking : asking call = some .randomToken := by simp only [asking, hrest]
    simp only [freshTokens, hn, Option.bind_some, hasking, List.all_eq_true] at h
    simpa using h other hother _ htoken

/-- The operator logs out. -/
def closeSession : List Action :=
  [underSession .logout, steps 1 "", steps 1 "", steps 1 ""]

def OperatorRoute.isRead : OperatorRoute → Bool
  | .read _ => true
  | _ => false

/-- Another request under the session. -/
def lateRead : List Action := [underSession (.read "overview"), steps 2 ""]

/-- The request has ended with this reply. -/
def repliedWith (reply : OperatorReply) (call : Call) : Bool :=
  match call.rest with
  | .done (.ok other) => other == reply
  | _ => false

theorem repliedWith_iff {reply : OperatorReply} {call : Call} :
    repliedWith reply call = true ↔ call.rest = .done (.ok reply) := by
  unfold repliedWith
  split
  next other hrest =>
    simp [hrest]
  next hrest =>
    simpa using hrest reply

/-- A read that follows a logout. -/
theorem logout_final_read : ∃ s t : State,
    (requests id development).machine.Reachable (FreshTokens id) s ∧
      (requests id development).machine.Path (FreshTokens id) s t ∧
      s.calls.length = 2 ∧ ∃ call, t.calls[2]? = some call ∧ call.past ≠ [] ∧ Unserved call := by
  have hsound := freshTokens_sound id
  obtain ⟨s, hs, hlater⟩ := Machine.reachable_of_runUnder (openSession ++ closeSession)
    (freshTokens id)
    (fun s => s.calls.length == 2 &&
      (s.calls[1]?).any (fun call => repliedWith .revoked call &&
        call.input.token == "session-token") &&
      ((requests id development).machine.runUnder (freshTokens id) s lateRead).any fun t =>
        (t.calls[2]?).any fun call => call.past.length == 1 &&
          call.input.token == "session-token" && call.input.route.isRead)
    hsound (opening_init id) (by decide +kernel)
  simp only [Bool.and_eq_true, beq_iff_eq] at hlater
  obtain ⟨⟨hlength, hlogout⟩, hread⟩ := hlater
  obtain ⟨logout, hone, hrevoked⟩ := (Option.any_eq_true _ _).mp hlogout
  obtain ⟨t, ht, hcall⟩ := (Option.any_eq_true _ _).mp hread
  obtain ⟨call, htwo, hpresents⟩ := (Option.any_eq_true _ _).mp hcall
  simp only [Bool.and_eq_true, beq_iff_eq, repliedWith_iff] at hrevoked hpresents
  obtain ⟨⟨hpast, htoken⟩, hroute⟩ := hpresents
  have hpath := Machine.path_of_runUnder hsound lateRead s ht
  refine ⟨s, t, hs, hpath, hlength, call, htwo, ?_, ?_⟩
  · rintro hnil
    simp [hnil] at hpast
  · refine logout_final id development s t hs hpath logout (Pool.mem_of_getElem? hone) hrevoked.1 2
      call htwo ?_ (congrArg id (htoken.trans hrevoked.2.symm)) ?_
    · intro earlier hearlier
      have hlt := (List.getElem?_eq_some_iff.mp hearlier).1
      omega
    · intro accessToken hbootstrap
      rw [hbootstrap] at hroute
      cases hroute

end AegisShield.Risk.OperatorSessions
