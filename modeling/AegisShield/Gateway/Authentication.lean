import AegisShield.Gateway.Controllers

/-!
# Signing in and out

`AuthController` (`auth.controller.ts`) with `IdentityClient` (`identity.client.ts`) and the session
cookies (`cookies.ts`, lines 27-64). Setting cookies is a step of its own, since a handler may throw
after it. A success of Identity comes with a session where `InternalSessionResponse` promises one.

Results:
* `identity_authorised`: what goes out to Identity under a session is the session of the cookie, to
  change anything with the CSRF token double-submitted; a session cookie holds what Identity has
  just issued.
* `logout_clears`: a logout always ends with the cookies cleared, and says that the session is
  revoked only when Identity has revoked it or did not know it.
-/

namespace AegisShield.Gateway.Authentication

open Common Interaction Sabcl Payments

/-! ## Contracts (`contracts/auth/v1.ts`) -/

/-- What a schema makes of a member or of its absence. -/
abbrev FieldSchema := Option Json → Option (Option Json)

/-- One field of an object. -/
def parseField (members : List (String × Json)) (field : String × FieldSchema) :
    Option (Option (String × Json)) :=
  (field.2 (Json.member members field.1)).map fun value => value.map fun v => (field.1, v)

/-- `z.object(fields)`, which drops other members. -/
def parseObject (fields : List (String × FieldSchema)) : Json → Option Json
  | .object members =>
    (fields.mapM (parseField members)).map fun parsed => .object (parsed.filterMap id)
  | _ => none

/-- A member that must be there. -/
def required (schema : Json → Option Json) : FieldSchema :=
  fun value => (value.bind schema).map some

/-- A member with `.optional()`. -/
def absentOr (schema : Json → Option Json) : FieldSchema
  | none => some none
  | some value => (schema value).map some

/-- A schema that is a check. -/
def check (p : Json → Bool) (value : Json) : Option Json := if p value then some value else none

/-- `z.string().trim()` with a check. -/
def trimmed (p : String → Bool) : Json → Option Json
  | .string s => if p (trim s) then some (.string (trim s)) else none
  | _ => none

/-- `.min(min).max(max)` of a text. -/
def ofSize (min max : ℕ) (s : String) : Bool := decide (min ≤ utf16Length s ∧ utf16Length s ≤ max)

section Schemas

variable (zod : Zod)

/-- `e164PhoneSchema` (lines 8-11). -/
def e164PhoneSchema : Json → Option Json :=
  trimmed fun s => match s.toList with
    | '+' :: first :: digits => decide (first ≠ '0') && first.isDigit && digits.all Char.isDigit &&
        decide (7 ≤ digits.length ∧ digits.length ≤ 14)
    | _ => false

/-- `deviceIdSchema` (line 17). -/
def deviceIdSchema : FieldSchema := absentOr (trimmed (ofSize 1 128))

/-- `sixDigitOtpSchema` and `sixDigitPinSchema` (lines 18-19). -/
def sixDigits : Json → Bool := text pinFormat.accepts

/-- `weakPinValues` (lines 21-33). -/
def weakPinValues : List String :=
  ["000000", "111111", "123456", "234567", "345678", "456789", "987654", "876543", "765432",
    "654321", "543210"]

/-- `/^(\d)\1{5}$/u`. -/
def repeatedDigit : List Char → Bool
  | digit :: rest => digit.isDigit && decide (rest = List.replicate 5 digit)
  | [] => false

/-- `isWeakPrototypePin` (lines 35-37). -/
def isWeakPrototypePin (pin : String) : Bool :=
  repeatedDigit pin.toList || decide (pin ∈ weakPinValues)

/-- `securePrototypePinSchema` (lines 39-42). -/
def securePrototypePinSchema : Json → Bool :=
  text fun pin => pinFormat.accepts pin && !isWeakPrototypePin pin

/-- `requestOtpSchema` (lines 44-49). -/
def requestOtpSchema : Json → Option Json :=
  parseObject [("phone", required e164PhoneSchema),
    ("preferredLanguage", required (check (oneOf ["EN", "SI", "TA"]))),
    ("consentAccepted", required (check literalTrue)), ("deviceId", deviceIdSchema)]

/-- `verifyOtpSchema` (lines 59-63). -/
def verifyOtpSchema : Json → Option Json :=
  parseObject [("phone", required e164PhoneSchema), ("challengeId", required (check (uuid zod))),
    ("otp", required (check sixDigits))]

/-- `createPinSchema` (lines 66-76). -/
def createPinSchema (raw : Json) : Option Json := do
  let value ← parseObject [("enrollmentToken", required (check (sized 32 512))),
    ("pin", required (check securePrototypePinSchema)),
    ("pinConfirmation", required (check sixDigits)), ("deviceId", deviceIdSchema)] raw
  match value with
  | .object members =>
    if Json.stringMember members "pin" = Json.stringMember members "pinConfirmation" then some value
    else none
  | _ => none

/-- `pinFallbackRequestSchema` (lines 79-83). -/
def pinFallbackRequestSchema : Json → Option Json :=
  parseObject [("phone", required e164PhoneSchema), ("pin", required (check sixDigits)),
    ("deviceId", deviceIdSchema)]

/-- `pinFallbackLoginSchema` (lines 86-92). -/
def pinFallbackLoginSchema : Json → Option Json :=
  parseObject [("phone", required e164PhoneSchema), ("pin", required (check sixDigits)),
    ("challengeId", required (check (uuid zod))), ("otp", required (check sixDigits)),
    ("deviceId", deviceIdSchema)]

/-- `logoutSchema` (line 95). -/
def logoutSchema : Json → Bool := strict []

/-- `z.object({}).passthrough()` and `z.record(z.string(), z.unknown())`. -/
def anyObject : Json → Bool
  | .object _ => true
  | _ => false

/-- `z.number().int()`. -/
def integer : Json → Bool
  | .number q => decide (q.den = 1 ∧ q.num.natAbs ≤ Json.maxSafeInteger)
  | _ => false

/-- The members that the two schemas of credentials share. -/
def credentialSchema (response : Json → Option Json) : Json → Option Json :=
  parseObject [("id", required (check (sized 1 2048))), ("rawId", absentOr (check (sized 1 4096))),
    ("type", required (check (oneOf ["public-key"]))),
    ("authenticatorAttachment", absentOr (check (sized 0 64))),
    ("clientExtensionResults", absentOr (check anyObject)), ("response", required response)]

/-- `registrationCredentialSchema` (lines 133-147). -/
def registrationCredentialSchema : Json → Option Json :=
  credentialSchema (parseObject [("clientDataJSON", required (check (sized 1 16384))),
    ("attestationObject", required (check (sized 1 65536))),
    ("transports", absentOr (check (arrayOf 16 (sized 0 64)))),
    ("authenticatorData", absentOr (check (sized 0 16384))),
    ("publicKey", absentOr (check (sized 0 65536))),
    ("publicKeyAlgorithm", absentOr (check integer))])

/-- `authenticationCredentialSchema` (lines 149-161). -/
def authenticationCredentialSchema : Json → Option Json :=
  credentialSchema (parseObject [("clientDataJSON", required (check (sized 1 16384))),
    ("authenticatorData", required (check (sized 1 16384))),
    ("signature", required (check (sized 1 16384))),
    ("userHandle", absentOr (check (sized 0 4096)))])

/-- `passkeyRegistrationVerificationSchema` (lines 175-179). -/
def passkeyRegistrationVerificationSchema : Json → Option Json :=
  parseObject [("challenge", required (check (sized 16 4096))),
    ("credential", required registrationCredentialSchema),
    ("nickname", absentOr (trimmed (ofSize 1 64)))]

/-- `passkeyAuthenticationVerificationSchema` (lines 196-200). -/
def passkeyAuthenticationVerificationSchema : Json → Option Json :=
  parseObject [("challenge", required (check (sized 16 4096))),
    ("credential", required authenticationCredentialSchema), ("deviceId", deviceIdSchema)]

end Schemas

/-! ## Questions -/

/-- `IDENTITY_ENDPOINTS` (`identity.client.ts`, lines 7-21), as far as the controller uses them. -/
inductive IdentityEndpoint where
  | onboardingRequestOtp
  | onboardingVerifyOtp
  | onboardingCreatePin
  | fallbackRequestOtp
  | fallbackLogin
  | session
  | logout
  | passkeyRegistrationOptions
  | passkeyRegistrationVerify
  | passkeyAuthenticationOptions
  | passkeyAuthenticationVerify
  deriving DecidableEq

namespace IdentityEndpoint

/-- Identity changes something under a session, and asks for its CSRF token. -/
def changes : IdentityEndpoint → Bool
  | logout | passkeyRegistrationOptions | passkeyRegistrationVerify => true
  | _ => false

/-- Identity answers with a new session. -/
def authenticates : IdentityEndpoint → Bool
  | onboardingCreatePin | fallbackLogin | passkeyAuthenticationVerify => true
  | _ => false

end IdentityEndpoint

/-- The headers `x-aegis-session-id` and `x-csrf-token`. -/
structure SessionAuth where
  sessionId : String
  csrfToken : Option String

/-- `InternalSessionResponse` (`cookies.ts`, lines 4-9). -/
structure InternalSessionResponse where
  sessionId : String
  csrfToken : String
  maxAgeSeconds : ℚ
  session : Json

/-- The answer to a request for a session: none in time, an error, or a session, whose body is a
    well-formed session response. -/
inductive SessionAnswer where
  | failed
  | refused (status : ℕ) (body : Json)
  | created (session : InternalSessionResponse)

/-- The questions of the handlers. -/
inductive AuthQuestion where
  /-- A call of `IdentityClient.request` (`identity.client.ts`, lines 38-89). It fails without a
      request when no header can hold the cookie, which the answer `failed` stands for as well. -/
  | identity (endpoint : IdentityEndpoint) (auth : Option SessionAuth) (body : Option Json)
  | authenticate (endpoint : IdentityEndpoint) (body : Json)
  /-- `response.setHeader('set-cookie', cookies)`. -/
  | setCookies (cookies : List String)

@[reducible] def AuthAnswer : AuthQuestion → Type
  | .identity _ _ _ => HttpAnswer
  | .authenticate _ _ => SessionAnswer
  | .setCookies _ => Unit

abbrev Program (α : Type) := Interaction AuthAnswer HandlerError α

/-- `GatewayConfig`, with `nodeEnvironment === 'production'`. -/
structure AuthConfig extends GatewayConfig where
  production : Bool

/-! ## `IdentityClient` and the cookies -/

/-- The error of an answer with another status than a success. -/
def refusal (status : ℕ) (body : Json) : HandlerError := .http status (orElseBody (.object []) body)

/-- What `request` makes of an answer (`identity.client.ts`, lines 74-86). -/
def acceptIdentity : HttpAnswer → Except HandlerError Json
  | .failed => .error (.http 503 (.object []))
  | .answered status body => if isOk status then .ok body else .error (refusal status body)

/-- `acceptIdentity` for a session. -/
def acceptSession : SessionAnswer → Except HandlerError InternalSessionResponse
  | .failed => .error (.http 503 (.object []))
  | .refused status body => .error (refusal status body)
  | .created session => .ok session

section Handlers

variable (zod : Zod) (config : AuthConfig) (request : RequestContext)

/-- The cookies of `setSessionCookies` and `clearSessionCookies`. -/
def sessionCookies (sessionId csrfToken : String) (maxAgeSeconds : ℚ) : List String :=
  [serializeCookie config.sessionCookieName sessionId
      { httpOnly := true, secure := config.production, maxAgeSeconds },
    serializeCookie config.csrfCookieName csrfToken
      { httpOnly := false, secure := config.production, maxAgeSeconds }]

/-- `setSessionCookies` (`cookies.ts`, lines 27-45). -/
def setSessionCookies (session : InternalSessionResponse) : List String :=
  sessionCookies config session.sessionId session.csrfToken session.maxAgeSeconds

/-- `clearSessionCookies` (`cookies.ts`, lines 47-64). -/
def clearSessionCookies : List String := sessionCookies config "" "" 0

/-! ## `AuthController` -/

/-- `parse` (lines 39-48). -/
def parse (parsed : Option Json) : Except HandlerError Json :=
  match parsed with
  | some value => .ok value
  | none => .error invalidRequest

/-- `sessionId` (lines 59-61). -/
def sessionCookie : Except HandlerError String :=
  match readCookie request.cookie config.sessionCookieName with
  | some value => .ok value
  | none => .error .other

/-- `csrf` (lines 63-69). -/
def csrf : Except HandlerError String := requireCsrfToken request config.csrfCookieName

/-- `IdentityClient.request` for anything but a session. -/
def identityRequest (endpoint : IdentityEndpoint) (auth : Option SessionAuth)
    (body : Option Json) : Program Json := do
  let answer ← query (AuthQuestion.identity endpoint auth body)
  lift (acceptIdentity answer)

/-- `authenticate` (lines 71-88). -/
def authenticate (endpoint : IdentityEndpoint) (parsed : Option Json) : Program Reply := do
  let body ← lift (parse parsed)
  let answer ← query (AuthQuestion.authenticate endpoint body)
  let created ← lift (acceptSession answer)
  let () ← query (AuthQuestion.setCookies (setSessionCookies config created))
  return { status := 201, body := created.session, noStore := false }

/-- The handlers without a session, which pass on what Identity answers. -/
def forward (endpoint : IdentityEndpoint) (status : ℕ) (parsed : Option Json) :
    Program Reply := do
  let body ← lift (parse parsed)
  let result ← identityRequest endpoint none (some body)
  return { status, body := result, noStore := false }

/-- `session` (lines 150-159). -/
def session : Program Reply := do
  let sessionId ← lift (sessionCookie config request)
  let result ← identityRequest .session (some { sessionId, csrfToken := none }) none
  return { status := 200, body := result, noStore := false }

/-- `registrationOptions` (lines 194-210) and `verifyRegistration` (lines 212-228). -/
def register (endpoint : IdentityEndpoint) (parsed : Option Json) : Program Reply := do
  let body ← lift (parse parsed)
  let sessionId ← lift (sessionCookie config request)
  let csrfToken ← lift (csrf config request)
  let auth : SessionAuth := { sessionId, csrfToken := some csrfToken }
  let result ← identityRequest endpoint (some auth) (some body)
  return { status := 201, body := result, noStore := false }

/-- `{ revoked: true }`. -/
def revokedReply : Reply where
  status := 200
  body := .object [("revoked", .bool true)]
  noStore := false

/-- The `try` block of `logout` (lines 175-183). -/
def revoke (sessionId : String) : Program Json := do
  let csrfToken ← lift (csrf config request)
  identityRequest .logout (some { sessionId, csrfToken := some csrfToken }) (some (.object []))

/-- What the `catch` block of `logout` makes of the end of the `try` block (lines 184-187): an
    `HttpException` with the status 401 is as good as a success. -/
def catchUnauthenticated : Except HandlerError Json → Except HandlerError Reply
  | .ok _ => .ok revokedReply
  | .error (.http status body) =>
    if status = 401 then .ok revokedReply else .error (.http status body)
  | .error .other => .error .other

/-- `logout` (lines 161-192). -/
def logout : Program Reply := do
  let _ ← lift (parse (check logoutSchema request.body))
  let sessionId ← lift (sessionCookie config request)
  if sessionId = "" then
    let () ← query (AuthQuestion.setCookies (clearSessionCookies config))
    return revokedReply
  else
    let ended ← (revoke config request sessionId).attempt
    -- the `finally` block
    let () ← query (AuthQuestion.setCookies (clearSessionCookies config))
    lift (catchUnauthenticated ended)

/-- The routes of `AuthController`. -/
inductive AuthRoute where
  | requestOnboardingOtp
  | verifyOnboardingOtp
  | createPin
  | requestFallbackOtp
  | fallbackLogin
  | session
  | logout
  | registrationOptions
  | verifyRegistration
  | authenticationOptions
  | verifyAuthentication
  deriving DecidableEq

/-- The handler of a route. -/
def serve : AuthRoute → Program Reply
  | .requestOnboardingOtp => forward .onboardingRequestOtp 202 (requestOtpSchema request.body)
  | .verifyOnboardingOtp => forward .onboardingVerifyOtp 201 (verifyOtpSchema zod request.body)
  | .createPin => authenticate config .onboardingCreatePin (createPinSchema request.body)
  | .requestFallbackOtp => forward .fallbackRequestOtp 202 (pinFallbackRequestSchema request.body)
  | .fallbackLogin => authenticate config .fallbackLogin (pinFallbackLoginSchema zod request.body)
  | .session => session config request
  | .logout => logout config request
  | .registrationOptions =>
    register config request .passkeyRegistrationOptions (check anyObject request.body)
  | .verifyRegistration => register config request .passkeyRegistrationVerify
      (passkeyRegistrationVerificationSchema request.body)
  | .authenticationOptions =>
    forward .passkeyAuthenticationOptions 201 (check anyObject request.body)
  | .verifyAuthentication => authenticate config .passkeyAuthenticationVerify
      (passkeyAuthenticationVerificationSchema request.body)

end Handlers

/-! ## What the handlers may do -/

section Licence

variable (config : AuthConfig) (request : RequestContext)

/-- The credentials are those of the request, and include the CSRF token for a change. -/
structure Presents (changes : Bool) (auth : SessionAuth) : Prop where
  session : readCookie request.cookie config.sessionCookieName = some auth.sessionId
  csrf : changes = true → ∃ token, auth.csrfToken = some token ∧
    DoubleSubmitted request config.csrfCookieName token

/-- The endpoints that are asked under a session. -/
def IdentityEndpoint.underSession (endpoint : IdentityEndpoint) : Bool :=
  endpoint = .session || endpoint.changes

/-- What may be done after a history: Identity is asked first and once, under a session with the
    request's credentials; the cookies are set to what it has just issued, or cleared by a
    logout. -/
def Licensed (route : AuthRoute) (h : History AuthAnswer) : AuthQuestion → Prop
  | .identity endpoint auth _ => h = [] ∧ endpoint.authenticates = false ∧
      (endpoint.underSession = true ↔ auth.isSome = true) ∧
      ∀ session, auth = some session → Presents config request endpoint.changes session
  | .authenticate endpoint _ => h = [] ∧ endpoint.authenticates = true
  | .setCookies cookies => (∃ endpoint body created,
      h = [⟨.authenticate endpoint body, SessionAnswer.created created⟩] ∧
        cookies = setSessionCookies config created) ∨
      route = .logout ∧ cookies = clearSessionCookies config

end Licence

section
variable {zod : Zod} {config : AuthConfig} {request : RequestContext} {route : AuthRoute}
  {endpoint : IdentityEndpoint} {parsed : Option Json} {t : History AuthAnswer}
  {result : Except HandlerError Reply} {sessionId token : String}

theorem sessionCookie_ok : sessionCookie config request = .ok sessionId ↔
    readCookie request.cookie config.sessionCookieName = some sessionId := by
  unfold sessionCookie
  split
  next value hvalue =>
    simp [hvalue]
  next hvalue =>
    simp [hvalue]

theorem acceptSession_ok {answer : SessionAnswer} {created : InternalSessionResponse}
    (hok : acceptSession answer = .ok created) : answer = .created created := by
  cases answer <;> cases hok
  rfl

theorem wp_forward {status : ℕ} (hsession : endpoint.underSession = false)
    (hauthenticates : endpoint.authenticates = false) :
    Wp (Licensed config request route) (forward endpoint status parsed) (fun _ _ => True) [] := by
  simp only [forward, identityRequest, wp_bind, wp_lift, wp_query, wp_pure]
  exact fun _ _ => ⟨⟨rfl, hauthenticates, by simp [hsession], by rintro auth ⟨⟩⟩,
    fun _ _ _ => trivial⟩

theorem wp_authenticate (hauthenticates : endpoint.authenticates = true) :
    Wp (Licensed config request route) (authenticate config endpoint parsed) (fun _ _ => True)
      [] := by
  simp only [authenticate, wp_bind, wp_lift, wp_query, wp_pure]
  intro body _
  refine ⟨⟨rfl, hauthenticates⟩, fun answer created hcreated => ⟨?_, fun _ => trivial⟩⟩
  rw [acceptSession_ok hcreated]
  exact .inl ⟨endpoint, body, created, rfl, rfl⟩

theorem wp_register (hchanges : endpoint.changes = true)
    (hauthenticates : endpoint.authenticates = false) :
    Wp (Licensed config request route) (register config request endpoint parsed)
      (fun _ _ => True) [] := by
  simp only [register, identityRequest, wp_bind, wp_lift, wp_query, wp_pure]
  intro _ _ sessionId hsession token htoken
  refine ⟨⟨rfl, hauthenticates, by simp [IdentityEndpoint.underSession, hchanges], ?_⟩,
    fun _ _ _ => trivial⟩
  intro session heq
  cases heq
  exact ⟨sessionCookie_ok.mp hsession, fun _ => ⟨token, rfl, requireCsrfToken_ok.mp htoken⟩⟩

/-- The questions of the `try` block of a logout, and its ends. -/
theorem wp_revoke (hsession : readCookie request.cookie config.sessionCookieName = some sessionId) :
    Wp (Licensed config request route) ((revoke config request sessionId).attempt :
      Program (Except HandlerError Json)) (fun _ _ => True) [] := by
  unfold revoke
  cases hcsrf : csrf config request with
  | error e => trivial
  | ok token =>
    refine ⟨⟨rfl, rfl, by simp [IdentityEndpoint.underSession, IdentityEndpoint.changes], ?_⟩,
      fun _ => trivial⟩
    intro session heq
    cases heq
    exact ⟨hsession, fun _ => ⟨token, rfl, requireCsrfToken_ok.mp hcsrf⟩⟩

theorem wp_logout : Wp (Licensed config request .logout) (logout config request)
    (fun _ _ => True) [] := by
  simp only [logout, wp_bind, wp_lift]
  intro _ _ sessionId hsession
  split_ifs with hempty
  · simp only [wp_bind, wp_query, wp_pure]
    exact ⟨.inr ⟨rfl, rfl⟩, fun _ => trivial⟩
  · rw [wp_bind]
    refine (wp_revoke (sessionCookie_ok.mp hsession)).mono fun ended t _ => ?_
    simp only [wp_bind, wp_query, wp_lift]
    exact ⟨.inr ⟨rfl, rfl⟩, fun _ _ _ => trivial⟩

/-- Every handler does only what is licensed. -/
theorem licensed_serve (route : AuthRoute) :
    Wp (Licensed config request route) (serve zod config request route) (fun _ _ => True) [] := by
  cases route with
  | requestOnboardingOtp | verifyOnboardingOtp | requestFallbackOtp | authenticationOptions =>
    exact wp_forward rfl rfl
  | createPin | fallbackLogin | verifyAuthentication => exact wp_authenticate rfl
  | registrationOptions | verifyRegistration => exact wp_register rfl rfl
  | session =>
    simp only [serve, session, identityRequest, wp_bind, wp_lift, wp_query, wp_pure]
    intro sessionId hsession
    refine ⟨⟨rfl, rfl, by simp [IdentityEndpoint.underSession], ?_⟩, fun _ _ _ => trivial⟩
    intro session heq
    cases heq
    exact ⟨sessionCookie_ok.mp hsession, by rintro ⟨⟩⟩
  | logout => exact wp_logout

/-! ## A logout -/

/-- The ends of the `try` block: the CSRF check throws before Identity is asked, or Identity is
    asked once. -/
theorem ends_revoke {ended : Except HandlerError Json}
    (hends : Ends (revoke config request sessionId) t ended) :
    (∃ e, csrf config request = .error e ∧ t = [] ∧ ended = .error e) ∨
    ∃ token answer, csrf config request = .ok token ∧
      t = [⟨.identity .logout (some { sessionId, csrfToken := some token })
        (some (.object [])), answer⟩] ∧ ended = acceptIdentity answer := by
  unfold revoke at hends
  rcases ends_lift_bind.mp hends with ⟨e, he, ht, hended⟩ | ⟨token, htoken, hends⟩
  · exact .inl ⟨e, he, ht, hended⟩
  · obtain ⟨answer, after, rfl, hafter⟩ := ends_query_bind.mp hends
    obtain ⟨rfl, rfl⟩ := ends_lift.mp hafter
    exact .inr ⟨token, answer, htoken, rfl, rfl⟩

/-- The CSRF check throws nothing that a logout takes for a success. -/
theorem catchUnauthenticated_csrf {e : HandlerError} (herror : csrf config request = .error e) :
    catchUnauthenticated (.error e) = .error e := by
  unfold csrf requireCsrfToken at herror
  cases hcookie : readCookie request.cookie config.csrfCookieName with
  | none =>
    rw [hcookie] at herror
    cases herror
    rfl
  | some cookie =>
    simp only [hcookie] at herror
    split_ifs at herror
    cases herror
    rfl

/-- Identity has revoked the session, or answered that there is none. -/
def Revoked (answer : HttpAnswer) : Prop :=
  ∃ status body, answer = .answered status body ∧ (isOk status = true ∨ status = 401)

theorem catchUnauthenticated_answer (answer : HttpAnswer) :
    (Revoked answer ∧ catchUnauthenticated (acceptIdentity answer) = .ok revokedReply) ∨
    (¬ Revoked answer ∧ ∃ e, catchUnauthenticated (acceptIdentity answer) = .error e) := by
  cases answer with
  | failed =>
    refine .inr ⟨?_, _, rfl⟩
    rintro ⟨status, body, heq, -⟩
    cases heq
  | answered status body =>
    simp only [acceptIdentity]
    split_ifs with hok
    · exact .inl ⟨⟨status, body, rfl, .inl hok⟩, rfl⟩
    · simp only [refusal, catchUnauthenticated]
      split_ifs with hstatus
      · exact .inl ⟨⟨status, body, rfl, .inr hstatus⟩, rfl⟩
      · refine .inr ⟨?_, _, rfl⟩
        rintro ⟨status', body', heq, hrevoked⟩
        cases heq
        exact hrevoked.elim hok hstatus

end

/-! ## Every run -/

/-- Whatever browsers send and Identity answers: a handler asks Identity once, under a session
    only with the session of the request's cookie and to change anything with the double-submitted
    CSRF token; and it sets the session cookies to nothing but what Identity has just issued, or
    clears them in a logout. -/
theorem identity_authorised (zod : Zod) (config : AuthConfig) (request : RequestContext)
    (route : AuthRoute) (t : History AuthAnswer) (q : AuthQuestion)
    (hasks : Asks (serve zod config request route) t q) : Licensed config request route t q :=
  (licensed_serve route).asked hasks

/-- A logout whose request can be read ends with the cookies cleared, whatever Identity answers.
    Identity is asked to revoke the session if and only if there is one and the CSRF token is
    double-submitted, and the reply then says so if and only if Identity has revoked the session
    or does not know it. -/
theorem logout_clears (config : AuthConfig) (request : RequestContext) (sessionId : String)
    (t : History AuthAnswer) (result : Except HandlerError Reply)
    (hbody : logoutSchema request.body = true)
    (hsession : readCookie request.cookie config.sessionCookieName = some sessionId)
    (hends : Ends (logout config request) t result) :
    ∃ before, t = before ++ [⟨.setCookies (clearSessionCookies config), ()⟩] ∧
      ((sessionId = "" ∧ before = [] ∧ result = .ok revokedReply) ∨
      (sessionId ≠ "" ∧ (∀ token, ¬ DoubleSubmitted request config.csrfCookieName token) ∧
        before = [] ∧ ∃ e, result = .error e) ∨
      (sessionId ≠ "" ∧ ∃ token answer, DoubleSubmitted request config.csrfCookieName token ∧
        before = [⟨.identity .logout (some { sessionId, csrfToken := some token })
          (some (.object [])), answer⟩] ∧
        (Revoked answer ∧ result = .ok revokedReply ∨
          ¬ Revoked answer ∧ ∃ e, result = .error e))) := by
  unfold logout at hends
  have hparsed : parse (check logoutSchema request.body) = .ok request.body := by
    simp [parse, check, hbody]
  rw [hparsed, sessionCookie_ok.mpr hsession] at hends
  obtain ⟨_, hbodyOk, hends⟩ :=
    (ends_lift_bind.mp hends).resolve_left (by rintro ⟨_, h, -⟩; cases h)
  obtain ⟨_, hid, hends⟩ :=
    (ends_lift_bind.mp hends).resolve_left (by rintro ⟨_, h, -⟩; cases h)
  cases hbodyOk
  cases hid
  split_ifs at hends with hempty
  · obtain ⟨-, after, rfl, hafter⟩ := ends_query_bind.mp hends
    obtain ⟨rfl, rfl⟩ := ends_pure.mp hafter
    exact ⟨[], rfl, .inl ⟨hempty, rfl, rfl⟩⟩
  · rcases ends_bind.mp hends with ⟨_, -, hattempt⟩ | ⟨before, ended, after, rfl, hattempt, hafter⟩
    · obtain ⟨_, h, -⟩ := ends_attempt.mp hattempt
      cases h
    · obtain ⟨_, heq, hrevoke⟩ := ends_attempt.mp hattempt
      cases heq
      obtain ⟨-, last, rfl, hlast⟩ := ends_query_bind.mp hafter
      obtain ⟨rfl, rfl⟩ := ends_lift.mp hlast
      refine ⟨before, rfl, .inr ?_⟩
      rcases ends_revoke hrevoke with ⟨e, hcsrf, rfl, rfl⟩ | ⟨token, answer, hcsrf, rfl, rfl⟩
      · refine .inl ⟨hempty, fun token hsubmitted => ?_, rfl, e, catchUnauthenticated_csrf hcsrf⟩
        cases hcsrf.symm.trans (requireCsrfToken_ok.mpr hsubmitted)
      · exact .inr ⟨hempty, token, answer, requireCsrfToken_ok.mp hcsrf, rfl,
          catchUnauthenticated_answer answer⟩

/-! ### Runs -/

def authConfig : AuthConfig where
  sessionCookieName := "aegis_session"
  csrfCookieName := "aegis_csrf"
  sabclMode := .off
  production := true

/-- A request with both cookies and the CSRF token. -/
def signedInRequest : RequestContext where
  cookie := some "aegis_session=session-1; aegis_csrf=csrf-1"
  csrfHeader := some "csrf-1"
  idempotencyKey := none
  correlationId := plainUuid
  body := .object []
  query := .object []

/-- Identity issues sessions, and knows none of those that it is asked about. -/
def forgetfulIdentity (_ : History AuthAnswer) : (q : AuthQuestion) → AuthAnswer q
  | .identity _ _ _ => .answered 401 (errorBody "UNAUTHENTICATED" none)
  | .authenticate _ _ => .created
    { sessionId := "session-2", csrfToken := "csrf-2", maxAgeSeconds := 900, session := .null }
  | .setCookies _ => ()

/-- The creation of a PIN. -/
def createPinRequest : RequestContext :=
  { signedInRequest with
    body := .object [("enrollmentToken", .string (String.ofList (List.replicate 32 'a'))),
      ("pin", .string "135790"), ("pinConfirmation", .string "135790")] }

/-- A PIN is created, and the cookies are set to the new session. -/
theorem identity_authorised_createPin : ∃ t cookies,
    Asks (serve isoZod authConfig createPinRequest .createPin) t (.setCookies cookies) ∧
    ∃ created, cookies = setSessionCookies authConfig created := by
  obtain ⟨t, ht, hends⟩ :=
    leads_runIn forgetfulIdentity (serve isoZod authConfig createPinRequest .createPin) []
  have hset : ((runIn forgetfulIdentity []
      (serve isoZod authConfig createPinRequest .createPin)).1.any fun x => match x.1 with
        | .setCookies _ => true
        | _ => false) = true := by
    decide +kernel
  obtain ⟨⟨q, answer⟩, hx, hcookies⟩ := List.any_eq_true.mp hset
  rw [ht, List.nil_append] at hx
  obtain ⟨before, after, rfl⟩ := List.append_of_mem hx
  have hasks := asks_of_leads hends
  cases q with
  | setCookies cookies =>
    rcases identity_authorised _ _ _ _ _ _ hasks with ⟨_, _, created, rfl, hcreated⟩ | ⟨hroute, -⟩
    · exact ⟨_, cookies, hasks, created, hcreated⟩
    · cases hroute
  | _ => cases hcookies

/-- A logout of a session that Identity does not know. -/
theorem logout_clears_unknown : ∃ t result,
    Ends (logout authConfig signedInRequest) t result ∧
    t.getLast? = some ⟨.setCookies (clearSessionCookies authConfig), ()⟩ := by
  obtain ⟨t, -, hends⟩ := leads_runIn forgetfulIdentity (logout authConfig signedInRequest) []
  obtain ⟨before, rfl, -⟩ := logout_clears authConfig signedInRequest "session-1" _ _
    (by decide +kernel) (by decide +kernel) hends
  exact ⟨_, _, hends, List.getLast?_concat⟩

end AegisShield.Gateway.Authentication
