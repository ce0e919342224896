import AegisShield.Common.Interaction
import AegisShield.Gateway.Contracts
import AegisShield.Gateway.Cookies
import AegisShield.Sabcl.Exchange

/-!
# The clients of the Gateway

What the handlers of the Gateway ask of other systems: `IdentityClient` (`identity.client.ts`),
`RiskClient` (`risk.client.ts`), `PaymentsClient` and `LedgerClient` (`payments.client.ts`,
`ledger.client.ts`) over `SabclTransportService` or over plain HTTP, and
`SessionCustomerResolver` (`session-customer.ts`). Any answer may come back.
-/

namespace AegisShield.Gateway

open Common Sabcl Payments

/-! ## Configuration and errors -/

/-- The modes of SABCL (`SABCL_MODE`). -/
inductive SabclMode where
  | off
  | compatible
  | strict
  deriving DecidableEq

/-- `GatewayConfig`, as far as the handlers read it, and the mode of SABCL. -/
structure GatewayConfig where
  sessionCookieName : String
  csrfCookieName : String
  sabclMode : SabclMode

/-- What a handler throws: an `HttpException`, or anything else. -/
inductive HandlerError where
  | http (status : ℕ) (body : Json)
  | other

/-- The body of an error with a code and a message. -/
def errorBody (code : String) (message : Option String) : Json :=
  .object [("error", .object
    (("code", .string code) :: (message.map fun m => ("message", Json.string m)).toList))]

/-- `body ?? fallback`. -/
def orElseBody (fallback : Json) : Json → Json
  | .undefined | .null => fallback
  | body => body

/-! ## Questions -/

/-- What a client sends to Payments or to the Ledger. -/
structure ServiceMessage where
  call : GatewayCall
  body : Option Json
  customerId : Option String
  correlationId : String

/-- The Gateway's questions. -/
inductive Outgoing where
  /-- A request to Identity with the header `x-aegis-session-id`. -/
  | identity (endpoint : String) (method : Method) (sessionId : String) (body : Option Json)
  /-- A `POST` to Risk. -/
  | risk (path : String) (body : Json)
  /-- An event for Risk, whose answer is not looked at. -/
  | riskEvent (body : Json)
  /-- `SabclTransportService.call`. -/
  | sabcl (message : ServiceMessage)
  /-- A plain HTTP request to the service. -/
  | direct (message : ServiceMessage)
  /-- `randomUUID()`. -/
  | randomUUID
  /-- `new Date().toISOString()`. -/
  | now

/-- The answer to an HTTP request: none in time, or a status with a body, `undefined` when it is
    not JSON. -/
inductive HttpAnswer where
  | failed
  | answered (status : ℕ) (body : Json)

/-- What a question is answered with. -/
@[reducible] def Answer : Outgoing → Type
  | .identity _ _ _ _ | .risk _ _ | .direct _ => HttpAnswer
  | .riskEvent _ => Unit
  | .sabcl _ => Except Sabcl.Thrown SabclInnerResponse
  | .randomUUID | .now => String

/-- A program of the Gateway. -/
abbrev Handler (α : Type) := Interaction Answer HandlerError α

/-- The history of a handler. -/
abbrev Asked := Interaction.History Answer

/-- One question. -/
def ask (q : Outgoing) : Handler (Answer q) := Interaction.query q

/-- `response.ok`. -/
def isOk (status : ℕ) : Bool := decide (200 ≤ status ∧ status ≤ 299)

/-! ## `IdentityClient` -/

/-- `IDENTITY_ENDPOINTS.session`. -/
def sessionEndpoint : String := "/api/v1/auth/session"

/-- `IDENTITY_ENDPOINTS.transferStepUp`. -/
def transferStepUpEndpoint : String := "/api/v1/auth/transfer-step-up"

/-- `IdentityClient.request` (`identity.client.ts`, lines 38-89). -/
def identityRequest (endpoint : String) (method : Method) (sessionId : String)
    (body : Option Json) : Handler Json := do
  let answer : HttpAnswer ← ask (.identity endpoint method sessionId body)
  match answer with
  | .failed => .raise (.http 503 (.object []))
  | .answered status body =>
    if isOk status then return body else .raise (.http status (orElseBody (.object []) body))

/-! ## `RiskClient` -/

/-- `request` (`risk.client.ts`, lines 16-78). -/
def riskRequest (path : String) (body : Json) : Handler Json := do
  let answer : HttpAnswer ← ask (.risk path body)
  match answer with
  | .failed =>
    .raise (.http 503 (errorBody "RISK_UNAVAILABLE" "The operation cannot be completed securely."))
  | .answered status body =>
    if isOk status then return body
    else if status = 401 ∨ status = 403 then
      .raise (.http status
        (errorBody "OPERATOR_UNAUTHORIZED" "Security operator authentication is required."))
    else
      .raise (.http status
        (errorBody "SECURITY_CONTROL_ACTIVE" "The operation cannot be completed."))

/-- The scopes of a check. -/
def scopesBody (scopes : List (String × String)) : Json :=
  .array (scopes.map fun s => .object [("type", .string s.1), ("id", .string s.2)])

/-- The body of a check. -/
def checkBody (operation : String) (scopes : List (String × String)) (correlationId : String) :
    Json :=
  .object [("operation", .string operation), ("scopes", scopesBody scopes),
    ("correlationId", .string correlationId)]

/-- `active.allowed`. -/
def allows : Json → Bool
  | .object members => (Json.member members "allowed").any literalTrue
  | _ => false

/-- `check` (lines 79-91): whether the operation is allowed. -/
def riskCheck (zod : Zod) (operation : String) (scopes : List (String × String))
    (correlationId : String) : Handler Bool := do
  let response ←
    riskRequest "/internal/v1/controls/check" (checkBody operation scopes correlationId)
  if controlCheckResponseSchema zod response then return allows response else .raise .other

/-- `RiskAssessment`, as far as the handlers read it. -/
structure Assessment where
  decision : String
  band : String

/-- The body of an evaluation. -/
def evaluationBody (operation subjectId sessionId evaluationId occurredAt correlationId : String) :
    Json :=
  .object [("operation", .string operation), ("subjectId", .string subjectId),
    ("sessionId", .string sessionId), ("stepUpVerified", .bool true),
    ("evaluationId", .string evaluationId), ("occurredAt", .string occurredAt),
    ("correlationId", .string correlationId)]

/-- `riskAssessmentSchema.parse`. -/
def parseAssessment (zod : Zod) (response : Json) : Option Assessment :=
  if riskAssessmentSchema zod response then
    match response with
    | .object members => do
      let decision ← Json.stringMember members "decision"
      let band ← Json.stringMember members "band"
      return { decision, band }
    | _ => none
  else none

/-- `evaluate` (lines 92-107) with the step-up verified. -/
def riskEvaluate (zod : Zod) (operation subjectId sessionId correlationId : String) :
    Handler Assessment := do
  let evaluationId : String ← ask .randomUUID
  let occurredAt : String ← ask .now
  let response ← riskRequest "/internal/v1/assessments/evaluate"
    (evaluationBody operation subjectId sessionId evaluationId occurredAt correlationId)
  match parseAssessment zod response with
  | some assessment => return assessment
  | none => .raise .other

/-- The part of an event that a handler gives. -/
structure GatewayEvent where
  eventType : String
  severity : String
  subjectId : String
  accountId : Option String := none
  sessionId : Option String := none
  attributes : List (String × Json)

/-- `emit` (lines 108-149): the schema may throw, the request may not. -/
def riskEmit (zod : Zod) (event : GatewayEvent) (correlationId : String) : Handler Unit := do
  let eventId : String ← ask .randomUUID
  let sourceEventId : String ← ask .randomUUID
  let occurredAt : String ← ask .now
  let body := Json.object
    ([("eventType", Json.string event.eventType), ("severity", .string event.severity),
      ("subjectId", .string event.subjectId)] ++
      (event.accountId.map fun id => ("accountId", Json.string id)).toList ++
      (event.sessionId.map fun id => ("sessionId", Json.string id)).toList ++
      [("attributes", .object event.attributes), ("schemaVersion", .string "1.0"),
        ("eventId", .string eventId), ("source", .string "GATEWAY"),
        ("sourceEventId", .string ("gateway:" ++ sourceEventId)),
        ("occurredAt", .string occurredAt), ("correlationId", .string correlationId)])
  if securityEventV1Schema zod body then
    let _ ← ask (.riskEvent body)
    return ()
  else .raise .other

/-! ## `PaymentsClient` and `LedgerClient` -/

namespace ServiceMessage

variable (message : ServiceMessage)

/-- `if (options.customerId)`: an empty identifier is left out. -/
def actor : Option String := message.customerId.filter fun id => decide (id ≠ "")

/-- The request that is sealed (`sabcl-transport.service.ts`, lines 118-140). -/
def sealed : SabclInnerRequest :=
  message.call.request message.body (message.actor.map some) message.correlationId

/-- The body that is posted in the clear: `options.body ?? {}`. -/
def posted : Option Json :=
  match message.call.method with
  | .POST => some (orElseBody (.object []) (message.body.getD .undefined))
  | .GET => none

/-- The body of the error when the service does not answer as it should. -/
def unavailable : Json :=
  errorBody (if message.call.service = "ledger" then "LEDGER_UNAVAILABLE"
    else "PAYMENTS_UNAVAILABLE") none

/-- The body of an error that the service gave none: `{}` of `LedgerClient`, and the error of
    `PaymentsClient`. -/
def emptyError : Json :=
  if message.call.service = "ledger" then .object [] else message.unavailable

end ServiceMessage

/-- The end of both ways: the status and the schema (`payments.client.ts`, lines 78-90 and
    136-146; `ledger.client.ts`, lines 94-107 and 158-172). -/
def acceptResponse (message : ServiceMessage) (schema : Json → Bool) (failed : Bool) (status : ℕ)
    (body : Json) : Handler Json :=
  if failed then .raise (.http status (orElseBody message.emptyError body))
  else if schema body then return body
  else .raise (.http 503 message.unavailable)

/-- `requestDirect` (`payments.client.ts`, lines 104-157). -/
def requestDirect (message : ServiceMessage) (schema : Json → Bool) : Handler Json := do
  let answer : HttpAnswer ← ask (.direct message)
  match answer with
  | .failed => .raise (.http 503 message.unavailable)
  | .answered status body => acceptResponse message schema (!isOk status) status body

/-- `requestThroughSabcl` (`payments.client.ts`, lines 59-101). -/
def requestThroughSabcl (config : GatewayConfig) (message : ServiceMessage) (schema : Json → Bool) :
    Handler Json := do
  let answer : Except Sabcl.Thrown SabclInnerResponse ← ask (.sabcl message)
  match answer with
  | .ok response =>
    acceptResponse message schema (decide (400 ≤ response.status)) response.status
      (response.body.getD .undefined)
  | .error (.sabcl _) =>
    if config.sabclMode = .strict then .raise (.http 503 message.unavailable)
    else requestDirect message schema
  | .error (.runtime _) => .raise (.http 503 message.unavailable)

/-- `request` of `PaymentsClient` (`payments.client.ts`, lines 39-50) and of `LedgerClient`
    (`ledger.client.ts`, lines 47-67), which differ in the service and in `emptyError`. -/
def upstreamRequest (config : GatewayConfig) (message : ServiceMessage) (schema : Json → Bool) :
    Handler Json :=
  if config.sabclMode = .off then requestDirect message schema
  else requestThroughSabcl config message schema

/-! ## Requests of browsers -/

/-- What a handler reads of a request. -/
structure RequestContext where
  cookie : Option String
  csrfHeader : Option String
  idempotencyKey : Option String
  correlationId : String
  body : Json
  query : Json

/-- `readCookie`, whose `URIError` is not an `HttpException`. -/
def cookieValue (request : RequestContext) (name : String) : Handler String :=
  match readCookie request.cookie name with
  | some value => return value
  | none => .raise .other

/-- `SessionCustomerResolver.resolve` (`session-customer.ts`, lines 35-52). -/
def resolve (zod : Zod) (config : GatewayConfig) (request : RequestContext) : Handler String := do
  let sessionId ← cookieValue request config.sessionCookieName
  if sessionId = "" then
    .raise (.http 401 (errorBody "UNAUTHENTICATED" "Authentication is required."))
  else
    let session ← identityRequest sessionEndpoint .GET sessionId none
    match sessionUser zod session with
    | some customerId => return customerId
    | none => .raise (.http 401 (errorBody "UNAUTHENTICATED" "Authentication is required."))

/-- `requireCsrfToken` (`csrf.ts`, lines 10-35). -/
def requireCsrfToken (request : RequestContext) (csrfCookieName : String) :
    Except HandlerError String :=
  match readCookie request.cookie csrfCookieName with
  | none => .error .other
  | some cookie =>
    let supplied := trim (request.csrfHeader.getD "")
    if cookie ≠ "" ∧ cookie = supplied then .ok supplied
    else .error (.http 403 (errorBody "INVALID_CSRF" "The CSRF token is invalid."))

/-- The token is in the cookie, and the header repeats it. -/
structure DoubleSubmitted (request : RequestContext) (csrfCookieName token : String) : Prop where
  present : token ≠ ""
  cookie : readCookie request.cookie csrfCookieName = some token
  header : trim (request.csrfHeader.getD "") = token

theorem requireCsrfToken_ok {request : RequestContext} {csrfCookieName token : String} :
    requireCsrfToken request csrfCookieName = .ok token ↔
      DoubleSubmitted request csrfCookieName token := by
  unfold requireCsrfToken
  cases hcookie : readCookie request.cookie csrfCookieName with
  | none =>
    refine iff_of_false nofun fun hsubmitted => ?_
    have hread := hsubmitted.cookie
    rw [hcookie] at hread
    cases hread
  | some cookie =>
    simp only
    split_ifs with hsubmitted
    · constructor
      · intro hok
        cases hok
        exact ⟨hsubmitted.2 ▸ hsubmitted.1, hsubmitted.2 ▸ hcookie, rfl⟩
      · intro hsubmit
        exact congrArg Except.ok hsubmit.header
    · refine iff_of_false nofun fun hsubmit => hsubmitted ?_
      have hread := hsubmit.cookie
      rw [hcookie] at hread
      cases hread
      exact ⟨hsubmit.present, hsubmit.header.symm⟩

end AegisShield.Gateway
