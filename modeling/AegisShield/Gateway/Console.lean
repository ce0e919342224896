import AegisShield.Gateway.Controllers
import AegisShield.Risk.OperatorSessions

/-!
# The operator console of the Gateway

`OperatorsController` (`operators.controller.ts`) and `ResilienceController`
(`resilience.controller.ts`), with what they use of `RiskClient` (`risk.client.ts`) and
`ResilienceClient` (`resilience.client.ts`). Browsers may send and the services may answer
anything.

Results:
* `recovery_authorised`: a message goes out to Resilience only for the operator whose session Risk
  has just validated.
* `recovery_checked`: a browser gets only what the contract of its route admits, and of an error
  of Resilience only which of three it is.
* `operator_change_double_submitted`: in every run of Risk behind the Gateway, what changes
  anything was asked for by a browser that holds both cookies of one issued session and repeats
  the CSRF token.
-/

namespace AegisShield.Gateway.Console

open Common Interaction Sabcl Payments

/-! ## Contracts (`contracts/risk/v1.ts`, `contracts/resilience/v1.ts`) -/

/-- `identifierSchema` (`resilience.controller.ts`, line 39). -/
def identifierSchema (id : String) : Bool := opaqueIdentifier (.string id)

/-- `z.string().trim().min(min).max(max)` of a member. -/
def trimmedMember (members : List (String × Json)) (name : String) (min max : ℕ) : Option String :=
  ((Json.stringMember members name).map trim).filter fun s =>
    decide (min ≤ utf16Length s ∧ utf16Length s ≤ max)

/-- A member that may be absent. -/
def absentOr {α : Type} (members : List (String × Json)) (name : String) (value : Option α) :
    Option (Option α) :=
  match Json.member members name with
  | none => some none
  | some _ => value.map some

/-- `/^[0-9a-f]{64}$/u`. -/
def hexDigest : Json → Bool :=
  text fun s => decide (s.toList.length = 64) && s.toList.all fun c =>
    c.isDigit || decide (c ∈ ['a', 'b', 'c', 'd', 'e', 'f'])

/-- `z.number().int().nonnegative()`. -/
def natural : Json → Bool := integerUpTo Json.maxSafeInteger

/-- `z.array(p).min(1).max(max)`. -/
def someOf (max : ℕ) (p : Json → Bool) (value : Json) : Bool :=
  arrayOf max p value && match value with
    | .array [] => false
    | _ => true

section Schemas

variable (zod : Zod)

/-- `controlScopeSchema` (`contracts/risk/v1.ts`, lines 46-54). -/
def controlScopeSchema : Json → Bool :=
  oneOf ["CUSTOMER", "SESSION", "DEVICE", "ACCOUNT", "RECIPIENT", "OPERATION", "SERVICE"]

/-- `applyControlRequestSchema` (lines 221-231). -/
def applyControlRequestSchema : Json → Bool :=
  strictWith [("idempotencyKey", text idempotencyKeySchema), ("type", controlTypeSchema),
      ("scopeType", controlScopeSchema), ("scopeId", opaqueIdentifier),
      ("reasonCode", text fun s => decide (3 ≤ s.toList.length ∧ s.toList.length ≤ 64) &&
        s.toList.all fun c => c.isUpper || c.isDigit || c == '_'),
      ("expiresAt", dateTime zod)]
    [("incidentId", uuid zod)]

/-- `releaseControlRequestSchema` (lines 232-236) and `operatorAcknowledgementRequestSchema`
    (`contracts/resilience/v1.ts`, lines 207-211): the reason. -/
def reasonRequest (raw : Json) : Option String := do
  let members ← Json.strictObject ["reason"] raw
  trimmedMember members "reason" 8 500

/-- The body with a reason. -/
def reasonBody (reason : String) : Json := .object [("reason", .string reason)]

/-- `incidentUpdate` (`operators.controller.ts`, lines 36-51), as it is sent on. -/
def incidentUpdate (raw : Json) : Option Json := do
  let members ← Json.strictObject ["status", "assignedTo", "note", "resolutionReason"] raw
  let status ← optional (enum ["OPEN", "INVESTIGATING", "CONTAINED", "RESOLVED", "FALSE_POSITIVE"])
    (Json.member members "status")
  let assignedTo ← optional (Json.boundedString 8 128 fun _ => true)
    (Json.member members "assignedTo")
  let note ← absentOr members "note" (trimmedMember members "note" 3 1000)
  let resolutionReason ← absentOr members "resolutionReason"
    (trimmedMember members "resolutionReason" 8 500)
  return .object (textField "status" status ++ textField "assignedTo" assignedTo ++
    textField "note" note ++ textField "resolutionReason" resolutionReason)

/-- `bootstrapRequest` (`operators.controller.ts`, lines 33-35). -/
def bootstrapRequest : Json → Bool := strict [("accessToken", sized 16 256)]

/-- What `bootstrapResponse` returns, as far as it is read. -/
structure BootstrapResponse where
  sessionToken : String
  csrfToken : String
  operatorId : String
  expiresAt : String

/-- `bootstrapResponse` (lines 24-32). -/
def bootstrapResponse : Json → Option BootstrapResponse
  | .object members => do
    let sessionToken ← Json.stringMember members "sessionToken"
    let csrfToken ← Json.stringMember members "csrfToken"
    let operatorId ← Json.stringMember members "operatorId"
    let _ ← textMember members "role" fun role => role == "SECURITY_OPERATOR"
    let expiresAt ← textMember members "expiresAt" zod.isDateTime
    return { sessionToken, csrfToken, operatorId, expiresAt }
  | _ => none

/-- The identity that `operator` accepts (`resilience.controller.ts`, lines 92-103). -/
def operatorIdentity (value : Json) : Option String :=
  if loose [("operatorId", opaqueIdentifier), ("role", oneOf ["SECURITY_OPERATOR"])] value then
    match value with
    | .object members => Json.stringMember members "operatorId"
    | _ => none
  else none

/-- `resilienceServiceNameSchema` (`contracts/resilience/v1.ts`, lines 26-32). -/
def resilienceServiceNameSchema : Json → Bool :=
  oneOf ["identity", "ledger", "payments", "risk", "resilience"]

/-- `resilienceHealthStateSchema` (lines 35-42). -/
def resilienceHealthStateSchema : Json → Bool :=
  oneOf ["HEALTHY", "DEGRADED", "UNAVAILABLE", "RECOVERING", "RECONCILING", "FAILED"]

/-- The values of `recoveryDrillStateSchema` (lines 51-60). -/
def drillStates : List String :=
  ["PLANNED", "RUNNING", "BACKUP_CREATED", "RESTORE_VERIFIED", "RECONCILIATION_PASSED", "PASSED",
    "FAILED", "CLEANED_UP"]

/-- The values of `recoveryDrillTypeSchema` (lines 62-66). -/
def drillTypes : List String := ["SCHEDULED", "MANUAL", "CI_AUTOMATED"]

/-- `resilienceFailureCodeSchema` (lines 69-80). -/
def resilienceFailureCodeSchema : Json → Bool :=
  oneOf ["BACKUP_FAILED", "MANIFEST_INVALID", "CHECKSUM_MISMATCH", "DECRYPTION_FAILED",
    "INCOMPLETE_BACKUP_SET", "RESTORE_FAILED", "RECONCILIATION_FAILED", "CLEANUP_FAILED",
    "DEPENDENCY_UNAVAILABLE", "CONFIGURATION_INVALID"]

/-- `dependencyHealthSchema` (lines 83-91). -/
def dependencyHealthSchema : Json → Bool :=
  strict [("name", sized 2 64), ("kind", oneOf ["POSTGRES", "REDIS", "HTTP_SERVICE"]),
    ("state", resilienceHealthStateSchema), ("checkedAt", dateTime zod)]

/-- `serviceHealthSchema` (lines 93-101). -/
def serviceHealthSchema : Json → Bool :=
  strict [("service", sized 2 64), ("state", resilienceHealthStateSchema),
    ("failureCode", nullable resilienceFailureCodeSchema), ("checkedAt", dateTime zod)]

/-- `backupSetSummarySchema` (lines 109-120). -/
def backupSetSummarySchema : Json → Bool :=
  strict [("backupSetId", opaqueIdentifier), ("createdAt", dateTime zod),
    ("services", someOf 16 resilienceServiceNameSchema), ("manifestChecksum", hexDigest),
    ("encryptionAlgorithm", oneOf ["AES-256-GCM"]), ("sizeBytes", natural), ("verified", boolean)]

/-- `reconciliationSummarySchema` (lines 157-164). -/
def reconciliationSummarySchema : Json → Bool :=
  strict [("service", resilienceServiceNameSchema), ("status", oneOf ["PASS", "FAIL"]),
    ("issueCount", natural), ("checkedAt", dateTime zod)]

/-- `recoveryDrillSchema` (lines 174-193). -/
def recoveryDrillSchema : Json → Bool :=
  strict [("drillId", opaqueIdentifier), ("type", oneOf drillTypes), ("state", oneOf drillStates),
    ("startedAt", dateTime zod), ("completedAt", nullable (dateTime zod)),
    ("requestedBy", opaqueIdentifier), ("backupSetId", nullable opaqueIdentifier),
    ("measuredRecoveryPointAgeSeconds", nullable natural),
    ("measuredRecoveryDurationMs", nullable natural),
    ("reconciliations", arrayOf 16 (reconciliationSummarySchema zod)),
    ("failureCode", nullable resilienceFailureCodeSchema),
    ("acknowledgedAt", nullable (dateTime zod)), ("acknowledgedBy", nullable opaqueIdentifier)]

/-- `drillAuditEventSchema` (lines 196-205). -/
def drillAuditEventSchema : Json → Bool :=
  strict [("eventId", opaqueIdentifier), ("drillId", opaqueIdentifier),
    ("state", oneOf drillStates), ("occurredAt", dateTime zod), ("note", nullable (sized 0 500))]

/-- `recordPlannedDrillRequestSchema` (lines 213-218), as it is sent on. -/
def recordPlannedDrillRequestSchema (raw : Json) : Option Json := do
  let members ← Json.strictObject ["type", "note"] raw
  let type ← textMember members "type" fun s => decide (s ∈ drillTypes)
  let note ← absentOr members "note" (trimmedMember members "note" 0 500)
  return .object (("type", .string type) :: textField "note" note)

/-- `drillHistoryResponseSchema` (lines 228-233). -/
def drillHistoryResponseSchema : Json → Bool :=
  strict [("drills", arrayOf 50 (recoveryDrillSchema zod)),
    ("nextCursor", nullable opaqueIdentifier)]

/-- `recoveryReadinessSchema` (lines 241-250). -/
def recoveryReadinessSchema : Json → Bool :=
  strict [("platformState", resilienceHealthStateSchema),
    ("services", arrayOf 16 (serviceHealthSchema zod)),
    ("dependencies", arrayOf 16 (dependencyHealthSchema zod)),
    ("latestBackup", nullable (backupSetSummarySchema zod)),
    ("latestDrill", nullable (recoveryDrillSchema zod)), ("generatedAt", dateTime zod)]

/-- `HistoryQuery`. -/
structure HistoryQuery where
  cursor : Option String
  limit : Option ℕ
  state : Option String

/-- `historyQuerySchema` (`resilience.controller.ts`, lines 43-60). -/
def historyQuerySchema (raw : Json) : Option HistoryQuery := do
  let members ← Json.strictObject ["cursor", "limit", "state"] raw
  let cursor ← absentOr members "cursor" (textMember members "cursor" identifierSchema)
  let limit ← absentOr members "limit" (pageSizeSchema zod (Json.member members "limit"))
  let state ← optional (enum drillStates) (Json.member members "state")
  return { cursor, limit, state }

/-- The entries of the query string (lines 128-131). -/
def HistoryQuery.entries (query : HistoryQuery) : List (String × String) :=
  setEntries [("cursor", query.cursor), ("limit", query.limit.map toString),
    ("state", query.state)]

end Schemas

/-! ## Questions -/

/-- The endpoints of Risk for operators. -/
inductive OperatorEndpoint where
  | bootstrap
  | validate
  | logout
  | overview
  /-- `events`, `assessments`, `controls` or `incidents`. -/
  | list (name : String) (cursor : Option String)
  | incident (id : String)
  | apply
  | release (id : String)
  | updateIncident (id : String)

namespace OperatorEndpoint

/-- The path after `/internal/v1/operators`. -/
def path : OperatorEndpoint → String
  | bootstrap => "/bootstrap"
  | validate => "/validate"
  | logout => "/logout"
  | overview => "/overview"
  | list name cursor => "/" ++ name ++
      match cursor.filter fun text => decide (text ≠ "") with
      | some text => "?cursor=" ++ encodeURIComponent text
      | none => ""
  | incident id | updateIncident id => "/incidents/" ++ id
  | apply => "/controls"
  | release id => "/controls/" ++ id ++ "/release"

/-- Risk changes something, and asks for the CSRF token. -/
def changes : OperatorEndpoint → Bool
  | logout | apply | release _ | updateIncident _ => true
  | _ => false

end OperatorEndpoint

/-- The endpoints of Resilience for the Gateway. -/
inductive RecoveryEndpoint where
  | readiness
  | history (query : HistoryQuery)
  | drill (drillId : String)
  | events (drillId : String)
  | recordPlanned (operatorId : String)
  | acknowledge (drillId operatorId : String)

namespace RecoveryEndpoint

/-- The path (`resilience.client.ts`, lines 105-169). -/
def path : RecoveryEndpoint → String
  | readiness => "/internal/v1/readiness"
  | history query => "/internal/v1/drills" ++ searchOf query.entries
  | drill drillId => "/internal/v1/drills/" ++ encodeURIComponent drillId
  | events drillId => "/internal/v1/drills/" ++ encodeURIComponent drillId ++ "/events"
  | recordPlanned operatorId =>
    "/internal/v1/drills?requestedBy=" ++ encodeURIComponent operatorId
  | acknowledge drillId operatorId => "/internal/v1/drills/" ++ encodeURIComponent drillId ++
      "/acknowledge?operatorId=" ++ encodeURIComponent operatorId

def method : RecoveryEndpoint → Method
  | recordPlanned _ | acknowledge _ _ => .POST
  | _ => .GET

/-- The drill in the path. -/
def drillId : RecoveryEndpoint → Option String
  | drill id | events id | acknowledge id _ => some id
  | _ => none

/-- The operator that Resilience records. -/
def operatorId : RecoveryEndpoint → Option String
  | recordPlanned id | acknowledge _ id => some id
  | _ => none

/-- The contract of the answers. -/
def schema (zod : Zod) : RecoveryEndpoint → Json → Bool
  | readiness => recoveryReadinessSchema zod
  | history _ => drillHistoryResponseSchema zod
  | events _ => strict [("events", arrayOf 200 (drillAuditEventSchema zod))]
  | _ => recoveryDrillSchema zod

end RecoveryEndpoint

/-- The session and the CSRF token that are sent to Risk. -/
structure OperatorAuth where
  session : String
  csrf : Option String

/-- The questions of the console. -/
inductive ConsoleQuestion where
  | risk (endpoint : OperatorEndpoint) (auth : OperatorAuth) (body : Option Json)
  | resilience (endpoint : RecoveryEndpoint) (body : Option Json)
  /-- `Date.now()`. -/
  | now

@[reducible] def ConsoleAnswer : ConsoleQuestion → Type
  | .risk _ _ _ | .resilience _ _ => HttpAnswer
  | .now => ℤ

abbrev Program (α : Type) := Interaction ConsoleAnswer HandlerError α

/-- `GatewayConfig`, as far as the console reads it. -/
structure ConsoleConfig where
  operatorSessionCookieName : String
  operatorCsrfCookieName : String
  production : Bool

/-! ## `RiskClient` and `ResilienceClient` -/

/-- The error of a request without an operator. -/
def operatorUnauthorized (status : ℕ) : HandlerError :=
  .http status (errorBody "OPERATOR_UNAUTHORIZED" "Security operator authentication is required.")

/-- What `request` makes of an answer (`risk.client.ts`, lines 44-74). -/
def acceptRisk : HttpAnswer → Except HandlerError Json
  | .failed => .error (.http 503
      (errorBody "RISK_UNAVAILABLE" "The operation cannot be completed securely."))
  | .answered status body =>
    if isOk status then .ok body
    else if status = 401 ∨ status = 403 then .error (operatorUnauthorized status)
    else .error (.http status
      (errorBody "SECURITY_CONTROL_ACTIVE" "The operation cannot be completed."))

/-- `operator` (`risk.client.ts`, lines 150-164). -/
def riskOperator (endpoint : OperatorEndpoint) (auth : OperatorAuth) (body : Option Json := none) :
    Program Json := do
  let answer ← query (ConsoleQuestion.risk endpoint auth body)
  lift (acceptRisk answer)

/-- The errors of `ResilienceClient`. -/
def stateConflict : HandlerError :=
  .http 409 (errorBody "RESILIENCE_STATE_CONFLICT" "The recovery record has already moved on.")

def recordNotFound : HandlerError :=
  .http 404 (errorBody "RESILIENCE_RECORD_NOT_FOUND" "The recovery record was not found.")

def recoveryUnavailable : HandlerError :=
  .http 503 (errorBody "RESILIENCE_UNAVAILABLE" "Recovery information is not available.")

/-- What `request` makes of an answer (`resilience.client.ts`, lines 57-99). -/
def acceptRecovery (schema : Json → Bool) : HttpAnswer → Except HandlerError Json
  | .failed => .error recoveryUnavailable
  | .answered status payload =>
    if isOk status then if schema payload then .ok payload else .error recoveryUnavailable
    else if status = 409 then .error stateConflict
    else if status = 404 then .error recordNotFound
    else .error recoveryUnavailable

/-- `request` (`resilience.client.ts`, lines 30-103). -/
def resilienceRequest (zod : Zod) (endpoint : RecoveryEndpoint) (body : Option Json := none) :
    Program Json := do
  let answer ← query (ConsoleQuestion.resilience endpoint body)
  lift (acceptRecovery (endpoint.schema zod) answer)

/-! ## The controllers -/

/-- What a handler returns: the body, and the cookies that it sets. -/
structure ConsoleReply where
  body : Json
  cookies : List String := []

/-- A `ZodError` of `parse`, which is not an `HttpException`. -/
def parsed {α : Type} : Option α → Except HandlerError α
  | some value => .ok value
  | none => .error .other

section Handlers

variable (zod : Zod) (getTime : String → ℤ) (config : ConsoleConfig) (request : RequestContext)

/-- The session cookie. -/
def operatorSession : Except HandlerError String :=
  parsed (readCookie request.cookie config.operatorSessionCookieName)

/-- `auth` (`operators.controller.ts`, lines 64-74). -/
def operatorAuth (mutation : Bool) : Except HandlerError OperatorAuth := do
  let session ← operatorSession config request
  if mutation then
    let csrf ← requireCsrfToken request config.operatorCsrfCookieName
    return { session, csrf := some csrf }
  else return { session, csrf := none }

/-- The two cookies of a session. -/
def sessionCookies (sessionToken csrfToken : String) (maxAge : ℤ) : List String :=
  [serializeCookie config.operatorSessionCookieName sessionToken
      { httpOnly := true, secure := config.production, maxAgeSeconds := maxAge },
    serializeCookie config.operatorCsrfCookieName csrfToken
      { httpOnly := false, secure := config.production, maxAgeSeconds := maxAge }]

/-- `signIn` (lines 75-111). -/
def signIn : Program ConsoleReply := do
  let body ← lift (parsed (if bootstrapRequest request.body then some request.body else none))
  let result ← riskOperator .bootstrap { session := "", csrf := none } (some body)
  let result ← lift (parsed (bootstrapResponse zod result))
  let now ← query ConsoleQuestion.now
  return {
    body := .object [("operatorId", .string result.operatorId),
      ("role", .string "SECURITY_OPERATOR"), ("expiresAt", .string result.expiresAt)]
    cookies := sessionCookies config result.sessionToken result.csrfToken
      (max 0 ((getTime result.expiresAt - now) / 1000)) }

/-- The handlers that only pass on what Risk answers. -/
def forwardRisk (endpoint : OperatorEndpoint) (body : Option Json := none) :
    Program ConsoleReply := do
  let auth ← lift (operatorAuth config request endpoint.changes)
  let result ← riskOperator endpoint auth body
  return { body := result }

/-- `logout` (lines 115-140). -/
def logout : Program ConsoleReply := do
  let reply ← forwardRisk config request .logout
  return { reply with cookies := sessionCookies config "" "" 0 }

/-- `z.uuid().parse(id)`. -/
def uuidOf (id : String) : Except HandlerError String :=
  parsed (if zod.isUuid id then some id else none)

/-- `incident` (lines 188-198). -/
def incident (id : String) : Program ConsoleReply := do
  let id ← lift (uuidOf zod id)
  forwardRisk config request (.incident id)

/-- A change that Risk is asked for: the credentials are checked before the body. -/
def changeRisk (endpoint : OperatorEndpoint) (body : Option Json) : Program ConsoleReply := do
  let auth ← lift (operatorAuth config request true)
  let body ← lift (parsed body)
  let result ← riskOperator endpoint auth (some body)
  return { body := result }

/-- `apply` (lines 199-211). -/
def applyControl : Program ConsoleReply :=
  changeRisk config request .apply
    (if applyControlRequestSchema zod request.body then some request.body else none)

/-- `release` (lines 212-225). -/
def releaseControl (id : String) : Program ConsoleReply := do
  let id ← lift (uuidOf zod id)
  changeRisk config request (.release id) ((reasonRequest request.body).map reasonBody)

/-- `updateIncident` (lines 226-239). -/
def updateIncident (id : String) : Program ConsoleReply := do
  let id ← lift (uuidOf zod id)
  changeRisk config request (.updateIncident id) (incidentUpdate request.body)

/-- `operator` (`resilience.controller.ts`, lines 76-115). -/
def operator (mutation : Bool) : Program String := do
  let auth ← lift (operatorAuth config request mutation)
  let identity ← riskOperator .validate auth
  match operatorIdentity identity with
  | some operatorId => return operatorId
  | none => raise (operatorUnauthorized 403)

/-- `identifierSchema.parse(drillId)`. -/
def identifierOf (id : String) : Except HandlerError String :=
  parsed (if identifierSchema id then some id else none)

/-- A handler of `ResilienceController`: the operator, then the request that is built with its
    identifier. -/
def recover (mutation : Bool)
    (build : String → Except HandlerError (RecoveryEndpoint × Option Json)) :
    Program ConsoleReply := do
  let operatorId ← operator config request mutation
  let built ← lift (build operatorId)
  let result ← resilienceRequest zod built.1 built.2
  return { body := result }

/-- `readiness` (lines 117-120). -/
def readiness : Program ConsoleReply :=
  recover zod config request false fun _ => return (.readiness, none)

/-- `drills` (lines 122-134). -/
def drills : Program ConsoleReply :=
  recover zod config request false fun _ => do
    let query ← parsed (historyQuerySchema zod (orElseBody (.object []) request.query))
    return (.history query, none)

/-- `drill` (lines 136-142). -/
def drill (drillId : String) : Program ConsoleReply :=
  recover zod config request false fun _ => do
    let drillId ← identifierOf drillId
    return (.drill drillId, none)

/-- `events` (lines 144-150). -/
def events (drillId : String) : Program ConsoleReply :=
  recover zod config request false fun _ => do
    let drillId ← identifierOf drillId
    return (.events drillId, none)

/-- `plan` (lines 152-163). -/
def plan : Program ConsoleReply :=
  recover zod config request true fun operatorId => do
    let body ← parsed (recordPlannedDrillRequestSchema request.body)
    return (.recordPlanned operatorId, some body)

/-- `acknowledge` (lines 165-178). -/
def acknowledge (drillId : String) : Program ConsoleReply :=
  recover zod config request true fun operatorId => do
    let drillId ← identifierOf drillId
    let reason ← parsed (reasonRequest request.body)
    return (.acknowledge drillId operatorId, some (reasonBody reason))

/-- The routes of the console. -/
inductive ConsoleEndpoint where
  | signIn
  | session
  | logout
  | overview
  | events (cursor : Option String)
  | assessments (cursor : Option String)
  | controls (cursor : Option String)
  | incidents (cursor : Option String)
  | incident (id : String)
  | apply
  | release (id : String)
  | updateIncident (id : String)
  | readiness
  | drills
  | drill (drillId : String)
  | drillEvents (drillId : String)
  | plan
  | acknowledge (drillId : String)

/-- The handler of a route. -/
def serve : ConsoleEndpoint → Program ConsoleReply
  | .signIn => signIn zod getTime config request
  | .session => forwardRisk config request .validate
  | .logout => logout config request
  | .overview => forwardRisk config request .overview
  | .events cursor => forwardRisk config request (.list "events" cursor)
  | .assessments cursor => forwardRisk config request (.list "assessments" cursor)
  | .controls cursor => forwardRisk config request (.list "controls" cursor)
  | .incidents cursor => forwardRisk config request (.list "incidents" cursor)
  | .incident id => incident zod config request id
  | .apply => applyControl zod config request
  | .release id => releaseControl zod config request id
  | .updateIncident id => updateIncident zod config request id
  | .readiness => readiness zod config request
  | .drills => drills zod config request
  | .drill drillId => drill zod config request drillId
  | .drillEvents drillId => events zod config request drillId
  | .plan => plan zod config request
  | .acknowledge drillId => acknowledge zod config request drillId

end Handlers

/-! ## What the console may ask -/

section Licence

variable (config : ConsoleConfig) (request : RequestContext)

/-- The credentials are those of the request. -/
structure Presents (auth : OperatorAuth) : Prop where
  session : readCookie request.cookie config.operatorSessionCookieName = some auth.session
  csrf : ∀ token, auth.csrf = some token →
    DoubleSubmitted request config.operatorCsrfCookieName token

/-- Risk has just answered that the session of the request is that of the operator; for a change
    the CSRF token was double-submitted. -/
def Validated (mutation : Bool) (operatorId : String) (h : History ConsoleAnswer) : Prop :=
  ∃ auth status identity,
    h = [⟨.risk .validate auth none, HttpAnswer.answered status identity⟩] ∧ isOk status = true ∧
    operatorIdentity identity = some operatorId ∧ Presents config request auth ∧
    (mutation = true → ∃ token, auth.csrf = some token)

/-- What may be asked after a history: of Risk first, with nothing but the request's credentials;
    of Resilience then, for the operator. -/
def Licensed (h : History ConsoleAnswer) : ConsoleQuestion → Prop
  | .risk endpoint auth _ => h = [] ∧ (endpoint = .bootstrap ∨ Presents config request auth ∧
      (endpoint.changes = true → ∃ token, auth.csrf = some token))
  | .resilience endpoint _ => ∃ operatorId,
      Validated config request (decide (endpoint.method = .POST)) operatorId h ∧
      (∀ id, endpoint.operatorId = some id → id = operatorId) ∧
      ∀ id, endpoint.drillId = some id → identifierSchema id = true
  | .now => True

end Licence

section
variable {zod : Zod} {getTime : String → ℤ} {config : ConsoleConfig} {request : RequestContext}
  {h : History ConsoleAnswer} {mutation : Bool} {endpoint : OperatorEndpoint}
  {body : Option Json}

variable {α : Type} {answer : HttpAnswer} {schema : Json → Bool}
  {build : String → Except HandlerError (RecoveryEndpoint × Option Json)} {e : HandlerError}
  {t : History ConsoleAnswer}

theorem parsed_ok {value : Option α} {a : α} :
    parsed value = .ok a ↔ value = some a := by
  cases value <;> simp [parsed]

theorem bind_eq_ok {β : Type} {x : Except HandlerError α} {f : α → Except HandlerError β}
    {b : β} : x >>= f = .ok b ↔ ∃ a, x = .ok a ∧ f a = .ok b := by
  cases x with
  | error e => exact iff_of_false nofun (by rintro ⟨a, ha, -⟩; cases ha)
  | ok a => exact ⟨fun h => ⟨a, rfl, h⟩, by rintro ⟨a', ha, h⟩; cases ha; exact h⟩

theorem operatorAuth_ok {auth : OperatorAuth}
    (hauth : operatorAuth config request mutation = .ok auth) : Presents config request auth ∧
      (mutation = true → ∃ token, auth.csrf = some token) := by
  obtain ⟨session, hsession, hauth⟩ := bind_eq_ok.mp hauth
  have hcookie := parsed_ok.mp hsession
  split_ifs at hauth with hmutation
  · obtain ⟨csrf, hcsrf, hauth⟩ := bind_eq_ok.mp hauth
    cases hauth
    refine ⟨⟨hcookie, fun token htoken => ?_⟩, fun _ => ⟨csrf, rfl⟩⟩
    cases htoken
    exact requireCsrfToken_ok.mp hcsrf
  · cases hauth
    exact ⟨⟨hcookie, nofun⟩, fun htrue => absurd htrue hmutation⟩

theorem acceptRisk_ok {value : Json} (hok : acceptRisk answer = .ok value) :
    ∃ status, answer = .answered status value ∧ isOk status = true := by
  unfold acceptRisk at hok
  split at hok
  · cases hok
  · split_ifs at hok with hstatus
    cases hok
    exact ⟨_, rfl, hstatus⟩

/-- A handler that passes on what Risk answers. -/
theorem wp_forwardRisk : Wp (Licensed config request)
    (forwardRisk config request endpoint body) (fun _ _ => True) [] := by
  simp only [forwardRisk, riskOperator, wp_bind, wp_lift, wp_query, wp_pure]
  exact fun auth hauth => ⟨⟨rfl, .inr (operatorAuth_ok hauth)⟩, fun _ _ _ => trivial⟩

/-- A change that Risk is asked for. -/
theorem wp_changeRisk : Wp (Licensed config request) (changeRisk config request endpoint body)
    (fun _ _ => True) [] := by
  simp only [changeRisk, riskOperator, wp_bind, wp_lift, wp_query, wp_pure]
  intro auth hauth value _
  obtain ⟨hpresents, hcsrf⟩ := operatorAuth_ok hauth
  exact ⟨⟨rfl, .inr ⟨hpresents, fun _ => hcsrf rfl⟩⟩, fun _ _ _ => trivial⟩

theorem wp_operator : Wp (Licensed config request) (operator config request mutation)
    (fun operatorId h => Validated config request mutation operatorId h) [] := by
  simp only [operator, riskOperator, wp_bind, wp_lift, wp_query]
  intro auth hauth
  obtain ⟨hpresents, hcsrf⟩ := operatorAuth_ok hauth
  refine ⟨⟨rfl, .inr ⟨hpresents, by rintro ⟨⟩⟩⟩, fun answer identity hidentity => ?_⟩
  obtain ⟨status, rfl, hstatus⟩ := acceptRisk_ok hidentity
  split
  next operatorId hoperator =>
    exact ⟨auth, status, identity, rfl, hstatus, hoperator, hpresents, hcsrf⟩
  · trivial

/-- What a request to Resilience is built from. -/
def Builds (mutation : Bool)
    (build : String → Except HandlerError (RecoveryEndpoint × Option Json)) : Prop :=
  ∀ operatorId endpoint body, build operatorId = .ok (endpoint, body) →
    (endpoint.method = .POST → mutation = true) ∧
    (∀ id, endpoint.operatorId = some id → id = operatorId) ∧
    ∀ id, endpoint.drillId = some id → identifierSchema id = true

/-- What an answered handler of `ResilienceController` has established. -/
def Recovered (zod : Zod) (config : ConsoleConfig) (request : RequestContext)
    (reply : ConsoleReply) (h : History ConsoleAnswer) : Prop :=
  ∃ operatorId t endpoint body answer, Validated config request false operatorId t ∧
    h = t ++ [⟨.resilience endpoint body, answer⟩] ∧ endpoint.schema zod reply.body = true

theorem Validated.weaken {operatorId : String} {mutation' : Bool}
    (hvalid : Validated config request mutation operatorId h)
    (hle : mutation' = true → mutation = true) :
    Validated config request mutation' operatorId h := by
  obtain ⟨auth, status, identity, rfl, hstatus, hoperator, hpresents, hcsrf⟩ := hvalid
  exact ⟨auth, status, identity, rfl, hstatus, hoperator, hpresents, fun hm => hcsrf (hle hm)⟩

theorem acceptRecovery_ok {value : Json}
    (hok : acceptRecovery schema answer = .ok value) : schema value = true := by
  unfold acceptRecovery at hok
  split at hok
  · cases hok
  · split_ifs at hok with hstatus hschema
    cases hok
    exact hschema

theorem wp_recover (hbuild : Builds mutation build) :
    Wp (Licensed config request) (recover zod config request mutation build)
      (Recovered zod config request) [] := by
  unfold recover
  rw [wp_bind]
  refine wp_operator.mono fun operatorId t hvalid => ?_
  simp only [resilienceRequest, wp_bind, wp_lift, wp_query, wp_pure]
  rintro ⟨endpoint, body⟩ hbuilt
  obtain ⟨hmethod, hoperator, hdrill⟩ := hbuild operatorId endpoint body hbuilt
  refine ⟨⟨operatorId, hvalid.weaken fun hpost => hmethod (of_decide_eq_true hpost), hoperator,
    hdrill⟩, fun answer value hvalue => ?_⟩
  exact ⟨operatorId, t, endpoint, body, answer, hvalid.weaken (by rintro ⟨⟩), rfl,
    acceptRecovery_ok hvalue⟩

theorem identifierOf_ok {id id' : String} (hid : identifierOf id = .ok id') :
    identifierSchema id' = true := by
  unfold identifierOf at hid
  split_ifs at hid with hschema
  · cases hid
    exact hschema
  · cases hid

/-- The routes of `ResilienceController`. -/
def ConsoleEndpoint.recovers : ConsoleEndpoint → Bool
  | readiness | drills | drill _ | drillEvents _ | plan | acknowledge _ => true
  | _ => false

/-- The handlers of `ResilienceController`. -/
theorem wp_recovery {endpoint : ConsoleEndpoint} (hrecovers : endpoint.recovers = true) :
    Wp (Licensed config request) (serve zod getTime config request endpoint)
      (Recovered zod config request) [] := by
  cases endpoint with
  | readiness =>
    refine wp_recover fun operatorId endpoint body hbuilt => ?_
    cases hbuilt
    exact ⟨nofun, nofun, nofun⟩
  | drills =>
    refine wp_recover fun operatorId endpoint body hbuilt => ?_
    obtain ⟨query, -, hbuilt⟩ := bind_eq_ok.mp hbuilt
    cases hbuilt
    exact ⟨nofun, nofun, nofun⟩
  | drill | drillEvents =>
    refine wp_recover fun operatorId endpoint body hbuilt => ?_
    obtain ⟨id, hid, hbuilt⟩ := bind_eq_ok.mp hbuilt
    cases hbuilt
    refine ⟨nofun, nofun, fun id' hid' => ?_⟩
    cases hid'
    exact identifierOf_ok hid
  | plan =>
    refine wp_recover fun operatorId endpoint body hbuilt => ?_
    obtain ⟨planned, -, hbuilt⟩ := bind_eq_ok.mp hbuilt
    cases hbuilt
    refine ⟨fun _ => rfl, fun id hid => ?_, nofun⟩
    cases hid
    rfl
  | acknowledge drillId =>
    refine wp_recover fun operatorId endpoint body hbuilt => ?_
    obtain ⟨id, hid, hbuilt⟩ := bind_eq_ok.mp hbuilt
    obtain ⟨reason, -, hbuilt⟩ := bind_eq_ok.mp hbuilt
    cases hbuilt
    refine ⟨fun _ => rfl, fun id' hid' => ?_, fun id' hid' => ?_⟩
    · cases hid'
      rfl
    · cases hid'
      exact identifierOf_ok hid
  | _ => cases hrecovers

/-- Every handler asks only what is licensed. -/
theorem licensed_serve (endpoint : ConsoleEndpoint) :
    Wp (Licensed config request) (serve zod getTime config request endpoint) (fun _ _ => True)
      [] := by
  cases endpoint with
  | signIn =>
    simp only [serve, signIn, riskOperator, wp_bind, wp_lift, wp_query, wp_pure]
    exact fun _ _ => ⟨⟨rfl, .inl rfl⟩, fun _ _ _ _ _ => ⟨trivial, fun _ => trivial⟩⟩
  | session | overview | events _ | assessments _ | controls _ | incidents _ => exact wp_forwardRisk
  | logout =>
    simp only [serve, logout, wp_bind]
    exact wp_forwardRisk.mono fun _ _ _ => trivial
  | incident id =>
    simp only [serve, incident, wp_bind, wp_lift]
    exact fun _ _ => wp_forwardRisk
  | apply => exact wp_changeRisk
  | release id | updateIncident id =>
    simp only [serve, releaseControl, updateIncident, wp_bind, wp_lift]
    exact fun _ _ => wp_changeRisk
  | readiness | drills | drill _ | drillEvents _ | plan | acknowledge _ =>
    exact (wp_recovery rfl).mono fun _ _ _ => trivial

/-! ## Every run -/

/-- The question is for Resilience. -/
def ConsoleQuestion.isRecovery : ConsoleQuestion → Bool
  | .resilience _ _ => true
  | _ => false

/-- The errors that a failing Resilience leads to. -/
def recoveryErrors : List HandlerError := [stateConflict, recordNotFound, recoveryUnavailable]

theorem acceptRecovery_error
    (herror : acceptRecovery schema answer = .error e) : e ∈ recoveryErrors := by
  unfold acceptRecovery at herror
  split at herror
  · cases herror
    simp [recoveryErrors]
  · split_ifs at herror <;> cases herror <;> simp [recoveryErrors]

/-- The operator is asked for at Risk alone. -/
theorem ends_operator {r : Except HandlerError String}
    (hends : Ends (operator config request mutation) t r) :
    ∀ x ∈ t, x.1.isRecovery = false := by
  unfold operator at hends
  rcases ends_lift_bind.mp hends with ⟨e, -, rfl, -⟩ | ⟨auth, -, hends⟩
  · simp
  · rw [riskOperator, query_bind_bind] at hends
    obtain ⟨answer, after, rfl, hafter⟩ := ends_query_bind.mp hends
    have hrest : after = [] := by
      rcases ends_lift_bind.mp hafter with ⟨e, -, hnil, -⟩ | ⟨identity, -, hidentity⟩
      · exact hnil
      · split at hidentity
        · exact (ends_pure.mp hidentity).1
        · exact (ends_done.mp hidentity).1
    subst hrest
    simp [ConsoleQuestion.isRecovery]

/-- A handler that throws after a question to Resilience throws one of three errors. -/
theorem ends_recover {x : Sigma ConsoleAnswer}
    (hends : Ends (recover zod config request mutation build) t (.error e)) (hx : x ∈ t)
    (hrecovery : x.1.isRecovery = true) : e ∈ recoveryErrors := by
  unfold recover at hends
  rcases ends_bind.mp hends with ⟨_, -, hoperator⟩ | ⟨t₁, operatorId, t₂, rfl, hoperator, hends⟩
  · rw [ends_operator hoperator x hx] at hrecovery
    cases hrecovery
  · have hx₂ : x ∈ t₂ := (List.mem_append.mp hx).resolve_left fun hx₁ => by
      rw [ends_operator hoperator x hx₁] at hrecovery
      cases hrecovery
    rcases ends_lift_bind.mp hends with ⟨_, -, rfl, -⟩ | ⟨built, -, hends⟩
    · cases hx₂
    · rw [resilienceRequest, query_bind_bind] at hends
      obtain ⟨answer, after, rfl, hafter⟩ := ends_query_bind.mp hends
      rcases ends_lift_bind.mp hafter with ⟨e', herror, -, he⟩ | ⟨value, -, hreply⟩
      · cases he
        exact acceptRecovery_error herror
      · cases (ends_pure.mp hreply).2

end

/-- Whatever browsers send and the services answer: a message goes out to Resilience only after
    Risk has answered that the session in the request's cookie is that of a security operator,
    with the CSRF token double-submitted where something is recorded; it names no other operator,
    and no drill but by an identifier. -/
theorem recovery_authorised (zod : Zod) (getTime : String → ℤ) (config : ConsoleConfig)
    (request : RequestContext) (endpoint : ConsoleEndpoint) (t : History ConsoleAnswer)
    (recovery : RecoveryEndpoint) (body : Option Json)
    (hasks : Asks (serve zod getTime config request endpoint) t (.resilience recovery body)) :
    ∃ session csrf status identity operatorId,
      readCookie request.cookie config.operatorSessionCookieName = some session ∧
      t = [⟨.risk .validate { session, csrf } none, HttpAnswer.answered status identity⟩] ∧
      isOk status = true ∧ operatorIdentity identity = some operatorId ∧
      (recovery.method = .POST →
        ∃ token, DoubleSubmitted request config.operatorCsrfCookieName token) ∧
      (∀ id, recovery.operatorId = some id → id = operatorId) ∧
      ∀ id, recovery.drillId = some id → identifierSchema id = true := by
  obtain ⟨operatorId, ⟨auth, status, identity, ht, hstatus, hidentity, hpresents, hcsrf⟩, hoperator,
    hdrill⟩ := (licensed_serve endpoint).asked hasks
  refine ⟨auth.session, auth.csrf, status, identity, operatorId, hpresents.session, ht, hstatus,
    hidentity, fun hmethod => ?_, hoperator, hdrill⟩
  obtain ⟨token, htoken⟩ := hcsrf (decide_eq_true hmethod)
  exact ⟨token, hpresents.csrf token htoken⟩

/-- A handler of `ResilienceController` replies only to a validated operator, with what the
    contract of its route admits; when it throws after it has asked Resilience, the error is one
    of three, whatever Resilience answered. -/
theorem recovery_checked (zod : Zod) (getTime : String → ℤ) (config : ConsoleConfig)
    (request : RequestContext) (endpoint : ConsoleEndpoint) (hrecovers : endpoint.recovers = true)
    (t : History ConsoleAnswer) (result : Except HandlerError ConsoleReply)
    (hends : Ends (serve zod getTime config request endpoint) t result) :
    match result with
    | .ok reply => Recovered zod config request reply t
    | .error e => ∀ x ∈ t, x.1.isRecovery = true → e ∈ recoveryErrors := by
  cases result with
  | ok reply => exact (wp_recovery hrecovers).returned hends
  | error e =>
    intro x hx hrecovery
    cases endpoint with
    | readiness | drills | drill _ | drillEvents _ | plan | acknowledge _ =>
      exact ends_recover hends hx hrecovery
    | _ => cases hrecovers

/-! ### A drill is acknowledged -/

/-- An operator with both cookies acknowledges a drill. -/
def acknowledgement : RequestContext where
  cookie := some "aegis_operator_session=session-token; aegis_operator_csrf=csrf-token"
  csrfHeader := some "csrf-token"
  idempotencyKey := none
  correlationId := plainUuid
  body := reasonBody "The backup host was replaced."
  query := .object []

def consoleConfig : ConsoleConfig where
  operatorSessionCookieName := "aegis_operator_session"
  operatorCsrfCookieName := "aegis_operator_csrf"
  production := true

/-- An acknowledged drill, as Resilience describes it. -/
def acknowledgedDrill : Json :=
  .object [("drillId", .string "drill:00000001"), ("type", .string "MANUAL"),
    ("state", .string "FAILED"), ("startedAt", .string "2026-08-01T10:00:00.000Z"),
    ("completedAt", .null), ("requestedBy", .string "operator:tooling"), ("backupSetId", .null),
    ("measuredRecoveryPointAgeSeconds", .null), ("measuredRecoveryDurationMs", .null),
    ("reconciliations", .array []), ("failureCode", .string "RESTORE_FAILED"),
    ("acknowledgedAt", .string "2026-08-01T10:00:00.000Z"),
    ("acknowledgedBy", .string "operator:development-security")]

/-- Services that answer so. -/
def consoleWorld (_ : History ConsoleAnswer) : (q : ConsoleQuestion) → ConsoleAnswer q
  | .risk _ _ _ => .answered 200 (.object
    [("operatorId", .string "operator:development-security"),
      ("role", .string "SECURITY_OPERATOR")])
  | .resilience _ _ => .answered 200 acknowledgedDrill
  | .now => 0

/-- The acknowledgement goes out to Resilience with authority. -/
theorem recovery_authorised_acknowledge : ∃ t recovery body,
    Asks (serve isoZod (fun _ => 0) consoleConfig acknowledgement (.acknowledge "drill:00000001"))
      t (.resilience recovery body) ∧
    recovery.method = .POST ∧
    ∃ token, DoubleSubmitted acknowledgement consoleConfig.operatorCsrfCookieName token := by
  obtain ⟨t, ht, hends⟩ := leads_runIn consoleWorld
    (serve isoZod (fun _ => 0) consoleConfig acknowledgement (.acknowledge "drill:00000001")) []
  have hposted : ((runIn consoleWorld [] (serve isoZod (fun _ => 0) consoleConfig acknowledgement
      (.acknowledge "drill:00000001"))).1.any fun x => match x.1 with
        | .resilience recovery _ => recovery.method == .POST
        | _ => false) = true := by
    decide +kernel
  obtain ⟨⟨q, answer⟩, hx, hpost⟩ := List.any_eq_true.mp hposted
  rw [ht, List.nil_append] at hx
  obtain ⟨before, after, rfl⟩ := List.append_of_mem hx
  have hasks := asks_of_leads hends
  cases q with
  | resilience recovery body =>
    have hmethod : recovery.method = .POST := by simpa using hpost
    obtain ⟨-, -, -, -, -, -, -, -, -, hcsrf, -⟩ := recovery_authorised _ _ _ _ _ _ _ _ hasks
    exact ⟨before, recovery, body, hasks, hmethod, hcsrf hmethod⟩
  | _ => cases hpost

/-- The acknowledged drill is shown. -/
theorem recovery_checked_acknowledge : ∃ t reply,
    Ends (serve isoZod (fun _ => 0) consoleConfig acknowledgement (.acknowledge "drill:00000001"))
      t (.ok reply) ∧ Recovered isoZod consoleConfig acknowledgement reply t := by
  obtain ⟨t, -, hends⟩ := leads_runIn consoleWorld
    (serve isoZod (fun _ => 0) consoleConfig acknowledgement (.acknowledge "drill:00000001")) []
  have hreplies : (runIn consoleWorld [] (serve isoZod (fun _ => 0) consoleConfig acknowledgement
      (.acknowledge "drill:00000001"))).2.toOption.isSome = true := by
    decide +kernel
  cases hresult : (runIn consoleWorld [] (serve isoZod (fun _ => 0) consoleConfig acknowledgement
      (.acknowledge "drill:00000001"))).2 with
  | error e =>
    rw [hresult] at hreplies
    cases hreplies
  | ok reply =>
    rw [hresult] at hends
    exact ⟨t, reply, hends, recovery_checked _ _ _ _ _ rfl t _ hends⟩

/-! ## The Gateway in front of Risk -/

section
variable (decode : OperatorEndpoint → Json → Option Risk.OperatorRequest)

/-- The request that Risk takes from a message: its headers are trimmed, and `decode` stands for
    its own schemas of changes. -/
def operatorHttp (correlationId : String) (endpoint : OperatorEndpoint) (auth : OperatorAuth)
    (body : Option Json) : Risk.OperatorSessions.OperatorHttp where
  token := trim auth.session
  csrf := auth.csrf.map trim
  correlationId := correlationId
  route :=
    let posted := body.getD (.object [])
    match endpoint with
    | .bootstrap => .bootstrap <|
      if bootstrapRequest posted then
        match posted with
        | .object members => Json.stringMember members "accessToken"
        | _ => none
      else none
    | .validate => .validate
    | .logout => .logout
    | .overview | .list _ _ | .incident _ => .read endpoint.path
    | .apply | .release _ | .updateIncident _ => .mutate (decode endpoint posted)

variable (zod : Zod) (getTime : String → ℤ) (console : ConsoleConfig)

/-- Some handler of the console sends the request to Risk for a browser. -/
def SentFor (browser : RequestContext) (request : Risk.OperatorSessions.OperatorHttp) : Prop :=
  ∃ route t endpoint auth body,
    Asks (serve zod getTime console browser route) t (.risk endpoint auth body) ∧
    request = operatorHttp decode browser.correlationId endpoint auth body

/-- Risk is asked by the Gateway alone. -/
def FromGateway (_ : Risk.OperatorSessions.State) : Risk.OperatorSessions.Action → Prop
  | .start request => ∃ browser, SentFor decode zod getTime console browser request
  | _ => True

variable {decode zod getTime console} {sha256 : String → String}
  {config : Risk.OperatorSessions.RiskConfig} {s : Risk.OperatorSessions.State}

theorem sent_of_reachable
    (hs : (Risk.OperatorSessions.requests sha256 config).machine.Reachable
      (FromGateway decode zod getTime console) s) :
    ∀ call ∈ s.calls, ∃ browser, SentFor decode zod getTime console browser call.input := by
  have hinvariant := Pool.invariant_of_start (G := fun _ => True)
    (A := fun _ call => ∃ browser, SentFor decode zod getTime console browser call.input)
    (fun _ _ => trivial) (fun _ _ _ hsent => hsent)
    (fun _ _ _ call _ _ _ hcalls _ hn hnext => by
      obtain ⟨q, next, a, -, -, rfl⟩ := Task.next_some hnext
      exact ⟨trivial, hcalls call (Pool.mem_of_getElem? hn),
        fun m other _ hm => hcalls other (Pool.mem_of_getElem? hm)⟩)
    (fun _ _ _ _ _ _ => ⟨trivial, fun _ => id⟩) hs
  exact hinvariant.2

/-- A change is only sent with the credentials of the request. -/
theorem presents_of_sent {browser : RequestContext}
    {request : Risk.OperatorSessions.OperatorHttp} {body : Option Risk.OperatorRequest}
    (hsent : SentFor decode zod getTime console browser request)
    (hroute : request.route = .mutate body) :
    ∃ session token, readCookie browser.cookie console.operatorSessionCookieName = some session ∧
      DoubleSubmitted browser console.operatorCsrfCookieName token ∧ request.token = trim session ∧
      request.csrf = some (trim token) := by
  obtain ⟨route, t, endpoint, auth, posted, hasks, rfl⟩ := hsent
  obtain ⟨-, hlicence⟩ := (licensed_serve route).asked hasks
  have hchanges : endpoint.changes = true := by
    cases endpoint <;> first | rfl | cases hroute
  rcases hlicence with rfl | ⟨hpresents, hcsrf⟩
  · cases hchanges
  · obtain ⟨token, htoken⟩ := hcsrf hchanges
    exact ⟨auth.session, token, hpresents.session, hpresents.csrf token htoken, rfl,
      by rw [operatorHttp, htoken]; rfl⟩

end

/-- However the requests of any browsers through the Gateway are interleaved at Risk: what changes
    anything was asked for by a request that carries both cookies of one session opened with the
    access token and repeats its CSRF token in the header. -/
theorem operator_change_double_submitted (zod : Zod) (getTime : String → ℤ)
    (console : ConsoleConfig) (decode : OperatorEndpoint → Json → Option Risk.OperatorRequest)
    (sha256 : String → String) (config : Risk.OperatorSessions.RiskConfig)
    (s : Risk.OperatorSessions.State)
    (hs : (Risk.OperatorSessions.requests sha256 config).machine.Reachable
      (FromGateway decode zod getTime console) s)
    (call : Risk.OperatorSessions.Call) (hcall : call ∈ s.calls) (operatorId : String)
    (work : Risk.OperatorSessions.OperatorWork)
    (hwork : Risk.OperatorSessions.Works call operatorId work) (hchange : work.mutation = true) :
    ∃ browser session token, SentFor decode zod getTime console browser call.input ∧
      readCookie browser.cookie console.operatorSessionCookieName = some session ∧
      DoubleSubmitted browser console.operatorCsrfCookieName token ∧
      ∃ opener ∈ s.calls, ∃ session' csrf createdAt,
        Risk.OperatorSessions.OpenedBy sha256 config opener session' csrf createdAt ∧
        sha256 (trim session) = sha256 session' ∧ sha256 (trim token) = sha256 csrf := by
  obtain ⟨hrequested, opener, hopener, session', csrf, createdAt, now, hopened, htoken, -, -, -,
    hmatches⟩ := Risk.OperatorSessions.authorised_of_works hs hcall hwork
  obtain ⟨browser, hsent⟩ := sent_of_reachable hs call hcall
  cases work with
  | read path => cases hchange
  | mutate correlationId body =>
    obtain ⟨session, token, hsession, hsubmitted, hheader, hcsrf⟩ :=
      presents_of_sent hsent hrequested.1
    obtain ⟨supplied, hsupplied, hhash⟩ := hmatches rfl
    rw [hheader] at htoken
    rw [hcsrf] at hsupplied
    cases hsupplied
    exact ⟨browser, session, token, hsent, hsession, hsubmitted, opener, hopener, session', csrf,
      createdAt, hopened, htoken, hhash⟩

/-! ### A control is released -/

/-- The request that Risk gets first from a handler. -/
def sentBy (decode : OperatorEndpoint → Json → Option Risk.OperatorRequest) (zod : Zod)
    (getTime : String → ℤ) (console : ConsoleConfig) (browser : RequestContext)
    (route : ConsoleEndpoint) : Option Risk.OperatorSessions.OperatorHttp :=
  match serve zod getTime console browser route with
  | .ask (.risk endpoint auth body) _ =>
    some (operatorHttp decode browser.correlationId endpoint auth body)
  | _ => none

theorem sentFor_of_sentBy {decode : OperatorEndpoint → Json → Option Risk.OperatorRequest}
    {zod : Zod} {getTime : String → ℤ} {console : ConsoleConfig} {browser : RequestContext}
    {route : ConsoleEndpoint} {request : Risk.OperatorSessions.OperatorHttp}
    (h : request ∈ sentBy decode zod getTime console browser route) :
    SentFor decode zod getTime console browser request := by
  unfold sentBy at h
  split at h
  next endpoint auth body next hserve =>
    cases h
    exact ⟨route, [], endpoint, auth, body, ⟨next, hserve ▸ .refl _⟩, rfl⟩
  · cases h

/-- The bodies of releases. -/
def decodeRelease : OperatorEndpoint → Json → Option Risk.OperatorRequest
  | .release id, .object members => (Json.stringMember members "reason").map (.release id)
  | _, _ => none

/-- An operator signs in. -/
def signInRequest : RequestContext :=
  { acknowledgement with
    cookie := none
    csrfHeader := none
    body := .object [("accessToken", .string "development-access-token")] }

/-- The operator signs in, and releases a control. -/
def releaseRun : List Risk.OperatorSessions.Action :=
  ((sentBy decodeRelease isoZod (fun _ => 0) consoleConfig signInRequest .signIn).toList.map
      Pool.Action.start) ++
    [Risk.OperatorSessions.steps 0 "session-token", Risk.OperatorSessions.steps 0 "csrf-token",
      Risk.OperatorSessions.steps 0 "", Risk.OperatorSessions.steps 0 ""] ++
    ((sentBy decodeRelease isoZod (fun _ => 0) consoleConfig acknowledgement
      (.release plainUuid)).toList.map Pool.Action.start) ++
    [Risk.OperatorSessions.steps 1 "", Risk.OperatorSessions.steps 1 ""]

theorem fromGateway_releaseRun : ∀ action ∈ releaseRun, ∀ s,
    FromGateway decodeRelease isoZod (fun _ => 0) consoleConfig s action := by
  intro action haction s
  have hsent : ∀ {browser route}, action ∈ ((sentBy decodeRelease isoZod (fun _ => 0)
      consoleConfig browser route).toList.map Pool.Action.start) →
      FromGateway decodeRelease isoZod (fun _ => 0) consoleConfig s action := by
    intro browser route hmem
    obtain ⟨request, hrequest, rfl⟩ := List.mem_map.mp hmem
    exact ⟨browser, sentFor_of_sentBy (Option.mem_toList.mp hrequest)⟩
  simp only [releaseRun, List.mem_append, List.mem_cons, List.not_mem_nil, or_false] at haction
  rcases haction with ((h | rfl | rfl | rfl | rfl) | h) | rfl | rfl
  · exact hsent h
  · trivial
  · trivial
  · trivial
  · trivial
  · exact hsent h
  · trivial
  · trivial

/-- A release through the Gateway. -/
theorem operator_change_double_submitted_release : ∃ s : Risk.OperatorSessions.State,
    (Risk.OperatorSessions.requests id Risk.OperatorSessions.development).machine.Reachable
      (FromGateway decodeRelease isoZod (fun _ => 0) consoleConfig) s ∧
    ∃ call ∈ s.calls, ∃ operatorId work, work.mutation = true ∧
      Risk.OperatorSessions.Works call operatorId work ∧
      ∃ browser token, SentFor decodeRelease isoZod (fun _ => 0) consoleConfig browser call.input ∧
        DoubleSubmitted browser consoleConfig.operatorCsrfCookieName token := by
  have hmutates : (((Risk.OperatorSessions.requests id
      Risk.OperatorSessions.development).machine.run Risk.OperatorSessions.opening releaseRun).any
        fun s => s.calls.any Risk.OperatorSessions.mutates) = true := by
    decide +kernel
  obtain ⟨s, hrun, hmutates⟩ := (Option.any_eq_true _ _).mp hmutates
  have hs := (Machine.Reachable.init (Risk.OperatorSessions.opening_init id)).path
    (Machine.path_of_run_of_forall fromGateway_releaseRun hrun)
  obtain ⟨call, hcall, hcallMutates⟩ := List.any_eq_true.mp hmutates
  obtain ⟨operatorId, work, hworks, hmutation⟩ :=
    Risk.OperatorSessions.exists_of_mutates hcallMutates
  obtain ⟨browser, session, token, hsent, -, hsubmitted, -⟩ := operator_change_double_submitted _ _
    _ _ _ _ s hs call hcall operatorId work hworks hmutation
  exact ⟨s, hs, call, hcall, operatorId, work, hmutation, hworks, browser, token, hsent, hsubmitted⟩

end AegisShield.Gateway.Console
