import AegisShield.Gateway.Clients

/-!
# The controllers of the Gateway

The handlers of `TransfersController`, `ChannelsController` and `AccountsController`
(`transfers.controller.ts`, `channels.controller.ts`, `accounts.controller.ts`): what a browser
asks of the Gateway, and what the Gateway asks of the services behind it before it replies.
-/

namespace AegisShield.Gateway

open Common Sabcl Payments

/-! ## Requests and replies -/

/-- What a handler returns: the status, the body, and whether it is marked
    `cache-control: private, no-store`. -/
structure Reply where
  status : ℕ
  body : Json
  noStore : Bool

/-- The error of `parse`. -/
def invalidRequest : HandlerError :=
  .http 400 (errorBody "INVALID_REQUEST" "The request is invalid.")

/-- `parse`, with a schema that returns a value. -/
def parse {α : Type} (parsed : Option α) : Handler α :=
  match parsed with
  | some value => return value
  | none => .raise invalidRequest

/-- `parse`, with a schema that is a check. -/
def parseJson (schema : Json → Bool) (body : Json) : Handler Json :=
  parse (if schema body then some body else none)

/-- A member of a member, `undefined` where there is none. -/
def dig : Json → List String → Json
  | value, [] => value
  | .object members, name :: names => dig ((Json.member members name).getD .undefined) names
  | _, _ :: _ => .undefined

/-- A member of an object that is left out when there is no text. -/
def textField (name : String) (value : Option String) : List (String × Json) :=
  (value.map fun text => (name, Json.string text)).toList

/-- `z.string().regex(/^[A-Za-z0-9._:-]{16,128}$/u)` of the header `idempotency-key`. -/
def requireIdempotencyKey (request : RequestContext) : Handler String :=
  match request.idempotencyKey.filter idempotencyKeySchema with
  | some key => return key
  | none => .raise (.http 400 (errorBody "IDEMPOTENCY_KEY_REQUIRED" none))

/-- `sessionId`, which may not be empty. -/
def requireSessionId (config : GatewayConfig) (request : RequestContext) : Handler String := do
  let sessionId ← cookieValue request config.sessionCookieName
  if sessionId = "" then .raise (.http 401 (errorBody "UNAUTHENTICATED" none))
  else return sessionId

/-- The body of `transfer-step-up`. -/
def pinBody (pin : String) : Json := .object [("pin", .string pin)]

/-- The status of a reply to a confirmation. -/
def confirmationStatus (result : Json) : ℕ :=
  match dig result ["status"] with
  | .string "PROCESSING" => 202
  | _ => 200

section Handlers

variable (zod : Zod) (config : GatewayConfig) (request : RequestContext)

/-- The message of a request to a service. -/
def message (call : GatewayCall) (body : Option Json := none) (customerId : Option String := none) :
    ServiceMessage where
  call := call
  body := body
  customerId := customerId
  correlationId := request.correlationId

/-! ## `TransfersController` -/

/-- `csrf` (lines 65-85). -/
def transferCsrf (customerId : String) : Handler Unit :=
  match requireCsrfToken request config.csrfCookieName with
  | .ok _ => return ()
  | .error error => do
    riskEmit zod
      { eventType := "CSRF_FAILURE", severity := "MEDIUM", subjectId := customerId,
        attributes := [("operation", .string "TRANSFER"), ("outcome", .string "REJECTED")] }
      request.correlationId
    .raise error

/-- `policy` (lines 86-98). -/
def transferPolicy : Handler Reply := do
  let _ ← resolve zod config request
  let policy ← upstreamRequest config (message request .policy) transferPolicySchema
  return { status := 200, body := policy, noStore := true }

/-- The body of an intent: `{ ...data, senderCustomerId }`. -/
def intentBody (data : TransferPreviewRequest) (customerId : String) : Json :=
  .object [("sourceAccountId", .string data.sourceAccountId),
    ("recipientReference", .string data.recipientReference), ("amount", .string data.amount),
    ("senderCustomerId", .string customerId)]

/-- `preview` (lines 99-128). -/
def transferPreview : Handler Reply := do
  let customerId ← resolve zod config request
  transferCsrf zod config request customerId
  let data ← parse (transferPreviewRequestSchema zod request.body)
  let result ← upstreamRequest config
    (message request .preview (some (intentBody data customerId)))
    (transferPreviewResponseSchema zod)
  riskEmit zod
    { eventType := "TRANSFER_PREVIEW", severity := "INFO", subjectId := customerId,
      accountId := data.sourceAccountId,
      attributes := [("operation", .string "TRANSFER_PREVIEW"),
        ("amountMinor", dig result ["amount", "minorUnits"]),
        ("currency", dig result ["amount", "currency"])] }
    request.correlationId
  return { status := 201, body := result, noStore := true }

/-- The scopes of the check before a confirmation. -/
def confirmationScopes (customerId sessionId : String) : List (String × String) :=
  [("CUSTOMER", customerId), ("SESSION", sessionId),
    ("OPERATION", "operation:transfer-confirmation")]

/-- The body of a confirmation for Payments. -/
def confirmationBody (actor customerId : String) (intentToken idempotencyKey : String) : Json :=
  .object [(actor, .string customerId), ("intentToken", .string intentToken),
    ("idempotencyKey", .string idempotencyKey)]

/-- The error of a transfer that a control stops. -/
def controlActive : HandlerError :=
  .http 403 (errorBody "SECURITY_CONTROL_ACTIVE" "The transfer cannot be completed.")

/-- `confirm` (lines 129-251). -/
def transferConfirm : Handler Reply := do
  let customerId ← resolve zod config request
  transferCsrf zod config request customerId
  let data ← parse (transferConfirmationRequestSchema request.body)
  let key ← requireIdempotencyKey request
  let sessionId ← requireSessionId config request
  let allowed ← riskCheck zod "TRANSFER_CONFIRMATION" (confirmationScopes customerId sessionId)
    request.correlationId
  let event (eventType severity outcome : String) : GatewayEvent :=
    { eventType := eventType, severity := severity, subjectId := customerId, sessionId := sessionId,
      attributes := [("operation", .string "TRANSFER_CONFIRMATION"), ("outcome", .string outcome)] }
  if !allowed then
    riskEmit zod (event "FORBIDDEN_ROUTE" "HIGH" "CONTROL_BLOCKED") request.correlationId
    .raise controlActive
  else
    let _ ← identityRequest transferStepUpEndpoint .POST sessionId (pinBody data.pin)
    let assessment ←
      riskEvaluate zod "TRANSFER_CONFIRMATION" customerId sessionId request.correlationId
    if assessment.decision ∉ ["ALLOW", "ALLOW_WITH_MONITORING"] then
      riskEmit zod (event "FORBIDDEN_ROUTE" assessment.band assessment.decision)
        request.correlationId
      .raise controlActive
    else
      let _ ← upstreamRequest config
        (message request (.authorize data.intentToken) (some (.object [])) customerId)
        (fun body => match body with | .undefined => true | _ => false)
      let body ← parseJson (internalTransferConfirmationSchema zod)
        (confirmationBody "senderCustomerId" customerId data.intentToken key)
      let result ← upstreamRequest config (message request .confirm (some body))
        (transferDetailSchema zod)
      riskEmit zod (event "TRANSFER_CONFIRMATION"
          (if assessment.band = "LOW" then "INFO" else assessment.band)
          ((match dig result ["status"] with | .string status => status | _ => "")))
        request.correlationId
      return { status := confirmationStatus result, body := result, noStore := true }

/-- `list` (lines 252-269). -/
def transferList : Handler Reply := do
  let customerId ← resolve zod config request
  let query ← parse (transferListQuerySchema zod request.query)
  let transfers ← upstreamRequest config (message request (.transfers customerId query))
    (transferListResponseSchema zod)
  return { status := 200, body := transfers, noStore := true }

/-- `detail` (lines 270-284). -/
def transferDetail (transferId : String) : Handler Reply := do
  let customerId ← resolve zod config request
  let id ← parse (if zod.isUuid transferId then some transferId else none)
  let transfer ← upstreamRequest config (message request (.transfer customerId id))
    (transferDetailSchema zod)
  return { status := 200, body := transfer, noStore := true }

/-! ## `ChannelsController` -/

/-- The body of a QR code: `internalQrIssueRequestSchema` of the customer's choice. -/
def qrIssueBody (customerId accountId type currency : String)
    (amountMinor purpose : Option String) : Json :=
  .object ([("customerId", Json.string customerId), ("accountId", .string accountId),
    ("type", .string type)] ++ textField "amountMinor" amountMinor ++
    [("currency", .string currency)] ++ textField "purpose" purpose)

/-- The end of `qrReceive` and `qrDynamic`. -/
def issueQr (body : Json) : Handler Reply := do
  let body ← parseJson (internalQrIssueRequestSchema zod) body
  let issued ← upstreamRequest config (message request .qrIssue (some body))
    (qrIssueResponseSchema zod)
  return { status := 201, body := issued, noStore := true }

/-- `qrReceive` (lines 80-107). -/
def qrReceive : Handler Reply := do
  let customerId ← resolve zod config request
  let _ ← Interaction.lift (requireCsrfToken request config.csrfCookieName)
  let accountId ← parse (qrReceiveRequestSchema zod request.body)
  issueQr zod config request (qrIssueBody customerId accountId "STATIC" "LKR" none none)

/-- `qrDynamic` (lines 109-138). -/
def qrDynamic : Handler Reply := do
  let customerId ← resolve zod config request
  let _ ← Interaction.lift (requireCsrfToken request config.csrfCookieName)
  let data ← parse (qrDynamicRequestSchema zod request.body)
  issueQr zod config request
    (qrIssueBody customerId data.sourceAccountId "DYNAMIC" data.currency data.amount data.purpose)

/-- `qrPreview` (lines 140-166). -/
def qrPreview : Handler Reply := do
  let customerId ← resolve zod config request
  let _ ← Interaction.lift (requireCsrfToken request config.csrfCookieName)
  let data ← parse (qrPreviewRequestSchema zod request.body)
  let preview ← upstreamRequest config
    (message request .qrPreview (some (.object [("payload", .string data.payload),
      ("senderCustomerId", .string customerId),
      ("sourceAccountId", .string data.sourceAccountId)])))
    (transferPreviewResponseSchema zod)
  return { status := 201, body := preview, noStore := true }

/-- `qrConfirm` and `agentCashConfirm`, which differ in the call, the name of the actor and the
    schema of the answer. -/
def channelConfirm (call : GatewayCall) (actor : String) (schema : Json → Bool) :
    Handler Reply := do
  let customerId ← resolve zod config request
  let _ ← Interaction.lift (requireCsrfToken request config.csrfCookieName)
  let data ← parse (transferConfirmationRequestSchema request.body)
  let key ← requireIdempotencyKey request
  let sessionId ← requireSessionId config request
  let _ ← identityRequest transferStepUpEndpoint .POST sessionId (pinBody data.pin)
  let result ← upstreamRequest config
    (message request call (some (confirmationBody actor customerId data.intentToken key))) schema
  return { status := confirmationStatus result, body := result, noStore := true }

/-- `qrConfirm` (lines 168-227). -/
def qrConfirm : Handler Reply :=
  channelConfirm zod config request .qrRedeem "senderCustomerId" (transferDetailSchema zod)

/-- `agentCashInPreview` and `agentCashOutPreview`, which differ in the call. -/
def agentCashPreview (call : GatewayCall) : Handler Reply := do
  let agentId ← resolve zod config request
  let _ ← Interaction.lift (requireCsrfToken request config.csrfCookieName)
  let data ← parse (agentCashPreviewRequestSchema request.body)
  let preview ← upstreamRequest config
    (message request call (some (.object [("agentId", .string agentId),
      ("agentReference", .string "AEGIS-AGT-0000"),
      ("customerReference", .string data.customerReference),
      ("amountMinor", .string data.amountMinor), ("currency", .string data.currency)])))
    (agentCashPreviewResponseSchema zod)
  return { status := 201, body := preview, noStore := true }

/-- `agentCashInPreview` (lines 231-264). -/
def agentCashInPreview : Handler Reply := agentCashPreview zod config request .agentCashInPreview

/-- `agentCashOutPreview` (lines 266-294). -/
def agentCashOutPreview : Handler Reply := agentCashPreview zod config request .agentCashOutPreview

/-- `agentCashConfirm` (lines 296-355). -/
def agentCashConfirm : Handler Reply :=
  channelConfirm zod config request .agentCashConfirm "agentId" (agentCashResultSchema zod)

/-- `ussdSimulate` (lines 359-383). -/
def ussdSimulate : Handler Reply := do
  let customerId ← resolve zod config request
  let _ ← Interaction.lift (requireCsrfToken request config.csrfCookieName)
  let answer ← upstreamRequest config (message request .ussdSimulate (some request.body) customerId)
    (fun _ => true)
  return { status := 200, body := answer, noStore := true }

/-- `ussdWebhook` (lines 385-396). -/
def ussdWebhook : Handler Reply := do
  let answer ← upstreamRequest config (message request .ussdWebhook (some request.body))
    (fun _ => true)
  return { status := 200, body := answer, noStore := false }

/-! ## `AccountsController` -/

/-- `accountId` (lines 62-78). -/
def requireAccountId (value : String) : Handler String :=
  if zod.isUuid value then return value
  else .raise (.http 404 (errorBody "ACCOUNT_NOT_FOUND" "The account could not be found."))

/-- `list` (lines 80-89). -/
def accountList : Handler Reply := do
  let customerId ← resolve zod config request
  let accounts ← upstreamRequest config (message request (.customerAccounts customerId))
    (customerAccountListSchema zod)
  return { status := 200, body := accounts, noStore := false }

/-- `provisionDefault` (lines 91-135). -/
def provisionDefault : Handler Reply := do
  let customerId ← resolve zod config request
  let _ ← Interaction.lift (requireCsrfToken request config.csrfCookieName)
  match (request.idempotencyKey.map trim).filter idempotencyKeySchema with
  | none =>
    .raise (.http 400
      (errorBody "IDEMPOTENCY_KEY_REQUIRED" "A valid Idempotency-Key header is required."))
  | some key => do
    let _ ← parseJson provisionDefaultAccountRequestSchema
      (orElseBody (.object []) request.body)
    let result ← upstreamRequest config
      (message request .provisionDefaultAccount (some (.object
        [("customerId", .string customerId), ("productType", .string "TIER0_WALLET"),
          ("currency", .string "LKR"), ("idempotencyKey", .string key)])))
      (provisionDefaultAccountResultSchema zod)
    return { status := 201, body := dig result ["account"], noStore := false }

/-- The four reads of one account: the identifiers are checked after the session, and the answer
    is the Ledger's. -/
def readAccount (call : Handler GatewayCall) (schema : Json → Bool) (noStore : Bool) :
    Handler Reply := do
  let customerId ← resolve zod config request
  let call ← call
  let answer ← upstreamRequest config (message request call none customerId) schema
  return { status := 200, body := answer, noStore := noStore }

/-- `detail` (lines 137-150). -/
def accountDetail (accountId : String) : Handler Reply :=
  readAccount zod config request (do return .customerAccount (← requireAccountId zod accountId))
    (customerAccountDetailSchema zod) false

/-- `balance` (lines 152-165). -/
def accountBalance (accountId : String) : Handler Reply :=
  readAccount zod config request
    (do return .customerAccountBalance (← requireAccountId zod accountId))
    (accountBalanceSchema zod) false

/-- `transactions` (lines 167-192). -/
def accountTransactions (accountId : String) : Handler Reply :=
  readAccount zod config request
    (do
      let query ← parse (transactionHistoryQuerySchema zod request.query)
      return .customerTransactions (← requireAccountId zod accountId) query)
    (transactionHistoryResponseSchema zod) true

/-- `transaction` (lines 194-214). -/
def accountTransaction (accountId transactionId : String) : Handler Reply :=
  readAccount zod config request
    (do
      let transactionId ← requireAccountId zod transactionId
      return .customerTransaction (← requireAccountId zod accountId) transactionId)
    (customerTransactionDetailSchema zod) true

/-! ## The routes of the three controllers -/

/-- The routes, with their parameters. -/
inductive Endpoint where
  | transferPolicy
  | transferPreview
  | transferConfirm
  | transferList
  | transferDetail (transferId : String)
  | qrReceive
  | qrDynamic
  | qrPreview
  | qrConfirm
  | agentCashInPreview
  | agentCashOutPreview
  | agentCashConfirm
  | ussdSimulate
  | ussdWebhook
  | accountList
  | provisionDefault
  | accountDetail (accountId : String)
  | accountBalance (accountId : String)
  | accountTransactions (accountId : String)
  | accountTransaction (accountId transactionId : String)

/-- The handler of a route. -/
def serve : Endpoint → Handler Reply
  | .transferPolicy => transferPolicy zod config request
  | .transferPreview => transferPreview zod config request
  | .transferConfirm => transferConfirm zod config request
  | .transferList => transferList zod config request
  | .transferDetail id => transferDetail zod config request id
  | .qrReceive => qrReceive zod config request
  | .qrDynamic => qrDynamic zod config request
  | .qrPreview => qrPreview zod config request
  | .qrConfirm => qrConfirm zod config request
  | .agentCashInPreview => agentCashInPreview zod config request
  | .agentCashOutPreview => agentCashOutPreview zod config request
  | .agentCashConfirm => agentCashConfirm zod config request
  | .ussdSimulate => ussdSimulate zod config request
  | .ussdWebhook => ussdWebhook config request
  | .accountList => accountList zod config request
  | .provisionDefault => provisionDefault zod config request
  | .accountDetail id => accountDetail zod config request id
  | .accountBalance id => accountBalance zod config request id
  | .accountTransactions id => accountTransactions zod config request id
  | .accountTransaction id transactionId => accountTransaction zod config request id transactionId

end Handlers

end AegisShield.Gateway
