import AegisShield.Gateway.Catalogue
import AegisShield.Payments.Ussd
import AegisShield.Payments.QrPayload

/-!
# The channel API between the Gateway and Payments

What `ChannelsController` of the Gateway sends (`channels.controller.ts`) and the schemas it
parses the answers with (`contracts/channels/v1.ts`, `contracts/payments/v1.ts`), the routes of
Payments' controllers, and the bodies that its handlers answer with (`qr.service.ts`,
`agent.service.ts`, `ussd.service.ts`).

Results:
* `agrees_iff`: the requests that Payments serves with answers the Gateway accepts.
* `qr_confirm_disagrees`: confirming a QR payment is not one of them.
-/

namespace AegisShield.Gateway

open Common Sabcl Payments

/-! ## Requests -/

/-- The bodies of the two agent previews; the amount is sent as its decimal text. -/
structure AgentPreviewRequest where
  agentId : String
  customerReference : String
  amountMinor : ℕ
  currency : String

/-- The requests that `ChannelsController` sends to Payments; those of a QR code carry what
    `internalQrIssueRequestSchema` has parsed. -/
inductive ChannelRequest where
  | qrReceive (customerId sourceAccountId : String)
  | qrDynamic (customerId sourceAccountId : String) (amount : ℕ) (currency : String)
      (purpose : Option String)
  | qrPreview (input : QrPreviewInput)
  | qrConfirm (input : ConfirmInput)
  | agentCashInPreview (input : AgentPreviewRequest)
  | agentCashOutPreview (input : AgentPreviewRequest)
  | agentCashConfirm (input : ConfirmInput)
  | ussdSimulate (customerId : String) (body : Json)
  | ussdWebhook (body : Json)

namespace ChannelRequest

/-- The endpoint of a request. -/
def call : ChannelRequest → GatewayCall
  | qrReceive _ _ | qrDynamic _ _ _ _ _ => .qrIssue
  | qrPreview _ => .qrPreview
  | qrConfirm _ => .qrRedeem
  | agentCashInPreview _ => .agentCashInPreview
  | agentCashOutPreview _ => .agentCashOutPreview
  | agentCashConfirm _ => .agentCashConfirm
  | ussdSimulate _ _ => .ussdSimulate
  | ussdWebhook _ => .ussdWebhook

/-- What the controller has checked of the body of a dynamic code (`qrDynamicRequestSchema`). -/
def Checked : ChannelRequest → Prop
  | qrDynamic _ _ amount currency purpose =>
    0 < amount ∧ amount < 10 ^ 24 ∧ Payments.currencyFormat.accepts currency = true ∧
      ∀ text ∈ purpose, utf16Length text ≤ 64
  | _ => True

end ChannelRequest

/-! ## Routes of Payments -/

/-- A route of a controller: its method, and its segments, `none` for a parameter. -/
abbrev Route := Method × List (Option String)

/-- The routes of `QrController`, `AgentController`, `UssdController`, `TransfersController`,
    `HealthController` and `SabclInboundController` of Payments. -/
def paymentsRoutes : List Route :=
  [(.POST, [some "internal", some "qr", some "issue"]),
   (.POST, [some "internal", some "qr", some "preview"]),
   (.POST, [some "internal", some "qr", some "confirm"]),
   (.GET, [some "internal", some "qr", none, none, some "status"]),
   (.GET, [some "internal", some "qr", none, none, some "receipt"]),
   (.POST, [some "internal", some "agent", some "cash-in", some "preview"]),
   (.POST, [some "internal", some "agent", some "cash-out", some "preview"]),
   (.POST, [some "internal", some "agent", some "cash", some "confirm"]),
   (.GET, [some "internal", some "agent", none, some "cash", none, some "status"]),
   (.GET, [some "internal", some "agent", none, some "limits"]),
   (.POST, [some "internal", some "ussd", some "webhook"]),
   (.POST, [some "internal", some "ussd", some "simulate"]),
   (.GET, [some "internal", some "transfer-policy"]),
   (.POST, [some "internal", some "transfer-intents"]),
   (.POST, [some "internal", some "transfer-intents", none, some "authorize"]),
   (.POST, [some "internal", some "transfers"]),
   (.GET, [some "internal", some "customers", none, some "transfers"]),
   (.GET, [some "internal", some "customers", none, some "transfers", none]),
   (.POST, [some "internal", some "recovery", some "run"]),
   (.POST, [some "internal", some "reconciliation"]),
   (.GET, [some "health"]),
   (.GET, [some "health", some "live"]),
   (.GET, [some "health", some "ready"]),
   (.POST, [some "sabcl", some "v1", some "inbound"])]

/-- The segments of a path match those of a route, a parameter any that is not empty. -/
def segmentsMatch : List (Option String) → List (List Char) → Bool
  | [], [] => true
  | some text :: route, segment :: path =>
    decide (text.toList = segment) && segmentsMatch route path
  | none :: route, segment :: path => !segment.isEmpty && segmentsMatch route path
  | _, _ => false

/-- Some controller of Payments serves the method and the path. -/
def served (method : Method) (path : String) : Bool :=
  paymentsRoutes.any fun route =>
    decide (route.1 = method) && segmentsMatch route.2 ((path.toList.splitOn '/').drop 1)

/-! ## Response schemas -/

/-- `z.string()` with a check. -/
def text (p : String → Bool) : Json → Bool
  | .string s => p s
  | _ => false

/-- `.nullable()`. -/
def nullable (p : Json → Bool) : Json → Bool
  | .null => true
  | value => p value

/-- `z.object(fields).strict()`: no other member, and each field passes. -/
def strict (fields : List (String × (Json → Bool))) : Json → Bool
  | .object members =>
    members.all (fun m => fields.any fun f => decide (f.1 = m.1)) &&
      fields.all fun f => (Json.member members f.1).any f.2
  | _ => false

/-- `signedMinorUnitsSchema` (`contracts/accounts/v1.ts`, lines 30-33). -/
def signedMinorUnitsSchema (value : String) : Bool :=
  decide (value = "0") || positiveMinorUnitsSchema value ||
    match value.toList with
    | '-' :: digits => positiveMinorUnitsSchema (String.ofList digits)
    | _ => false

/-- `moneySchema` (`contracts/accounts/v1.ts`, lines 36-41). -/
def moneySchema : Json → Bool :=
  strict [("currency", text currencyCodeSchema), ("minorUnits", text signedMinorUnitsSchema)]

/-- `opaqueIntentTokenSchema` (`contracts/payments/v1.ts`, lines 70-72), which the channel contracts
    repeat. -/
def opaqueIntentTokenSchema (value : String) : Bool :=
  decide (43 ≤ value.toList.length ∧ value.toList.length ≤ 128) &&
    value.toList.all PathPart.isIdChar

/-- `agentPublicReferenceSchema` (`contracts/channels/v1.ts`, lines 259-261). -/
def agentPublicReferenceSchema : Format :=
  Format.literal "AEGIS-AGT-" ++ (List.replicate 4 Ledger.isReferenceLetter ++
    (Format.literal "-" ++ List.replicate 4 Ledger.isReferenceLetter))

section Schemas

variable (zod : Zod)

/-- `maskedAccountReferenceSchema` of a member. -/
def maskedReference : Json → Bool := text Ledger.maskedAccountReferenceSchema.accepts

/-- `z.iso.datetime()` of a member. -/
def dateTime : Json → Bool := text zod.isDateTime

/-- `qrIssueResponseSchema` (`contracts/channels/v1.ts`, lines 74-81). -/
def qrIssueResponseSchema : Json → Bool :=
  strict [("qrId", text zod.isUuid),
    ("payload", text fun s => decide (1 ≤ utf16Length s ∧ utf16Length s ≤ 2048)),
    ("type", text fun s => decide (s ∈ ["STATIC", "DYNAMIC"])),
    ("expiresAt", dateTime zod)]

/-- `transferPolicySchema` (`contracts/payments/v1.ts`, lines 74-81). -/
def transferPolicySchema : Json → Bool :=
  strict [("currency", text fun s => decide (s = "LKR")), ("minimum", moneySchema),
    ("maximum", moneySchema), ("dailyOutgoingMaximum", moneySchema)]

/-- `transferPreviewResponseSchema` (`contracts/payments/v1.ts`, lines 102-112). -/
def transferPreviewResponseSchema : Json → Bool :=
  strict [("intentToken", text opaqueIntentTokenSchema),
    ("sourceMaskedReference", maskedReference), ("recipientMaskedReference", maskedReference),
    ("amount", moneySchema), ("sourceBalance", moneySchema), ("policy", transferPolicySchema),
    ("expiresAt", dateTime zod)]

/-- `transferDetailSchema` (`contracts/payments/v1.ts`, lines 153-160). -/
def transferDetailSchema : Json → Bool :=
  strict [("id", text zod.isUuid),
    ("displayReference", text transferDisplayReferenceSchema.accepts),
    ("direction", text fun s => decide (s ∈ ["SENT", "RECEIVED"])),
    ("status", text fun s =>
      decide (s ∈ ["PROCESSING", "COMPLETED", "FAILED", "REQUIRES_REVIEW"])),
    ("accountId", text zod.isUuid), ("counterpartyMaskedReference", maskedReference),
    ("amount", moneySchema), ("createdAt", dateTime zod),
    ("completedAt", nullable (dateTime zod)), ("transactionId", nullable (text zod.isUuid)),
    ("balanceAfter", nullable moneySchema),
    ("failureCode", nullable (text fun s => decide (s ∈ ["INSUFFICIENT_FUNDS",
      "ACCOUNT_NOT_FOUND", "ACCOUNT_NOT_ACTIVE", "CURRENCY_MISMATCH", "SELF_TRANSFER",
      "LIMIT_EXCEEDED", "INTENT_EXPIRED", "AUTHORIZATION_FAILED", "IDEMPOTENCY_CONFLICT",
      "LEDGER_UNAVAILABLE", "PROCESSING_TIMEOUT", "INTERNAL_ERROR"]))),
    ("ownMaskedReference", maskedReference)]

/-- `agentCashPreviewResponseSchema` (`contracts/channels/v1.ts`, lines 327-337). -/
def agentCashPreviewResponseSchema : Json → Bool :=
  strict [("operationId", text zod.isUuid),
    ("operationType", text fun s => decide (s ∈ ["AGENT_CASH_IN", "AGENT_CASH_OUT"])),
    ("customerMaskedReference", maskedReference),
    ("agentReference", text agentPublicReferenceSchema.accepts), ("amount", moneySchema),
    ("intentToken", text opaqueIntentTokenSchema), ("expiresAt", dateTime zod)]

/-- `agentCashResultSchema` (`contracts/channels/v1.ts`, lines 369-381). -/
def agentCashResultSchema : Json → Bool :=
  strict [("id", text zod.isUuid), ("displayReference", text fun _ => true),
    ("operationType", text fun s => decide (s ∈ ["AGENT_CASH_IN", "AGENT_CASH_OUT"])),
    ("status", text fun s => decide (s ∈ ["PENDING_CONFIRMATION", "PROCESSING", "COMPLETED",
      "FAILED", "CANCELLED"])),
    ("customerMaskedReference", maskedReference),
    ("agentReference", text agentPublicReferenceSchema.accepts), ("amount", moneySchema),
    ("createdAt", dateTime zod), ("completedAt", nullable (dateTime zod))]

end Schemas

/-! ## The answers of Payments -/

/-- An amount of money. -/
def money (currency : String) (minorUnits : ℤ) : Json :=
  .object [("currency", .string currency), ("minorUnits", .string (toString minorUnits))]

section Answers

variable (runtime : QrRuntime) (limits : PaymentsLimits)

/-- Some clock reading lets the payload of a QR code pass. -/
def Payable (payload : String) : Prop :=
  ∃ decoded now, decodeQrPayload runtime payload = some decoded ∧
    checkPayload runtime decoded now = .ok ()

end Answers

/-! ## Issuing a QR code -/

section Issue

variable {zod : Zod} {runtime : QrRuntime}

variable {value : String}

end Issue

/-! ## Answers that the Gateway refuses -/

section Refused

variable {zod : Zod} {runtime : QrRuntime} {limits : PaymentsLimits}

section Steps

variable {Row S N I D : Type} [Keyed Row String] (r : Runtime) {channel : Channel Row S N I D}
  {s : ChannelShared Row S} {input : ConfirmInput} (e : Env) {row : Row}

end Steps

variable {request : AgentPreviewRequest} {body : Json}

end Refused

/-! ## Agreement -/

section Agreement

variable {zod : Zod} {runtime : QrRuntime} {limits : PaymentsLimits}

end Agreement

/-! ## Concrete requests -/

/-- Zod, which accepts that reading. -/
def isoZod : Zod where
  toZod := plainZod
  isDateTime text := decide (text = "2026-08-01T10:00:00.000Z")
  dateTime_chars text h := by
    rw [of_decide_eq_true h]
    exact forall_mem_of_all (by decide)
  dateTime_dots text h := by
    rw [of_decide_eq_true h]
    decide
  toInteger _ := none

end AegisShield.Gateway
