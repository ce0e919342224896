import AegisShield.Gateway.Channels
import AegisShield.Ledger.TransactionPages
import AegisShield.Payments.UssdAmount

/-!
# The contracts that the Gateway parses

The schemas of requests from browsers and of answers from the services behind the Gateway
(`contracts/auth/v1.ts`, `contracts/accounts/v1.ts`, `contracts/payments/v1.ts`,
`contracts/channels/v1.ts`, `contracts/risk/v1.ts`). A schema of an answer is a check; what it
returns differs from its input at most in the white space around a currency.
-/

namespace AegisShield.Gateway

open Common Sabcl Payments

/-! ## Checks of JSON values -/

/-- `z.object` with members that may be absent, `.strict()`. -/
def strictWith (required optional : List (String × (Json → Bool))) : Json → Bool
  | .object members =>
    members.all (fun m => (required ++ optional).any fun f => decide (f.1 = m.1)) &&
      required.all (fun f => (Json.member members f.1).any f.2) &&
      optional.all fun f => (Json.member members f.1).all f.2
  | _ => false

/-- `z.object(fields)`, which passes over other members. -/
def loose (fields : List (String × (Json → Bool))) : Json → Bool
  | .object members => fields.all fun f => (Json.member members f.1).any f.2
  | _ => false

/-- `z.array(p).max(max)`. -/
def arrayOf (max : ℕ) (p : Json → Bool) : Json → Bool
  | .array items => decide (items.length ≤ max) && items.all p
  | _ => false

/-- `z.boolean()`. -/
def boolean : Json → Bool
  | .bool _ => true
  | _ => false

/-- `z.literal(true)`. -/
def literalTrue : Json → Bool
  | .bool b => b
  | _ => false

/-- `z.enum(values)`, and `z.literal` of one text. -/
def oneOf (values : List String) : Json → Bool := text fun s => decide (s ∈ values)

/-- `z.string().min(min).max(max)`. -/
def sized (min max : ℕ) : Json → Bool :=
  text fun s => decide (min ≤ utf16Length s ∧ utf16Length s ≤ max)

/-- `z.number().int().min(0).max(max)`. -/
def integerUpTo (max : ℕ) (value : Json) : Bool :=
  (Json.safeNatural value).any fun n => decide (n ≤ max)

/-- A member of an object that is a text with a check. -/
def textMember (members : List (String × Json)) (name : String) (p : String → Bool) :
    Option String :=
  (Json.stringMember members name).filter p

/-- A member with `.default(value)`. -/
def defaultMember (members : List (String × Json)) (name value : String) (p : String → Bool) :
    Option String :=
  match Json.member members name with
  | none => some value
  | some _ => textMember members name p

section Schemas

variable (zod : Zod)

/-- `z.uuid()` of a member. -/
def uuid : Json → Bool := text zod.isUuid

/-! ## Identity (`contracts/auth/v1.ts`) -/

/-- `maskedUserSchema` (lines 98-105). -/
def maskedUserSchema : Json → Bool :=
  loose [("id", uuid zod), ("phoneMasked", sized 4 24),
    ("preferredLanguage", oneOf ["EN", "SI", "TA"]), ("kycTier", integerUpTo Json.maxSafeInteger),
    ("status", oneOf ["PENDING", "ACTIVE", "LOCKED", "DISABLED"]), ("phoneVerified", boolean)]

/-- `sessionResponseSchema` (lines 108-113). -/
def sessionResponseSchema : Json → Bool :=
  loose [("authenticated", literalTrue), ("authenticationMethod", oneOf ["PIN_OTP", "PASSKEY"]),
    ("expiresAt", dateTime zod), ("user", maskedUserSchema zod)]

/-- `parsed.data.user.id` of a session. -/
def sessionUser (session : Json) : Option String :=
  if sessionResponseSchema zod session then
    match session with
    | .object members =>
      match Json.member members "user" with
      | some (.object user) => Json.stringMember user "id"
      | _ => none
    | _ => none
  else none

/-! ## Accounts (`contracts/accounts/v1.ts`) -/

/-- The members of `customerAccountSummarySchema` (lines 177-186). -/
def customerAccountSummary : List (String × (Json → Bool)) :=
  [("id", uuid zod), ("maskedReference", maskedReference), ("productType", oneOf ["TIER0_WALLET"]),
    ("status", oneOf ["ACTIVE", "FROZEN", "CLOSED"]), ("currency", text currencyCodeSchema),
    ("createdAt", dateTime zod)]

/-- `accountBalanceSchema` (lines 191-197). -/
def accountBalanceSchema : Json → Bool :=
  strict [("accountId", uuid zod), ("balance", moneySchema), ("updatedAt", dateTime zod)]

/-- `customerAccountDetailSchema` (lines 200-205). -/
def customerAccountDetailSchema : Json → Bool :=
  strict (customerAccountSummary zod ++ [("balance", moneySchema),
    ("receivingReference", text Ledger.publicAccountReferenceSchema.accepts)])

/-- `customerAccountListSchema` (lines 208-212). -/
def customerAccountListSchema : Json → Bool :=
  strict [("accounts", arrayOf 32 (strict (customerAccountSummary zod)))]

/-- The members of `transactionBaseSchema` (lines 243-256). -/
def transactionBase : List (String × (Json → Bool)) :=
  [("id", uuid zod), ("displayReference", text Ledger.referenceFormat.accepts),
    ("accountId", uuid zod), ("direction", oneOf ["INCOMING", "OUTGOING"]),
    ("category", oneOf ["FUNDING", "ADJUSTMENT", "TRANSFER", "OTHER"]),
    ("status", oneOf ["POSTED"]), ("amount", moneySchema), ("balanceAfter", moneySchema),
    ("effectiveAt", dateTime zod), ("postedAt", dateTime zod)]

/-- `customerTransactionDetailSchema` (lines 263-268). -/
def customerTransactionDetailSchema : Json → Bool :=
  strict (transactionBase zod ++
    [("maskedAccountReference", maskedReference), ("productType", oneOf ["TIER0_WALLET"])])

/-- `transactionHistoryResponseSchema` (lines 301-308). -/
def transactionHistoryResponseSchema : Json → Bool :=
  strict [("transactions", arrayOf 50 (strict (transactionBase zod))),
    ("nextCursor", nullable (sized 1 1024))]

/-- `provisionDefaultAccountRequestSchema` (line 314). -/
def provisionDefaultAccountRequestSchema : Json → Bool := strict []

/-- `provisionDefaultAccountResultSchema` (lines 319-324). -/
def provisionDefaultAccountResultSchema : Json → Bool :=
  strict [("account", customerAccountDetailSchema zod), ("created", boolean)]

/-! ## Transfers (`contracts/payments/v1.ts`) -/

/-- `TransferPreviewRequest`. -/
structure TransferPreviewRequest where
  sourceAccountId : String
  recipientReference : String
  amount : String

/-- `transferPreviewRequestSchema` (lines 84-90). -/
def transferPreviewRequestSchema (raw : Json) : Option TransferPreviewRequest := do
  let members ← Json.strictObject ["sourceAccountId", "recipientReference", "amount"] raw
  let sourceAccountId ← textMember members "sourceAccountId" zod.isUuid
  let recipientReference ←
    textMember members "recipientReference" Ledger.publicAccountReferenceSchema.accepts
  let amount ← textMember members "amount" humanLkrAmountSchema
  return { sourceAccountId, recipientReference, amount }

/-- `/^\d{6}$/u`. -/
def pinFormat : Format := List.replicate 6 Char.isDigit

/-- `TransferConfirmationRequest`. -/
structure TransferConfirmationRequest where
  intentToken : String
  pin : String

/-- `transferConfirmationRequestSchema` (lines 117-122). -/
def transferConfirmationRequestSchema (raw : Json) : Option TransferConfirmationRequest := do
  let members ← Json.strictObject ["intentToken", "pin"] raw
  let intentToken ← textMember members "intentToken" opaqueIntentTokenSchema
  let pin ← textMember members "pin" pinFormat.accepts
  return { intentToken, pin }

/-- `internalTransferConfirmationSchema` (lines 127-133). -/
def internalTransferConfirmationSchema : Json → Bool :=
  strict [("senderCustomerId", uuid zod), ("intentToken", text opaqueIntentTokenSchema),
    ("idempotencyKey", text idempotencyKeySchema)]

/-- `transferSummarySchema` (lines 138-150). -/
def transferSummarySchema : Json → Bool :=
  strict [("id", uuid zod), ("displayReference", text transferDisplayReferenceSchema.accepts),
    ("direction", oneOf ["SENT", "RECEIVED"]),
    ("status", oneOf ["PROCESSING", "COMPLETED", "FAILED", "REQUIRES_REVIEW"]),
    ("accountId", uuid zod), ("counterpartyMaskedReference", maskedReference),
    ("amount", moneySchema), ("createdAt", dateTime zod),
    ("completedAt", nullable (dateTime zod))]

/-- `transferListResponseSchema` (lines 193-198). -/
def transferListResponseSchema : Json → Bool :=
  strict [("transfers", arrayOf 50 (transferSummarySchema zod)),
    ("nextCursor", nullable (sized 1 1024))]

/-! ## Channels (`contracts/channels/v1.ts`) -/

/-- `qrReceiveRequestSchema` (lines 38-42): the source account. -/
def qrReceiveRequestSchema (raw : Json) : Option String := do
  let members ← Json.strictObject ["sourceAccountId"] raw
  textMember members "sourceAccountId" zod.isUuid

/-- `QrDynamicRequest` (`v1.ts`, line 56). -/
structure QrDynamicRequest where
  sourceAccountId : String
  amount : String
  currency : String
  purpose : Option String

/-- `qrDynamicRequestSchema` (lines 48-55). -/
def qrDynamicRequestSchema (raw : Json) : Option QrDynamicRequest := do
  let members ← Json.strictObject ["sourceAccountId", "amount", "currency", "purpose"] raw
  let sourceAccountId ← textMember members "sourceAccountId" zod.isUuid
  let amount ← textMember members "amount" positiveMinorUnitsSchema
  let currency ← defaultMember members "currency" "LKR" currencyCodeSchema
  let purpose ← optional (Json.boundedString 0 64 fun _ => true) (Json.member members "purpose")
  return { sourceAccountId, amount, currency := trim currency, purpose }

/-- `internalQrIssueRequestSchema` (lines 59-68). -/
def internalQrIssueRequestSchema : Json → Bool :=
  strictWith [("customerId", uuid zod), ("accountId", uuid zod),
      ("type", oneOf ["STATIC", "DYNAMIC"]), ("currency", text currencyCodeSchema)]
    [("amountMinor", text positiveMinorUnitsSchema), ("purpose", sized 0 64)]

/-- `QrPreviewRequest` (`v1.ts`, line 91). -/
structure QrPreviewRequest where
  payload : String
  sourceAccountId : String

/-- `qrPreviewRequestSchema` (lines 85-90). -/
def qrPreviewRequestSchema (raw : Json) : Option QrPreviewRequest := do
  let members ← Json.strictObject ["payload", "sourceAccountId"] raw
  let payload ← Json.member members "payload" >>= Json.boundedString 1 2048 fun _ => true
  let sourceAccountId ← textMember members "sourceAccountId" zod.isUuid
  return { payload, sourceAccountId }

/-- `AgentCashInPreviewRequest` and `AgentCashOutPreviewRequest`. -/
structure AgentCashPreviewRequest where
  customerReference : String
  amountMinor : String
  currency : String

/-- `agentCashInPreviewRequestSchema` (lines 303-309) and `agentCashOutPreviewRequestSchema`
    (lines 315-321), which are the same. -/
def agentCashPreviewRequestSchema (raw : Json) : Option AgentCashPreviewRequest := do
  let members ← Json.strictObject ["customerReference", "amountMinor", "currency"] raw
  let customerReference ←
    textMember members "customerReference" Ledger.publicAccountReferenceSchema.accepts
  let amountMinor ← textMember members "amountMinor" positiveMinorUnitsSchema
  let currency ← defaultMember members "currency" "LKR" currencyCodeSchema
  return { customerReference, amountMinor, currency := trim currency }

/-! ## Risk (`contracts/risk/v1.ts`) -/

/-- `opaqueIdentifier` (line 4). -/
def opaqueIdentifier : Json → Bool :=
  text fun s => decide (8 ≤ s.toList.length ∧ s.toList.length ≤ 128) &&
    s.toList.all fun c => c.isAlphanum || decide (c ∈ [':', '_', '-'])

/-- `safeAttributeValue` (lines 5-10). -/
def safeAttributeValue : Json → Bool
  | .string s => decide (utf16Length s ≤ 256)
  | .number q => decide (q.den = 1 ∧ q.num.natAbs ≤ Json.maxSafeInteger)
  | .bool _ | .null => true
  | _ => false

/-- `allowedAttributes` (lines 104-120). -/
def allowedAttributes : List String :=
  ["operation", "outcome", "amountMinor", "currency", "failureCode", "httpStatus", "route",
    "method", "stepUpVerified", "recipientIsNew", "regionCode", "previousRegionCode",
    "requestCount", "sourceVersion", "integrityCode"]

/-- `safeRiskAttributesSchema` (lines 121-132). -/
def safeRiskAttributesSchema : Json → Bool
  | .object members =>
    members.all fun m => decide (m.1 ∈ allowedAttributes) && safeAttributeValue m.2
  | _ => false

/-- `riskSourceSchema` (lines 12-19). -/
def riskSourceSchema : Json → Bool :=
  oneOf ["GATEWAY", "IDENTITY", "PAYMENTS", "LEDGER", "INFRASTRUCTURE", "CHANNEL_ADAPTER"]

/-- `riskSeveritySchema` (lines 20-26). -/
def riskSeveritySchema : Json → Bool := oneOf ["INFO", "LOW", "MEDIUM", "HIGH", "CRITICAL"]

/-- `riskBandSchema` (line 27). -/
def riskBandSchema : Json → Bool := oneOf ["LOW", "MEDIUM", "HIGH", "CRITICAL"]

/-- `riskDecisionSchema` (lines 28-35). -/
def riskDecisionSchema : Json → Bool :=
  oneOf ["ALLOW", "ALLOW_WITH_MONITORING", "REQUIRE_STEP_UP", "HOLD_FOR_REVIEW", "BLOCK",
    "QUARANTINE"]

/-- `controlTypeSchema` (lines 36-45). -/
def controlTypeSchema : Json → Bool :=
  oneOf ["REQUIRE_STEP_UP", "TEMPORARY_BLOCK", "TRANSFER_HOLD", "RECIPIENT_BLOCK",
    "SESSION_REVOKE", "ACCOUNT_RESTRICT", "MANUAL_REVIEW", "QUARANTINE"]

/-- `securityEventTypeSchema` (lines 69-102). -/
def securityEventTypeSchema : Json → Bool :=
  oneOf ["LOGIN_SUCCESS", "LOGIN_FAILURE", "OTP_FAILURE", "PIN_FAILURE", "ACCOUNT_LOCK",
    "SESSION_CREATED", "SESSION_REVOKED", "CREDENTIAL_CHANGED", "DEVICE_CHANGED",
    "TRANSFER_PREVIEW", "TRANSFER_CONFIRMATION", "TRANSFER_FAILURE", "INSUFFICIENT_FUNDS",
    "IDEMPOTENCY_CONFLICT", "HIGH_VALUE_TRANSFER", "NEW_RECIPIENT", "EXPIRED_INTENT",
    "RECONCILIATION_ANOMALY", "RATE_LIMIT_VIOLATION", "CSRF_FAILURE", "MALFORMED_REQUEST",
    "FORBIDDEN_ROUTE", "SUSPICIOUS_REQUEST", "SERVICE_PROBE", "UNBALANCED_JOURNAL",
    "DUPLICATE_POSTING", "INTEGRITY_FAILURE", "INTERNAL_AUTH_FAILURE", "REPLAY_EVENT",
    "INVALID_SERVICE_TOKEN", "ROUTE_AUTH_ANOMALY", "TAMPER_SIGNAL"]

/-- `securityEventV1Schema` (lines 134-151). -/
def securityEventV1Schema : Json → Bool :=
  strictWith [("schemaVersion", oneOf ["1.0"]), ("eventId", uuid zod),
      ("source", riskSourceSchema), ("sourceEventId", sized 8 128),
      ("eventType", securityEventTypeSchema), ("severity", riskSeveritySchema),
      ("occurredAt", dateTime zod), ("correlationId", uuid zod)]
    [("subjectId", opaqueIdentifier), ("accountId", opaqueIdentifier),
      ("sessionId", opaqueIdentifier), ("deviceId", opaqueIdentifier),
      ("recipientId", opaqueIdentifier), ("attributes", safeRiskAttributesSchema)]

/-- `riskAssessmentSchema` (lines 183-196). -/
def riskAssessmentSchema : Json → Bool :=
  strict [("assessmentId", uuid zod), ("score", integerUpTo 100), ("band", riskBandSchema),
    ("decision", riskDecisionSchema), ("triggeredRules", arrayOf 32 (sized 1 64)),
    ("reasonCodes", arrayOf 32 (sized 1 64)),
    ("controlRecommendation", nullable controlTypeSchema), ("expiresAt", dateTime zod),
    ("ruleSetVersion", sized 1 32), ("publicExplanation", sized 1 256)]

/-- `controlCheckResponseSchema` (lines 211-219). -/
def controlCheckResponseSchema : Json → Bool :=
  strict [("allowed", boolean), ("decision", riskDecisionSchema),
    ("reasonCodes", arrayOf 16 (sized 1 64)), ("requiresStepUp", boolean),
    ("expiresAt", nullable (dateTime zod))]

end Schemas

end AegisShield.Gateway
