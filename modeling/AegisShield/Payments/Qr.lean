import AegisShield.Common.Json
import AegisShield.Payments.Channel

/-!
# QR payments

`QrService` (`qr.service.ts`) as a channel: its rows (`schema.prisma`), `issue`, and the
parts of `preview`, `confirm` and `settle` that are its own. Amounts are integers in minor
units, and times are milliseconds.
-/

namespace AegisShield.Payments

open Common

/-! ## Rows -/

/-- `QrType` (`schema.prisma`). -/
inductive QrType where
  | STATIC
  | DYNAMIC
  deriving DecidableEq

/-- `QrPaymentRequestStatus` (`schema.prisma`, lines 142-147). -/
inductive QrPaymentRequestStatus where
  | ACTIVE
  | REDEEMED
  | EXPIRED
  | CANCELLED
  deriving DecidableEq

/-- `QrPaymentStatus` (`schema.prisma`). -/
inductive QrPaymentStatus where
  | PROCESSING
  | COMPLETED
  | FAILED
  deriving DecidableEq

/-- `QrPaymentEventType` (`schema.prisma`, lines 155-163). -/
inductive QrPaymentEventType where
  | QR_ISSUED
  | QR_SCANNED
  | PAYMENT_PROCESSING
  | LEDGER_POSTED
  | COMPLETED
  | FAILED
  | EXPIRED
  deriving DecidableEq

/-- `QrPaymentRequest` (`schema.prisma`, lines 165-188). -/
structure QrPaymentRequestRow where
  id : String
  type : QrType
  status : QrPaymentRequestStatus
  recipientCustomerId : String
  recipientAccountId : String
  recipientMaskedReference : String
  recipientPublicReference : String
  currency : String
  amountMinor : Option ℤ
  purpose : Option String
  nonceHash : String
  signatureHash : String
  expiresAt : ℕ
  redeemedAt : Option ℕ
  deriving DecidableEq

/-- `QrRedemption` (`schema.prisma`, lines 190-221). -/
structure QrRedemptionRow where
  id : String
  qrPaymentRequestId : String
  displayReference : String
  senderCustomerId : String
  senderAccountId : String
  senderMaskedReference : String
  recipientCustomerId : String
  recipientAccountId : String
  recipientMaskedReference : String
  currency : String
  amountMinor : ℤ
  status : QrPaymentStatus
  intentTokenHash : String
  idempotencyKeyHash : String
  requestHash : String
  ledgerJournalId : Option String
  senderBalanceAfterMinor : Option ℤ
  recipientBalanceAfterMinor : Option ℤ
  correlationId : String
  createdAt : ℕ
  completedAt : Option ℕ
  failedAt : Option ℕ
  deriving DecidableEq

/-- `QrPaymentEvent` (`schema.prisma`, lines 223-235). -/
structure QrPaymentEvent where
  qrPaymentRequestId : String
  eventType : QrPaymentEventType
  previousStatus : Option String
  nextStatus : Option String
  safeCode : Option String
  occurredAt : ℕ
  deriving DecidableEq

instance : Keyed QrPaymentRequestRow String := ⟨QrPaymentRequestRow.id⟩
instance : Keyed QrRedemptionRow String := ⟨QrRedemptionRow.id⟩

/-- The tables beside `qr_redemptions`. -/
structure QrTables where
  requests : Table QrPaymentRequestRow
  events : List QrPaymentEvent

/-- The writes of the service to them. -/
inductive QrNote where
  | redeem (qrPaymentRequestId : String) (redeemedAt : ℕ)
  | event (event : QrPaymentEvent)

/-- The tables after a write. -/
def QrTables.apply (d : QrTables) : QrNote → QrTables
  | .redeem id redeemedAt =>
    match d.requests.find id with
    | none => d
    | some request =>
      let redeemed := { request with status := .REDEEMED, redeemedAt := some redeemedAt }
      { d with requests := d.requests.put redeemed }
  | .event event => { d with events := d.events ++ [event] }

/-! ## Payloads -/

/-- `QrPayloadData` (`qr-crypto.ts`, lines 10-20). -/
structure QrPayloadData where
  version : ℚ
  recipientRef : String
  currency : String
  amountMinor : Option String
  nonce : String
  expiresAt : String
  type : QrType
  purpose : Option String
  keyId : String
  deriving DecidableEq

/-- `SignedQrPayload` (`qr-crypto.ts`, lines 22-24). -/
structure SignedQrPayload extends QrPayloadData where
  signature : String
  deriving DecidableEq

/-- `QR_PROTOCOL_VERSION` (`qr-crypto.ts`). -/
def QR_PROTOCOL_VERSION : ℚ := 1

/-- The text of a type. -/
def QrType.text : QrType → String
  | .STATIC => "STATIC"
  | .DYNAMIC => "DYNAMIC"

/-- The object that `JSON.stringify` is given, its members in their order. -/
def SignedQrPayload.toJson (payload : SignedQrPayload) : Json :=
  .object ([("version", .number payload.version), ("recipientRef", .string payload.recipientRef),
      ("currency", .string payload.currency)] ++
    (payload.amountMinor.map fun amount => ("amountMinor", Json.string amount)).toList ++
    [("nonce", .string payload.nonce), ("expiresAt", .string payload.expiresAt),
      ("type", .string payload.type.text)] ++
    (payload.purpose.map fun purpose => ("purpose", Json.string purpose)).toList ++
    [("keyId", .string payload.keyId), ("signature", .string payload.signature)])

/-- `isSignedQrPayload` (`qr-crypto.ts`, lines 104-120), with what it lets through. -/
def isSignedQrPayload : Json → Option SignedQrPayload
  | .object members => do
    let version ← Json.numberMember members "version"
    let recipientRef ← Json.stringMember members "recipientRef"
    let currency ← Json.stringMember members "currency"
    let nonce ← Json.stringMember members "nonce"
    let expiresAt ← Json.stringMember members "expiresAt"
    let typeText ← Json.stringMember members "type"
    let type ← if typeText = "STATIC" then some QrType.STATIC
      else if typeText = "DYNAMIC" then some QrType.DYNAMIC else none
    let signature ← Json.stringMember members "signature"
    let keyId ← Json.stringMember members "keyId"
    let amountMinor ← Json.optionalMember members "amountMinor"
    let purpose ← Json.optionalMember members "purpose"
    some { version := version, recipientRef := recipientRef, currency := currency,
           amountMinor := amountMinor, nonce := nonce, expiresAt := expiresAt, type := type,
           purpose := purpose, keyId := keyId, signature := signature }
  | _ => none

/-- The check accepts the payloads that are written. -/
theorem isSignedQrPayload_toJson (payload : SignedQrPayload) :
    isSignedQrPayload payload.toJson = some payload := by
  obtain ⟨⟨version, recipientRef, currency, amountMinor, nonce, expiresAt, type, purpose, keyId⟩,
    signature⟩ := payload
  cases amountMinor <;> cases purpose <;> cases type <;> rfl

/-- The value of a hexadecimal digit. -/
def hexValue (c : Char) : Option ℕ :=
  if c.isDigit then some (c.toNat - 48)
  else if 'a' ≤ c ∧ c ≤ 'f' then some (c.toNat - 87)
  else if 'A' ≤ c ∧ c ≤ 'F' then some (c.toNat - 55)
  else none

/-- `Buffer.from(text, 'hex')`, which stops at the first pair that is not hexadecimal. -/
def bufferFromHex : List Char → List ℕ
  | a :: b :: rest =>
    match hexValue a, hexValue b with
    | some high, some low => (16 * high + low) :: bufferFromHex rest
    | _, _ => []
  | _ => []

/-- What the service takes from Node, with its signing key. -/
structure QrRuntime extends Runtime where
  /-- `createHmac('sha256', key)` of a text, as hexadecimal text. -/
  hmacSha256 : String → String → String
  /-- `String(n)` of a number. -/
  numberText : ℚ → String
  /-- `JSON.stringify`, in base64url. -/
  encodeJson : Json → String
  /-- `JSON.parse` of base64url; `none` where it throws. -/
  decodeJson : String → Option Json
  toISOString : ℕ → String
  /-- `new Date(text)`; `none` for an invalid date, which is before no other. -/
  parseDate : String → Option ℕ
  /-- `BigInt(text)`; `none` where it throws. -/
  bigInt : String → Option ℤ
  qrSigningKey : String

section Payload

variable (runtime : QrRuntime)

/-- `canonicalPayloadString` (`qr-crypto.ts`, lines 122-140), its entries in the order of their
    names. -/
def canonicalPayloadString (data : QrPayloadData) : String :=
  let entries := (data.amountMinor.map fun amount => ("amountMinor", amount)).toList ++
    [("currency", data.currency), ("expiresAt", data.expiresAt), ("keyId", data.keyId),
      ("nonce", data.nonce)] ++
    (data.purpose.map fun purpose => ("purpose", purpose)).toList ++
    [("recipientRef", data.recipientRef), ("type", data.type.text),
      ("version", runtime.numberText data.version)]
  "&".intercalate (entries.map fun entry => entry.1 ++ "=" ++ entry.2)

/-- `signQrPayload` (`qr-crypto.ts`, lines 52-61). -/
def signQrPayload (data : QrPayloadData) : SignedQrPayload :=
  { data with
    signature := runtime.hmacSha256 runtime.qrSigningKey (canonicalPayloadString runtime data) }

/-- `verifyQrSignature` (`qr-crypto.ts`, lines 66-79). -/
def verifyQrSignature (payload : SignedQrPayload) : Bool :=
  let expected := runtime.hmacSha256 runtime.qrSigningKey
    (canonicalPayloadString runtime payload.toQrPayloadData)
  let sigBuf := bufferFromHex payload.signature.toList
  let expBuf := bufferFromHex expected.toList
  if sigBuf.length ≠ expBuf.length ∨ sigBuf.length = 0 then false else decide (sigBuf = expBuf)

/-- `encodeQrPayload` (`qr-crypto.ts`, lines 85-87). -/
def encodeQrPayload (payload : SignedQrPayload) : String := runtime.encodeJson payload.toJson

/-- `decodeQrPayload` (`qr-crypto.ts`, lines 93-102). -/
def decodeQrPayload (encoded : String) : Option SignedQrPayload :=
  (runtime.decodeJson encoded).bind isSignedQrPayload

end Payload

/-! ## issue -/

/-- The input of `issue`, the account's references that the Ledger returns, and what it
    generates. -/
structure QrIssue where
  customerId : String
  accountId : String
  type : QrType
  amountMinor : Option String
  currency : String
  purpose : Option String
  maskedReference : String
  receivingReference : String
  id : String
  nonce : String
  /-- `Date.now()` plus the configured lifetime. -/
  expiresAt : ℕ
  occurredAt : ℕ

namespace QrIssue

/-- A text that is absent or empty is left out. -/
def given (text : Option String) : Option String := text.filter fun value => value ≠ ""

/-- The payload that `issue` signs (lines 66-83). -/
def payload (runtime : QrRuntime) (new : QrIssue) : SignedQrPayload :=
  signQrPayload runtime {
    version := QR_PROTOCOL_VERSION
    recipientRef := new.receivingReference
    currency := new.currency
    amountMinor := given new.amountMinor
    nonce := new.nonce
    expiresAt := runtime.toISOString new.expiresAt
    type := new.type
    purpose := given new.purpose
    keyId := "aegis-qr-v1" }

/-- The code that `issue` returns. -/
def code (runtime : QrRuntime) (new : QrIssue) : String :=
  encodeQrPayload runtime (new.payload runtime)

/-- The row that `issue` creates (lines 88-113) with an amount. -/
def row (runtime : QrRuntime) (new : QrIssue) (amountMinor : Option ℤ) : QrPaymentRequestRow where
  id := new.id
  type := new.type
  status := .ACTIVE
  recipientCustomerId := new.customerId
  recipientAccountId := new.accountId
  recipientMaskedReference := new.maskedReference
  recipientPublicReference := new.receivingReference
  currency := new.currency
  amountMinor := amountMinor
  purpose := given new.purpose
  nonceHash := runtime.sha256 new.nonce
  signatureHash := runtime.sha256 (new.payload runtime).signature
  expiresAt := new.expiresAt
  redeemedAt := none

/-- The amount of the row; `none` where `BigInt` throws. -/
def amount (runtime : QrRuntime) (new : QrIssue) : Option (Option ℤ) :=
  match given new.amountMinor with
  | none => some none
  | some text => (runtime.bigInt text).map some

end QrIssue

/-- `issue` (lines 32-121): `none` where it throws. -/
def issue (runtime : QrRuntime) (d : QrTables) (new : QrIssue) : Option QrTables := do
  let amountMinor ← new.amount runtime
  if d.requests.rows.any fun request => request.nonceHash = runtime.sha256 new.nonce then none
  else
    let requests ← d.requests.insert (new.row runtime amountMinor)
    some {
      requests := requests
      events := d.events ++ [
        { qrPaymentRequestId := new.id, eventType := .QR_ISSUED, previousStatus := none,
          nextStatus := some "ACTIVE", safeCode := none, occurredAt := new.occurredAt }] }

/-! ## preview -/

/-- The input of `preview`. -/
structure QrPreviewInput where
  payload : String
  senderCustomerId : String
  sourceAccountId : String

/-- What `preview` knows before its transaction. -/
structure QrDraft where
  input : QrPreviewInput
  record : QrPaymentRequestRow
  decoded : SignedQrPayload

/-- An error of the service. -/
def qrError (code message : String) (status : ℕ) : PaymentsError :=
  { code := code, message := message, status := status }

section Preview

variable (runtime : QrRuntime)

/-- The check of the amount of a payload (lines 180-188). -/
def checkAmount (decoded : SignedQrPayload) : Except Thrown Unit :=
  match decoded.amountMinor with
  | none => .ok ()
  | some text =>
    match runtime.bigInt text with
    | none => .error .other
    | some amount =>
      if amount ≤ 0 then
        .error (.payments (qrError "QR_INVALID_AMOUNT" "Amount must be positive." 400))
      else .ok ()

/-- The checks of the payload (lines 147-188). -/
def checkPayload (decoded : SignedQrPayload) (now : ℕ) : Except Thrown Unit :=
  if decoded.version ≠ QR_PROTOCOL_VERSION then
    .error (.payments (qrError "QR_UNSUPPORTED_VERSION" "This QR version is not supported." 400))
  else if !verifyQrSignature runtime decoded then
    .error (.payments (qrError "QR_INVALID_SIGNATURE" "QR signature verification failed." 400))
  else if (runtime.parseDate decoded.expiresAt).any fun expiresAt => expiresAt ≤ now then
    .error (.payments (qrError "QR_EXPIRED" "This QR code has expired." 410))
  else if decoded.currency ≠ "LKR" then
    .error (.payments (qrError "QR_INVALID_CURRENCY" "Currency is not supported." 400))
  else checkAmount runtime decoded

/-- The checks of the record (lines 197-225). -/
def checkRecord (record : QrPaymentRequestRow) (senderCustomerId : String) :
    Except Thrown Unit :=
  if record.type = .DYNAMIC ∧ record.status = .REDEEMED then
    .error (.payments (qrError "QR_ALREADY_REDEEMED" "This QR code has already been used." 409))
  else if record.status = .EXPIRED ∨ record.status = .CANCELLED then
    .error (.payments (qrError "QR_EXPIRED" "This QR code is no longer valid." 410))
  else if record.recipientCustomerId = senderCustomerId then
    .error (.payments (qrError "SELF_TRANSFER" "You cannot pay yourself." 409))
  else .ok ()

/-- `preview` up to its read of the record (lines 139-224). -/
def qrDraft (d : QrTables) (input : QrPreviewInput) (now : ℕ) : Except Thrown QrDraft :=
  match decodeQrPayload runtime input.payload with
  | none => .error (.payments (qrError "QR_INVALID" "The QR code is malformed." 400))
  | some decoded => do
    checkPayload runtime decoded now
    match d.requests.rows.find? fun r => r.nonceHash = runtime.sha256 decoded.nonce with
    | none => .error (.payments (qrError "QR_INVALID" "QR code not found." 404))
    | some record =>
      checkRecord record input.senderCustomerId
      .ok { input := input, record := record, decoded := decoded }

/-- When `preview` gets past its read of the record. -/
theorem qrDraft_eq_ok {d : QrTables} {input : QrPreviewInput} {now : ℕ} {draft : QrDraft} :
    qrDraft runtime d input now = .ok draft ↔ ∃ decoded record,
      decodeQrPayload runtime input.payload = some decoded ∧
        checkPayload runtime decoded now = .ok () ∧
        d.requests.rows.find? (fun r => r.nonceHash = runtime.sha256 decoded.nonce) = some record ∧
        checkRecord record input.senderCustomerId = .ok () ∧
        draft = { input := input, record := record, decoded := decoded } := by
  unfold qrDraft
  cases hdecode : decodeQrPayload runtime input.payload with
  | none => simp
  | some decoded =>
    cases hpayload : checkPayload runtime decoded now with
    | error e => simp [hpayload, bind, Except.bind]
    | ok u =>
      cases hrecord : d.requests.rows.find? fun r => r.nonceHash = runtime.sha256 decoded.nonce with
      | none => simp [hpayload, hrecord, bind, Except.bind]
      | some record =>
        cases hcheck : checkRecord record input.senderCustomerId with
        | error e => simp [hpayload, hrecord, hcheck, bind, Except.bind]
        | ok u => simp [hpayload, hrecord, hcheck, bind, Except.bind, eq_comm]

/-- The rest of `preview` (lines 227-278). -/
def qrCreate (draft : QrDraft) (e : Env) : Except Thrown (QrRedemptionRow × List QrNote) :=
  match e.account with
  | .found _ _ maskedReference => .ok ({
      id := e.uuid
      qrPaymentRequestId := draft.record.id
      displayReference := newQrPaymentReference e.random
      senderCustomerId := draft.input.senderCustomerId
      senderAccountId := draft.input.sourceAccountId
      senderMaskedReference := maskedReference
      recipientCustomerId := draft.record.recipientCustomerId
      recipientAccountId := draft.record.recipientAccountId
      recipientMaskedReference := draft.record.recipientMaskedReference
      currency := draft.record.currency
      amountMinor := draft.record.amountMinor.getD
        ((draft.decoded.amountMinor.bind runtime.bigInt).getD 0)
      status := .PROCESSING
      intentTokenHash := runtime.sha256 e.token
      idempotencyKeyHash := runtime.sha256 ("temp-" ++ e.token)
      requestHash := runtime.sha256 "pending"
      ledgerJournalId := none
      senderBalanceAfterMinor := none
      recipientBalanceAfterMinor := none
      correlationId := e.correlationId
      createdAt := e.dbNow
      completedAt := none
      failedAt := none },
    [.event { qrPaymentRequestId := draft.record.id, eventType := .QR_SCANNED,
              previousStatus := none, nextStatus := none, safeCode := none,
              occurredAt := e.now }])
  | .callError _ | .unavailable =>
    .error (.payments (qrError "ACCOUNT_NOT_FOUND" "Sender account not found" 404))

end Preview

/-! ## confirm and settle -/

/-- A row that the unique constraints of `qr_redemptions` keep out beside `row`. -/
def qrConflicts (new row : QrRedemptionRow) : Bool :=
  row.qrPaymentRequestId = new.qrPaymentRequestId || row.displayReference = new.displayReference ||
    row.intentTokenHash = new.intentTokenHash ||
    (row.senderCustomerId = new.senderCustomerId && row.idempotencyKeyHash = new.idempotencyKeyHash)

/-- The checks of `confirm` (lines 358-376). -/
def qrConfirmable (d : QrTables) (redemption : QrRedemptionRow) (now : ℕ) :
    Except PaymentsError Unit :=
  if redemption.status ≠ .PROCESSING then
    .error (qrError "QR_ALREADY_REDEEMED" "This QR code has already been processed." 409)
  else if (d.requests.find redemption.qrPaymentRequestId).any fun request =>
      decide (request.expiresAt ≤ now) || decide (request.status = .EXPIRED) then
    .error (qrError "QR_EXPIRED" "This QR code has expired." 410)
  else .ok ()

/-- The command of `settle` (lines 516-530); the foreign key holds the request. -/
def qrCommand (d : QrTables) (redemption : QrRedemptionRow) : InternalLedgerTransferCommand where
  transferId := redemption.id
  transferReference := redemption.displayReference
  senderCustomerId := redemption.senderCustomerId
  sourceAccountId := redemption.senderAccountId
  recipientReference := ((d.requests.find redemption.qrPaymentRequestId).map
    QrPaymentRequestRow.recipientPublicReference).getD ""
  amountMinor := redemption.amountMinor
  currency := redemption.currency
  idempotencyKey := "qr-pay:" ++ redemption.id

/-- The write of `settle` on a result (lines 532-544). -/
def QrRedemptionRow.complete (redemption : QrRedemptionRow)
    (result : InternalLedgerTransferResult) (now : ℕ) : QrRedemptionRow :=
  { redemption with
    status := .COMPLETED
    ledgerJournalId := some result.journalId
    senderBalanceAfterMinor := some result.senderBalanceAfter
    recipientBalanceAfterMinor := some result.recipientBalanceAfter
    completedAt := some now }

/-- The write of `settle` on a `LedgerCallError` below 500 (lines 568-575). -/
def QrRedemptionRow.fail (redemption : QrRedemptionRow) (now : ℕ) : QrRedemptionRow :=
  { redemption with status := .FAILED, failedAt := some now }

/-- The outcome in a status. -/
def QrPaymentStatus.settlement : QrPaymentStatus → Option Settlement
  | .PROCESSING => none
  | .COMPLETED => some .completed
  | .FAILED => some .failed

/-- `QrService` (`qr.service.ts`, lines 22-626). -/
def qrChannel (runtime : QrRuntime) :
    Channel QrRedemptionRow QrTables QrNote QrPreviewInput QrDraft where
  terms row := { owner := row.senderCustomerId, tokenHash := row.intentTokenHash,
                 sourceAccountId := row.senderAccountId }
  keyHash := QrRedemptionRow.idempotencyKeyHash
  requestHash := QrRedemptionRow.requestHash
  settlement row := row.status.settlement
  conflicts := qrConflicts
  hasJournal journalId row := row.ledgerJournalId = some journalId
  draft _ d input e := qrDraft runtime d input e.now
  create := qrCreate runtime
  unknownToken := qrError "QR_INVALID" "Invalid or expired session." 400
  hash input := canonicalHash runtime.toRuntime [
    ("intentTokenHash", runtime.sha256 input.intentToken), ("senderCustomerId", input.caller)]
  pendingHash := runtime.sha256 "pending"
  confirmable := qrConfirmable
  claim row keyHash requestHash _ :=
    { row with idempotencyKeyHash := keyHash, requestHash := requestHash }
  claimNotes _ _ := []
  command := qrCommand
  complete := QrRedemptionRow.complete
  completeNotes redemption := [fun now => .redeem redemption.qrPaymentRequestId now,
    fun now => .event { qrPaymentRequestId := redemption.qrPaymentRequestId, eventType := .COMPLETED,
                        previousStatus := some "PROCESSING", nextStatus := some "COMPLETED",
                        safeCode := none, occurredAt := now }]
  fail := QrRedemptionRow.fail
  failNotes redemption code := [fun now => .event {
    qrPaymentRequestId := redemption.qrPaymentRequestId, eventType := .FAILED,
    previousStatus := some "PROCESSING", nextStatus := some "FAILED",
    safeCode := some (code.getD "UNKNOWN"), occurredAt := now }]
  apply := QrTables.apply
  idempotencyKey id := "qr-pay:" ++ id
  key_injective _ _ h := String.append_right_inj _ |>.mp h
  conflicts_key new row howner hkey := by
    simp only at howner
    simp [qrConflicts, howner, hkey]
  create_settlement d e row notes h := by
    unfold qrCreate at h
    split at h
    · cases h
      rfl
    · cases h
    · cases h
  create_requestHash d e row notes h := by
    unfold qrCreate at h
    split at h
    · cases h
      rfl
    · cases h
    · cases h
  claim_settlement _ _ _ _ h := h

/-- `QrService` with any number of calls, from empty tables. -/
def qrService (runtime : QrRuntime) : Pool (ChannelShared QrRedemptionRow QrTables)
    (ChannelCall QrRedemptionRow QrNote QrPreviewInput QrDraft) (ChannelStart QrPreviewInput)
    ChannelInput (Outside QrIssue) :=
  channelService runtime.toRuntime (qrChannel runtime)
    (fun d => d.requests.rows = [] ∧ d.events = []) (issue runtime)

/-- The tables of `QrService`, the Ledger and the calls that are in progress. -/
abbrev QrState := Pool.State (ChannelShared QrRedemptionRow QrTables)
  (ChannelCall QrRedemptionRow QrNote QrPreviewInput QrDraft)

abbrev QrAction := Pool.Action (ChannelStart QrPreviewInput) ChannelInput (Outside QrIssue)

/-! ## Concrete runs -/

/-- The payload of a code over five rupees, which expires after 300 seconds. -/
def fiveRupeePayload (type : QrType) : SignedQrPayload where
  version := 1
  recipientRef := "AEGIS-AAAA-BBBB-CCCC"
  currency := "LKR"
  amountMinor := some "500"
  nonce := "n-1"
  expiresAt := "1970-01-01T00:05:00.000Z"
  type := type
  purpose := none
  keyId := "aegis-qr-v1"
  signature := "5eed"

/-- What Node does with the values of the concrete runs. -/
def plainQrRuntime : QrRuntime where
  toRuntime := plainRuntime
  hmacSha256 _ _ := "5eed"
  numberText q := toString q
  encodeJson
    | .object members => (Json.stringMember members "type").getD ""
    | _ => ""
  decodeJson text :=
    if text = "STATIC" then some (fiveRupeePayload .STATIC).toJson
    else if text = "DYNAMIC" then some (fiveRupeePayload .DYNAMIC).toJson
    else none
  toISOString _ := "1970-01-01T00:05:00.000Z"
  parseDate _ := some 300000
  bigInt text := if text = "500" then some 500 else none
  qrSigningKey := "key"

/-- The shop issues one of them. -/
def fiveRupeeIssue (type : QrType) : QrIssue where
  customerId := "shop"
  accountId := "account-shop"
  type := type
  amountMinor := some "500"
  currency := "LKR"
  purpose := none
  maskedReference := "AEGIS-****-CCCC"
  receivingReference := "AEGIS-AAAA-BBBB-CCCC"
  id := "qr-1"
  nonce := "n-1"
  expiresAt := 300000
  occurredAt := 0

/-- No QR code. -/
def noQrPayments : QrState where
  shared := {
    rows := .empty
    side := { requests := .empty, events := [] }
    remote := { commands := [], pending := [], journals := [] }
    claims := []
    origins := [] }
  calls := []

theorem noQrPayments_init (runtime : QrRuntime) :
    (qrService runtime).machine.init noQrPayments :=
  ⟨⟨rfl, ⟨rfl, rfl⟩, rfl, rfl, rfl⟩, rfl⟩

end AegisShield.Payments
