import AegisShield.Payments.Channel

/-!
# Agent cash operations

`AgentService` (`agent.service.ts`) as a channel: its rows (`schema.prisma`) and the parts
of `preview`, `confirm` and `settle` that are its own. Amounts are integers in minor
units, and times are milliseconds.
-/

namespace AegisShield.Payments

open Common

/-! ## Rows -/

/-- `AgentCashOperationType` (`schema.prisma`). -/
inductive AgentCashOperationType where
  | AGENT_CASH_IN
  | AGENT_CASH_OUT
  deriving DecidableEq

/-- `AgentCashOperationStatus` (`schema.prisma`). -/
inductive AgentCashOperationStatus where
  | PENDING_CONFIRMATION
  | PROCESSING
  | COMPLETED
  | FAILED
  | CANCELLED
  deriving DecidableEq

/-- `AgentCashEventType` (`schema.prisma`, lines 252-261). -/
inductive AgentCashEventType where
  | OPERATION_CREATED
  | CUSTOMER_CONFIRMED
  | PROCESSING_STARTED
  | LEDGER_POSTED
  | COMPLETED
  | FAILED
  | CANCELLED
  | RECOVERY_RETRY
  deriving DecidableEq

/-- `AgentCashOperation` (`schema.prisma`, lines 263-295). -/
structure AgentCashOperationRow where
  id : String
  displayReference : String
  operationType : AgentCashOperationType
  status : AgentCashOperationStatus
  agentId : String
  agentReference : String
  customerCustomerId : String
  customerAccountId : String
  customerMaskedReference : String
  customerPublicReference : String
  agentAccountId : String
  currency : String
  amountMinor : ℤ
  intentTokenHash : String
  idempotencyKeyHash : String
  requestHash : String
  ledgerJournalId : Option String
  correlationId : String
  expiresAt : ℕ
  confirmedAt : Option ℕ
  createdAt : ℕ
  completedAt : Option ℕ
  failedAt : Option ℕ
  deriving DecidableEq

/-- `AgentCashEvent` (`schema.prisma`, lines 297-309). -/
structure AgentCashEvent where
  operationId : String
  eventType : AgentCashEventType
  previousStatus : Option AgentCashOperationStatus
  nextStatus : Option AgentCashOperationStatus
  occurredAt : ℕ
  deriving DecidableEq

instance : Keyed AgentCashOperationRow String := ⟨AgentCashOperationRow.id⟩

/-- The settings of `PaymentsConfig` (`payments.config.ts`, lines 4-29) about amounts and intents,
    as `createPaymentsConfig` accepts them. -/
structure PaymentsLimits where
  minTransferMinor : ℤ
  maxTransferMinor : ℤ
  dailyOutgoingLimitMinor : ℤ
  intentTtlSeconds : ℕ
  min_pos : 0 < minTransferMinor
  min_le_max : minTransferMinor ≤ maxTransferMinor
  max_le_daily : maxTransferMinor ≤ dailyOutgoingLimitMinor
  daily_lt : dailyOutgoingLimitMinor < 10 ^ 24
  ttl_pos : 1 ≤ intentTtlSeconds

theorem defaultIntentTtl_pos : 1 ≤ 300 := by decide

/-- The defaults of `createPaymentsConfig` (`payments.config.ts`, lines 57-127). -/
def defaultLimits : PaymentsLimits where
  minTransferMinor := 100
  maxTransferMinor := 5000000
  dailyOutgoingLimitMinor := 10000000
  intentTtlSeconds := 300
  min_pos := by decide
  min_le_max := by decide
  max_le_daily := by decide
  daily_lt := by decide
  ttl_pos := defaultIntentTtl_pos

/-! ## preview -/

/-- The input of `preview`. -/
structure AgentPreviewInput where
  agentId : String
  agentReference : String
  customerReference : String
  amountMinor : ℤ
  currency : String
  operationType : AgentCashOperationType
  correlationId : String

/-- What `preview` knows before its insert. -/
structure AgentDraft where
  input : AgentPreviewInput
  customerId : String
  accountId : String
  maskedReference : String

/-- An error of the service. -/
def agentError (code message : String) (status : ℕ) : PaymentsError :=
  { code := code, message := message, status := status }

section Preview

variable (runtime : Runtime) (limits : PaymentsLimits)

/-- The aggregate of `preview` (lines 73-90). -/
def dailyTotal (operations : Table AgentCashOperationRow) (agentId : String) (today : ℕ) : ℤ :=
  ((operations.rows.filter fun op => decide (op.agentId = agentId) &&
    decide (op.status = .COMPLETED) && decide (today ≤ op.createdAt)).map
      AgentCashOperationRow.amountMinor).sum

/-- `preview` up to its aggregate (lines 38-97). -/
def agentDraft (operations : Table AgentCashOperationRow) (input : AgentPreviewInput) (e : Env) :
    Except Thrown AgentDraft :=
  if input.amountMinor < limits.minTransferMinor then
    .error (.payments (agentError "INVALID_REQUEST" "Amount is below minimum." 400))
  else if input.amountMinor > limits.maxTransferMinor then
    .error (.payments (agentError "LIMIT_EXCEEDED" "Amount exceeds maximum per transaction limit."
      403))
  else
    match e.account with
    | .callError status =>
      if status = 404 then
        .error (.payments (agentError "ACCOUNT_NOT_FOUND" "Customer account not found." 404))
      else .error (.ledger status)
    | .unavailable => .error .other
    | .found customerId accountId maskedReference =>
      if dailyTotal operations input.agentId (startOfDay e.now) + input.amountMinor >
          limits.dailyOutgoingLimitMinor then
        .error (.payments (agentError "LIMIT_EXCEEDED" "Daily agent limit exceeded." 403))
      else .ok { input := input, customerId := customerId, accountId := accountId,
                 maskedReference := maskedReference }

/-- When `preview` gets past its aggregate. -/
theorem agentDraft_eq_ok {operations : Table AgentCashOperationRow} {input : AgentPreviewInput}
    {e : Env} {draft : AgentDraft} :
    agentDraft limits operations input e = .ok draft ↔
      limits.minTransferMinor ≤ input.amountMinor ∧
        input.amountMinor ≤ limits.maxTransferMinor ∧
        ∃ customerId accountId maskedReference,
          e.account = .found customerId accountId maskedReference ∧
            dailyTotal operations input.agentId (startOfDay e.now) + input.amountMinor ≤
              limits.dailyOutgoingLimitMinor ∧
            draft = { input := input, customerId := customerId, accountId := accountId,
                      maskedReference := maskedReference } := by
  unfold agentDraft
  by_cases hmin : input.amountMinor < limits.minTransferMinor
  · simp [hmin]
  by_cases hmax : input.amountMinor > limits.maxTransferMinor
  · simp [hmin, hmax]
  have hmin' := not_lt.mp hmin
  have hmax' := not_lt.mp hmax
  cases haccount : e.account with
  | callError status =>
    rw [if_neg hmin, if_neg hmax]
    dsimp only
    split_ifs <;> simp
  | unavailable => simp [hmin, hmax]
  | found customerId accountId maskedReference =>
    rw [if_neg hmin, if_neg hmax]
    dsimp only
    split_ifs with hdaily
    · simp only [AccountAnswer.found.injEq, false_iff]
      rintro ⟨-, -, _, _, _, -, hle, -⟩
      exact absurd hle (not_le.mpr hdaily)
    · simp [hmin', hmax', not_lt.mp hdaily, eq_comm]

/-- The insert of `preview` (lines 99-137). -/
def agentCreate (draft : AgentDraft) (e : Env) :
    Except Thrown (AgentCashOperationRow × List AgentCashEvent) :=
  .ok ({
    id := e.uuid
    displayReference := generateReference e.random
    operationType := draft.input.operationType
    status := .PENDING_CONFIRMATION
    agentId := draft.input.agentId
    agentReference := draft.input.agentReference
    customerCustomerId := draft.customerId
    customerAccountId := draft.accountId
    customerMaskedReference := draft.maskedReference
    customerPublicReference := draft.input.customerReference
    agentAccountId := draft.input.agentId
    currency := draft.input.currency
    amountMinor := draft.input.amountMinor
    intentTokenHash := runtime.sha256 e.token
    idempotencyKeyHash := runtime.sha256 ("temp-" ++ generateReference e.random)
    requestHash := runtime.sha256 "pending"
    ledgerJournalId := none
    correlationId := draft.input.correlationId
    expiresAt := e.now + limits.intentTtlSeconds * 1000
    confirmedAt := none
    createdAt := e.dbNow
    completedAt := none
    failedAt := none },
  [{ operationId := e.uuid, eventType := .OPERATION_CREATED, previousStatus := none,
     nextStatus := some .PENDING_CONFIRMATION, occurredAt := e.now }])

end Preview

/-! ## confirm and settle -/

/-- A row that the unique constraints of `agent_cash_operations` keep out beside `row`. -/
def agentConflicts (new row : AgentCashOperationRow) : Bool :=
  row.displayReference = new.displayReference || row.intentTokenHash = new.intentTokenHash ||
    (row.agentId = new.agentId && row.idempotencyKeyHash = new.idempotencyKeyHash)

variable (op : AgentCashOperationRow)

/-- The checks of `confirm` (lines 199-213). -/
def agentConfirmable (now : ℕ) : Except PaymentsError Unit :=
  if op.status ≠ .PENDING_CONFIRMATION then
    .error (agentError "INVALID_REQUEST" "Operation already processed." 409)
  else if op.expiresAt ≤ now then
    .error (agentError "INTENT_EXPIRED" "Operation has expired." 410)
  else .ok ()

/-- The command of `settle` (lines 299-311). -/
def agentCommand : InternalLedgerTransferCommand where
  transferId := op.id
  transferReference := op.displayReference
  senderCustomerId := "agent"
  sourceAccountId := op.agentAccountId
  recipientReference := op.customerPublicReference
  amountMinor := op.amountMinor
  currency := op.currency
  idempotencyKey := "agent-cash:" ++ op.id

/-- An event of `confirm` and `settle`. -/
def agentEvent (eventType : AgentCashEventType)
    (previousStatus nextStatus : AgentCashOperationStatus) (occurredAt : ℕ) : AgentCashEvent where
  operationId := op.id
  eventType := eventType
  previousStatus := some previousStatus
  nextStatus := some nextStatus
  occurredAt := occurredAt

/-- The claim of `confirm` (lines 220-228). -/
def AgentCashOperationRow.claim (keyHash requestHash : String) (now : ℕ) : AgentCashOperationRow :=
  { op with
    status := .PROCESSING
    idempotencyKeyHash := keyHash
    requestHash := requestHash
    confirmedAt := some now }

/-- The write of `settle` on a result (lines 314-321). -/
def AgentCashOperationRow.complete
    (result : InternalLedgerTransferResult) (now : ℕ) : AgentCashOperationRow :=
  { op with
    status := .COMPLETED
    ledgerJournalId := some result.journalId
    completedAt := some now }

/-- The write of `settle` on a `LedgerCallError` below 500 (lines 336-342). -/
def AgentCashOperationRow.fail (now : ℕ) : AgentCashOperationRow :=
  { op with status := .FAILED, failedAt := some now }

/-- The outcome in a status. -/
def AgentCashOperationStatus.settlement : AgentCashOperationStatus → Option Settlement
  | .PENDING_CONFIRMATION | .PROCESSING | .CANCELLED => none
  | .COMPLETED => some .completed
  | .FAILED => some .failed

/-- `AgentService` (`agent.service.ts`, lines 17-389); the only other table is that of its events.
    -/
def agentChannel (runtime : Runtime) (limits : PaymentsLimits) :
    Channel AgentCashOperationRow (List AgentCashEvent) AgentCashEvent AgentPreviewInput
      AgentDraft where
  terms op := { owner := op.agentId, tokenHash := op.intentTokenHash,
                sourceAccountId := op.agentAccountId }
  keyHash := AgentCashOperationRow.idempotencyKeyHash
  requestHash := AgentCashOperationRow.requestHash
  settlement op := op.status.settlement
  conflicts := agentConflicts
  hasJournal journalId op := op.ledgerJournalId = some journalId
  draft operations _ input e := agentDraft limits operations input e
  create := agentCreate runtime limits
  unknownToken := agentError "INVALID_REQUEST" "Operation not found or expired." 404
  hash input := canonicalHash runtime [
    ("agentId", input.caller), ("intentTokenHash", runtime.sha256 input.intentToken)]
  pendingHash := runtime.sha256 "pending"
  confirmable _ := agentConfirmable
  claim := AgentCashOperationRow.claim
  claimNotes op now := [agentEvent op .CUSTOMER_CONFIRMED .PENDING_CONFIRMATION .PROCESSING now]
  command _ := agentCommand
  complete := AgentCashOperationRow.complete
  completeNotes op := [agentEvent op .COMPLETED .PROCESSING .COMPLETED]
  fail := AgentCashOperationRow.fail
  failNotes op _ := [agentEvent op .FAILED .PROCESSING .FAILED]
  apply events event := events ++ [event]
  idempotencyKey id := "agent-cash:" ++ id
  key_injective _ _ h := String.append_right_inj _ |>.mp h
  conflicts_key new row howner hkey := by
    simp only at howner
    simp [agentConflicts, howner, hkey]
  create_settlement d e row notes h := by
    cases h
    rfl
  create_requestHash d e row notes h := by
    cases h
    rfl
  claim_settlement _ _ _ _ _ := rfl

/-- `AgentService` with any number of calls, from empty tables. -/
def agentService (runtime : Runtime) (limits : PaymentsLimits) :
    Pool (ChannelShared AgentCashOperationRow (List AgentCashEvent))
      (ChannelCall AgentCashOperationRow AgentCashEvent AgentPreviewInput AgentDraft)
      (ChannelStart AgentPreviewInput) ChannelInput (Outside Empty) :=
  channelService runtime (agentChannel runtime limits) (· = []) fun _ x => x.elim

/-- The tables of `AgentService`, the Ledger and the calls that are in progress. -/
abbrev AgentState := Pool.State (ChannelShared AgentCashOperationRow (List AgentCashEvent))
  (ChannelCall AgentCashOperationRow AgentCashEvent AgentPreviewInput AgentDraft)

abbrev AgentAction := Pool.Action (ChannelStart AgentPreviewInput) ChannelInput (Outside Empty)

/-- No operation. -/
def noOperations : AgentState where
  shared := {
    rows := .empty
    side := []
    remote := { commands := [], pending := [], journals := [] }
    claims := []
    origins := [] }
  calls := []

theorem noOperations_init (runtime : Runtime) (limits : PaymentsLimits) :
    (agentService runtime limits).machine.init noOperations :=
  ⟨⟨rfl, rfl, rfl, rfl, rfl⟩, rfl⟩

/-- Agent 1 takes an amount from a customer. -/
def cashIn (amountMinor : ℤ) : AgentPreviewInput where
  agentId := "agent-1"
  agentReference := "AG-1"
  customerReference := "AEGIS-AAAA-BBBB-CCCC"
  amountMinor := amountMinor
  currency := "LKR"
  operationType := .AGENT_CASH_IN
  correlationId := "c-1"

end AegisShield.Payments
