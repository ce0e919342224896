import AegisShield.Common.Pool
import AegisShield.Payments.Agent

/-!
# Transfer intents

`createIntent`, `authorize` and `confirm` of `TransfersService` (`transfers.service.ts`),
with the settlement that ends a confirm. Each read, each statement of the transaction of
`confirm` up to its first write, the rest of the transaction with its commit, the command
to the Ledger, its answer and the write of the outcome are steps of their own, and a call
may fail or die before any of them. A statement of the transaction sees what is committed
when it runs. Amounts are integers in minor units, and times are milliseconds.
-/

namespace AegisShield.Payments

open Common

/-! ## Intents -/

/-- `TransferIntent` (`schema.prisma`, lines 45-66). -/
structure TransferIntentRow where
  id : String
  tokenHash : String
  senderCustomerId : String
  sourceAccountId : String
  recipientPublicReference : String
  recipientCustomerId : String
  recipientAccountId : String
  currency : String
  amountMinor : ℤ
  expiresAt : ℕ
  authorizedAt : Option ℕ
  consumedAt : Option ℕ
  deriving DecidableEq

instance : Keyed TransferIntentRow String := ⟨TransferIntentRow.id⟩

/-- The input of `createIntent`. -/
structure IntentRequest where
  senderCustomerId : String
  sourceAccountId : String
  recipientReference : String
  amountMinor : ℤ
  deriving DecidableEq

/-- The fields of `InternalTransferPreviewResult` (`contracts/payments/v1.ts`, lines 233-235) that
    the intent gets. -/
structure TransferPreview where
  sourceAccountId : String
  recipientCustomerId : String
  recipientAccountId : String
  currency : String
  deriving DecidableEq

/-- How `preview` (`ledger.client.ts`) ends: with a parsed result, a `LedgerCallError`, its own
    error on a lost answer, or that of a result of the wrong shape. -/
inductive PreviewAnswer where
  | found (preview : TransferPreview)
  | callError
  | unavailable
  | invalid
  deriving DecidableEq

/-- The input of `confirm`. -/
structure Confirmation where
  senderCustomerId : String
  intentToken : String
  idempotencyKey : String
  correlationId : String
  deriving DecidableEq

/-- The clock reading, the generated values and the answers that a step gets. -/
structure IntentEnv where
  /-- `new Date()`, or the creation time of a row. -/
  now : ℕ
  uuid : String
  token : String
  random : Vector UInt8 12
  preview : PreviewAnswer
  /-- The error of `risk.enforce`, if it throws. -/
  risk : Option Thrown

/-! ## Dates -/

/-- The digits of a number, at least `width` of them. -/
def padded (width n : ℕ) : List Char :=
  List.replicate (width - (Nat.toDigits 10 n).length) '0' ++ Nat.toDigits 10 n

/-- The date of a day since 1970 in the Gregorian calendar, as `YYYY-MM-DD`. -/
def dateText (day : ℕ) : String :=
  let z := day + 719468
  let dayOfEra := z % 146097
  let yearOfEra := (dayOfEra - dayOfEra / 1460 + dayOfEra / 36524 - dayOfEra / 146096) / 365
  let dayOfYear := dayOfEra - (365 * yearOfEra + yearOfEra / 4 - yearOfEra / 100)
  let shifted := (5 * dayOfYear + 2) / 153
  let month := if shifted < 10 then shifted + 3 else shifted - 9
  let year := yearOfEra + z / 146097 * 400 + if month ≤ 2 then 1 else 0
  String.ofList (padded 4 year ++ ['-'] ++ padded 2 month ++ ['-'] ++
    padded 2 (dayOfYear - (153 * shifted + 2) / 5 + 1))

/-- `new Date(now).toISOString().slice(0, 10)`, before the year 10000. -/
def isoDate (now : ℕ) : String := dateText (now / 86400000)

example : isoDate 951782400000 = "2000-02-29" ∧ isoDate 951868800000 = "2000-03-01" := by decide

theorem isoDate_of_startOfDay {now later : ℕ} (h : startOfDay now = startOfDay later) :
    isoDate now = isoDate later := by
  unfold startOfDay at h
  unfold isoDate
  rw [Nat.eq_of_mul_eq_mul_right (by omega) h]

/-! ## The tables -/

/-- `advisoryKey` (`security.ts`, lines 29-31): the first 16 digits name the lock. -/
def advisoryKey (runtime : Runtime) (value : String) : String :=
  String.ofList ((runtime.sha256 value).toList.take 16)

/-- The rows of `transfer_intents` and `transfers`, the advisory locks that are held, the
    commands sent, and the last clock reading. -/
structure IntentShared where
  intents : Table TransferIntentRow
  transfers : Table TransferRow
  locks : List String
  commands : List InternalLedgerTransferCommand
  clock : ℕ

/-- The statements of the transaction of `confirm` under its lock. -/
inductive Stage where
  /-- The lookup of the idempotency key. -/
  | checking
  /-- The checks of the intent that the transaction has read. -/
  | expiring
  /-- The aggregate. -/
  | reserving
  /-- The writes and the commit; `windowAt` is the clock reading of the aggregate. -/
  | creating (windowAt : ℕ)
  deriving DecidableEq

/-- Where a call stands. -/
inductive IntentCall where
  /-- `createIntent` before the preview of the Ledger. -/
  | drafting (request : IntentRequest)
  /-- Before its insert. -/
  | inserting (request : IntentRequest) (preview : TransferPreview)
  | intended (token : String)
  /-- `authorize` before the lookup of the intent. -/
  | authorizing (senderCustomerId token : String)
  /-- Before the lookup of the transfer of a consumed intent. -/
  | rechecking (senderCustomerId intentId : String)
  /-- Before its update. -/
  | granting (intentId : String)
  | authorized
  /-- `confirm` before the lookup of the intent. -/
  | confirming (c : Confirmation)
  /-- Before the lookup of the idempotency key. -/
  | replaying (c : Confirmation) (requestHash : String)
  /-- Before `risk.enforce`. -/
  | enforcing (c : Confirmation)
  /-- Before the transaction, which starts with a lookup of the intent. -/
  | beginning (c : Confirmation)
  /-- Before the clock reading for the lock. -/
  | dating (c : Confirmation) (intent : TransferIntentRow)
  /-- Before it gets the lock of the day of `lockedAt`. -/
  | waiting (c : Confirmation) (intent : TransferIntentRow) (lockedAt : ℕ)
  /-- In the transaction, with the lock. -/
  | inTx (c : Confirmation) (intent : TransferIntentRow) (lockedAt : ℕ) (stage : Stage)
  /-- `settle` before it sends the command. -/
  | settling (c : Confirmation) (row : TransferRow)
  | awaiting (c : Confirmation) (row : TransferRow)
  /-- Before the write of the outcome. -/
  | answered (c : Confirmation) (row : TransferRow) (outcome : LedgerOutcome)
  | confirmed (c : Confirmation) (row : TransferRow)
  | thrown (e : Thrown)
  deriving DecidableEq

/-- What a step gets from outside. -/
inductive IntentInput where
  /-- The next statement runs. -/
  | run (e : IntentEnv)
  /-- How the call to the Ledger ends. -/
  | reply (outcome : LedgerOutcome)
  /-- The database or the connection fails the next statement. -/
  | fail
  /-- The process dies. -/
  | crash

section Statements

variable (runtime : Runtime) (limits : PaymentsLimits)

variable (s : IntentShared)

/-- `findFirst` of an intent by its token and sender. -/
def findIntent (senderCustomerId token : String) : Option TransferIntentRow :=
  s.intents.rows.find? fun intent => decide (intent.tokenHash = runtime.sha256 token) &&
    decide (intent.senderCustomerId = senderCustomerId)

/-- `findUnique` of a transfer by its sender and idempotency key. -/
def findTransfer (c : Confirmation) : Option TransferRow :=
  s.transfers.rows.find? fun row => decide (row.senderCustomerId = c.senderCustomerId) &&
    decide (row.idempotencyKeyHash = runtime.sha256 c.idempotencyKey)

/-- The hash of `confirm` (lines 349-356 and 388-395). -/
def confirmHash (senderCustomerId : String) (intent : TransferIntentRow) : String :=
  canonicalHash runtime [
    ("amountMinor", toString intent.amountMinor), ("currency", intent.currency),
    ("intentId", intent.id), ("recipientAccountId", intent.recipientAccountId),
    ("senderCustomerId", senderCustomerId), ("sourceAccountId", intent.sourceAccountId)]

/-- `createIntent` up to its insert (lines 168-192). -/
def intentDraft (request : IntentRequest) (answer : PreviewAnswer) :
    Except Thrown TransferPreview :=
  if request.amountMinor < limits.minTransferMinor ∨
      request.amountMinor > limits.maxTransferMinor then
    .error (.payments (paymentError "LIMIT_EXCEEDED"))
  else
    match answer with
    | .callError => .error (.payments (paymentError "ACCOUNT_NOT_FOUND"))
    | .unavailable => .error (.payments
        { code := "LEDGER_UNAVAILABLE", message := "The transfer is processing.", status := 202 })
    | .invalid => .error .other
    | .found preview =>
      if preview.sourceAccountId = preview.recipientAccountId then
        .error (.payments (paymentError "SELF_TRANSFER"))
      else .ok preview

/-- What `createIntent` has checked before its insert. -/
theorem intentDraft_ok {limits : PaymentsLimits} {request : IntentRequest} {answer : PreviewAnswer}
    {preview : TransferPreview}
    (h : intentDraft limits request answer = .ok preview) :
    answer = .found preview ∧ limits.minTransferMinor ≤ request.amountMinor ∧
      request.amountMinor ≤ limits.maxTransferMinor := by
  unfold intentDraft at h
  split_ifs at h with hlimits
  have hamount : limits.minTransferMinor ≤ request.amountMinor ∧
      request.amountMinor ≤ limits.maxTransferMinor := by omega
  split at h
  · cases h
  · cases h
  · cases h
  · split_ifs at h
    cases h
    exact ⟨rfl, hamount⟩

/-- The row of `createIntent` (lines 193-208). -/
def newIntent (request : IntentRequest) (preview : TransferPreview) (e : IntentEnv) :
    TransferIntentRow where
  id := e.uuid
  tokenHash := runtime.sha256 e.token
  senderCustomerId := request.senderCustomerId
  sourceAccountId := preview.sourceAccountId
  recipientPublicReference := request.recipientReference
  recipientCustomerId := preview.recipientCustomerId
  recipientAccountId := preview.recipientAccountId
  currency := preview.currency
  amountMinor := request.amountMinor
  expiresAt := e.now + limits.intentTtlSeconds * 1000
  authorizedAt := none
  consumedAt := none

/-- The insert of an intent; `none` on a unique violation. -/
def insertIntent (intents : Table TransferIntentRow) (intent : TransferIntentRow) :
    Option (Table TransferIntentRow) :=
  if intents.rows.any fun other => other.tokenHash = intent.tokenHash then none
  else intents.insert intent

/-- The lock of `confirm` (line 396). -/
def dayLock (senderCustomerId : String) (lockedAt : ℕ) : String :=
  advisoryKey runtime (senderCustomerId ++ ":" ++ isoDate lockedAt)

/-- The aggregate of `confirm` (lines 416-427). -/
def reservedSum (transfers : Table TransferRow) (senderCustomerId : String) (since : ℕ) : ℤ :=
  ((transfers.rows.filter fun row => decide (row.senderCustomerId = senderCustomerId) &&
    (decide (row.status = .PROCESSING) || decide (row.status = .COMPLETED) ||
      decide (row.status = .REQUIRES_REVIEW)) && decide (since ≤ row.createdAt)).map
        TransferRow.amountMinor).sum

/-- The data of the row of `confirm` (lines 433-461). -/
def newTransfer (c : Confirmation) (intent : TransferIntentRow) (e : IntentEnv) : NewTransfer where
  id := e.uuid
  displayReference := newTransferReference e.random
  senderCustomerId := c.senderCustomerId
  recipientCustomerId := intent.recipientCustomerId
  senderAccountId := intent.sourceAccountId
  recipientAccountId := intent.recipientAccountId
  recipientPublicReference := intent.recipientPublicReference
  currency := intent.currency
  amountMinor := intent.amountMinor
  idempotencyKeyHash := runtime.sha256 c.idempotencyKey
  requestHash := confirmHash runtime c.senderCustomerId intent
  intentId := intent.id
  correlationId := c.correlationId

/-- How a statement of the transaction ends: the next one, a replay or an error, both of
    which end the transaction, or its commit. -/
inductive TxStep where
  | next (stage : Stage)
  | replay (row : TransferRow)
  | abort (e : Thrown)
  | commit (intents : Table TransferIntentRow) (transfers : Table TransferRow) (row : TransferRow)

/-- The statements of the transaction under its lock (lines 397-466). -/
def confirmTx (c : Confirmation) (intent : TransferIntentRow) (e : IntentEnv) : Stage → TxStep
  | .checking =>
    match findTransfer runtime s c with
    | some existing =>
      if existing.requestHash ≠ confirmHash runtime c.senderCustomerId intent then
        .abort (.payments (paymentError "IDEMPOTENCY_CONFLICT"))
      else .replay existing
    | none => .next .expiring
  | .expiring =>
    if intent.expiresAt ≤ e.now ∨ intent.consumedAt.isSome ∨ intent.authorizedAt.isNone then
      .abort (.payments (paymentError "INTENT_EXPIRED"))
    else .next .reserving
  | .reserving =>
    if reservedSum s.transfers c.senderCustomerId (startOfDay e.now) + intent.amountMinor >
        limits.dailyOutgoingLimitMinor then
      .abort (.payments (paymentError "LIMIT_EXCEEDED"))
    else .next (.creating e.now)
  | .creating _ =>
    match createTransfer s.transfers (newTransfer runtime c intent e) e.now,
        s.intents.find intent.id with
    | some transfers, some current =>
      .commit (s.intents.put { current with consumedAt := some e.now }) transfers
        (TransferRow.create (newTransfer runtime c intent e) e.now)
    | _, _ => .abort .other

/-! ## Steps -/

/-- The end of a transaction releases its lock. -/
def unlock (c : Confirmation) (lockedAt : ℕ) : IntentShared :=
  { s with locks := s.locks.erase (dayLock runtime c.senderCustomerId lockedAt) }

/-- `settle` (lines 264-336) returns the row as it was when the write after a result fails, and
    throws when the one after an error does. -/
def afterFailedSettle (c : Confirmation) (row : TransferRow) (outcome : LedgerOutcome) :
    IntentCall :=
  match outcome with
  | .result _ => .confirmed c row
  | .callError _ _ | .unavailable => .thrown .other

/-- The next statement of a call. -/
def intentRun (call : IntentCall) (e : IntentEnv) : Option (IntentShared × IntentCall) :=
  match call with
  | .drafting request =>
    match intentDraft limits request e.preview with
    | .error err => some (s, .thrown err)
    | .ok preview => some (s, .inserting request preview)
  | .inserting request preview =>
    match insertIntent s.intents (newIntent runtime limits request preview e) with
    | none => some (s, .thrown .other)
    | some intents => some ({ s with intents := intents }, .intended e.token)
  | .authorizing senderCustomerId token =>
    match findIntent runtime s senderCustomerId token with
    | none => some (s, .thrown (.payments (paymentError "INTENT_EXPIRED")))
    | some intent =>
      if intent.consumedAt.isSome then some (s, .rechecking senderCustomerId intent.id)
      else if intent.expiresAt ≤ e.now then
        some (s, .thrown (.payments (paymentError "INTENT_EXPIRED")))
      else some (s, .granting intent.id)
  | .rechecking senderCustomerId intentId =>
    if s.transfers.rows.any fun row => decide (row.intentId = intentId) &&
        decide (row.senderCustomerId = senderCustomerId) then
      some (s, .authorized)
    else some (s, .thrown (.payments (paymentError "INTENT_EXPIRED")))
  | .granting intentId =>
    match s.intents.find intentId with
    | none => some (s, .thrown .other)
    | some intent =>
      some ({ s with intents := s.intents.put { intent with authorizedAt := some e.now } },
        .authorized)
  | .confirming c =>
    match findIntent runtime s c.senderCustomerId c.intentToken with
    | none => some (s, .thrown (.payments (paymentError "AUTHORIZATION_FAILED")))
    | some intent =>
      if intent.authorizedAt.isNone then
        some (s, .thrown (.payments (paymentError "AUTHORIZATION_FAILED")))
      else some (s, .replaying c (confirmHash runtime c.senderCustomerId intent))
  | .replaying c requestHash =>
    match findTransfer runtime s c with
    | none => some (s, .enforcing c)
    | some existing =>
      if existing.requestHash ≠ requestHash then
        some (s, .thrown (.payments (paymentError "IDEMPOTENCY_CONFLICT")))
      else some (s, .confirmed c existing)
  | .enforcing c =>
    match e.risk with
    | some err => some (s, .thrown err)
    | none => some (s, .beginning c)
  | .beginning c =>
    match findIntent runtime s c.senderCustomerId c.intentToken with
    | none => some (s, .thrown (.payments (paymentError "INTENT_EXPIRED")))
    | some intent => some (s, .dating c intent)
  | .dating c intent => some (s, .waiting c intent e.now)
  | .waiting c intent lockedAt =>
    if dayLock runtime c.senderCustomerId lockedAt ∈ s.locks then none
    else some ({ s with locks := dayLock runtime c.senderCustomerId lockedAt :: s.locks },
      .inTx c intent lockedAt .checking)
  | .inTx c intent lockedAt stage =>
    match confirmTx runtime limits s c intent e stage with
    | .next stage => some (s, .inTx c intent lockedAt stage)
    | .replay row => some (unlock runtime s c lockedAt, .confirmed c row)
    | .abort err => some (unlock runtime s c lockedAt, .thrown err)
    | .commit intents transfers row =>
      some (unlock runtime { s with intents := intents, transfers := transfers } c lockedAt,
        .settling c row)
  | .settling c row =>
    some ({ s with commands := s.commands ++ [settleCommand row] }, .awaiting c row)
  | .answered c row outcome =>
    match settleWrite s.transfers row.id outcome e.now with
    | none => some (s, afterFailedSettle c row outcome)
    | some transfers =>
      some ({ s with transfers := transfers }, .confirmed c ((transfers.find row.id).getD row))
  | .intended _ | .authorized | .awaiting _ _ | .confirmed _ _ | .thrown _ => none

/-- One step of a call at the time of the shared state. -/
def intentStep (call : IntentCall) (x : IntentInput) : Option (IntentShared × IntentCall) :=
  match call, x with
  | call, .run e => intentRun runtime limits s call e
  | .awaiting c row, .reply outcome =>
    some (s, if outcome.writes then .answered c row outcome else .confirmed c row)
  | .inTx c _ lockedAt _, .fail | .inTx c _ lockedAt _, .crash =>
    some (unlock runtime s c lockedAt, .thrown .other)
  | .answered c row outcome, .fail => some (s, afterFailedSettle c row outcome)
  | .intended _, _ | .authorized, _ | .confirmed _ _, _ | .thrown _, _ => none
  | .settling _ _, .fail | .awaiting _ _, .fail => none
  | _, .fail | _, .crash => some (s, .thrown .other)
  | _, .reply _ => none

/-- The time of the step. -/
def IntentShared.after : IntentInput → IntentShared
  | .run e => { s with clock := e.now }
  | .reply _ | .fail | .crash => s

/-- One step of a call. -/
def intentNext (call : IntentCall) (x : IntentInput) : Option (IntentShared × IntentCall) :=
  intentStep runtime limits (s.after x) call x

end Statements

/-- A call starts. -/
inductive IntentStart where
  | createIntent (request : IntentRequest)
  | authorize (senderCustomerId token : String)
  | confirm (c : Confirmation)

/-- No rows, no locks, nothing sent. -/
def IntentShared.empty : IntentShared where
  intents := .empty
  transfers := .empty
  locks := []
  commands := []
  clock := 0

/-- All interleavings of the three calls, from empty tables. -/
def intentService (runtime : Runtime) (limits : PaymentsLimits) :
    Pool IntentShared IntentCall IntentStart IntentInput Empty where
  init s := s = .empty
  start _ call :=
    match call with
    | .createIntent request => .drafting request
    | .authorize senderCustomerId token => .authorizing senderCustomerId token
    | .confirm c => .confirming c
  next := intentNext runtime limits
  env _ x := x.elim

abbrev IntentState := Pool.State IntentShared IntentCall
abbrev IntentAction := Pool.Action IntentStart IntentInput Empty

/-- No intent, and no call. -/
def noIntents : IntentState where
  shared := .empty
  calls := []

/-! ## Plain runs -/

/-- What a step of a run gets from outside when nothing fails. -/
def plainInput (now : ℕ) (uuid token : String) (byte : UInt8) : IntentInput :=
  .run { now, uuid, token, random := .replicate 12 byte,
         preview := .found ⟨"account-1", "customer-2", "account-2", "LKR"⟩, risk := none }

/-- The next `count` statements of call `n`. -/
def statements (n count : ℕ) (x : IntentInput) : List IntentAction := .replicate count (.next n x)

/-- `createIntent` of call `n` and `authorize` of the next one. -/
def intentOf (n now : ℕ) (senderCustomerId uuid token : String) (amountMinor : ℤ) :
    List IntentAction :=
  .start (.createIntent ⟨senderCustomerId, "account-1", "AEGIS-2222-2222-2222", amountMinor⟩) ::
    statements n 2 (plainInput now uuid token 0) ++
  .start (.authorize senderCustomerId token) ::
    statements (n + 1) 2 (plainInput now uuid token 0)

/-- `confirm` of call `n` up to the clock reading for the lock. -/
def confirmOf (n now : ℕ) (senderCustomerId token idempotencyKey : String) : List IntentAction :=
  .start (.confirm ⟨senderCustomerId, token, idempotencyKey, ""⟩) ::
    statements n 5 (plainInput now "" "" 0)

theorem noIntents_init (runtime : Runtime) (limits : PaymentsLimits) :
    (intentService runtime limits).machine.init noIntents := ⟨rfl, rfl⟩

end AegisShield.Payments
