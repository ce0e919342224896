import AegisShield.Common.Table

/-!
# Transfers of the Payments service

The transfer row and its events (`schema.prisma`), the command that `settle`
sends to the Ledger, and every write that `confirm`, `settle` and `recover` of
`transfers.service.ts` make to a row. Amounts are integers in minor units where
the services exchange their decimal text.
-/

namespace AegisShield.Payments

open Common

/-- `TransferStatus` (`schema.prisma`). -/
inductive TransferStatus where
  | PROCESSING
  | COMPLETED
  | FAILED
  | REQUIRES_REVIEW
  deriving DecidableEq

/-- The outcome of the transfer is settled. -/
def TransferStatus.isTerminal : TransferStatus → Bool
  | .COMPLETED | .FAILED => true
  | .PROCESSING | .REQUIRES_REVIEW => false

/-- `TransferFailureCode` (`schema.prisma`). -/
inductive TransferFailureCode where
  | INSUFFICIENT_FUNDS
  | ACCOUNT_NOT_FOUND
  | ACCOUNT_NOT_ACTIVE
  | CURRENCY_MISMATCH
  | SELF_TRANSFER
  | LIMIT_EXCEEDED
  | INTENT_EXPIRED
  | AUTHORIZATION_FAILED
  | IDEMPOTENCY_CONFLICT
  | LEDGER_UNAVAILABLE
  | PROCESSING_TIMEOUT
  | INTERNAL_ERROR
  deriving DecidableEq

/-- `TransferEventType` (`schema.prisma`, lines 30-39). -/
inductive TransferEventType where
  | INTENT_CREATED
  | AUTHORIZED
  | PROCESSING_STARTED
  | LEDGER_POSTED
  | COMPLETED
  | FAILED
  | RECOVERY_RETRY
  | REQUIRES_REVIEW
  deriving DecidableEq

/-- `TransferEvent` (`schema.prisma`, lines 108-120). -/
structure TransferEvent where
  eventType : TransferEventType
  previousStatus : Option TransferStatus
  nextStatus : Option TransferStatus
  safeCode : Option TransferFailureCode
  occurredAt : ℕ
  deriving DecidableEq

/-- A COMPLETED or FAILED event. -/
def TransferEvent.isTerminal (e : TransferEvent) : Bool :=
  e.eventType = .COMPLETED || e.eventType = .FAILED

/-- `Transfer` (`schema.prisma`, lines 68-106) with its events. -/
structure TransferRow where
  id : String
  displayReference : String
  senderCustomerId : String
  recipientCustomerId : String
  senderAccountId : String
  recipientAccountId : String
  recipientPublicReference : String
  currency : String
  amountMinor : ℤ
  status : TransferStatus
  failureCode : Option TransferFailureCode
  ledgerJournalId : Option String
  senderPostingId : Option String
  recipientPostingId : Option String
  senderBalanceAfterMinor : Option ℤ
  recipientBalanceAfterMinor : Option ℤ
  idempotencyKeyHash : String
  requestHash : String
  intentId : String
  correlationId : String
  attemptCount : ℕ
  nextAttemptAt : Option ℕ
  createdAt : ℕ
  updatedAt : ℕ
  completedAt : Option ℕ
  failedAt : Option ℕ
  events : List TransferEvent
  deriving DecidableEq

instance : Keyed TransferRow String := ⟨TransferRow.id⟩

/-- The settings of `PaymentsConfig` (`payments.config.ts`, lines 4-29) that recovery reads, as
    `createPaymentsConfig` accepts them: `integer` has minimum 1. -/
structure PaymentsConfig where
  recoveryStaleSeconds : ℕ
  maxProcessingAttempts : ℕ
  recoveryStaleSeconds_pos : 1 ≤ recoveryStaleSeconds
  maxProcessingAttempts_pos : 1 ≤ maxProcessingAttempts

theorem defaultStaleSeconds_pos : 1 ≤ 30 := by decide

theorem defaultProcessingAttempts_pos : 1 ≤ 5 := by decide

/-- The defaults of `createPaymentsConfig` (`payments.config.ts`, lines 57-127). -/
def defaultConfig : PaymentsConfig where
  recoveryStaleSeconds := 30
  maxProcessingAttempts := 5
  recoveryStaleSeconds_pos := defaultStaleSeconds_pos
  maxProcessingAttempts_pos := defaultProcessingAttempts_pos

/-! ## The call to the Ledger -/

/-- `InternalLedgerTransferCommand` (`contracts/payments/v1.ts`, lines 244-246). -/
structure InternalLedgerTransferCommand where
  senderCustomerId : String
  sourceAccountId : String
  recipientReference : String
  amountMinor : ℤ
  currency : String
  transferId : String
  transferReference : String
  idempotencyKey : String
  deriving DecidableEq

/-- The fields of `InternalLedgerTransferResult` (`contracts/payments/v1.ts`, lines 264-266) that
    `settle` reads. -/
structure InternalLedgerTransferResult where
  journalId : String
  senderPostingId : String
  recipientPostingId : String
  senderBalanceAfter : ℤ
  recipientBalanceAfter : ℤ
  deriving DecidableEq

/-- How `LedgerClient.transfer` (`ledger.client.ts`) ends: with a parsed result, with
    a `LedgerCallError`, or with any other error (a timeout, a connection error, a
    body that the schema rejects). -/
inductive LedgerOutcome where
  | result (result : InternalLedgerTransferResult)
  | callError (status : ℕ) (code : Option String)
  | unavailable
  deriving DecidableEq

/-- `settle` writes to the row on this outcome. -/
def LedgerOutcome.writes : LedgerOutcome → Bool
  | .result _ => true
  | .callError status _ => decide (status < 500)
  | .unavailable => false

/-- The command of `settle` (`transfers.service.ts`, lines 269-281). -/
def settleCommand (row : TransferRow) : InternalLedgerTransferCommand where
  transferId := row.id
  transferReference := row.displayReference
  senderCustomerId := row.senderCustomerId
  sourceAccountId := row.senderAccountId
  recipientReference := row.recipientPublicReference
  amountMinor := row.amountMinor
  currency := row.currency
  idempotencyKey := "transfer:" ++ row.id

/-- `safeFailure` (`transfers.service.ts`, lines 58-87). -/
def safeFailure (code : Option String) : TransferFailureCode :=
  match code with
  | some "INSUFFICIENT_FUNDS" => .INSUFFICIENT_FUNDS
  | some "ACCOUNT_NOT_FOUND" => .ACCOUNT_NOT_FOUND
  | some "ACCOUNT_NOT_ACTIVE" => .ACCOUNT_NOT_ACTIVE
  | some "CURRENCY_MISMATCH" => .CURRENCY_MISMATCH
  | some "SELF_TRANSFER" => .SELF_TRANSFER
  | some "LIMIT_EXCEEDED" => .LIMIT_EXCEEDED
  | some "INTENT_EXPIRED" => .INTENT_EXPIRED
  | some "AUTHORIZATION_FAILED" => .AUTHORIZATION_FAILED
  | some "IDEMPOTENCY_CONFLICT" => .IDEMPOTENCY_CONFLICT
  | _ => .LEDGER_UNAVAILABLE

/-! ## The writes to a row -/

/-- The intent's data and the request data with which `confirm` creates a row. -/
structure NewTransfer where
  id : String
  displayReference : String
  senderCustomerId : String
  recipientCustomerId : String
  senderAccountId : String
  recipientAccountId : String
  recipientPublicReference : String
  currency : String
  amountMinor : ℤ
  idempotencyKeyHash : String
  requestHash : String
  intentId : String
  correlationId : String
  deriving DecidableEq

/-- A transfer of 5.00 LKR. -/
def fiveRupees : NewTransfer where
  id := "t-1"
  displayReference := "TRF-1"
  senderCustomerId := "c-1"
  recipientCustomerId := "c-2"
  senderAccountId := "a-1"
  recipientAccountId := "a-2"
  recipientPublicReference := "AEG-2"
  currency := "LKR"
  amountMinor := 500
  idempotencyKeyHash := "k-1"
  requestHash := "r-1"
  intentId := "i-1"
  correlationId := "x-1"

/-- The row that `confirm` creates (lines 433-461). -/
def TransferRow.create (new : NewTransfer) (now : ℕ) : TransferRow where
  id := new.id
  displayReference := new.displayReference
  senderCustomerId := new.senderCustomerId
  recipientCustomerId := new.recipientCustomerId
  senderAccountId := new.senderAccountId
  recipientAccountId := new.recipientAccountId
  recipientPublicReference := new.recipientPublicReference
  currency := new.currency
  amountMinor := new.amountMinor
  status := .PROCESSING
  failureCode := none
  ledgerJournalId := none
  senderPostingId := none
  recipientPostingId := none
  senderBalanceAfterMinor := none
  recipientBalanceAfterMinor := none
  idempotencyKeyHash := new.idempotencyKeyHash
  requestHash := new.requestHash
  intentId := new.intentId
  correlationId := new.correlationId
  attemptCount := 0
  nextAttemptAt := none
  createdAt := now
  updatedAt := now
  completedAt := none
  failedAt := none
  events := [
    { eventType := .AUTHORIZED, previousStatus := none, nextStatus := none, safeCode := none,
      occurredAt := now },
    { eventType := .PROCESSING_STARTED, previousStatus := none, nextStatus := some .PROCESSING,
      safeCode := none, occurredAt := now }]

/-- The update of `settle` on a result (lines 282-312). -/
def TransferRow.complete (row : TransferRow) (result : InternalLedgerTransferResult)
    (now : ℕ) : TransferRow :=
  { row with
    status := .COMPLETED
    ledgerJournalId := some result.journalId
    senderPostingId := some result.senderPostingId
    recipientPostingId := some result.recipientPostingId
    senderBalanceAfterMinor := some result.senderBalanceAfter
    recipientBalanceAfterMinor := some result.recipientBalanceAfter
    completedAt := some now
    nextAttemptAt := none
    updatedAt := now
    events := row.events ++ [
      { eventType := .LEDGER_POSTED, previousStatus := some .PROCESSING,
        nextStatus := some .COMPLETED, safeCode := none, occurredAt := now },
      { eventType := .COMPLETED, previousStatus := some .PROCESSING,
        nextStatus := some .COMPLETED, safeCode := none, occurredAt := now }] }

/-- The update of `settle` on a `LedgerCallError` below 500 (lines 315-332). -/
def TransferRow.fail (row : TransferRow) (code : Option String) (now : ℕ) : TransferRow :=
  { row with
    status := .FAILED
    failureCode := some (safeFailure code)
    failedAt := some now
    nextAttemptAt := none
    updatedAt := now
    events := row.events ++ [
      { eventType := .FAILED, previousStatus := some .PROCESSING, nextStatus := some .FAILED,
        safeCode := some (safeFailure code), occurredAt := now }] }

/-- The update of `recover` at the attempt limit (lines 598-613). -/
def TransferRow.requireReview (row : TransferRow) (now : ℕ) : TransferRow :=
  { row with
    status := .REQUIRES_REVIEW
    attemptCount := row.attemptCount + 1
    nextAttemptAt := none
    updatedAt := now
    events := row.events ++ [
      { eventType := .REQUIRES_REVIEW, previousStatus := some .PROCESSING,
        nextStatus := some .REQUIRES_REVIEW, safeCode := none, occurredAt := now }] }

/-- The update of `recover` below the attempt limit (lines 617-631). -/
def TransferRow.retry (config : PaymentsConfig) (row : TransferRow) (now : ℕ) : TransferRow :=
  { row with
    attemptCount := row.attemptCount + 1
    nextAttemptAt := some (now + config.recoveryStaleSeconds * 1000)
    updatedAt := now
    events := row.events ++ [
      { eventType := .RECOVERY_RETRY, previousStatus := none, nextStatus := none,
        safeCode := none, occurredAt := now }] }

/-- The claim at attempt `row.attemptCount + 1` moves the row to REQUIRES_REVIEW (line 597). -/
def TransferRow.exhausted (config : PaymentsConfig) (row : TransferRow) : Bool :=
  decide (row.attemptCount + 1 ≥ config.maxProcessingAttempts)

/-- What the claim of `recover` writes to a row. -/
def TransferRow.claim (config : PaymentsConfig) (row : TransferRow) (now : ℕ) : TransferRow :=
  if row.exhausted config then row.requireReview now else row.retry config now

/-! ## The tables -/

/-- A row that the unique constraints of `transfers` keep out beside `row`. -/
def NewTransfer.conflicts (new : NewTransfer) (row : TransferRow) : Bool :=
  row.displayReference = new.displayReference || row.intentId = new.intentId ||
    (row.senderCustomerId = new.senderCustomerId &&
      row.idempotencyKeyHash = new.idempotencyKeyHash)

/-- The insert of `confirm`; `none` on a unique violation. -/
def createTransfer (transfers : Table TransferRow) (new : NewTransfer) (now : ℕ) :
    Option (Table TransferRow) :=
  if transfers.rows.any new.conflicts then none
  else transfers.insert (TransferRow.create new now)

/-- Another row has the journal id, which is unique. -/
def journalTaken (transfers : Table TransferRow) (id journalId : String) : Bool :=
  transfers.rows.any fun row => decide (row.id ≠ id ∧ row.ledgerJournalId = some journalId)

/-- The write of `settle` for the row `id` when the Ledger answered; `none` when the
    answer asks for no write, the row is absent or the write violates a constraint. -/
def settleWrite (transfers : Table TransferRow) (id : String) (outcome : LedgerOutcome)
    (now : ℕ) : Option (Table TransferRow) :=
  match outcome, transfers.find id with
  | .result result, some row =>
    if journalTaken transfers id result.journalId then none
    else some (transfers.put (row.complete result now))
  | .callError status code, some row =>
    if status < 500 then some (transfers.put (row.fail code now)) else none
  | _, _ => none

/-- The predicate of the SELECT of `recover` (lines 584-586), with `Date.now()` at
    `now` and `CURRENT_TIMESTAMP` at `dbNow`. -/
def dueForRecovery (config : PaymentsConfig) (now dbNow : ℕ) (row : TransferRow) : Bool :=
  row.status = .PROCESSING && row.updatedAt + config.recoveryStaleSeconds * 1000 < now &&
    row.nextAttemptAt.all (· ≤ dbNow)

/-- `ORDER BY "updated_at", "id"`. -/
def recoveryOrder (a b : TransferRow) : Prop :=
  a.updatedAt < b.updatedAt ∨ (a.updatedAt = b.updatedAt ∧ a.id ≤ b.id)

instance : DecidableRel recoveryOrder := fun _ _ => inferInstanceAs (Decidable (_ ∨ _))

/-- The SELECT of `recover` (lines 581-590): due rows in order, those locked by others
    skipped, at most 20. -/
def selectDue (config : PaymentsConfig) (transfers : Table TransferRow) (locked : List String)
    (now dbNow : ℕ) : List String :=
  (((transfers.rows.filter fun row =>
      dueForRecovery config now dbNow row && decide (row.id ∉ locked)).insertionSort
    recoveryOrder).take 20).map TransferRow.id

/-- The loop of `recover` over the selected ids (lines 592-633), with the clock reading
    for each row; `none` when a row is not found. Returns the rows to settle. -/
def claimRows (config : PaymentsConfig) (clock : String → ℕ) :
    Table TransferRow → List String → Option (Table TransferRow × List TransferRow)
  | transfers, [] => some (transfers, [])
  | transfers, id :: ids =>
    match transfers.find id with
    | none => none
    | some current =>
      if current.exhausted config then
        claimRows config clock (transfers.put (current.requireReview (clock id))) ids
      else
        let row := current.retry config (clock id)
        (claimRows config clock (transfers.put row) ids).map fun r => (r.1, row :: r.2)

/-! ## What the writes change -/

section Writes

variable {config : PaymentsConfig} {transfers transfers' : Table TransferRow}
  {row : TransferRow} {new : NewTransfer} {outcome : LedgerOutcome} {clock : String → ℕ}
  {id k : String} {ids locked : List String} {now dbNow : ℕ}

@[simp] theorem key_transferRow (row : TransferRow) : key row = row.id := rfl

@[simp] theorem claim_id : (row.claim config now).id = row.id := by
  unfold TransferRow.claim
  split_ifs <;> rfl

@[simp] theorem claim_attemptCount :
    (row.claim config now).attemptCount = row.attemptCount + 1 := by
  unfold TransferRow.claim
  split_ifs <;> rfl

theorem exhausted_iff :
    row.exhausted config = true ↔ config.maxProcessingAttempts ≤ row.attemptCount + 1 := by
  simp [TransferRow.exhausted]

theorem createTransfer_some (h : createTransfer transfers new now = some transfers') :
    transfers.find new.id = none ∧
      ∀ k, transfers'.find k =
        if new.id = k then some (TransferRow.create new now) else transfers.find k := by
  unfold createTransfer at h
  split_ifs at h
  exact ⟨(Table.insert_some h).1, fun k => Table.find_insert h⟩

/-- A settlement writes COMPLETED or FAILED to the row it is for. -/
theorem settleWrite_some (h : settleWrite transfers id outcome now = some transfers') :
    ∃ row row', transfers.find id = some row ∧
      (∀ k, transfers'.find k = if id = k then some row' else transfers.find k) ∧
      ((∃ result, outcome = .result result ∧ row' = row.complete result now) ∨
        ∃ status code, outcome = .callError status code ∧ status < 500 ∧
          row' = row.fail code now) := by
  unfold settleWrite at h
  split at h
  next result row hrow =>
    have hkey := Table.key_of_find hrow
    split_ifs at h
    cases h
    refine ⟨row, _, hrow, fun k => ?_, .inl ⟨result, rfl, rfl⟩⟩
    subst hkey
    exact Table.find_put (r := row.complete result now) hrow
  next status code row hrow =>
    have hkey := Table.key_of_find hrow
    split_ifs at h with hstatus
    cases h
    refine ⟨row, _, hrow, fun k => ?_, .inr ⟨status, code, rfl, hstatus, rfl⟩⟩
    subst hkey
    exact Table.find_put (r := row.fail code now) hrow
  · cases h

/-- The rows that `recover` selects are due and not locked. -/
theorem mem_selectDue (h : id ∈ selectDue config transfers locked now dbNow) :
    ∃ row, transfers.find id = some row ∧ dueForRecovery config now dbNow row = true ∧
      id ∉ locked := by
  obtain ⟨row, hrow, rfl⟩ := List.mem_map.mp h
  have hmem := (List.mem_insertionSort recoveryOrder).mp (List.mem_of_mem_take hrow)
  simp only [List.mem_filter, Bool.and_eq_true, decide_eq_true_eq] at hmem
  exact ⟨row, Table.find_of_mem hmem.1, hmem.2⟩

theorem nodup_selectDue : (selectDue config transfers locked now dbNow).Nodup := by
  unfold selectDue
  rw [List.map_take]
  refine List.Sublist.nodup (List.take_sublist _ _) ?_
  have hperm := (List.perm_insertionSort recoveryOrder (transfers.rows.filter fun row =>
    dueForRecovery config now dbNow row && decide (row.id ∉ locked))).map TransferRow.id
  rw [hperm.nodup_iff]
  exact List.Sublist.nodup (List.filter_sublist.map _) transfers.nodup_keys

theorem mem_selectDue_processing (h : id ∈ selectDue config transfers locked now dbNow) :
    ∃ row, transfers.find id = some row ∧ row.status = .PROCESSING := by
  obtain ⟨row, hrow, hdue, -⟩ := mem_selectDue h
  simp only [dueForRecovery, Bool.and_eq_true, decide_eq_true_eq] at hdue
  exact ⟨row, hrow, hdue.1.1⟩

variable (config clock) in
/-- The claim of selected rows claims each of them once, leaves the others alone and
    returns the rows below the limit, as written. -/
theorem claimRows_spec (hids : ids.Nodup) (hfound : ∀ id ∈ ids, (transfers.find id).isSome) :
    ∃ transfers' retry, claimRows config clock transfers ids = some (transfers', retry) ∧
      (∀ k, transfers'.find k =
        if k ∈ ids then (transfers.find k).map (·.claim config (clock k))
        else transfers.find k) ∧
      (∀ row ∈ retry, transfers'.find row.id = some row) ∧
      retry.map TransferRow.id =
        ids.filter fun id => !(transfers.find id).any (·.exhausted config) := by
  induction ids generalizing transfers with
  | nil => exact ⟨transfers, [], rfl, by simp, by simp, rfl⟩
  | cons id ids ih =>
    obtain ⟨hid, hnodup⟩ := List.nodup_cons.mp hids
    obtain ⟨current, hcurrent⟩ := Option.isSome_iff_exists.mp (hfound id List.mem_cons_self)
    have hkey : current.id = id := Table.key_of_find hcurrent
    -- the row as claimed, and the table before the rest of the loop
    have hfind : ∀ k, (transfers.put (current.claim config (clock id))).find k =
        if id = k then some (current.claim config (clock id)) else transfers.find k := by
      intro k
      have hput := Table.find_put (t := transfers) (r := current.claim config (clock id))
        (x := current) (k := k) (by simpa [hkey] using hcurrent)
      simpa [hkey] using hput
    have hne : ∀ k ∈ ids, id ≠ k := fun k hk heq => hid (heq ▸ hk)
    obtain ⟨transfers', retry, hclaim, hfinds, hretry, hmap⟩ :=
      @ih (transfers.put (current.claim config (clock id))) hnodup
        (fun k hk => by rw [hfind, if_neg (hne k hk)]; exact hfound k (List.mem_cons_of_mem _ hk))
    have hfinds' : ∀ k, transfers'.find k =
        if k ∈ id :: ids then (transfers.find k).map (·.claim config (clock k))
        else transfers.find k := by
      intro k
      rw [hfinds, hfind]
      by_cases hk : id = k
      · subst hk
        simp [hid, hcurrent]
      · simp [hk, Ne.symm hk]
    have hmap' : retry.map TransferRow.id =
        ids.filter fun id => !(transfers.find id).any (·.exhausted config) := by
      rw [hmap]
      refine List.filter_congr fun k hk => ?_
      rw [hfind, if_neg (hne k hk)]
    unfold claimRows
    rw [hcurrent]
    by_cases hexhausted : current.exhausted config = true
    · have hclaimed : current.claim config (clock id) = current.requireReview (clock id) := by
        rw [TransferRow.claim, if_pos hexhausted]
      refine ⟨transfers', retry, ?_, hfinds', hretry, ?_⟩
      · simp only [hexhausted, if_true, ← hclaimed, hclaim]
      · rw [List.filter_cons_of_neg (by simp [hcurrent, hexhausted]), hmap']
    · have hclaimed : current.claim config (clock id) = current.retry config (clock id) := by
        rw [TransferRow.claim, if_neg hexhausted]
      refine ⟨transfers', current.retry config (clock id) :: retry, ?_, hfinds', ?_, ?_⟩
      · simp only [hexhausted, if_false, ← hclaimed, hclaim, Option.map_some,
          Bool.false_eq_true]
      · intro row hrow
        rcases List.mem_cons.mp hrow with rfl | hrow
        · show transfers'.find current.id = _
          rw [hkey, hfinds, if_neg hid, hfind, if_pos rfl, hclaimed]
        · exact hretry row hrow
      · rw [List.filter_cons_of_pos (by simp [hcurrent, hexhausted]), List.map_cons, hmap']
        exact congrArg (· :: _) hkey

end Writes

end AegisShield.Payments
