import AegisShield.Ledger.Responses
import AegisShield.Ledger.Transactions
import AegisShield.Payments.Transfer

/-!
# Customer transfers

`CustomerTransferService.transfer` (`customer-transfer.service.ts`) beside the other calls of
the Ledger: the reads of the two accounts, the call of `JournalService.post`, and the reads of
the two balances are steps of their own; the two reads of a `Promise.all` take place in either
order. The command and the fields of the result that the Payments service reads are those of
`Payments.Transfer`.

Results:
* `ledger_of_transfers`: the calls of the Ledger that transfers start are calls of `ledger`.
-/

namespace AegisShield.Ledger

open Common
open Payments (InternalLedgerTransferCommand)

/-! ## The service -/

/-- `Account` (lines 19-34). -/
structure Account where
  row : CustomerAccountRow
  accountClass : LedgerAccountClass
  balanceProjection : Option Totals

/-- `InternalLedgerTransferResult` (`contracts/payments/v1.ts`, lines 264-266), with what Payments
    reads of it. -/
structure InternalLedgerTransferResult extends Payments.InternalLedgerTransferResult where
  senderAccountId : String
  recipientAccountId : String
  senderMaskedReference : String
  recipientMaskedReference : String
  currency : String
  amountMinor : ℤ
  postedAt : ℤ
  deriving DecidableEq

/-- `include: { ledgerAccount: { include: { balanceProjection: true } } }`. -/
def withLedgerAccount (d : LedgerStore) (row : CustomerAccountRow) : Except Thrown Account :=
  match d.accounts.find row.ledgerAccountId with
  | none => .error .other
  | some account => .ok {
      row := row
      accountClass := account.accountClass
      balanceProjection := (d.projections.find row.ledgerAccountId).map BalanceProjectionRow.totals }

/-- The row that is found, with its ledger account. -/
def readAccount (d : LedgerStore) : Option CustomerAccountRow → Except Thrown (Option Account)
  | none => .ok none
  | some row => (withLedgerAccount d row).map some

/-- The first read of `resolve` (lines 46-52). -/
def findSource (d : LedgerStore) (input : InternalLedgerTransferCommand) :
    Except Thrown (Option Account) :=
  readAccount d (d.customerAccounts.rows.find? fun row =>
    row.id = input.sourceAccountId ∧ row.customerId = input.senderCustomerId)

/-- The second read of `resolve` (lines 53-56). -/
def findRecipient (d : LedgerStore) (input : InternalLedgerTransferCommand) :
    Except Thrown (Option Account) :=
  readAccount d (d.customerAccounts.rows.find? fun row =>
    row.publicReference = input.recipientReference)

variable (input : InternalLedgerTransferCommand)

/-- The checks of `resolve` (lines 58-78). -/
def resolve : Option Account → Option Account → Except Thrown (Account × Account)
  | none, _ => .error accountNotFoundError
  | some _, none =>
    .error (.ledgerError "ACCOUNT_NOT_FOUND" "The transfer recipient is unavailable." 409)
  | some source, some recipient =>
    if source.row.status ≠ .ACTIVE ∨ recipient.row.status ≠ .ACTIVE then
      .error accountNotActiveError
    else if source.row.id = recipient.row.id then
      .error (.ledgerError "SELF_TRANSFER" "A transfer cannot use the same account." 409)
    else if source.row.currency ≠ recipient.row.currency ∨ source.row.currency ≠ input.currency then
      .error currencyMismatchError
    else .ok (source, recipient)

/-- `balance` (lines 80-88). -/
def Account.balance (account : Account) : Except Thrown ℤ :=
  match account.balanceProjection with
  | none => .error accountNotFoundError
  | some totals => .ok (signedBalanceMinor account.accountClass totals.debitTotalMinor
      totals.creditTotalMinor)

/-- The checks of the amount (lines 111-114). -/
def checkAmount (source : Account) : Except Thrown Unit :=
  if input.amountMinor ≤ 0 then
    .error (.ledgerError "INVALID_REQUEST" "The request is invalid." 400)
  else
    match source.balance with
    | .error e => .error e
    | .ok balance => if balance < input.amountMinor then .error insufficientFundsError else .ok ()

/-- The journal of a transfer (lines 116-138). -/
def transferRequest (source recipient : Account) : InternalJournalRequest where
  reference := some input.transferReference
  entryType := .CUSTOMER_TRANSFER
  currency := input.currency
  description := some "Customer transfer"
  effectiveAt := none
  idempotencyKey := input.idempotencyKey
  postings := [
    { ledgerAccountId := source.row.ledgerAccountId, direction := .DEBIT,
      amountMinor := input.amountMinor },
    { ledgerAccountId := recipient.row.ledgerAccountId, direction := .CREDIT,
      amountMinor := input.amountMinor }]
  metadata := some (.object [("transferId", .string input.transferId),
    ("transferReference", .string input.transferReference)])

/-- The actor of transfers (line 140). -/
def paymentsActor : JournalActor where
  type := .SERVICE
  id := "payments"

/-- `journal.postings.find` (lines 142-148). -/
def JournalResult.postingOn (journal : JournalResult) (ledgerAccountId : String) :
    Option JournalPostingResult :=
  journal.postings.find? fun item => item.ledgerAccountId = ledgerAccountId

/-- The result (lines 157-188). -/
def transferResult (source recipient : Account)
    (journal : JournalResult) (senderPosting recipientPosting : JournalPostingResult)
    (sourceAfter recipientAfter : Totals) : InternalLedgerTransferResult where
  journalId := journal.id
  senderPostingId := senderPosting.id
  recipientPostingId := recipientPosting.id
  senderBalanceAfter :=
    signedBalanceMinor .LIABILITY sourceAfter.debitTotalMinor sourceAfter.creditTotalMinor
  recipientBalanceAfter :=
    signedBalanceMinor .LIABILITY recipientAfter.debitTotalMinor recipientAfter.creditTotalMinor
  senderAccountId := source.row.id
  recipientAccountId := recipient.row.id
  senderMaskedReference := source.row.maskedReference
  recipientMaskedReference := recipient.row.maskedReference
  currency := input.currency
  amountMinor := input.amountMinor
  postedAt := journal.createdAt

/-! ## The steps of a call -/

/-- Where a call of `transfer` stands. -/
inductive TransferStage where
  /-- In `resolve`, with what has been read of the two accounts. -/
  | resolving (source recipient : Option (Option Account))
  /-- Waiting for the call of `post` with this number. -/
  | posting (source recipient : Account) (call : ℕ)
  /-- With what has been read of the two balances. -/
  | reading (source recipient : Account) (journal : JournalResult)
      (senderPosting recipientPosting : JournalPostingResult)
      (sourceAfter recipientAfter : Option Totals)
  | done (result : Except Thrown InternalLedgerTransferResult)

/-- A call of `transfer`. -/
structure TransferCall where
  input : InternalLedgerTransferCommand
  correlationId : String
  stage : TransferStage

/-- What the scheduler does with a call of `transfer`. -/
inductive TransferMove where
  /-- The read of the sender's account or balance takes place. -/
  | readSource
  /-- The read of the recipient's account or balance takes place. -/
  | readRecipient
  /-- The call goes on after its reads or after the call of `post`. -/
  | proceed
  /-- A read fails. -/
  | fail

namespace TransferCall

/-- The call returns or throws. -/
def finish (p : TransferCall) (result : Except Thrown InternalLedgerTransferResult) :
    TransferCall :=
  { p with stage := .done result }

/-- The call of `post` that a transfer makes. -/
def postCall (p : TransferCall) (source recipient : Account) : LedgerCall :=
  .post (transferRequest p.input source recipient) p.correlationId paymentsActor

/-- The next step of a call: the Ledger and the call after it. -/
def next (runtime : Runtime) (l : LedgerState) (p : TransferCall) :
    TransferMove → Option (LedgerState × TransferCall)
  | .readSource =>
    match p.stage with
    | .resolving none recipient =>
      match findSource l.db.app p.input with
      | .error e => some (l, p.finish (.error e))
      | .ok source => some (l, { p with stage := .resolving (some source) recipient })
    | .reading source recipient journal senderPosting recipientPosting none recipientAfter =>
      match l.db.app.projections.find source.row.ledgerAccountId with
      | none => some (l, p.finish (.error .other))
      | some projection => some (l, { p with
          stage := .reading source recipient journal senderPosting recipientPosting
            (some projection.totals) recipientAfter })
    | _ => none
  | .readRecipient =>
    match p.stage with
    | .resolving source none =>
      match findRecipient l.db.app p.input with
      | .error e => some (l, p.finish (.error e))
      | .ok recipient => some (l, { p with stage := .resolving source (some recipient) })
    | .reading source recipient journal senderPosting recipientPosting sourceAfter none =>
      match l.db.app.projections.find recipient.row.ledgerAccountId with
      | none => some (l, p.finish (.error .other))
      | some projection => some (l, { p with
          stage := .reading source recipient journal senderPosting recipientPosting sourceAfter
            (some projection.totals) })
    | _ => none
  | .proceed =>
    match p.stage with
    | .resolving (some source) (some recipient) =>
      match resolve p.input source recipient with
      | .error e => some (l, p.finish (.error e))
      | .ok (source, recipient) =>
        match checkAmount p.input source with
        | .error e => some (l, p.finish (.error e))
        | .ok () =>
          some ({ l with procs := l.procs ++ [(p.postCall source recipient,
              .client ((ledger runtime).call (p.postCall source recipient)))] },
            { p with stage := .posting source recipient l.procs.length })
    | .posting source recipient call =>
      match l.procs[call]? with
      | none => none
      | some (_, proc) =>
        match proc.answer with
        | none => none
        | some (.error e) => some (l, p.finish (.error e))
        | some (.ok (.account _)) => some (l, p.finish (.error .other))
        | some (.ok (.journal journal)) =>
          match journal.postingOn source.row.ledgerAccountId,
              journal.postingOn recipient.row.ledgerAccountId with
          | some senderPosting, some recipientPosting => some (l, { p with
              stage := .reading source recipient journal senderPosting recipientPosting none none })
          | _, _ => some (l, p.finish (.error accountNotFoundError))
    | .reading source recipient journal senderPosting recipientPosting (some sourceAfter)
        (some recipientAfter) =>
      some (l, p.finish (.ok (transferResult p.input source recipient journal senderPosting
        recipientPosting sourceAfter recipientAfter)))
    | _ => none
  | .fail =>
    match p.stage with
    | .resolving _ _ | .reading _ _ _ _ _ _ _ => some (l, p.finish (.error .other))
    | _ => none

end TransferCall

/-! ## All interleavings -/

/-- The Ledger and the calls of `transfer`. -/
structure TransferState where
  ledger : LedgerState
  transfers : List TransferCall

/-- A call of the Ledger starts or moves, a transfer starts, or a transfer takes a step. -/
inductive TransferAction where
  | ledger (action : Calls.Action Env LedgerCall)
  | transfer (input : InternalLedgerTransferCommand) (correlationId : String)
  | step (n : ℕ) (move : TransferMove)

/-- Transfers beside any other calls of the Ledger. -/
def transfers (runtime : Runtime) : Machine TransferState TransferAction where
  init s := (ledger runtime).machine.init s.ledger ∧ s.transfers = []
  step s
    | .ledger action =>
      ((ledger runtime).machine.step s.ledger action).map fun l => { s with ledger := l }
    | .transfer input correlationId => some { s with
        transfers := s.transfers ++
          [{ input := input, correlationId := correlationId, stage := .resolving none none }] }
    | .step n move =>
      match s.transfers[n]? with
      | none => none
      | some p => (p.next runtime s.ledger move).map fun r =>
          { ledger := r.1, transfers := s.transfers.set n r.2 }

/-! ## What a step does -/

/-- The steps of a call. -/
inductive TransferStep (runtime : Runtime) (l : LedgerState) (p : TransferCall) :
    TransferMove → LedgerState → TransferCall → Prop
  /-- The call throws. -/
  | throw (move : TransferMove) (e : Thrown) : TransferStep runtime l p move l (p.finish (.error e))
  | readSource {source recipient} (hstage : p.stage = .resolving none recipient)
      (hread : findSource l.db.app p.input = .ok source) :
      TransferStep runtime l p .readSource l { p with stage := .resolving (some source) recipient }
  | readRecipient {source recipient} (hstage : p.stage = .resolving source none)
      (hread : findRecipient l.db.app p.input = .ok recipient) :
      TransferStep runtime l p .readRecipient l { p with stage := .resolving source (some recipient) }
  | post {source₀ recipient₀ source recipient}
      (hstage : p.stage = .resolving (some source₀) (some recipient₀))
      (hresolve : resolve p.input source₀ recipient₀ = .ok (source, recipient))
      (hamount : checkAmount p.input source = .ok ()) :
      TransferStep runtime l p .proceed
        { l with procs := l.procs ++ [(p.postCall source recipient,
          .client ((ledger runtime).call (p.postCall source recipient)))] }
        { p with stage := .posting source recipient l.procs.length }
  | posted {source recipient call i journal senderPosting recipientPosting}
      (hstage : p.stage = .posting source recipient call)
      (hcall : l.procs[call]? = some (i, .client (.ret (.journal journal))))
      (hsender : journal.postingOn source.row.ledgerAccountId = some senderPosting)
      (hrecipient : journal.postingOn recipient.row.ledgerAccountId = some recipientPosting) :
      TransferStep runtime l p .proceed l { p with
        stage := .reading source recipient journal senderPosting recipientPosting none none }
  | sourceBalance {source recipient journal senderPosting recipientPosting recipientAfter projection}
      (hstage : p.stage =
        .reading source recipient journal senderPosting recipientPosting none recipientAfter)
      (hread : l.db.app.projections.find source.row.ledgerAccountId = some projection) :
      TransferStep runtime l p .readSource l { p with
        stage := .reading source recipient journal senderPosting recipientPosting
          (some projection.totals) recipientAfter }
  | recipientBalance {source recipient journal senderPosting recipientPosting sourceAfter projection}
      (hstage : p.stage =
        .reading source recipient journal senderPosting recipientPosting sourceAfter none)
      (hread : l.db.app.projections.find recipient.row.ledgerAccountId = some projection) :
      TransferStep runtime l p .readRecipient l { p with
        stage := .reading source recipient journal senderPosting recipientPosting sourceAfter
          (some projection.totals) }
  | returns {source recipient journal senderPosting recipientPosting sourceAfter recipientAfter}
      (hstage : p.stage = .reading source recipient journal senderPosting recipientPosting
        (some sourceAfter) (some recipientAfter)) :
      TransferStep runtime l p .proceed l (p.finish (.ok (transferResult p.input source recipient journal
        senderPosting recipientPosting sourceAfter recipientAfter)))

section Steps

variable {runtime : Runtime} {s t : TransferState} {l l' : LedgerState} {p p' : TransferCall}
  {move : TransferMove} {C : TransferState → TransferAction → Prop}

theorem transferStep_source (h : p.next runtime l .readSource = some (l', p')) :
    TransferStep runtime l p .readSource l' p' := by
  obtain ⟨input, correlationId, stage⟩ := p
  unfold TransferCall.next at h
  dsimp only at h
  split at h
  · split at h
    · cases h
      exact .throw _ _
    next hread =>
      cases h
      exact .readSource rfl hread
  · split at h
    · cases h
      exact .throw _ _
    next hread =>
      cases h
      exact .sourceBalance rfl hread
  · cases h

theorem transferStep_recipient (h : p.next runtime l .readRecipient = some (l', p')) :
    TransferStep runtime l p .readRecipient l' p' := by
  obtain ⟨input, correlationId, stage⟩ := p
  unfold TransferCall.next at h
  dsimp only at h
  split at h
  · split at h
    · cases h
      exact .throw _ _
    next hread =>
      cases h
      exact .readRecipient rfl hread
  · split at h
    · cases h
      exact .throw _ _
    next hread =>
      cases h
      exact .recipientBalance rfl hread
  · cases h

theorem transferStep_proceed (h : p.next runtime l .proceed = some (l', p')) :
    TransferStep runtime l p .proceed l' p' := by
  obtain ⟨input, correlationId, stage⟩ := p
  unfold TransferCall.next at h
  dsimp only at h
  split at h
  · split at h
    · cases h
      exact .throw _ _
    next hresolve =>
      split at h
      · cases h
        exact .throw _ _
      next hamount =>
        cases h
        exact .post rfl hresolve hamount
  · split at h
    · cases h
    next i proc hproc =>
      split at h
      · cases h
      · cases h
        exact .throw _ _
      · cases h
        exact .throw _ _
      next journal hanswer =>
        split at h
        next hsender hrecipient =>
          cases h
          exact .posted rfl (Proc.answer_ok hanswer ▸ hproc) hsender hrecipient
        · cases h
          exact .throw _ _
  · cases h
    exact .returns rfl
  · cases h

/-- A step of a call. -/
theorem transferStep_of_next (h : p.next runtime l move = some (l', p')) :
    TransferStep runtime l p move l' p' := by
  cases move with
  | readSource => exact transferStep_source h
  | readRecipient => exact transferStep_recipient h
  | proceed => exact transferStep_proceed h
  | fail =>
    unfold TransferCall.next at h
    dsimp only at h
    split at h
    · cases h
      exact .throw _ _
    · cases h
      exact .throw _ _
    · cases h

theorem transfers_ledger {action : Calls.Action Env LedgerCall}
    (h : (transfers runtime).step s (.ledger action) = some t) :
    ∃ l, (ledger runtime).machine.step s.ledger action = some l ∧ t = { s with ledger := l } := by
  obtain ⟨l, hl, rfl⟩ := Option.map_eq_some_iff.mp h
  exact ⟨l, hl, rfl⟩

theorem transfers_step {n : ℕ} (h : (transfers runtime).step s (.step n move) = some t) :
    ∃ p l p', s.transfers[n]? = some p ∧ p.next runtime s.ledger move = some (l, p') ∧
      t = { ledger := l, transfers := s.transfers.set n p' } := by
  simp only [transfers] at h
  split at h
  · cases h
  next p hp =>
    obtain ⟨⟨l, p'⟩, hnext, rfl⟩ := Option.map_eq_some_iff.mp h
    exact ⟨p, l, p', hp, hnext, rfl⟩

/-- A step of a transfer leaves the Ledger alone, or starts a call there. -/
theorem TransferStep.ledger (h : TransferStep runtime l p move l' p') :
    l' = l ∨ ∃ call, (Ledger.ledger runtime).machine.step l (.start call) = some l' := by
  cases h with
  | post hstage hresolve hamount => exact .inr ⟨_, rfl⟩
  | _ => exact .inl rfl

/-- The Ledger under the transfers is the Ledger. -/
theorem ledger_of_transfers (h : (transfers runtime).Reachable C s) :
    (ledger runtime).machine.Reachable Machine.always s.ledger := by
  have hinit : ∀ s, (transfers runtime).init s → (ledger runtime).machine.init s.ledger :=
    fun s hs => hs.1
  refine h.simulated hinit fun s a t _ hstep => ?_
  cases a with
  | ledger action =>
    obtain ⟨l, hl, rfl⟩ := transfers_ledger hstep
    exact .inr ⟨action, trivial, hl⟩
  | transfer input correlationId =>
    cases hstep
    exact .inl rfl
  | step n move =>
    obtain ⟨p, l, p', -, hnext, rfl⟩ := transfers_step hstep
    rcases (transferStep_of_next hnext).ledger with hsame | ⟨call, hcall⟩
    · exact .inl hsame
    · exact .inr ⟨.start call, trivial, hcall⟩

end Steps

end AegisShield.Ledger
