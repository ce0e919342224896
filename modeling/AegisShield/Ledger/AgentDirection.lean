import AegisShield.Ledger.Provisioning
import AegisShield.Ledger.TransferReplay
import AegisShield.Payments.Agent
import AegisShield.Payments.RecipientLookup

/-!
# The direction of agent operations

`agentCashIn` and `agentCashOut` of the Ledger (`channel-operations.service.ts`), beside the
transfer that `AgentService` sends for an operation of either type (`agent.service.ts`).

Results:
* `own_direction`: the Ledger's own operations move the amount as their types say.
* `inserted_transfer`: the lines that a committed transfer adds.
* `agent_direction`: a committed command of `AgentService` moves the amount as the type of its
  row says, if the row is a cash-in.

**Deviation.** `settle` sends the agent's account as the source for cash-outs too.
-/

namespace AegisShield.Ledger

open Common
open Payments (AgentCashOperationRow AgentCashOperationType agentCommand)

/-! ## The Ledger's own operations -/

/-- The input of `agentCashIn` and `agentCashOut` (lines 130-138, 177-185). -/
structure AgentCashInput where
  customerAccountId : String
  currency : String
  amountMinor : ℤ
  operationReference : String
  operationId : String
  agentId : String
  idempotencyKey : String

/-- `getCustomerAccount` (lines 34-42). -/
def getCustomerAccount (d : LedgerStore) (accountId : String) : Except Thrown Account :=
  match d.customerAccounts.find accountId with
  | none => .error accountNotFoundError
  | some row =>
    match withLedgerAccount d row with
    | .error e => .error e
    | .ok account =>
      if account.row.status ≠ .ACTIVE then .error accountNotActiveError else .ok account

/-- `getSystemAccount` (lines 44-52). -/
def getSystemAccount (d : LedgerStore) (type : SystemAccountType) (currency : String) :
    Except Thrown LedgerAccountRow :=
  match d.accounts.rows.find? fun account =>
      account.systemAccountType = some type ∧ account.currency = currency with
  | none => .error (.ledgerError "INTERNAL_ERROR" "System account not found" 500)
  | some account => .ok account

/-- The journal of an operation, from one account to another. -/
def agentCashRequest (input : AgentCashInput) (entryType : JournalEntryType)
    (description debited credited : String) : InternalJournalRequest where
  reference := some input.operationReference
  entryType := entryType
  currency := input.currency
  description := some description
  effectiveAt := none
  idempotencyKey := input.idempotencyKey
  postings := [
    { ledgerAccountId := debited, direction := .DEBIT, amountMinor := input.amountMinor },
    { ledgerAccountId := credited, direction := .CREDIT, amountMinor := input.amountMinor }]
  metadata := some (.object [("operationId", .string input.operationId),
    ("agentId", .string input.agentId)])

/-- `agentCashIn` up to its call of `post` (lines 129-174), with the tables at its two reads. -/
def agentCashIn (d d' : LedgerStore) (input : AgentCashInput) :
    Except Thrown InternalJournalRequest :=
  match getCustomerAccount d input.customerAccountId with
  | .error e => .error e
  | .ok customer =>
    match getSystemAccount d' .AGENT_FLOAT input.currency with
    | .error e => .error e
    | .ok float =>
      if input.amountMinor ≤ 0 then .error (.ledgerError "INVALID_REQUEST" "Invalid amount" 400)
      else .ok (agentCashRequest input .AGENT_CASH_IN "Agent Cash In" float.id
        customer.row.ledgerAccountId)

/-- `agentCashOut` up to its call of `post` (lines 176-223), with the tables at its two reads. -/
def agentCashOut (d d' : LedgerStore) (input : AgentCashInput) :
    Except Thrown InternalJournalRequest :=
  match getCustomerAccount d input.customerAccountId with
  | .error e => .error e
  | .ok customer =>
    match getSystemAccount d' .AGENT_FLOAT input.currency with
    | .error e => .error e
    | .ok float =>
      if input.amountMinor ≤ 0 then .error (.ledgerError "INVALID_REQUEST" "Invalid amount" 400)
      else
        match customer.balance with
        | .error e => .error e
        | .ok balance =>
          if balance < input.amountMinor then .error insufficientFundsError
          else .ok (agentCashRequest input .AGENT_CASH_OUT "Agent Cash Out"
            customer.row.ledgerAccountId float.id)

/-- The Ledger's operation of a type. -/
def ownOperation : AgentCashOperationType → LedgerStore → LedgerStore → AgentCashInput →
    Except Thrown InternalJournalRequest
  | .AGENT_CASH_IN => agentCashIn
  | .AGENT_CASH_OUT => agentCashOut

/-! ## The property -/

/-- The lines debit one account and credit another with the amount, and touch no other. -/
structure Moves (lines : List Posting) (debited credited : String) (amountMinor : ℤ) : Prop where
  debit : ∀ id, accountTotal lines id .DEBIT = if id = debited then amountMinor else 0
  credit : ∀ id, accountTotal lines id .CREDIT = if id = credited then amountMinor else 0

/-- The lines move the amount in the direction of the type. -/
def Directed (lines : List Posting) (customer agent : String) (amountMinor : ℤ) :
    AgentCashOperationType → Prop
  | .AGENT_CASH_IN => Moves lines agent customer amountMinor
  | .AGENT_CASH_OUT => Moves lines customer agent amountMinor

/-- The lines among the writes of a commit. -/
def insertedPostings (ws : List LedgerWrite) : List Posting :=
  ws.filterMap fun
    | .createPosting posting => some posting.toPosting
    | _ => none

/-- The row has the customer's account that `preview` found under its reference. -/
def NamesCustomer (d : LedgerStore) (op : AgentCashOperationRow) : Prop :=
  Payments.findAccount d.customerAccounts.rows op.customerPublicReference.toList =
    .found op.customerCustomerId op.customerAccountId op.customerMaskedReference

/-- The Ledger's own operation of the type moves the amount in its direction, between the
    customer's account and the float. -/
def OwnDirection (type : AgentCashOperationType) : Prop :=
  ∀ d d' input request, ownOperation type d d' input = .ok request → ∃ customer float,
    getCustomerAccount d input.customerAccountId = .ok customer ∧
      getSystemAccount d' .AGENT_FLOAT input.currency = .ok float ∧
      Directed request.postings customer.row.ledgerAccountId float.id input.amountMinor type

/-- The command of the row, executed between two accounts, has moved the row's amount in the
    direction of the row's type, as the Ledger's own operation does. -/
structure RightDirection (s : TransferState) (op : AgentCashOperationRow)
    (source recipient : Account) : Prop where
  executed : ∀ correlationId ws,
    (LedgerCall.post (transferRequest (agentCommand op) source recipient) correlationId
      paymentsActor, ws) ∈ s.ledger.log → ∃ customer agent,
        s.ledger.db.app.customerAccounts.find op.customerAccountId = some customer ∧
          s.ledger.db.app.customerAccounts.find op.agentAccountId = some agent ∧
          Directed (insertedPostings (appWrites ws)) customer.ledgerAccountId
            agent.ledgerAccountId op.amountMinor op.operationType
  own : OwnDirection op.operationType

/-! ## Lines -/

section Lines

variable {lines : List Posting} {a b c d : String} {amountMinor : ℤ}

/-- A debit and a credit. -/
theorem moves_pair : Moves [⟨a, .DEBIT, amountMinor⟩, ⟨b, .CREDIT, amountMinor⟩] a b
    amountMinor := by
  constructor
  · intro id
    rw [accountTotal_cons, accountTotal_cons]
    simp [accountTotal, directionTotal, eq_comm]
  · intro id
    rw [accountTotal_cons, accountTotal_cons]
    simp [accountTotal, directionTotal, eq_comm]

/-- A positive amount has one direction. -/
theorem Moves.unique (hpositive : 0 < amountMinor) (h : Moves lines a b amountMinor)
    (h' : Moves lines c d amountMinor) : a = c ∧ b = d := by
  constructor
  · by_contra hne
    have hdebit := (h.debit a).symm.trans (h'.debit a)
    rw [if_pos rfl, if_neg hne] at hdebit
    omega
  · by_contra hne
    have hcredit := (h.credit b).symm.trans (h'.credit b)
    rw [if_pos rfl, if_neg hne] at hcredit
    omega

end Lines

/-- The Ledger's own operations move the amount as their types say. -/
theorem own_direction (type : AgentCashOperationType) : OwnDirection type := by
  intro d d' input request h
  cases type with
  | AGENT_CASH_IN =>
    have hown : agentCashIn d d' input = .ok request := h
    unfold agentCashIn at hown
    split at hown
    · cases hown
    next customer hcustomer =>
      split at hown
      · cases hown
      next float hfloat =>
        split_ifs at hown
        cases hown
        exact ⟨customer, float, hcustomer, hfloat, moves_pair⟩
  | AGENT_CASH_OUT =>
    have hown : agentCashOut d d' input = .ok request := h
    unfold agentCashOut at hown
    split at hown
    · cases hown
    next customer hcustomer =>
      split at hown
      · cases hown
      next float hfloat =>
        split_ifs at hown
        split at hown
        · cases hown
        · split_ifs at hown
          cases hown
          exact ⟨customer, float, hcustomer, hfloat, moves_pair⟩

/-! ## What a transfer inserts -/

section Inserted

variable {runtime : Runtime}

/-- A journal inserts its postings. -/
theorem inserted_journal (entry : JournalEntryRow) (rows : List JournalPostingRow)
    (updates : List (String × Totals)) :
    insertedPostings (journalWrites entry rows updates) = rows.map JournalPostingRow.toPosting := by
  unfold insertedPostings journalWrites
  rw [List.cons_append, List.filterMap_cons_none rfl, List.filterMap_append, List.filterMap_map,
    List.filterMap_map]
  show rows.filterMap (some ∘ JournalPostingRow.toPosting) ++ updates.filterMap (fun _ => none) = _
  rw [List.filterMap_eq_map, List.filterMap_eq_nil_iff.mpr fun u _ => rfl, List.append_nil]

/-- A complete run of `post` inserts its postings. -/
theorem inserted_journalRun {request : InternalJournalRequest} {correlationId : String}
    {actor : JournalActor} {postings : List Posting} {totalMinor : ℤ} {vs : List LedgerWrite}
    {response : LedgerResponse}
    (h : (journalRun runtime request correlationId actor postings totalMinor).Yields vs response) :
    insertedPostings vs = postings := by
  obtain ⟨entry, rows, updates, rfl, -, hpostings, -⟩ := journalRun_yields h
  rw [inserted_journal, hpostings]

end Inserted

/-! ## A committed command -/

section Committed

variable {runtime : Runtime} {s t : TransferState} {op : AgentCashOperationRow}
  {source recipient : Account}

variable {correlationId : String} {ws : List (StoredWrite LedgerWrite LedgerResponse)}

/-- What a commit of a transfer inserts. -/
theorem inserted_transfer (h : (transfers runtime).Reachable Machine.always s)
    {input : Payments.InternalLedgerTransferCommand}
    (hmem : (LedgerCall.post (transferRequest input source recipient) correlationId paymentsActor,
      ws) ∈ s.ledger.log) :
    insertedPostings (appWrites ws) = transferPostings input source recipient ∧
      0 < input.amountMinor := by
  have hmakes : (post runtime (transferRequest input source recipient) correlationId
    paymentsActor).Makes ws := Calls.makes_of_mem_log (ledger_of_transfers h) hmem
  unfold post at hmakes
  split at hmakes
  · cases hmakes
  next postings hnormal =>
    obtain rfl := normalisePostings_transfer hnormal
    split at hmakes
    · cases hmakes
    next totalMinor hbalanced =>
      obtain ⟨vs, value, hrun, rfl⟩ := makes_answered hmakes
      rw [appWrites_execution]
      exact ⟨inserted_journalRun hrun, (assertBalanced_ok hbalanced).2.1 _ List.mem_cons_self⟩

/-- The command debits the agent's account and credits the customer's. -/
theorem moves_agentCommand (h : (transfers runtime).Reachable Machine.always s)
    (hmem : (LedgerCall.post (transferRequest (agentCommand op) source recipient) correlationId
      paymentsActor, ws) ∈ s.ledger.log) :
    Moves (insertedPostings (appWrites ws)) source.row.ledgerAccountId
      recipient.row.ledgerAccountId op.amountMinor ∧ 0 < op.amountMinor := by
  obtain ⟨hinserted, hpositive⟩ := inserted_transfer h hmem
  rw [hinserted]
  exact ⟨moves_pair, hpositive⟩

/-- Steps only add customers' accounts. -/
theorem customerAccounts_path (hreach : (transfers runtime).Reachable Machine.always t)
    (hpath : (transfers runtime).Path Machine.always t s) :
    t.ledger.db.app.customerAccounts.rows <+: s.ledger.db.app.customerAccounts.rows := by
  refine Machine.Path.stable (P := fun u => t.ledger.db.app.customerAccounts.rows <+:
    u.ledger.db.app.customerAccounts.rows) hreach ?_ hpath (List.prefix_refl _)
  rintro u a v - - hstep hprefix
  refine hprefix.trans ?_
  cases a with
  | ledger action =>
    obtain ⟨l, hl, rfl⟩ := transfers_ledger hstep
    exact customerAccounts_step hl
  | transfer input correlationId =>
    cases hstep
    exact List.prefix_refl _
  | step n move =>
    obtain ⟨p, l, p', -, hnext, rfl⟩ := transfers_step hstep
    rcases (transferStep_of_next hnext).ledger with rfl | ⟨call, hcall⟩
    · exact List.prefix_refl _
    · exact customerAccounts_step hcall

/-- The recipient of the command is the row's customer. -/
theorem recipient_id (hreach : (transfers runtime).Reachable Machine.always t)
    (hpath : (transfers runtime).Path Machine.always t s)
    (hnames : NamesCustomer t.ledger.db.app op)
    (hcommitted : Committed s (agentCommand op) source recipient) :
    recipient.row.id = op.customerAccountId := by
  unfold NamesCustomer Payments.findAccount at hnames
  split at hnames
  · cases hnames
  next row hrow =>
    obtain ⟨-, hid, -⟩ := Payments.AccountAnswer.found.inj hnames
    have hsame : (fun row : CustomerAccountRow =>
        decide (row.publicReference.toList = op.customerPublicReference.toList)) =
          isRecipient (agentCommand op) := by
      funext row
      exact decide_eq_decide.mpr String.toList_inj
    rw [hsame] at hrow
    have hfound := (customerAccounts_path hreach hpath).find?_eq_some hrow
    rw [hcommitted.recipient_found] at hfound
    rw [Option.some.inj hfound, hid]

theorem find_source (hcommitted : Committed s (agentCommand op) source recipient) :
    s.ledger.db.app.customerAccounts.find op.agentAccountId = some source.row := by
  have hwhere : isSource (agentCommand op) source.row = true :=
    List.find?_some hcommitted.source_found
  exact Table.find_eq_some.mpr ⟨List.mem_of_find?_eq_some hcommitted.source_found,
    (of_decide_eq_true hwhere).1⟩

theorem find_recipient (hcommitted : Committed s (agentCommand op) source recipient)
    (hid : recipient.row.id = op.customerAccountId) :
    s.ledger.db.app.customerAccounts.find op.customerAccountId = some recipient.row :=
  Table.find_eq_some.mpr ⟨List.mem_of_find?_eq_some hcommitted.recipient_found, hid⟩

/-- The lines of a cash-out, from the agent's account to the customer's, are in its direction
    only between lines of one account. -/
theorem directed_iff {lines : List Posting} {customer agent : String} {amountMinor : ℤ}
    (hpositive : 0 < amountMinor) (hmoves : Moves lines agent customer amountMinor)
    {type : AgentCashOperationType} : Directed lines customer agent amountMinor type ↔
      type = .AGENT_CASH_IN ∨ agent = customer := by
  cases type with
  | AGENT_CASH_IN => exact ⟨fun _ => .inl rfl, fun _ => hmoves⟩
  | AGENT_CASH_OUT =>
    constructor
    · intro hdirected
      exact .inr (hmoves.unique hpositive hdirected).1
    · rintro (htype | rfl)
      · cases htype
      · exact hmoves

/-- **A committed command of `AgentService` has the direction of the row's type if the row is a
    cash-in**, or if the agent's account is booked as the customer's. The customer's account is
    the one that `preview` found. -/
theorem agent_direction (runtime : Runtime) (t s : TransferState)
    (hreach : (transfers runtime).Reachable Machine.always t)
    (hpath : (transfers runtime).Path Machine.always t s) (op : AgentCashOperationRow)
    (hnames : NamesCustomer t.ledger.db.app op) (source recipient : Account)
    (hcommitted : Committed s (agentCommand op) source recipient) :
    RightDirection s op source recipient ↔ op.operationType = .AGENT_CASH_IN ∨
      source.row.ledgerAccountId = recipient.row.ledgerAccountId := by
  have hsource := find_source hcommitted
  have hrecipient := find_recipient hcommitted (recipient_id hreach hpath hnames hcommitted)
  constructor
  · intro hright
    obtain ⟨correlationId, ws, hmem⟩ := hcommitted.posted
    obtain ⟨hmoves, hpositive⟩ := moves_agentCommand (hreach.path hpath) hmem
    obtain ⟨customer, agent, hcustomer, hagent, hdirected⟩ := hright.executed correlationId ws hmem
    cases hrecipient.symm.trans hcustomer
    cases hsource.symm.trans hagent
    exact (directed_iff hpositive hmoves).mp hdirected
  · intro hcondition
    refine ⟨fun correlationId ws hmem => ?_, own_direction _⟩
    obtain ⟨hmoves, hpositive⟩ := moves_agentCommand (hreach.path hpath) hmem
    exact ⟨_, _, hrecipient, hsource, (directed_iff hpositive hmoves).mpr hcondition⟩

end Committed

/-! ## Two runs -/

variable (operationType : AgentCashOperationType)

/-- A row of agent 1, for the second account. -/
def cashOperation (amountMinor : ℤ) : AgentCashOperationRow where
  id := "op-1"
  displayReference := "AEGIS-AGT-0000-0000-0001"
  operationType := operationType
  status := .PROCESSING
  agentId := uuidAt "d001"
  agentReference := "AG-1"
  customerCustomerId := "customer-2"
  customerAccountId := uuidAt "d002"
  customerMaskedReference := "AEGIS-****-****-0002"
  customerPublicReference := "AEGIS-ABCD-EFGH-0002"
  agentAccountId := uuidAt "d001"
  currency := "LKR"
  amountMinor := amountMinor
  intentTokenHash := "token"
  idempotencyKeyHash := "key"
  requestHash := "request"
  ledgerJournalId := none
  correlationId := "c-1"
  expiresAt := 10
  confirmedAt := some 2
  createdAt := 1
  completedAt := none
  failedAt := none

/-- The account of the agent. -/
def agentAccount : Account where
  row := { (accountNumber "001" 1).row with customerId := "agent" }
  accountClass := .LIABILITY
  balanceProjection := none

/-- The command of a row is posted. -/
def executedCommand : List TransferAction :=
  .ledger (.start (openAccount "agent")) ::
    identifiedMoves 0 1 ["-", "-", "-", "0001", "c001", "d001", "-", "-"] ++
  .ledger (.start (openAccount "customer-2")) ::
    identifiedMoves 1 2 ["-", "-", "-", "0002", "c002", "d002", "-", "-"] ++
  .ledger (.start deposit) ::
    identifiedMoves 2 3 ["-", "-", "e001", "e003", "e004", "-", "-", "-"] ++
  startTransfer 0 (agentCommand (cashOperation operationType 100)) ++
    identifiedMoves 3 4 ["-", "-", "e002", "e005", "e006", "-", "-", "-"]

/-- The command of the row has been posted, between the two accounts. -/
def commandPosted (s : TransferState) : Bool :=
  decide (s.ledger.db.app.customerAccounts.rows =
      [agentAccount.row, (accountNumber "002" 2).row]) &&
    s.ledger.log.any fun entry => isPayment (agentCommand (cashOperation operationType 100))
      agentAccount (accountNumber "002" 2) entry.1

theorem committed_of_commandPosted {operationType : AgentCashOperationType} {s : TransferState}
    (h : commandPosted operationType s = true) :
    NamesCustomer s.ledger.db.app (cashOperation operationType 100) ∧
      Committed s (agentCommand (cashOperation operationType 100)) agentAccount
        (accountNumber "002" 2) := by
  unfold commandPosted at h
  rw [Bool.and_eq_true, decide_eq_true_eq] at h
  obtain ⟨hrows, hlog⟩ := h
  obtain ⟨⟨call, ws⟩, hmem, hcall⟩ := List.any_eq_true.mp hlog
  obtain ⟨correlationId, rfl⟩ := isPayment_elim hcall
  refine ⟨?_, ?_, ?_, correlationId, ws, hmem⟩
  · unfold NamesCustomer
    rw [hrows]
    show Payments.findAccount _ "AEGIS-ABCD-EFGH-0002".toList =
      .found "customer-2" (uuidAt "d002") "AEGIS-****-****-0002"
    decide +kernel
  · rw [hrows]
    rfl
  · rw [hrows]
    rfl

/-- A cash-in of 1.00 LKR. -/
theorem agent_direction_cashIn : ∃ s,
    RightDirection s (cashOperation .AGENT_CASH_IN 100) agentAccount (accountNumber "002" 2) ∧
      Committed s (agentCommand (cashOperation .AGENT_CASH_IN 100)) agentAccount
        (accountNumber "002" 2) := by
  obtain ⟨s, hs, hend⟩ := Machine.reachable_of_run (M := transfers plainRuntime)
    (executedCommand .AGENT_CASH_IN) (commandPosted .AGENT_CASH_IN) noTransfers_init
    (by decide +kernel)
  obtain ⟨hnames, hcommitted⟩ := committed_of_commandPosted hend
  exact ⟨s, (agent_direction plainRuntime s s hs .refl _ hnames _ _ hcommitted).mpr (.inl rfl),
    hcommitted⟩

/-- A cash-out of 1.00 LKR pays the customer. -/
theorem cashOut_inverted : ¬ ∀ (runtime : Runtime) (t s : TransferState),
    (transfers runtime).Reachable Machine.always t →
    (transfers runtime).Path Machine.always t s →
    ∀ op : AgentCashOperationRow, NamesCustomer t.ledger.db.app op →
      ∀ source recipient : Account, Committed s (agentCommand op) source recipient →
        RightDirection s op source recipient := by
  intro h
  obtain ⟨s, hs, hend⟩ := Machine.reachable_of_run (M := transfers plainRuntime)
    (executedCommand .AGENT_CASH_OUT) (commandPosted .AGENT_CASH_OUT) noTransfers_init
    (by decide +kernel)
  obtain ⟨hnames, hcommitted⟩ := committed_of_commandPosted hend
  have hright := h plainRuntime s s hs .refl _ hnames _ _ hcommitted
  obtain ⟨correlationId, ws, hmem⟩ := hcommitted.posted
  obtain ⟨hmoves, hpositive⟩ := moves_agentCommand hs hmem
  obtain ⟨customer, agent, hcustomer, hagent, hdirected⟩ := hright.executed correlationId ws hmem
  cases (find_recipient hcommitted rfl).symm.trans hcustomer
  cases (find_source hcommitted).symm.trans hagent
  obtain ⟨haccount, -⟩ := hmoves.unique hpositive hdirected
  exact absurd haccount (by decide)

end AegisShield.Ledger
