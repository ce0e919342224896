import AegisShield.Common.Pool
import AegisShield.Ledger.CustomerTransfer

/-!
# The balances of a transfer

`CustomerTransferService.transfer` reads the two balances after `post` has returned, in
statements of their own (`customer-transfer.service.ts`, lines 149-157); the Payments service
stores them with the transfer (`transfers.service.ts`, lines 282-293).

Results:
* `reported_balance`: every balance returned is the one after the transfer's own posting, in
  every run in which it is read while that is the account's last posting, and postings are
  committed in the order of their times.
* `reported_balance_stale`: a transfer that is posted before the read is counted in it.
-/

namespace AegisShield.Ledger

open Common
open Payments (InternalLedgerTransferCommand)

/-! ## The property -/

/-- The balance of a customer's account after a posting: the one that its commit left, and the
    one that the history shows. -/
def BalanceAfter (d : LedgerStore) (accountId postingId : String) (balance : ℤ) : Prop :=
  ∃ account, d.customerAccounts.find accountId = some account ∧
    (postingId, balance) ∈ d.balances account.ledgerAccountId ∧
    ∃ transactions, history d account.customerId accountId = .ok (account, transactions) ∧
      ∃ t ∈ transactions, t.id = postingId ∧ t.balanceAfter = balance

/-- A result reports the balances after the postings of the transfer's own journal, and so does
    the row in which the Payments service stores it. -/
structure Reported (runtime : Runtime) (d : LedgerDb)
    (input : InternalLedgerTransferCommand) (r : InternalLedgerTransferResult) : Prop where
  journal : ∃ journal, Recorded runtime input.idempotencyKey (.journal journal) d ∧
    journal.id = r.journalId
  postings : ∀ id, id = r.senderPostingId ∨ id = r.recipientPostingId →
    ∃ row ∈ d.app.postingsOf r.journalId, row.id = id
  sender : BalanceAfter d.app r.senderAccountId r.senderPostingId r.senderBalanceAfter
  recipient : BalanceAfter d.app r.recipientAccountId r.recipientPostingId r.recipientBalanceAfter
  stored : ∀ (row : Payments.TransferRow) now,
    (row.complete r.toInternalLedgerTransferResult now).senderBalanceAfterMinor =
        some r.senderBalanceAfter ∧
      (row.complete r.toInternalLedgerTransferResult now).recipientBalanceAfterMinor =
        some r.recipientBalanceAfter

/-- Every transfer that has returned has reported such balances. -/
def BalancesReported (runtime : Runtime) (s : TransferState) : Prop :=
  ∀ p ∈ s.transfers, ∀ r, p.stage = .done (.ok r) → Reported runtime s.ledger.db p.input r

/-! ## When the balances are read in time -/

/-- The last posting of an account. -/
def LedgerStore.lastPosting (d : LedgerStore) (ledgerAccountId : String) : Option String :=
  (d.accountPostings ledgerAccountId).getLast?.map JournalPostingRow.id

/-- A balance is read while the transfer's own posting is the last one of the account. -/
def readsInTime (d : LedgerStore) (p : TransferCall) : TransferMove → Bool
  | .readSource =>
    match p.stage with
    | .reading source _ _ senderPosting _ none _ =>
      decide (d.lastPosting source.row.ledgerAccountId = some senderPosting.id)
    | _ => true
  | .readRecipient =>
    match p.stage with
    | .reading _ recipient _ _ recipientPosting _ none =>
      decide (d.lastPosting recipient.row.ledgerAccountId = some recipientPosting.id)
    | _ => true
  | _ => true

/-- A commit leaves the postings of every account in the order of their times. -/
def stampsInOrder (d : LedgerDb)
    (p : Proc LedgerDb (StoredLock LedgerLock)
      (StoredWrite LedgerWrite LedgerResponse) Env Thrown LedgerResponse LedgerResponse) :
    Move Env → Bool
  | .finish | .lose =>
    match p with
    | .inTx _ ws (.ret _) _ => decide (ledgerDatabase.applyAll d.app (appWrites ws)).Chronological
    | _ => true
  | _ => true

/-- The condition on the steps of a run. -/
def balancesInTime (s : TransferState) : TransferAction → Bool
  | .ledger (.next n move) => s.ledger.procs[n]?.all fun q => stampsInOrder s.ledger.db q.2 move
  | .step n move => s.transfers[n]?.all fun p => readsInTime s.ledger.db.app p move
  | _ => true

/-! ## What is known of a transfer -/

/-- What is known of a transfer whose journal is posted. -/
structure ReadFacts (runtime : Runtime) (d : LedgerDb)
    (input : InternalLedgerTransferCommand) (source recipient : Account) (journal : JournalResult)
    (senderPosting recipientPosting : JournalPostingResult)
    (sourceAfter recipientAfter : Option Totals) : Prop where
  source_known : d.app.customerAccounts.find source.row.id = some source.row
  recipient_known : d.app.customerAccounts.find recipient.row.id = some recipient.row
  recorded : Recorded runtime input.idempotencyKey (.journal journal) d
  sender_mem : senderPosting ∈ journal.postings
  recipient_mem : recipientPosting ∈ journal.postings
  sender_read : ∀ totals, sourceAfter = some totals →
    (senderPosting.id, totals.creditTotalMinor - totals.debitTotalMinor) ∈
      d.app.balances source.row.ledgerAccountId
  recipient_read : ∀ totals, recipientAfter = some totals →
    (recipientPosting.id, totals.creditTotalMinor - totals.debitTotalMinor) ∈
      d.app.balances recipient.row.ledgerAccountId

/-- What is known of a transfer at each stage. -/
def TransferInv (runtime : Runtime) (l : LedgerState) (p : TransferCall) : Prop :=
  match p.stage with
  | .resolving source recipient =>
    (∀ a, source = some (some a) → l.db.app.customerAccounts.find a.row.id = some a.row) ∧
      ∀ a, recipient = some (some a) → l.db.app.customerAccounts.find a.row.id = some a.row
  | .posting source recipient call =>
    l.db.app.customerAccounts.find source.row.id = some source.row ∧
      l.db.app.customerAccounts.find recipient.row.id = some recipient.row ∧
      ∃ proc, l.procs[call]? = some (p.postCall source recipient, proc)
  | .reading source recipient journal senderPosting recipientPosting sourceAfter recipientAfter =>
    ReadFacts runtime l.db p.input source recipient journal senderPosting recipientPosting
      sourceAfter recipientAfter
  | .done (.ok r) => ∃ source recipient journal senderPosting recipientPosting sourceAfter
      recipientAfter, r = transferResult p.input source recipient journal senderPosting
        recipientPosting sourceAfter recipientAfter ∧
      ReadFacts runtime l.db p.input source recipient journal senderPosting recipientPosting
        (some sourceAfter) (some recipientAfter)
  | .done (.error _) => True

section Invariant

variable {runtime : Runtime} {s t : TransferState} {l l' : LedgerState} {p p' : TransferCall}
  {d : LedgerStore} {move : TransferMove}

variable {id : String} {input : InternalLedgerTransferCommand}

/-- The balances of earlier postings stay in the tables. -/
theorem mem_balances_grows (h : Grows l l') {entry : String × ℤ}
    (hmem : entry ∈ l.db.app.balances id) : entry ∈ l'.db.app.balances id := by
  obtain ⟨rest, hrest⟩ := balances_isPrefix h.postings id
  rw [← hrest]
  exact List.mem_append_left rest hmem

theorem Recorded.grows {key : String} {response : LedgerResponse} (h : Grows l l')
    (hrecorded : Recorded runtime key response l.db) : Recorded runtime key response l'.db := by
  obtain ⟨record, hrecord, hbody⟩ := hrecorded
  exact ⟨record, h.records _ _ hrecord, hbody⟩

variable {source recipient : Account} {journal : JournalResult} {projection : BalanceProjectionRow}
  {postingId : String}

theorem ReadFacts.grows {senderPosting recipientPosting : JournalPostingResult}
    {sourceAfter recipientAfter : Option Totals} (hgrows : Grows l l')
    (h : ReadFacts runtime l.db input source recipient journal senderPosting recipientPosting
      sourceAfter recipientAfter) :
    ReadFacts runtime l'.db input source recipient journal senderPosting recipientPosting
      sourceAfter recipientAfter where
  source_known := hgrows.store.customerAccounts _ _ h.source_known
  recipient_known := hgrows.store.customerAccounts _ _ h.recipient_known
  recorded := h.recorded.grows hgrows
  sender_mem := h.sender_mem
  recipient_mem := h.recipient_mem
  sender_read totals htotals := mem_balances_grows hgrows (h.sender_read totals htotals)
  recipient_read totals htotals := mem_balances_grows hgrows (h.recipient_read totals htotals)

/-- What is known of a transfer stays true when the Ledger takes a step. -/
theorem TransferInv.grows (hgrows : Grows l l') (h : TransferInv runtime l p) :
    TransferInv runtime l' p := by
  obtain ⟨input, correlationId, stage⟩ := p
  cases stage with
  | resolving source recipient =>
    obtain ⟨hsource, hrecipient⟩ := h
    exact ⟨fun a ha => hgrows.store.customerAccounts _ _ (hsource a ha),
      fun a ha => hgrows.store.customerAccounts _ _ (hrecipient a ha)⟩
  | posting source recipient call =>
    obtain ⟨hsource, hrecipient, proc, hproc⟩ := h
    exact ⟨hgrows.store.customerAccounts _ _ hsource, hgrows.store.customerAccounts _ _ hrecipient,
      hgrows.procs _ _ _ hproc⟩
  | reading source recipient journal senderPosting recipientPosting sourceAfter recipientAfter =>
    exact ReadFacts.grows hgrows h
  | done result =>
    cases result with
    | error e => trivial
    | ok r =>
      obtain ⟨source, recipient, journal, senderPosting, recipientPosting, sourceAfter,
        recipientAfter, hr, hfacts⟩ := h
      exact ⟨source, recipient, journal, senderPosting, recipientPosting, sourceAfter,
        recipientAfter, hr, hfacts.grows hgrows⟩

/-! ## The steps of a transfer -/

theorem readAccount_row {row : Option CustomerAccountRow} {account : Account}
    (h : readAccount d row = .ok (some account)) : row = some account.row := by
  cases row with
  | none => cases h
  | some row =>
    simp only [readAccount, withLedgerAccount] at h
    split at h
    · cases h
    · cases h
      rfl

theorem findSource_known {account : Account} (h : findSource d input = .ok (some account)) :
    d.customerAccounts.find account.row.id = some account.row :=
  Table.find_of_mem (List.mem_of_find?_eq_some (readAccount_row h))

theorem findRecipient_known {account : Account} (h : findRecipient d input = .ok (some account)) :
    d.customerAccounts.find account.row.id = some account.row :=
  Table.find_of_mem (List.mem_of_find?_eq_some (readAccount_row h))

theorem resolve_ok {source₀ recipient₀ : Option Account}
    (h : resolve input source₀ recipient₀ = .ok (source, recipient)) :
    source₀ = some source ∧ recipient₀ = some recipient := by
  unfold resolve at h
  split at h
  · cases h
  · cases h
  · split_ifs at h
    cases h
    exact ⟨rfl, rfl⟩

/-- A projection has the totals of the postings of its account. -/
theorem projection_totals (hd : StoreInvariant d)
    (h : d.projections.find id = some projection) : projection.totals = accountTotals d.lines id := by
  cases haccount : d.accounts.find id with
  | none => exact absurd (h.symm.trans (hd.owners id haccount)) (by simp)
  | some account =>
    obtain ⟨hmem, rfl⟩ := Table.find_some haccount
    obtain ⟨projection', hfind, htotals, -⟩ := hd.accounts account hmem
    cases h.symm.trans hfind
    exact htotals

/-- A balance that is read while a posting is the last one of the account is the balance after
    it. -/
theorem balance_read (hd : StoreInvariant d) (h : d.projections.find id = some projection)
    (hlast : d.lastPosting id = some postingId) :
    (postingId, projection.totals.creditTotalMinor - projection.totals.debitTotalMinor) ∈
      d.balances id := by
  obtain ⟨row, hrow, rfl⟩ := Option.map_eq_some_iff.mp hlast
  rw [projection_totals hd h]
  exact balance_of_last hrow

theorem mem_postingOn {posting : JournalPostingResult}
    (h : journal.postingOn id = some posting) : posting ∈ journal.postings :=
  List.mem_of_find?_eq_some h

/-- A step of a transfer keeps what is known of it. -/
theorem TransferInv.step (hreach : (ledger runtime).machine.Reachable Machine.always l)
    (hgrows : Grows l l') (hstep : TransferStep runtime l p move l' p')
    (hread : readsInTime l.db.app p move = true) (h : TransferInv runtime l p) :
    TransferInv runtime l' p' := by
  have hd := store_invariant hreach
  obtain ⟨input, correlationId, stage⟩ := p
  cases hstep with
  | throw _ e => trivial
  | readSource hstage hfind =>
    cases hstage
    exact ⟨fun a ha => findSource_known (by rw [hfind, Option.some.inj ha]), h.2⟩
  | readRecipient hstage hfind =>
    cases hstage
    exact ⟨h.1, fun a ha => findRecipient_known (by rw [hfind, Option.some.inj ha])⟩
  | post hstage hresolve hamount =>
    cases hstage
    obtain ⟨rfl, rfl⟩ := resolve_ok hresolve
    exact ⟨h.1 _ rfl, h.2 _ rfl, _, List.getElem?_concat_length⟩
  | posted hstage hcall hsender hrecipient =>
    cases hstage
    obtain ⟨hsource, hrecipient', proc, hproc⟩ := h
    cases hproc.symm.trans hcall
    have hanswered := (responses_reachable hreach).2 _ _ (List.mem_of_getElem? hcall)
    exact ⟨hsource, hrecipient', hanswered, mem_postingOn hsender, mem_postingOn hrecipient,
      (fun _ htotals => nomatch htotals), (fun _ htotals => nomatch htotals)⟩
  | sourceBalance hstage hfind =>
    cases hstage
    obtain ⟨hsource, hrecipient, hrecorded, hsender, hrecipient', -, hbalance⟩ := h
    refine ⟨hsource, hrecipient, hrecorded, hsender, hrecipient', fun totals htotals => ?_, hbalance⟩
    cases htotals
    have hlast := of_decide_eq_true hread
    exact balance_read hd hfind hlast
  | recipientBalance hstage hfind =>
    cases hstage
    obtain ⟨hsource, hrecipient, hrecorded, hsender, hrecipient', hbalance, -⟩ := h
    refine ⟨hsource, hrecipient, hrecorded, hsender, hrecipient', hbalance, fun totals htotals => ?_⟩
    cases htotals
    have hlast := of_decide_eq_true hread
    exact balance_read hd hfind hlast
  | returns hstage =>
    cases hstage
    exact ⟨_, _, _, _, _, _, _, rfl, h⟩

/-! ## Runs -/

/-- A commit in order keeps the postings in the order of their times. -/
theorem chronological_step {action : Calls.Action Env LedgerCall}
    (h : s.ledger.db.app.Chronological) (hcond : balancesInTime s (.ledger action) = true)
    (hstep : (ledger runtime).machine.step s.ledger action = some l) :
    l.db.app.Chronological := by
  cases action with
  | start call =>
    rw [Calls.step_start hstep]
    exact h
  | next n move =>
    obtain ⟨i, q, q', hq, -, ⟨-, rfl⟩ | ⟨ws, hnext, rfl⟩⟩ := Calls.step_next hstep
    · exact h
    · simp only [balancesInTime, hq, Option.all_some] at hcond
      obtain ⟨held, b, next, rfl, -⟩ := Proc.next_commit hnext
      show ((stored ledgerDatabase).applyAll s.ledger.db ws).app.Chronological
      rw [applyAll_app]
      cases move with
      | finish | lose => exact of_decide_eq_true hcond
      | _ => cases hnext

/-- What is known of all transfers. -/
theorem transferInv_of_reachable
    (h : (transfers runtime).Reachable (fun s a => balancesInTime s a = true) s) :
    s.ledger.db.app.Chronological ∧ ∀ p ∈ s.transfers, TransferInv runtime s.ledger p := by
  refine Machine.invariant_of_reachable (I := fun s => s.ledger.db.app.Chronological ∧
    ∀ p ∈ s.transfers, TransferInv runtime s.ledger p) ?_ ?_ h
  · rintro ⟨l, calls⟩ ⟨⟨⟨-, settlementId, controlId, -, happ⟩, -⟩, rfl⟩
    refine ⟨?_, by simp⟩
    show l.db.app.Chronological
    rw [happ]
    exact List.Pairwise.nil
  · rintro s a t hr ⟨hchronological, hs⟩ hcond hstep
    have hreach := ledger_of_transfers hr
    cases a with
    | ledger action =>
      obtain ⟨l, hl, rfl⟩ := transfers_ledger hstep
      have hgrows := grows_of_step hreach hl
      exact ⟨chronological_step hchronological hcond hl, fun p hp => (hs p hp).grows hgrows⟩
    | transfer input correlationId =>
      cases hstep
      refine ⟨hchronological, fun p hp => ?_⟩
      rcases List.mem_append.mp hp with hp | hp
      · exact hs p hp
      · cases List.mem_singleton.mp hp
        exact ⟨(fun _ ha => nomatch ha), (fun _ ha => nomatch ha)⟩
    | step n move =>
      obtain ⟨p, l, p', hp, hnext, rfl⟩ := transfers_step hstep
      have hmove := transferStep_of_next hnext
      have hread : readsInTime s.ledger.db.app p move = true := by
        simpa [balancesInTime, hp] using hcond
      have hgrows : Grows s.ledger l ∧ l.db = s.ledger.db := by
        rcases hmove.ledger with rfl | ⟨call, hcall⟩
        · exact ⟨.refl _, rfl⟩
        · exact ⟨grows_of_step hreach hcall, by rw [Calls.step_start hcall]⟩
      refine ⟨hgrows.2 ▸ hchronological, Pool.forall_set (fun m q _ hq => ?_) ?_⟩
      · exact (hs q (List.mem_of_getElem? hq)).grows hgrows.1
      · exact (hs p (List.mem_of_getElem? hp)).step hreach hgrows.1 hmove hread

/-- What was read of a balance in time is reported. -/
theorem balanceAfter_of_read (hd : StoreInvariant d) (hchronological : d.Chronological)
    {account : CustomerAccountRow} {totals : Totals}
    (haccount : d.customerAccounts.find account.id = some account)
    (hread : (postingId, totals.creditTotalMinor - totals.debitTotalMinor) ∈
      d.balances account.ledgerAccountId) :
    BalanceAfter d account.id postingId
      (signedBalanceMinor .LIABILITY totals.debitTotalMinor totals.creditTotalMinor) :=
  ⟨account, haccount, hread, mem_history hd hchronological haccount hread⟩

end Invariant

/-- Every balance that a transfer returns, and that the Payments service stores, is the one after
    the transfer's own posting: in every run in which balances are read while that posting is the
    last one of its account, and postings are committed in the order of their times. -/
theorem reported_balance (runtime : Runtime) (s : TransferState)
    (h : (transfers runtime).Reachable (fun s a => balancesInTime s a = true) s) :
    BalancesReported runtime s := by
  intro p hp r hstage
  have hreach := ledger_of_transfers h
  have hd := store_invariant hreach
  obtain ⟨hchronological, hinv⟩ := transferInv_of_reachable h
  have hcall := hinv p hp
  unfold TransferInv at hcall
  rw [hstage] at hcall
  obtain ⟨source, recipient, journal, senderPosting, recipientPosting, sourceAfter,
    recipientAfter, rfl, hfacts⟩ := hcall
  obtain ⟨record, hrecord, hbody⟩ := hfacts.recorded
  obtain ⟨body, hbody', hvalid⟩ := (responses_reachable hreach).1 _ record hrecord
  cases hbody.symm.trans hbody'
  obtain ⟨journal', hjournal, -, -, hpostings⟩ := hvalid rfl
  cases hjournal
  refine ⟨⟨journal, ⟨record, hrecord, hbody⟩, rfl⟩, ?_, ?_, ?_, fun _ _ => ⟨rfl, rfl⟩⟩
  · rintro id (rfl | rfl)
    · obtain ⟨row, hrow, hid, -⟩ := hpostings senderPosting hfacts.sender_mem
      exact ⟨row, hrow, hid⟩
    · obtain ⟨row, hrow, hid, -⟩ := hpostings recipientPosting hfacts.recipient_mem
      exact ⟨row, hrow, hid⟩
  · exact balanceAfter_of_read hd hchronological hfacts.source_known
      (hfacts.sender_read sourceAfter rfl)
  · exact balanceAfter_of_read hd hchronological hfacts.recipient_known
      (hfacts.recipient_read recipientAfter rfl)

/-! ## Two transfers -/

/-- What a statement gets at a time. -/
def envAt (now : ℤ) (uuid : String) : Env where
  uuid := uuid
  random := "ABCD-EFGH-" ++ uuid
  now := now

/-- The moves of a call of the Ledger whose statements all run, at a time. -/
def ledgerMoves (call : ℕ) (now : ℤ) (uuids : List String) : List TransferAction :=
  [.ledger (.next call .query), .ledger (.next call .begin)] ++
    uuids.map (fun uuid => .ledger (.next call (.stmt (envAt now uuid)))) ++
    [.ledger (.next call .finish)]

/-- A customer opens an account. -/
def openAccount (customerId : String) : LedgerCall := .provisionDefault
  { customerId := customerId, productType := .TIER0_WALLET, currency := "LKR",
    idempotencyKey := "opening-" ++ customerId }

/-- The first customer's account is funded with 4.00 LKR. -/
def fundAccount : LedgerCall := .post
  { reference := some "funding-1"
    entryType := .SETTLEMENT_FUNDING
    currency := "LKR"
    description := none
    effectiveAt := none
    idempotencyKey := "funding-key-0001"
    postings := [{ ledgerAccountId := "a1", direction := .DEBIT, amountMinor := 400 },
      { ledgerAccountId := "c001", direction := .CREDIT, amountMinor := 400 }]
    metadata := none }
  "correlation-1" { type := .SYSTEM, id := "operator" }

/-- A transfer from the first customer to the second one. -/
def sendTo (transferId : String) (amountMinor : ℤ) : InternalLedgerTransferCommand where
  senderCustomerId := "customer-1"
  sourceAccountId := "d001"
  recipientReference := "AEGIS-ABCD-EFGH-0002"
  amountMinor := amountMinor
  currency := "LKR"
  transferId := transferId
  transferReference := "reference-" ++ transferId
  idempotencyKey := "transfer:" ++ transferId

/-- Two accounts, the first one funded. -/
def fundedAccounts : List TransferAction :=
  .ledger (.start (openAccount "customer-1")) ::
    ledgerMoves 0 1 ["-", "-", "-", "0001", "c001", "d001", "-", "-"] ++
  .ledger (.start (openAccount "customer-2")) ::
    ledgerMoves 1 2 ["-", "-", "-", "0002", "c002", "d002", "-", "-"] ++
  .ledger (.start fundAccount) ::
    ledgerMoves 2 3 ["-", "-", "e001", "p001", "p002", "-", "-", "-"]

/-- A transfer reads the accounts and starts its call of `post`. -/
def startTransfer (n : ℕ) (input : InternalLedgerTransferCommand) : List TransferAction :=
  [.transfer input "correlation-2", .step n .readRecipient, .step n .readSource, .step n .proceed]

/-- A transfer reads the balances and returns. -/
def readBalances (n : ℕ) : List TransferAction :=
  [.step n .proceed, .step n .readRecipient, .step n .readSource, .step n .proceed]

/-- The Ledger before any call. -/
def noTransfers : TransferState where
  ledger := {
    db := { records := Table.empty, app := migratedStore "a1" "b2" }
    procs := []
    log := [] }
  transfers := []

theorem noTransfers_init : (transfers plainRuntime).init noTransfers :=
  ⟨⟨⟨rfl, "a1", "b2", by decide, rfl⟩, rfl, rfl⟩, rfl⟩

/-- The first transfer has returned, with this balance of the sender. -/
def firstReturned (s : TransferState) (senderPostingId : String) (balance : ℤ) : Bool :=
  match s.transfers with
  | { stage := .done (.ok r), .. } :: _ =>
    r.senderAccountId == "d001" && r.senderPostingId == senderPostingId &&
      r.senderBalanceAfter == balance
  | _ => false

theorem firstReturned_elim {s : TransferState} {id : String} {balance : ℤ}
    (h : firstReturned s id balance = true) : ∃ p ∈ s.transfers, ∃ r, p.stage = .done (.ok r) ∧
      r.senderAccountId = "d001" ∧ r.senderPostingId = id ∧ r.senderBalanceAfter = balance := by
  unfold firstReturned at h
  split at h
  next input correlationId r rest htransfers =>
    rw [Bool.and_eq_true, Bool.and_eq_true] at h
    exact ⟨_, htransfers ▸ List.mem_cons_self, r, rfl, eq_of_beq h.1.1, eq_of_beq h.1.2,
      eq_of_beq h.2⟩
  · cases h

/-- A transfer of 1.00 LKR that reads the balances at once. -/
theorem reported_balance_first : ∃ s, BalancesReported plainRuntime s ∧
    ∃ p ∈ s.transfers, ∃ r, p.stage = .done (.ok r) ∧ r.senderAccountId = "d001" ∧
      r.senderPostingId = "p003" ∧ r.senderBalanceAfter = 300 := by
  obtain ⟨s, hs, hreturned⟩ := Machine.reachable_of_runUnder
    (C := fun s a => balancesInTime s a = true)
    (fundedAccounts ++ startTransfer 0 (sendTo "t1" 100) ++
      ledgerMoves 3 4 ["-", "-", "e002", "p003", "p004", "-", "-", "-"] ++ readBalances 0)
    balancesInTime (firstReturned · "p003" 300) (fun _ _ h => h) noTransfers_init
    (by decide +kernel)
  exact ⟨s, reported_balance plainRuntime s hs, firstReturned_elim hreturned⟩

/-- A second transfer, of 0.50 LKR, is posted before the first one reads the balances. -/
theorem reported_balance_stale : ¬ ∀ s, (transfers plainRuntime).Reachable Machine.always s →
    BalancesReported plainRuntime s := by
  intro h
  obtain ⟨s, hs, hend⟩ := Machine.reachable_of_run (M := transfers plainRuntime)
    (fundedAccounts ++ startTransfer 0 (sendTo "t1" 100) ++
      ledgerMoves 3 4 ["-", "-", "e002", "p003", "p004", "-", "-", "-"] ++
      startTransfer 1 (sendTo "t2" 50) ++
      ledgerMoves 4 5 ["-", "-", "e003", "p005", "p006", "-", "-", "-"] ++ readBalances 0)
    (fun s => firstReturned s "p003" 250 &&
      (s.ledger.db.app.customerAccounts.find "d001").all fun account =>
        decide (s.ledger.db.app.balances account.ledgerAccountId =
          [("p002", 400), ("p003", 300), ("p005", 250)]))
    noTransfers_init (by decide +kernel)
  rw [Bool.and_eq_true] at hend
  obtain ⟨p, hp, r, hstage, haccount, hposting, hbalance⟩ := firstReturned_elim hend.1
  obtain ⟨account, hfind, hmem, -⟩ := (h s hs p hp r hstage).sender
  rw [haccount] at hfind
  rw [hfind, Option.all_some, decide_eq_true_eq] at hend
  rw [hend.2, hposting, hbalance] at hmem
  exact absurd hmem (by decide)

end AegisShield.Ledger
