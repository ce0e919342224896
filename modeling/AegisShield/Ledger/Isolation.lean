import AegisShield.Ledger.Bank
import AegisShield.Ledger.Reconciliation
import AegisShield.Ledger.TransactionPages

/-!
# What a customer sees

The reads of the Ledger's customer controllers: the accounts, balances and transactions of one
customer (`account.service.ts`, lines 209-258; `transaction.service.ts`), beside any number of calls
of `JournalService.post` and `AccountService.provisionDefault`.

Results:
* `SameTo.answer`: a read sees the customer's accounts and what is booked on them, and nothing else.
* `reads_isolated`: what others do changes no answer to a customer, and an account of another
  customer is answered like one that does not exist.
-/

namespace AegisShield.Ledger

open Common Paging

/-! ## Reads -/

/-- `CustomerAccountSummary` (`contracts/accounts/v1.ts`, lines 187-189). -/
structure CustomerAccountSummary where
  id : String
  maskedReference : String
  productType : AccountProductType
  status : AccountStatus
  currency : String
  createdAt : ℤ
  deriving DecidableEq

/-- `CustomerTransactionDetail` (`contracts/accounts/v1.ts`, lines 269-271). -/
structure CustomerTransactionDetail extends CustomerTransactionSummary where
  maskedAccountReference : String
  productType : AccountProductType
  deriving DecidableEq

/-- `toSummary` (`account.service.ts`, lines 90-99). -/
def toSummary (row : CustomerAccountRow) : CustomerAccountSummary where
  id := row.id
  maskedReference := row.maskedReference
  productType := row.productType
  status := row.status
  currency := row.currency
  createdAt := row.createdAt

/-- The accounts of a customer. -/
def LedgerStore.owned (d : LedgerStore) (customerId : String) : List CustomerAccountRow :=
  d.customerAccounts.rows.filter fun row => row.customerId = customerId

/-- `listForCustomer` (`account.service.ts`, lines 209-217); accounts created at the same time
    stand in the order of their insertion. -/
def listForCustomer (d : LedgerStore) (customerId : String) : List CustomerAccountSummary :=
  (((d.owned customerId).insertionSort fun a b => a.createdAt ≤ b.createdAt).take 32).map toSummary

/-- `detail` (`transaction.service.ts`, lines 221-236). -/
def detail (d : LedgerStore) (customerId accountId transactionId : String) :
    Except Thrown CustomerTransactionDetail :=
  match history d customerId accountId with
  | .error e => .error e
  | .ok (account, transactions) =>
    match transactions.find? fun transaction => transaction.id = transactionId with
    | none => .error accountNotFoundError
    | some item => .ok {
        toCustomerTransactionSummary := item
        maskedAccountReference := account.maskedReference
        productType := account.productType }

/-- The reads of the Ledger's customer controllers. -/
inductive CustomerRead where
  | accounts
  | account (accountId : String)
  | balance (accountId : String)
  | transactions (accountId : String) (query : TransactionHistoryQuery)
  | transaction (accountId transactionId : String)

/-- The account that a read names. -/
def CustomerRead.accountId : CustomerRead → Option String
  | accounts => none
  | account accountId => some accountId
  | balance accountId => some accountId
  | transactions accountId _ => some accountId
  | transaction accountId _ => some accountId

/-- What a read returns. -/
inductive CustomerAnswer where
  | accounts (accounts : List CustomerAccountSummary)
  | account (account : CustomerAccountDetail)
  | balance (balance : AccountBalance)
  | transactions (page : Page CustomerTransactionSummary String)
  | transaction (transaction : CustomerTransactionDetail)

/-- The answer to a read of a customer. -/
def CustomerRead.answer (runtime : HistoryRuntime) (d : LedgerStore) (customerId : String) :
    CustomerRead → Except Thrown CustomerAnswer
  | accounts => .ok (.accounts (listForCustomer d customerId))
  | account accountId => (getForCustomer d customerId accountId).map .account
  | balance accountId => (getBalanceForCustomer d customerId accountId).map .balance
  | transactions accountId query => (list runtime d customerId accountId query).map .transactions
  | transaction accountId transactionId =>
    (detail d customerId accountId transactionId).map .transaction

/-! ## What a customer sees -/

/-- What the reads see of the ledger account of a customer's account. -/
structure SameAccount (d d' : LedgerStore) (id : String) : Prop where
  account : d'.accounts.find id = d.accounts.find id
  totals : (d'.projections.find id).map BalanceProjectionRow.totals =
    (d.projections.find id).map BalanceProjectionRow.totals
  postings : (d'.accountPostings id).filterMap d'.withEntry =
    (d.accountPostings id).filterMap d.withEntry

/-- Two stores that are the same to a customer: the customer's accounts, with what is booked on
    them. -/
structure SameTo (customerId : String) (d d' : LedgerStore) : Prop where
  owned : d'.owned customerId = d.owned customerId
  accounts : ∀ row ∈ d.owned customerId, SameAccount d d' row.ledgerAccountId

section Same

variable {d d' d'' : LedgerStore} {customerId accountId id : String} {row : CustomerAccountRow}

theorem SameTo.refl (d : LedgerStore) : SameTo customerId d d :=
  ⟨rfl, fun _ _ => ⟨rfl, rfl, rfl⟩⟩

theorem SameTo.trans (h : SameTo customerId d d') (h' : SameTo customerId d' d'') :
    SameTo customerId d d'' := by
  refine ⟨h'.owned.trans h.owned, fun row hrow => ?_⟩
  have hsame := h.accounts row hrow
  have hsame' := h'.accounts row (h.owned ▸ hrow)
  exact ⟨hsame'.account.trans hsame.account, hsame'.totals.trans hsame.totals,
    hsame'.postings.trans hsame.postings⟩

/-- The lookup of an account of a customer is one among the customer's accounts. -/
theorem find_owned (d : LedgerStore) (customerId accountId : String) :
    d.customerAccounts.rows.find? (fun row => row.id = accountId ∧ row.customerId = customerId) =
      (d.owned customerId).find? fun row => row.id = accountId := by
  unfold LedgerStore.owned
  rw [List.find?_filter]
  congr 1
  funext row
  simp [and_comm]

theorem requireOwnedAccount_owned (h : requireOwnedAccount d customerId accountId = .ok row) :
    row ∈ d.owned customerId := by
  unfold requireOwnedAccount at h
  rw [find_owned] at h
  split at h
  · cases h
  next hfind =>
    cases h
    exact List.mem_of_find?_eq_some hfind

theorem SameTo.requireOwnedAccount (h : SameTo customerId d d') (accountId : String) :
    requireOwnedAccount d' customerId accountId = requireOwnedAccount d customerId accountId := by
  unfold Ledger.requireOwnedAccount
  rw [find_owned, find_owned, h.owned]

theorem SameAccount.projections (h : SameAccount d d' id) :
    (d'.projections.find id = none ∧ d.projections.find id = none) ∨
      ∃ projection' projection, d'.projections.find id = some projection' ∧
        d.projections.find id = some projection ∧ projection'.totals = projection.totals := by
  have htotals := h.totals
  cases hfind' : d'.projections.find id with
  | none =>
    rw [hfind'] at htotals
    exact .inl ⟨rfl, Option.map_eq_none_iff.mp htotals.symm⟩
  | some projection' =>
    rw [hfind'] at htotals
    obtain ⟨projection, hfind, heq⟩ := Option.map_eq_some_iff.mp htotals.symm
    exact .inr ⟨projection', projection, rfl, hfind, heq.symm⟩

theorem SameAccount.toDetail (h : SameAccount d d' row.ledgerAccountId) :
    toDetail d' row = toDetail d row := by
  unfold Ledger.toDetail
  rw [h.account]
  obtain ⟨hnone', hnone⟩ | ⟨projection', projection, hsome', hsome, htotals⟩ := h.projections
  · rw [hnone', hnone]
  · rw [hsome', hsome]
    cases d.accounts.find row.ledgerAccountId with
    | none => rfl
    | some account => simp only [htotals]

theorem SameAccount.balanceMinor (h : SameAccount d d' row.ledgerAccountId) :
    balanceMinor d' row = balanceMinor d row := by
  unfold Ledger.balanceMinor
  rw [h.account]
  obtain ⟨hnone', hnone⟩ | ⟨projection', projection, hsome', hsome, htotals⟩ := h.projections
  · rw [hnone', hnone]
  · rw [hsome', hsome]
    cases d.accounts.find row.ledgerAccountId with
    | none => rfl
    | some account => simp only [htotals]

theorem SameTo.history (h : SameTo customerId d d') (accountId : String) :
    history d' customerId accountId = history d customerId accountId := by
  unfold Ledger.history
  rw [find_owned, find_owned, h.owned]
  split
  · rfl
  next hfind =>
    rw [(h.accounts _ (List.mem_of_find?_eq_some hfind)).postings]

theorem SameTo.getForCustomer (h : SameTo customerId d d') (accountId : String) :
    getForCustomer d' customerId accountId = getForCustomer d customerId accountId := by
  unfold Ledger.getForCustomer
  rw [h.requireOwnedAccount]
  cases hrow : Ledger.requireOwnedAccount d customerId accountId with
  | error e => rfl
  | ok row => exact (h.accounts row (requireOwnedAccount_owned hrow)).toDetail

theorem SameTo.getBalanceForCustomer (h : SameTo customerId d d') (accountId : String) :
    getBalanceForCustomer d' customerId accountId =
      getBalanceForCustomer d customerId accountId := by
  unfold Ledger.getBalanceForCustomer
  rw [h.requireOwnedAccount]
  cases hrow : Ledger.requireOwnedAccount d customerId accountId with
  | error e => rfl
  | ok row =>
    simp only [Except.bind, (h.accounts row (requireOwnedAccount_owned hrow)).balanceMinor]

/-- A read answers the same on stores that are the same to the customer. -/
theorem SameTo.answer (h : SameTo customerId d d') (runtime : HistoryRuntime)
    (read : CustomerRead) :
    read.answer runtime d' customerId = read.answer runtime d customerId := by
  cases read with
  | accounts => simp only [CustomerRead.answer, listForCustomer, h.owned]
  | account accountId => simp only [CustomerRead.answer, h.getForCustomer]
  | balance accountId => simp only [CustomerRead.answer, h.getBalanceForCustomer]
  | transactions accountId query => simp only [CustomerRead.answer, list, h.history]
  | transaction accountId transactionId => simp only [CustomerRead.answer, detail, h.history]

/-- A read of an account that is not the customer's. -/
theorem answer_foreign (runtime : HistoryRuntime) {read : CustomerRead}
    (hread : read.accountId = some accountId)
    (h : ∀ row ∈ d.owned customerId, row.id ≠ accountId) :
    read.answer runtime d customerId = .error accountNotFoundError := by
  have hfind : (d.owned customerId).find? (fun row => row.id = accountId) = none :=
    List.find?_eq_none.mpr fun row hrow => by simpa using h row hrow
  have howned : requireOwnedAccount d customerId accountId = .error accountNotFoundError := by
    unfold requireOwnedAccount
    rw [find_owned, hfind]
  have hhistory : history d customerId accountId = .error accountNotFoundError := by
    unfold Ledger.history
    rw [find_owned, hfind]
  cases read with
  | accounts => cases hread
  | account _ =>
    cases hread
    simp only [CustomerRead.answer, getForCustomer, howned]
    rfl
  | balance _ =>
    cases hread
    simp only [CustomerRead.answer, getBalanceForCustomer, howned]
    rfl
  | transactions _ query =>
    cases hread
    simp only [CustomerRead.answer, list, hhistory]
    rfl
  | transaction _ transactionId =>
    cases hread
    simp only [CustomerRead.answer, detail, hhistory]
    rfl

end Same

/-! ## What others do -/

/-- The call books on an account of the customer, or asks for one. -/
def LedgerCall.Concerns (call : LedgerCall) (d : LedgerStore) (customerId : String) : Prop :=
  match call with
  | .post request _ _ => ∃ p ∈ request.postings, ∃ row ∈ d.owned customerId,
      row.ledgerAccountId = p.ledgerAccountId
  | .provisionDefault input => input.customerId = customerId

theorem SameTo.concerns {d d' : LedgerStore} {customerId : String} (h : SameTo customerId d d')
    (call : LedgerCall) : call.Concerns d' customerId ↔ call.Concerns d customerId := by
  unfold LedgerCall.Concerns
  rw [h.owned]

section Others

variable {runtime : Runtime} {s t : LedgerState} {customerId : String} {call : LedgerCall}
  {ws : List (StoredWrite LedgerWrite LedgerResponse)} {d : LedgerStore}

/-- The customer accounts after some writes. -/
theorem customerAccounts_applyAll (ws : List LedgerWrite) (d : LedgerStore) :
    ∃ rows, (ledgerDatabase.applyAll d ws).customerAccounts.rows = d.customerAccounts.rows ++ rows ∧
      ∀ row ∈ rows, .createCustomerAccount row ∈ ws := by
  induction ws generalizing d with
  | nil => exact ⟨[], (List.append_nil _).symm, by simp⟩
  | cons w ws ih =>
    rw [Database.applyAll_cons]
    obtain ⟨rows, hrows, hmem⟩ := ih (applyWrite d w)
    have hlater : ∀ row ∈ rows, .createCustomerAccount row ∈ w :: ws :=
      fun row hrow => List.mem_cons_of_mem w (hmem row hrow)
    cases w with
    | createCustomerAccount account =>
      rcases rows_add_cases d.customerAccounts account with hsame | hadded
      · exact ⟨rows, hrows.trans (congrArg (· ++ rows) hsame), hlater⟩
      · refine ⟨account :: rows, ?_, List.forall_mem_cons.mpr ⟨List.mem_cons_self, hlater⟩⟩
        refine hrows.trans ((congrArg (· ++ rows) hadded).trans ?_)
        rw [List.append_assoc, List.singleton_append]
    | createAccount | createEntry | createPosting | updateProjection => exact ⟨rows, hrows, hlater⟩

/-- What a commit inserts: postings on the accounts that its call names, or an account of the
    customer that its call names. -/
theorem inserts_of_mem (h : (ledger runtime).machine.Reachable Machine.always s)
    (hmem : (call, ws) ∈ s.log) :
    (∀ row, .createPosting row ∈ appWrites ws → ∃ request correlationId actor,
      call = .post request correlationId actor ∧
        ∃ p ∈ request.postings, p.ledgerAccountId = row.ledgerAccountId) ∧
    ∀ row, .createCustomerAccount row ∈ appWrites ws → ∃ input,
      call = .provisionDefault input ∧ row.customerId = input.customerId := by
  obtain ⟨request, correlationId, actor, postings, totalMinor, response, rfl, hnormalised, hrun⟩ |
    ⟨input, response, rfl, hrun⟩ := yields_of_mem h hmem
  · obtain ⟨entry, rows, updates, hws, -, hpostings, -⟩ := journalRun_yields hrun
    rw [hws, journalWrites]
    refine ⟨fun row hrow => ⟨request, correlationId, actor, rfl, ?_⟩, fun row hrow => ?_⟩
    · have hmem : row.toPosting ∈ postings := by
        rw [← hpostings]
        exact List.mem_map_of_mem (by simpa using hrow)
      have hline := List.mem_map_of_mem (f := Posting.line) hmem
      rw [(normalisePostings_merged hnormalised).lines, mem_firstLines] at hline
      obtain ⟨p, hp, heq⟩ := List.mem_map.mp hline
      exact ⟨p, hp, congrArg Prod.fst heq⟩
    · simp at hrow
  · obtain ⟨hws, -⟩ | ⟨account, row, detail, hws, -, -, hrows⟩ := provisionRun_yields hrun
    · rw [hws]
      exact ⟨by simp, by simp⟩
    · rw [hws]
      refine ⟨by simp, fun other hother => ⟨input, rfl, ?_⟩⟩
      obtain rfl : other = row := by simpa using hother
      exact congrArg Prod.fst hrows.identity

/-- A commit that does not concern a customer leaves what the customer sees as it was. -/
theorem sameTo_commit (hs : (ledger runtime).machine.Reachable Machine.always s)
    (ht : (ledger runtime).machine.Reachable Machine.always t) (hgrows : Grows s t)
    (hdb : t.db = (stored ledgerDatabase).applyAll s.db ws) (hmem : (call, ws) ∈ t.log)
    (hothers : ¬ call.Concerns s.db.app customerId) : SameTo customerId s.db.app t.db.app := by
  obtain ⟨hpostings, hcustomers⟩ := inserts_of_mem ht hmem
  have happ : t.db.app = ledgerDatabase.applyAll s.db.app (appWrites ws) := by
    rw [hdb, applyAll_app]
  obtain ⟨rows, hrows, hnew⟩ := postings_applyAll (appWrites ws) s.db.app
  obtain ⟨customers, hcustomer, hadded⟩ := customerAccounts_applyAll (appWrites ws) s.db.app
  rw [← happ] at hrows hcustomer
  refine ⟨?_, fun row hrow => ?_⟩
  · have hnone : customers.filter (fun row => row.customerId = customerId) = [] := by
      refine List.filter_eq_nil_iff.mpr fun row hrow hid => hothers ?_
      obtain ⟨input, rfl, hinput⟩ := hcustomers row (hadded row hrow)
      exact hinput.symm.trans (of_decide_eq_true hid)
    unfold LedgerStore.owned
    rw [hcustomer, List.filter_append, hnone, List.append_nil]
  · have hcustomerRow : row ∈ s.db.app.customerAccounts.rows := (List.mem_filter.mp hrow).1
    obtain ⟨account, haccount, -⟩ := (accounts_sound hs).backed row hcustomerRow
    have haccount' := hgrows.store.accounts _ _ haccount
    -- nothing new is booked on the account
    have hsame : t.db.app.accountPostings row.ledgerAccountId =
        s.db.app.accountPostings row.ledgerAccountId := by
      have hnone : rows.filter (fun p => p.ledgerAccountId = row.ledgerAccountId) = [] := by
        refine List.filter_eq_nil_iff.mpr fun p hp hid => hothers ?_
        obtain ⟨request, correlationId, actor, rfl, q, hq, heq⟩ := hpostings p (hnew p hp)
        exact ⟨q, hq, row, hrow, (of_decide_eq_true hid).symm.trans heq.symm⟩
      unfold LedgerStore.accountPostings
      rw [hrows, List.filter_append, hnone, List.append_nil]
    refine ⟨haccount'.trans haccount.symm, ?_, ?_⟩
    · obtain ⟨projection, hprojection, htotals, -⟩ :=
        (store_invariant hs).accounts _ (Table.find_some haccount).1
      obtain ⟨projection', hprojection', htotals', -⟩ :=
        (store_invariant ht).accounts _ (Table.find_some haccount').1
      have hid : account.id = row.ledgerAccountId := Table.key_of_find haccount
      rw [hid] at hprojection htotals hprojection' htotals'
      rw [hprojection', hprojection, Option.map_some, Option.map_some, htotals, htotals',
        accountTotals_postings, accountTotals_postings, hsame]
    · rw [hsame]
      refine List.filterMap_congr fun p hp => ?_
      obtain ⟨⟨entry, hentry⟩, -⟩ := (store_invariant hs).postings p (List.mem_filter.mp hp).1
      unfold LedgerStore.withEntry
      rw [hentry, hgrows.store.entries _ _ hentry]

/-- Along a run the log only grows. -/
theorem log_of_path (h : (ledger runtime).machine.Path Machine.always s t) :
    ∃ later, t.log = s.log ++ later := by
  induction h with
  | refl => exact ⟨[], (List.append_nil _).symm⟩
  | @tail t u a _ _ hstep ih =>
    obtain ⟨later, hlater⟩ := ih
    cases a with
    | start call =>
      rw [Calls.step_start hstep]
      exact ⟨later, hlater⟩
    | next n move =>
      obtain ⟨call, p, p', -, -, ⟨-, rfl⟩ | ⟨ws, -, rfl⟩⟩ := Calls.step_next hstep
      · exact ⟨later, hlater⟩
      · refine ⟨later ++ [(call, ws)], ?_⟩
        show t.log ++ [(call, ws)] = _
        rw [hlater, List.append_assoc]

variable {later : List (LedgerCall × List (StoredWrite LedgerWrite LedgerResponse))}

/-- A run whose commits do not concern a customer leaves what the customer sees as it was. -/
theorem sameTo_path (hs : (ledger runtime).machine.Reachable Machine.always s)
    (hpath : (ledger runtime).machine.Path Machine.always s t) (hlog : t.log = s.log ++ later)
    (hothers : ∀ commit ∈ later, ¬ commit.1.Concerns s.db.app customerId) :
    SameTo customerId s.db.app t.db.app := by
  induction hpath generalizing later with
  | refl => exact SameTo.refl _
  | @tail t u a hpath _ hstep ih =>
    have ht := hs.path hpath
    cases a with
    | start call =>
      obtain rfl := Calls.step_start hstep
      exact ih hlog hothers
    | next n move =>
      have hgrows := grows_of_step ht hstep
      have hu := ht.step trivial hstep
      obtain ⟨call, p, p', -, -, ⟨-, rfl⟩ | ⟨ws, -, rfl⟩⟩ := Calls.step_next hstep
      · exact ih hlog hothers
      · obtain ⟨earlier, hearlier⟩ := log_of_path hpath
        have hlater : earlier ++ [(call, ws)] = later := by
          have hboth : t.log ++ [(call, ws)] = s.log ++ later := hlog
          rw [hearlier, List.append_assoc] at hboth
          exact List.append_cancel_left hboth
        subst hlater
        have hsame := ih hearlier fun commit hmem => hothers commit (List.mem_append_left _ hmem)
        refine hsame.trans (sameTo_commit ht hu hgrows rfl
          (List.mem_append_right _ List.mem_cons_self) ?_)
        have hcall := hothers (call, ws) (List.mem_append_right _ List.mem_cons_self)
        rwa [hsame.concerns]

/-- **A customer's reads show the customer's own accounts only.** Whatever others do in between, in
    any interleaving, every read of a customer answers the same as long as no commit books on the
    customer's accounts or opens one for the customer; and an account of another customer is
    answered like one that does not exist. The `updatedAt` of a balance is left out. -/
theorem reads_isolated (history : HistoryRuntime)
    (hs : (ledger runtime).machine.Reachable Machine.always s)
    (hpath : (ledger runtime).machine.Path Machine.always s t) (hlog : t.log = s.log ++ later)
    (hothers : ∀ commit ∈ later, ¬ commit.1.Concerns s.db.app customerId) (read : CustomerRead) :
    read.answer history t.db.app customerId = read.answer history s.db.app customerId ∧
      ∀ accountId, read.accountId = some accountId →
        (∀ row ∈ t.db.app.customerAccounts.rows, row.id = accountId → row.customerId ≠ customerId) →
        read.answer history t.db.app customerId = .error accountNotFoundError := by
  refine ⟨(sameTo_path hs hpath hlog hothers).answer history read,
    fun accountId hread hforeign => ?_⟩
  refine answer_foreign history hread fun row hrow hid => ?_
  obtain ⟨hmem, howner⟩ := List.mem_filter.mp hrow
  exact hforeign row hmem hid (of_decide_eq_true howner)

end Others

/-- The account of a customer is opened. -/
def openingRun : List (Calls.Action Env LedgerCall) :=
  [.start opening, .next 0 .query, .next 0 .begin, .next 0 (.stmt (env "-")),
    .next 0 (.stmt (env "-")), .next 0 (.stmt (env "-")), .next 0 (.stmt (env "-")),
    .next 0 (.stmt (env "c3")), .next 0 (.stmt (env "d4")), .next 0 (.stmt (env "-")),
    .next 0 (.stmt (env "-")), .next 0 .finish]

instance (call : LedgerCall) (d : LedgerStore) (customerId : String) :
    Decidable (call.Concerns d customerId) :=
  match call with
  | .post request _ _ =>
    inferInstanceAs (Decidable (∃ p ∈ request.postings, ∃ row ∈ d.owned customerId,
      row.ledgerAccountId = p.ledgerAccountId))
  | .provisionDefault input => inferInstanceAs (Decidable (input.customerId = customerId))

/-- A funding of other accounts leaves the balance of a customer's account as it was. -/
theorem reads_isolated_funding : ∃ s t, (ledger plainRuntime).machine.Reachable Machine.always s ∧
    (ledger plainRuntime).machine.Path Machine.always s t ∧ t.log.length = s.log.length + 1 ∧
    (CustomerRead.balance "d4").answer exampleHistory t.db.app "customer-1" =
      (CustomerRead.balance "d4").answer exampleHistory s.db.app "customer-1" := by
  have hrun : (((ledger plainRuntime).machine.run freshLedger openingRun).any fun s =>
        ((ledger plainRuntime).machine.run s (fundingRun 1)).any fun t =>
          decide (t.log.length = s.log.length + 1) && (t.log.drop s.log.length).all fun commit =>
            decide (¬ commit.1.Concerns s.db.app "customer-1")) = true := by decide
  obtain ⟨s, hopening, hrest⟩ := (Option.any_eq_true _ _).mp hrun
  obtain ⟨t, hfunding, hchecked⟩ := (Option.any_eq_true _ _).mp hrest
  rw [Bool.and_eq_true, decide_eq_true_eq, List.all_eq_true] at hchecked
  have hs := (Machine.Reachable.init freshLedger_init).path (Machine.path_of_run hopening)
  have hpath := Machine.path_of_run hfunding
  obtain ⟨later, hlog⟩ := log_of_path hpath
  have hlater : t.log.drop s.log.length = later := by rw [hlog, List.drop_left]
  refine ⟨s, t, hs, hpath, hchecked.1, (reads_isolated exampleHistory hs hpath hlog ?_ _).1⟩
  intro commit hmem
  exact of_decide_eq_true (hchecked.2 commit (hlater ▸ hmem))

end AegisShield.Ledger
