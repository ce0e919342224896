import AegisShield.Ledger.Reconciliation
import AegisShield.Ledger.ReportedBalance

/-!
# Running balances

`TransactionService.history` (`transaction.service.ts`) adds up the postings of an account, one
after the other; `AccountService` (`account.service.ts`) reads the totals of the account's
projection, which `JournalService.post` keeps (`journal.service.ts`, lines 216-246).

Results:
* `solvent_of_reachable`: between two journals no account without an overdraft is below zero.
* `running_balances`: the history ends with the balance that `AccountService` reports, moves by
  the amount of each posting, and does not go below zero on an account without an overdraft that
  no journal books on twice.
-/

namespace AegisShield.Ledger

open Common

/-! ## The reported balance -/

/-- `requireOwnedAccount` (`account.service.ts`, lines 224-234). -/
def requireOwnedAccount (d : LedgerStore) (customerId accountId : String) :
    Except Thrown CustomerAccountRow :=
  match d.customerAccounts.rows.find? fun row => row.id = accountId ∧ row.customerId = customerId with
  | none => .error accountNotFoundError
  | some row => .ok row

/-- `balanceMinor` (lines 76-88), of a row with the rows it refers to. -/
def balanceMinor (d : LedgerStore) (row : CustomerAccountRow) : Except Thrown ℤ :=
  match d.accounts.find row.ledgerAccountId, d.projections.find row.ledgerAccountId with
  | some account, some projection => .ok (signedBalanceMinor account.accountClass
      projection.totals.debitTotalMinor projection.totals.creditTotalMinor)
  | _, _ => .error .other

/-- `AccountBalance` (`contracts/accounts/v1.ts`, line 198), without `updatedAt`, the time of the
    projection. -/
structure AccountBalance where
  accountId : String
  currency : String
  minorUnits : ℤ
  deriving DecidableEq

/-- `getForCustomer` (lines 236-241). -/
def getForCustomer (d : LedgerStore) (customerId accountId : String) :
    Except Thrown CustomerAccountDetail :=
  (requireOwnedAccount d customerId accountId).bind (toDetail d)

/-- `getBalanceForCustomer` (lines 243-258). -/
def getBalanceForCustomer (d : LedgerStore) (customerId accountId : String) :
    Except Thrown AccountBalance :=
  (requireOwnedAccount d customerId accountId).bind fun row =>
    (balanceMinor d row).bind fun minorUnits => .ok {
      accountId := row.id
      currency := row.currency
      minorUnits := minorUnits }

/-! ## The property -/

/-- What a transaction adds to the balance. -/
def CustomerTransactionSummary.change (t : CustomerTransactionSummary) : ℤ :=
  match t.direction with
  | .INCOMING => t.amount
  | .OUTGOING => -t.amount

/-- Each journal has at most one posting on the account. -/
def OncePerJournal (d : LedgerStore) (ledgerAccountId : String) : Prop :=
  (d.accountPostings ledgerAccountId).Pairwise fun p q => p.journalEntryId ≠ q.journalEntryId

/-- The history of an account, oldest first, agrees with the balance that is reported of it. -/
structure BalancesAgree (d : LedgerStore) (customerId accountId : String)
    (account : CustomerAccountRow) (transactions : List CustomerTransactionSummary) : Prop where
  newest : ∃ detail balance, getForCustomer d customerId accountId = .ok detail ∧
    getBalanceForCustomer d customerId accountId = .ok balance ∧
    ∀ t, transactions.getLast? = some t →
      t.balanceAfter = detail.balance ∧ t.balanceAfter = balance.minorUnits
  changes : transactions.IsChain fun older newer =>
    newer.balanceAfter = older.balanceAfter + newer.change
  nonnegative : ∀ ledgerAccount, d.accounts.find account.ledgerAccountId = some ledgerAccount →
    ledgerAccount.allowNegativeBalance = false → OncePerJournal d account.ledgerAccountId →
    ∀ t ∈ transactions, 0 ≤ t.balanceAfter

/-! ## Between two journals -/

/-- The balance that some postings make. -/
def balanceOf (accountClass : LedgerAccountClass) (rows : List JournalPostingRow) : ℤ :=
  signedBalanceMinor accountClass
    (directionTotal (rows.map JournalPostingRow.toPosting) .DEBIT)
    (directionTotal (rows.map JournalPostingRow.toPosting) .CREDIT)

/-- Wherever the postings of an account without an overdraft are cut between two journals, the
    balance before the cut is not negative. -/
def Solvent (d : LedgerStore) : Prop :=
  ∀ account ∈ d.accounts.rows, account.allowNegativeBalance = false →
    ∀ before after, d.accountPostings account.id = before ++ after →
      (∀ p ∈ before, ∀ q ∈ after, p.journalEntryId ≠ q.journalEntryId) →
      0 ≤ balanceOf account.accountClass before

section Solvency

variable {runtime : Runtime} {s : LedgerState} {d d' : LedgerStore} {rows : List JournalPostingRow}
  {id : String}

theorem balanceOf_nil (accountClass : LedgerAccountClass) : balanceOf accountClass [] = 0 := by
  cases accountClass <;> rfl

/-- The totals of an account are those of its postings. -/
theorem accountTotals_postings (d : LedgerStore) (id : String) : accountTotals d.lines id = {
    debitTotalMinor :=
      directionTotal ((d.accountPostings id).map JournalPostingRow.toPosting) .DEBIT
    creditTotalMinor :=
      directionTotal ((d.accountPostings id).map JournalPostingRow.toPosting) .CREDIT } := by
  unfold accountTotals accountTotal
  rw [lines_filter]

/-- After whole journals an account without an overdraft is not below zero. -/
theorem balanceOf_all (hd : StoreInvariant d) {account : LedgerAccountRow}
    (haccount : account ∈ d.accounts.rows) (hallow : account.allowNegativeBalance = false) :
    0 ≤ balanceOf account.accountClass (d.accountPostings account.id) := by
  obtain ⟨projection, -, htotals, hnonnegative⟩ := hd.accounts account haccount
  have hbalance := hnonnegative hallow
  rw [htotals, accountTotals_postings] at hbalance
  exact hbalance

/-- Nothing is booked on an account that does not exist. -/
theorem accountPostings_unknown (hd : StoreInvariant d) (h : d.accounts.find id = none) :
    d.accountPostings id = [] := by
  refine List.filter_eq_nil_iff.mpr fun p hp hid => ?_
  obtain ⟨-, account, haccount⟩ := hd.postings p hp
  rw [of_decide_eq_true hid, h] at haccount
  cases haccount

/-- A commit that adds the postings of one journal keeps the accounts solvent. -/
theorem Solvent.commit (hd : StoreInvariant d) (hd' : StoreInvariant d') (hextends : Extends d d')
    (hrows : d'.postings.rows = d.postings.rows ++ rows) (hone : ∀ p ∈ rows, p.journalEntryId = id)
    (h : Solvent d) : Solvent d' := by
  intro account haccount hallow before after hsplit hcut
  have hposted : d'.accountPostings account.id = d.accountPostings account.id ++
      rows.filter fun p => p.ledgerAccountId = account.id := by
    unfold LedgerStore.accountPostings
    rw [hrows, List.filter_append]
  -- a cut among the earlier postings
  have hearlier : ∀ earlier later, d.accountPostings account.id = earlier ++ later →
      (∀ p ∈ earlier, ∀ q ∈ later, p.journalEntryId ≠ q.journalEntryId) →
      0 ≤ balanceOf account.accountClass earlier := by
    intro earlier later hparts hapart
    cases hfind : d.accounts.find account.id with
    | none =>
      rw [accountPostings_unknown hd hfind] at hparts
      rw [(List.append_eq_nil_iff.mp hparts.symm).1, balanceOf_nil]
    | some found =>
      have hsame := hextends.accounts _ _ hfind
      obtain rfl : account = found :=
        Option.some.inj ((Table.find_of_mem haccount).symm.trans hsame)
      exact h account (Table.find_some hfind).1 hallow earlier later hparts hapart
  rw [hposted] at hsplit
  rcases List.append_eq_append_iff.mp hsplit with ⟨posted, rfl, hnew⟩ | ⟨rest, hold, rfl⟩
  · cases posted with
    | nil =>
      rw [List.append_nil]
      exact hearlier _ [] (List.append_nil _).symm (by simp)
    | cons p posted =>
      -- the rest of the new journal is before the cut, too
      have hnone : after = [] := by
        refine List.eq_nil_iff_forall_not_mem.mpr fun q hq => ?_
        have hnewer : ∀ x, x ∈ p :: posted ++ after → x.journalEntryId = id := by
          intro x hx
          rw [← hnew] at hx
          exact hone x (List.mem_filter.mp hx).1
        refine hcut p (List.mem_append_right _ List.mem_cons_self) q hq ?_
        rw [hnewer p (by simp), hnewer q (List.mem_append_right _ hq)]
      rw [hnone, List.append_nil] at hnew
      rw [← hnew, ← hposted]
      exact balanceOf_all hd' haccount hallow
  · exact hearlier before rest hold fun p hp q hq => hcut p hp q (List.mem_append_left _ hq)

variable {ws : List (StoredWrite LedgerWrite LedgerResponse)}

/-- A commit of an idempotent call is that of its run. -/
theorem yields_of_makes
    {options : ExecuteOptions LedgerStore LedgerLock LedgerWrite Env LedgerResponse LedgerResponse}
    (h : ((execute runtime options).bind fun outcome => .ret outcome.result).Makes ws) :
    ∃ value, options.run.Yields (appWrites ws) value := by
  obtain ⟨vs, value, hrun, rfl⟩ := makes_answered h
  rw [appWrites_execution]
  exact ⟨value, hrun⟩

/-- A commit is that of a journal, with lines that balance, or of the opening of an account. -/
theorem yields_of_mem (h : (ledger runtime).machine.Reachable Machine.always s) {call : LedgerCall}
    (hmem : (call, ws) ∈ s.log) :
    (∃ request correlationId actor postings totalMinor entry,
      call = .post request correlationId actor ∧
      normalisePostings request.postings = .ok postings ∧
      (journalRun runtime request correlationId actor postings totalMinor).Yields (appWrites ws)
        entry) ∨
    ∃ input detail, call = .provisionDefault input ∧
      (provisionRun runtime input).Yields (appWrites ws) detail := by
  have hmakes : ((ledger runtime).call call).Makes ws := Calls.makes_of_mem_log h hmem
  cases call with
  | post request correlationId actor =>
    have hpost : (post runtime request correlationId actor).Makes ws := hmakes
    unfold post at hpost
    split at hpost
    · cases hpost
    next postings hnormalised =>
      split at hpost
      · cases hpost
      · obtain ⟨response, hrun⟩ := yields_of_makes hpost
        exact .inl ⟨_, _, _, _, _, _, rfl, hnormalised, hrun⟩
  | provisionDefault input =>
    obtain ⟨response, hrun⟩ := yields_of_makes hmakes
    exact .inr ⟨_, _, rfl, hrun⟩

/-- A commit inserts the postings of one journal. -/
theorem one_journal (h : (ledger runtime).machine.Reachable Machine.always s) {call : LedgerCall}
    (hmem : (call, ws) ∈ s.log) :
    ∃ id, ∀ p, .createPosting p ∈ appWrites ws → p.journalEntryId = id := by
  obtain ⟨request, correlationId, actor, postings, totalMinor, response, -, -, hrun⟩ |
    ⟨input, response, -, hrun⟩ := yields_of_mem h hmem
  · obtain ⟨entry, rows, updates, hws, -, -, hjournal, -⟩ := journalRun_yields hrun
    refine ⟨entry.id, fun p hp => hjournal p ?_⟩
    rw [hws, journalWrites] at hp
    simpa using hp
  · refine ⟨"", fun p hp => ?_⟩
    obtain ⟨hws, -⟩ | ⟨account, row, detail, hws, -⟩ := provisionRun_yields hrun
    · rw [hws] at hp
      cases hp
    · rw [hws] at hp
      simp at hp

/-- Before any call nothing is booked. -/
theorem solvent_init {d : LedgerDb} (h : (ledger runtime).init d) :
    Solvent d.app := by
  obtain ⟨-, settlementId, controlId, hne, happ⟩ := h
  intro account haccount hallow before after hsplit hcut
  have hnone : d.app.accountPostings account.id = [] := by
    rw [happ]
    rfl
  rw [hnone] at hsplit
  rw [(List.append_eq_nil_iff.mp hsplit.symm).1, balanceOf_nil]

/-- In every state that the Ledger's calls reach, the accounts are solvent between journals. -/
theorem solvent_of_reachable (h : (ledger runtime).machine.Reachable Machine.always s) :
    Solvent s.db.app := by
  refine Machine.invariant_of_reachable (M := (ledger runtime).machine)
    (I := fun s => Solvent s.db.app) (fun s hs => solvent_init hs.1) ?_ h
  intro s action t hs hsolvent _ hstep
  have ht := hs.step trivial hstep
  have hgrows := grows_of_step hs hstep
  cases action with
  | start call =>
    obtain rfl := Calls.step_start hstep
    exact hsolvent
  | next n move =>
    obtain ⟨call, p, p', -, -, ⟨-, rfl⟩ | ⟨ws, -, rfl⟩⟩ := Calls.step_next hstep
    · exact hsolvent
    · obtain ⟨id, hone⟩ := one_journal ht (List.mem_append_right _ List.mem_cons_self)
      obtain ⟨rows, hrows, hmem⟩ := postings_applyAll (appWrites ws) s.db.app
      rw [← applyAll_app] at hrows
      exact hsolvent.commit (store_invariant hs) (store_invariant ht) hgrows.store hrows
        fun p hp => hone p (hmem p hp)

end Solvency

/-! ## The history -/

section History

variable {runtime : Runtime} {s : LedgerState} {d : LedgerStore} {account : CustomerAccountRow}
  {customerId accountId : String} {transactions : List CustomerTransactionSummary}

theorem history_ok (h : history d customerId accountId = .ok (account, transactions)) :
    requireOwnedAccount d customerId accountId = .ok account ∧
      transactions = summaries account 0
        (((d.accountPostings account.ledgerAccountId).filterMap d.withEntry).insertionSort rowLe) := by
  unfold history at h
  split at h
  · cases h
  next found hfind =>
    cases h
    refine ⟨?_, rfl⟩
    unfold requireOwnedAccount
    rw [hfind]

theorem mem_of_owned (h : requireOwnedAccount d customerId accountId = .ok account) :
    account ∈ d.customerAccounts.rows := by
  unfold requireOwnedAccount at h
  split at h
  · cases h
  next found hfind =>
    cases h
    exact List.mem_of_find?_eq_some hfind

/-- Both reports are of the projection. -/
theorem reports_projection {ledgerAccount : LedgerAccountRow} {projection : BalanceProjectionRow}
    (howned : requireOwnedAccount d customerId accountId = .ok account)
    (hfind : d.accounts.find account.ledgerAccountId = some ledgerAccount)
    (hprojection : d.projections.find account.ledgerAccountId = some projection) :
    ∃ detail balance, getForCustomer d customerId accountId = .ok detail ∧
      getBalanceForCustomer d customerId accountId = .ok balance ∧
      detail.balance = balance.minorUnits ∧
      balance.minorUnits = signedBalanceMinor ledgerAccount.accountClass
        projection.totals.debitTotalMinor projection.totals.creditTotalMinor := by
  unfold getForCustomer getBalanceForCustomer
  rw [howned]
  simp only [Except.bind, toDetail, balanceMinor, hfind, hprojection]
  exact ⟨_, _, rfl, rfl, rfl, rfl⟩

/-- Each transaction moves the balance by its amount. -/
theorem isChain_summaries (account : CustomerAccountRow)
    (rows : List (JournalPostingRow × JournalEntryRow)) (older : CustomerTransactionSummary) :
    (older :: summaries account older.balanceAfter rows).IsChain fun older newer =>
      newer.balanceAfter = older.balanceAfter + newer.change := by
  induction rows generalizing older with
  | nil => exact List.isChain_singleton _
  | cons row rows ih =>
    obtain ⟨posting, entry⟩ := row
    refine List.isChain_cons_cons.mpr ⟨?_, ih _⟩
    show older.balanceAfter + signedAmount posting.toPosting = older.balanceAfter + _
    unfold signedAmount CustomerTransactionSummary.change
    cases hdirection : posting.direction with
    | DEBIT => rw [if_neg (by decide)]
    | CREDIT => rw [if_pos rfl]

variable {balance : ℤ} {entry : String × ℤ}

/-- Each running balance is the sum of the postings up to its own. -/
theorem mem_runningBalances {rows : List JournalPostingRow}
    (h : entry ∈ runningBalances balance rows) : ∃ before after, rows = before ++ after ∧
      entry.2 = balance + (before.map fun p => signedAmount p.toPosting).sum := by
  induction rows generalizing balance with
  | nil => cases h
  | cons p rows ih =>
    rcases List.mem_cons.mp h with rfl | hlater
    · exact ⟨[p], rows, rfl, by rw [List.map_singleton, List.sum_singleton]⟩
    · obtain ⟨before, after, rfl, hbalance⟩ := ih hlater
      refine ⟨p :: before, after, rfl, ?_⟩
      rw [hbalance, List.map_cons, List.sum_cons, Int.add_assoc]

theorem getLast_runningBalances {rows : List JournalPostingRow}
    (h : (runningBalances balance rows).getLast? = some entry) :
    entry.2 = balance + (rows.map fun p => signedAmount p.toPosting).sum := by
  rcases List.eq_nil_or_concat rows with rfl | ⟨before, p, rfl⟩
  · cases h
  · rw [List.concat_eq_append, runningBalances_append] at h
    have hlast : entry = (p.id, balance + (before.map fun p => signedAmount p.toPosting).sum +
        signedAmount p.toPosting) := by
      rw [runningBalances, runningBalances, List.getLast?_concat] at h
      exact (Option.some.inj h).symm
    rw [hlast, List.concat_eq_append, List.map_append, List.sum_append, List.map_singleton,
      List.sum_singleton, Int.add_assoc]

/-- A liability's balance is the sum of its postings. -/
theorem balanceOf_liability (rows : List JournalPostingRow) :
    balanceOf .LIABILITY rows = (rows.map fun p => signedAmount p.toPosting).sum := by
  have hsum := sum_signedAmount (rows.map JournalPostingRow.toPosting)
  rw [List.map_map] at hsum
  exact hsum.symm

/-- The history of an account agrees with the balance that is reported of it, in every state in
    which the postings were committed in the order of the history. -/
theorem running_balances (runtime : Runtime) (s : LedgerState)
    (hs : (ledger runtime).machine.Reachable Machine.always s) (hchronological : s.db.app.Chronological)
    (customerId accountId : String) (account : CustomerAccountRow)
    (transactions : List CustomerTransactionSummary)
    (hhistory : history s.db.app customerId accountId = .ok (account, transactions)) :
    BalancesAgree s.db.app customerId accountId account transactions := by
  have hd := store_invariant hs
  obtain ⟨howned, htransactions⟩ := history_ok hhistory
  obtain ⟨ledgerAccount, hfind, hclass, -, -⟩ :=
    (accounts_sound hs).backed account (mem_of_owned howned)
  obtain ⟨hmem, hid⟩ := Table.find_some hfind
  have hid : ledgerAccount.id = account.ledgerAccountId := hid
  obtain ⟨projection, hprojection, htotals, -⟩ := hd.accounts ledgerAccount hmem
  rw [hid] at hprojection htotals
  have hbalances : transactions.map (fun t => (t.id, t.balanceAfter)) =
      s.db.app.balances account.ledgerAccountId := by
    rw [htransactions]
    exact map_history hd hchronological
  constructor
  · obtain ⟨detail, balance, hdetail, hbalance, hsame, hminor⟩ :=
      reports_projection howned hfind hprojection
    refine ⟨detail, balance, hdetail, hbalance, fun t ht => ?_⟩
    have hlast : (s.db.app.balances account.ledgerAccountId).getLast? =
        some (t.id, t.balanceAfter) := by
      rw [← hbalances, List.getLast?_map, ht, Option.map_some]
    have hsum := getLast_runningBalances hlast
    rw [Int.zero_add, ← balanceOf_liability, ← hclass] at hsum
    have hafter : t.balanceAfter = balance.minorUnits := by
      rw [hminor, htotals, accountTotals_postings]
      exact hsum
    exact ⟨hafter.trans hsame.symm, hafter⟩
  · rw [htransactions]
    cases hrows : ((s.db.app.accountPostings account.ledgerAccountId).filterMap
        s.db.app.withEntry).insertionSort rowLe with
    | nil => exact List.isChain_nil
    | cons row rows => exact isChain_summaries account rows _
  · intro found hfound hallow honce t ht
    obtain rfl : ledgerAccount = found := Option.some.inj (hfind.symm.trans hfound)
    have hbalance : (t.id, t.balanceAfter) ∈ s.db.app.balances account.ledgerAccountId := by
      rw [← hbalances]
      exact List.mem_map_of_mem ht
    obtain ⟨before, after, hsplit, hsum⟩ := mem_runningBalances hbalance
    have hcut : ∀ p ∈ before, ∀ q ∈ after, p.journalEntryId ≠ q.journalEntryId := by
      have hpairs := honce
      rw [OncePerJournal, hsplit] at hpairs
      exact (List.pairwise_append.mp hpairs).2.2
    rw [← hid] at hsplit
    have hsolvent := solvent_of_reachable hs ledgerAccount hmem hallow before after hsplit hcut
    rw [Int.zero_add] at hsum
    rw [hclass, balanceOf_liability, ← hsum] at hsolvent
    exact hsolvent

end History

/-- The first customer's account is debited with 1.00 LKR. -/
def debitAccount : LedgerCall := .post
  { reference := some "adjustment-1"
    entryType := .ACCOUNT_ADJUSTMENT
    currency := "LKR"
    description := none
    effectiveAt := none
    idempotencyKey := "adjustment-key-0001"
    postings := [{ ledgerAccountId := "c001", direction := .DEBIT, amountMinor := 100 },
      { ledgerAccountId := "a1", direction := .CREDIT, amountMinor := 100 }]
    metadata := none }
  "correlation-1" { type := .SYSTEM, id := "operator" }

/-- The moves of a call whose statements all run, at a time. -/
def statements (call : ℕ) (now : ℤ) (uuids : List String) : List (Calls.Action Env LedgerCall) :=
  [.next call .query, .next call .begin] ++
    uuids.map (fun uuid => .next call (.stmt (envAt now uuid))) ++ [.next call .finish]

/-- The history of the account shows these balances. -/
def showsBalances (d : LedgerStore) (balances : List ℤ) : Bool :=
  match history d "customer-1" "d001" with
  | .error _ => false
  | .ok (_, transactions) => transactions.map CustomerTransactionSummary.balanceAfter = balances

/-- An account that is opened, funded with 4.00 LKR and debited with 1.00 LKR. -/
theorem running_balances_two : ∃ s account transactions,
    BalancesAgree s "customer-1" "d001" account transactions ∧
      transactions.map CustomerTransactionSummary.balanceAfter = [400, 300] := by
  obtain ⟨s, hs, hend⟩ := Machine.reachable_of_run (M := (ledger plainRuntime).machine)
    (.start (openAccount "customer-1") ::
        statements 0 1 ["-", "-", "-", "0001", "c001", "d001", "-", "-"] ++
      .start fundAccount :: statements 1 3 ["-", "-", "e001", "p001", "p002", "-", "-", "-"] ++
      .start debitAccount :: statements 2 4 ["-", "-", "e002", "p003", "p004", "-", "-", "-"])
    (fun s => decide s.db.app.Chronological && showsBalances s.db.app [400, 300])
    (s := noTransfers.ledger) noTransfers_init.1 (by decide +kernel)
  rw [Bool.and_eq_true, decide_eq_true_eq] at hend
  obtain ⟨hchronological, hshows⟩ := hend
  unfold showsBalances at hshows
  split at hshows
  · cases hshows
  next account transactions hhistory =>
    exact ⟨s.db.app, account, transactions, running_balances plainRuntime s hs hchronological
      "customer-1" "d001" account transactions hhistory, of_decide_eq_true hshows⟩

end AegisShield.Ledger
