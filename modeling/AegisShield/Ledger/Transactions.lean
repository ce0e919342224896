import AegisShield.Ledger.Journal

/-!
# Transaction history

`TransactionService.history` (`transaction.service.ts`): the postings of an account in the
order of their times and ids, each with the balance after it.

Results:
* `mem_history`: where the postings of an account were committed in the order of their times,
  the history shows after each of them the balance that its commit left.
* `balance_of_last`: the totals of an account are the balance after its last posting.
-/

namespace AegisShield.Ledger

open Common

/-! ## The history -/

/-- `CustomerTransactionDirection` (`contracts/accounts/v1.ts`, lines 220-222). -/
inductive CustomerTransactionDirection where
  | INCOMING
  | OUTGOING
  deriving DecidableEq

/-- `CustomerTransactionCategory` (`contracts/accounts/v1.ts`, lines 230-232). -/
inductive CustomerTransactionCategory where
  | FUNDING
  | ADJUSTMENT
  | TRANSFER
  | OTHER
  deriving DecidableEq

/-- `CustomerTransactionSummary` (`contracts/accounts/v1.ts`, lines 259-261), with times as numbers;
    the status is always `POSTED`. -/
structure CustomerTransactionSummary where
  id : String
  displayReference : String
  accountId : String
  direction : CustomerTransactionDirection
  category : CustomerTransactionCategory
  currency : String
  amount : ℤ
  balanceAfter : ℤ
  effectiveAt : ℤ
  postedAt : ℤ
  deriving DecidableEq

/-- `displayReference` (lines 35-38). -/
def displayReference (id : String) : String :=
  let value := (id.toList.filter fun c => c ≠ '-').map Char.toUpper
  "AEGIS-TXN-" ++ String.ofList (value.take 4) ++ "-" ++
    String.ofList ((value.drop 4).take 4) ++ "-" ++ String.ofList ((value.drop 8).take 4)

/-- `category` (lines 40-48). -/
def category : JournalEntryType → CustomerTransactionCategory
  | .SETTLEMENT_FUNDING => .FUNDING
  | .ACCOUNT_ADJUSTMENT => .ADJUSTMENT
  | .CUSTOMER_TRANSFER => .TRANSFER
  | _ => .OTHER

/-- What a posting adds to the balance of its account (lines 140-143). -/
def signedAmount (posting : Posting) : ℤ :=
  match posting.direction with
  | .CREDIT => posting.amountMinor
  | .DEBIT => -posting.amountMinor

/-- `orderBy: [{ createdAt: 'asc' }, { id: 'asc' }]`. -/
def postedLe (a b : JournalPostingRow) : Prop :=
  a.createdAt < b.createdAt ∨ (a.createdAt = b.createdAt ∧ textLe a.id b.id)

instance : DecidableRel postedLe := fun _ _ => inferInstanceAs (Decidable (_ ∨ _))

/-- The order of postings with their journals. -/
def rowLe (a b : JournalPostingRow × JournalEntryRow) : Prop := postedLe a.1 b.1

instance : DecidableRel rowLe := fun _ _ => inferInstanceAs (Decidable (postedLe _ _))

/-- The postings of an account, in the order in which they were committed. -/
def LedgerStore.accountPostings (d : LedgerStore) (ledgerAccountId : String) :
    List JournalPostingRow :=
  d.postings.rows.filter fun p => p.ledgerAccountId = ledgerAccountId

/-- A posting with its journal. -/
def LedgerStore.withEntry (d : LedgerStore) (posting : JournalPostingRow) :
    Option (JournalPostingRow × JournalEntryRow) :=
  (d.entries.find posting.journalEntryId).map fun entry => (posting, entry)

/-- The loop of `history` (lines 137-163). -/
def summaries (account : CustomerAccountRow) :
    ℤ → List (JournalPostingRow × JournalEntryRow) → List CustomerTransactionSummary
  | _, [] => []
  | balance, (posting, entry) :: rows =>
    let balance := balance + signedAmount posting.toPosting
    { id := posting.id
      displayReference := displayReference posting.id
      accountId := account.id
      direction := if posting.direction = .CREDIT then .INCOMING else .OUTGOING
      category := category entry.entryType
      currency := account.currency
      amount := posting.amountMinor
      balanceAfter := balance
      effectiveAt := entry.effectiveAt
      postedAt := posting.createdAt } :: summaries account balance rows

/-- `history` (lines 112-165). -/
def history (d : LedgerStore) (customerId accountId : String) :
    Except Thrown (CustomerAccountRow × List CustomerTransactionSummary) :=
  match d.customerAccounts.rows.find? fun row => row.id = accountId ∧ row.customerId = customerId with
  | none => .error accountNotFoundError
  | some account => .ok (account, summaries account 0
      (((d.accountPostings account.ledgerAccountId).filterMap d.withEntry).insertionSort rowLe))

/-! ## Running balances -/

/-- The balances after each of some postings. -/
def runningBalances : ℤ → List JournalPostingRow → List (String × ℤ)
  | _, [] => []
  | balance, posting :: postings =>
    (posting.id, balance + signedAmount posting.toPosting) ::
      runningBalances (balance + signedAmount posting.toPosting) postings

/-- The balances of an account after each of its postings was committed. -/
def LedgerStore.balances (d : LedgerStore) (ledgerAccountId : String) : List (String × ℤ) :=
  runningBalances 0 (d.accountPostings ledgerAccountId)

/-- The postings of every account were committed in the order of the history. -/
def LedgerStore.Chronological (d : LedgerStore) : Prop :=
  d.postings.rows.Pairwise fun p q => p.ledgerAccountId = q.ledgerAccountId → postedLe p q

instance (d : LedgerStore) : Decidable d.Chronological :=
  inferInstanceAs (Decidable (List.Pairwise _ _))

section Running

variable {d d' : LedgerStore} {account : CustomerAccountRow} {id : String}

theorem runningBalances_append (balance : ℤ) (ps qs : List JournalPostingRow) :
    runningBalances balance (ps ++ qs) = runningBalances balance ps ++
      runningBalances (balance + (ps.map fun p => signedAmount p.toPosting).sum) qs := by
  induction ps generalizing balance with
  | nil =>
    show runningBalances balance qs = runningBalances (balance + 0) qs
    rw [Int.add_zero]
  | cons p ps ih =>
    rw [List.cons_append, runningBalances, ih, List.map_cons, List.sum_cons, ← Int.add_assoc]
    rfl

theorem map_summaries (balance : ℤ) (rows : List (JournalPostingRow × JournalEntryRow)) :
    (summaries account balance rows).map (fun t => (t.id, t.balanceAfter)) =
      runningBalances balance (rows.map Prod.fst) := by
  induction rows generalizing balance with
  | nil => rfl
  | cons row rows ih =>
    rw [List.map_cons, runningBalances, ← ih]
    rfl

/-- Later commits leave the balances after the earlier ones alone. -/
theorem balances_isPrefix (h : d.postings.rows <+: d'.postings.rows) (id : String) :
    d.balances id <+: d'.balances id := by
  obtain ⟨rest, hrest⟩ := h
  unfold LedgerStore.balances LedgerStore.accountPostings
  rw [← hrest, List.filter_append, runningBalances_append]
  exact List.prefix_append _ _

theorem map_fst_withEntry (hd : StoreInvariant d) {rows : List JournalPostingRow}
    (h : ∀ p ∈ rows, p ∈ d.postings.rows) : (rows.filterMap d.withEntry).map Prod.fst = rows := by
  induction rows with
  | nil => rfl
  | cons p rows ih =>
    obtain ⟨⟨entry, hentry⟩, -⟩ := hd.postings p (h p List.mem_cons_self)
    have hp : d.withEntry p = some (p, entry) := by rw [LedgerStore.withEntry, hentry]; rfl
    rw [List.filterMap_cons_some hp, List.map_cons, ih fun q hq => h q (List.mem_cons_of_mem p hq)]

theorem LedgerStore.Chronological.accountPostings (h : d.Chronological) (id : String) :
    (d.accountPostings id).Pairwise postedLe := by
  refine List.pairwise_filter.mpr (h.imp fun {p q} hpq hp hq => hpq ?_)
  rw [of_decide_eq_true hp, of_decide_eq_true hq]

/-- The history shows the balances that the commits left. -/
theorem map_history (hd : StoreInvariant d) (h : d.Chronological) :
    (summaries account 0 (((d.accountPostings id).filterMap d.withEntry).insertionSort rowLe)).map
      (fun t => (t.id, t.balanceAfter)) = d.balances id := by
  have hfst : ((d.accountPostings id).filterMap d.withEntry).map Prod.fst = d.accountPostings id :=
    map_fst_withEntry hd fun p hp => (List.mem_filter.mp hp).1
  have hsorted : ((d.accountPostings id).filterMap d.withEntry).Pairwise rowLe := by
    have hpairs := h.accountPostings id
    rw [← hfst] at hpairs
    have hrows := List.pairwise_map.mp hpairs
    exact hrows
  rw [hsorted.insertionSort_eq, map_summaries, hfst]
  rfl

/-- Credits less debits. -/
theorem sum_signedAmount (postings : List Posting) :
    (postings.map signedAmount).sum =
      directionTotal postings .CREDIT - directionTotal postings .DEBIT := by
  induction postings with
  | nil => rfl
  | cons p postings ih =>
    rw [List.map_cons, List.sum_cons, ih]
    cases hdirection : p.direction with
    | DEBIT | CREDIT => simp [signedAmount, directionTotal, hdirection]; omega

theorem lines_filter (d : LedgerStore) (id : String) :
    d.lines.filter (fun p => p.ledgerAccountId = id) =
      (d.accountPostings id).map JournalPostingRow.toPosting := List.filter_map

/-- The totals of an account are the sum of its postings. -/
theorem sum_accountPostings (d : LedgerStore) (id : String) :
    ((d.accountPostings id).map fun p => signedAmount p.toPosting).sum =
      (accountTotals d.lines id).creditTotalMinor - (accountTotals d.lines id).debitTotalMinor := by
  unfold accountTotals accountTotal
  rw [lines_filter, ← sum_signedAmount, List.map_map]
  rfl

/-- The totals of an account are the balance after its last posting. -/
theorem balance_of_last {p : JournalPostingRow} (h : (d.accountPostings id).getLast? = some p) :
    (p.id, (accountTotals d.lines id).creditTotalMinor -
      (accountTotals d.lines id).debitTotalMinor) ∈ d.balances id := by
  obtain ⟨ps, hps⟩ := List.getLast?_eq_some_iff.mp h
  have hsum := sum_accountPostings d id
  unfold LedgerStore.balances
  rw [hps, List.map_append, List.sum_append, List.map_singleton, List.sum_singleton] at hsum
  rw [hps, runningBalances_append, ← hsum, Int.zero_add]
  exact List.mem_append_right _ List.mem_cons_self

/-- What the history of an account shows. -/
theorem mem_history (hd : StoreInvariant d) (h : d.Chronological)
    (haccount : d.customerAccounts.find account.id = some account) {postingId : String} {balance : ℤ}
    (hmem : (postingId, balance) ∈ d.balances account.ledgerAccountId) :
    ∃ transactions, history d account.customerId account.id = .ok (account, transactions) ∧
      ∃ t ∈ transactions, t.id = postingId ∧ t.balanceAfter = balance := by
  have hfind : d.customerAccounts.rows.find? (fun row => row.id = account.id ∧
      row.customerId = account.customerId) = some account :=
    Table.find?_of_find haccount (by simp) fun x hx => (of_decide_eq_true hx).1
  unfold history
  rw [hfind]
  refine ⟨_, rfl, ?_⟩
  rw [← @map_history d account _ hd h] at hmem
  obtain ⟨t, ht, heq⟩ := List.mem_map.mp hmem
  exact ⟨t, ht, congrArg Prod.fst heq, congrArg Prod.snd heq⟩

end Running

end AegisShield.Ledger
