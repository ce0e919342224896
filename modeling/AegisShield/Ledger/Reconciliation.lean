import AegisShield.Ledger.Provisioning

/-!
# Reconciliation

`ReconciliationService.run` (`reconciliation.service.ts`): nine queries, each on the data
committed when it runs, that look for violations of the books; the run passes if they
find none.

Results:
* `reconcile_given`: a run on one state of the tables reports what the checks find there.
* `checks_complete`: where the books are in order, no check finds anything.
* `books_of_checks`: where no check finds anything, the books are in order.
* `reconciliation_sound`: both, and no run beside the Ledger's calls fails.
-/

namespace AegisShield.Ledger

open Common

/-! ## Issues -/

/-- The severity of an issue (`reconciliationIssueSchema`). -/
inductive IssueSeverity where
  | WARNING
  | ERROR
  deriving DecidableEq

/-- `ReconciliationIssue` (`contracts/accounts/v1.ts`, line 399). -/
structure ReconciliationIssue where
  code : String
  severity : IssueSeverity
  safeIdentifier : Option String
  deriving DecidableEq

/-- `ReconciliationStatus` (`schema.prisma`, lines 70-73). -/
inductive ReconciliationStatus where
  | PASS
  | FAIL
  deriving DecidableEq

/-- `ReconciliationResult` (`contracts/accounts/v1.ts`, line 417), without the identifier and the
    times of the run's own row. -/
structure ReconciliationResult where
  status : ReconciliationStatus
  checkedJournalEntries : ℕ
  checkedPostings : ℕ
  checkedLedgerAccounts : ℕ
  checkedCustomerAccounts : ℕ
  issueCount : ℕ
  issues : List ReconciliationIssue
  deriving DecidableEq

/-- `MAX_RECONCILIATION_ISSUES` (`contracts/accounts/v1.ts`, line 401). -/
def MAX_RECONCILIATION_ISSUES : ℕ := 50

/-- `add` (lines 39-54). -/
def addIssues (code : String) (severity : IssueSeverity) :
    List ReconciliationIssue → List (Option String) → List ReconciliationIssue
  | issues, [] => issues
  | issues, identifier :: rows =>
    if MAX_RECONCILIATION_ISSUES ≤ issues.length then issues
    else addIssues code severity (issues ++ [{
      code := code
      severity := severity
      safeIdentifier := (identifier.filter (· ≠ "")).map fun text =>
        String.ofList (text.toList.take 64) }]) rows

/-! ## Queries -/

section Queries

variable (d : LedgerStore)

/-- The query of lines 72-82. -/
def unbalancedJournals : List String :=
  (d.entries.rows.filter fun entry =>
    let postings := (d.postingsOf entry.id).map JournalPostingRow.toPosting
    decide (postings.length < 2 ∨ directionTotal postings .DEBIT ≠ directionTotal postings .CREDIT)).map
      JournalEntryRow.reference

/-- The query of lines 89-97. -/
def postingCurrencyMismatches : List String :=
  d.postings.rows.filterMap fun posting =>
    match d.entries.find posting.journalEntryId, d.accounts.find posting.ledgerAccountId with
    | some entry, some account =>
      if posting.currency ≠ entry.currency ∨ posting.currency ≠ account.currency then
        some entry.reference
      else none
    | _, _ => none

/-- The query of lines 103-109. -/
def nonPositivePostings : List String :=
  d.postings.rows.filterMap fun posting =>
    (d.entries.find posting.journalEntryId).bind fun entry =>
      if posting.amountMinor ≤ 0 then some entry.reference else none

/-- The query of lines 116-132. -/
def projectionDrifts : List String :=
  d.accounts.rows.filterMap fun account =>
    (d.projections.find account.id).bind fun projection =>
      if projection.totals.debitTotalMinor ≠ accountTotal d.lines account.id .DEBIT ∨
          projection.totals.creditTotalMinor ≠ accountTotal d.lines account.id .CREDIT then
        some account.code
      else none

/-- The query of lines 138-145. -/
def missingProjections : List String :=
  (d.accounts.rows.filter fun account => (d.projections.find account.id).isNone).map
    LedgerAccountRow.code

/-- The query of lines 152-161. -/
def customerLedgerMismatches : List String :=
  (d.customerAccounts.rows.filter fun row =>
    match d.accounts.find row.ledgerAccountId with
    | none => true
    | some account => account.accountClass ≠ .LIABILITY ∨ account.currency ≠ row.currency).map
      CustomerAccountRow.maskedReference

/-- The query of lines 167-173. -/
def duplicateDefaultAccounts : List String :=
  ((d.customerAccounts.rows.map CustomerAccountRow.identity).dedup.filter fun identity =>
    1 < d.customerAccounts.rows.countP fun row => row.identity = identity).filterMap fun identity =>
      (((d.customerAccounts.rows.filter fun row => row.identity = identity).map
        CustomerAccountRow.maskedReference).insertionSort textLe).head?

/-- The query of lines 180-189. -/
def negativeCustomerBalances : List String :=
  d.customerAccounts.rows.filterMap fun row =>
    match d.accounts.find row.ledgerAccountId, d.projections.find row.ledgerAccountId with
    | some _, some projection =>
      if projection.totals.creditTotalMinor - projection.totals.debitTotalMinor < 0 then
        some row.maskedReference
      else none
    | _, _ => none

/-- The check of lines 192-199. -/
def missingSystemAccount : List (Option String) :=
  if (d.accounts.rows.filterMap LedgerAccountRow.systemAccountType).dedup.length < 2 then [none]
  else []

end Queries

/-- The rows that a query with a `LIMIT` returns. -/
def limited (query : LedgerStore → List String) (d : LedgerStore) : List (Option String) :=
  ((query d).take MAX_RECONCILIATION_ISSUES).map some

/-- The checks of a run, in order. -/
def reconciliationChecks : List (String × (LedgerStore → List (Option String))) := [
  ("UNBALANCED_JOURNAL", limited unbalancedJournals),
  ("POSTING_CURRENCY_MISMATCH", limited postingCurrencyMismatches),
  ("NON_POSITIVE_POSTING_AMOUNT", limited nonPositivePostings),
  ("BALANCE_PROJECTION_DRIFT", limited projectionDrifts),
  ("MISSING_BALANCE_PROJECTION", limited missingProjections),
  ("CUSTOMER_ACCOUNT_LEDGER_MISMATCH", limited customerLedgerMismatches),
  ("DUPLICATE_DEFAULT_ACCOUNT", limited duplicateDefaultAccounts),
  ("NEGATIVE_CUSTOMER_BALANCE", limited negativeCustomerBalances),
  ("MISSING_SYSTEM_ACCOUNT", missingSystemAccount)]

/-- Each check on the data of its own moment. -/
def runChecks : List (String × (LedgerStore → List (Option String))) → List ReconciliationIssue →
    LedgerClient (List ReconciliationIssue)
  | [], issues => .ret issues
  | check :: checks, issues =>
    .query fun d => runChecks checks (addIssues check.1 .ERROR issues (check.2 d.app))

/-- The status of a run (lines 202-204). -/
def reconciliationStatus (issues : List ReconciliationIssue) : ReconciliationStatus :=
  if issues.any fun issue => issue.severity = .ERROR then .FAIL else .PASS

/-- `run` (lines 34-248): the counts, the checks, and the row of the run, which nothing else
    reads. -/
def reconcile : LedgerClient ReconciliationResult :=
  (Client.read fun d => d.app.entries.rows.length).bind fun journalCount =>
  (Client.read fun d => d.app.postings.rows.length).bind fun postingCount =>
  (Client.read fun d => d.app.accounts.rows.length).bind fun ledgerAccountCount =>
  (Client.read fun d => d.app.customerAccounts.rows.length).bind fun customerAccountCount =>
  (runChecks reconciliationChecks []).bind fun issues =>
  .query fun _ => .ret {
    status := reconciliationStatus issues
    checkedJournalEntries := journalCount
    checkedPostings := postingCount
    checkedLedgerAccounts := ledgerAccountCount
    checkedCustomerAccounts := customerAccountCount
    issueCount := issues.length
    issues := issues }

/-! ## The books -/

/-- The books are in order. -/
structure Books (d : LedgerStore) : Prop where
  journals : ∀ entry ∈ d.entries.rows, JournalSound d entry
  projections : ∀ account ∈ d.accounts.rows, ∃ projection,
    d.projections.find account.id = some projection ∧
      projection.totals = accountTotals d.lines account.id
  balanced : directionTotal d.lines .DEBIT = directionTotal d.lines .CREDIT
  /-- No customer account has a negative balance. -/
  nonnegative : ∀ row ∈ d.customerAccounts.rows, ∀ account projection,
    d.accounts.find row.ledgerAccountId = some account →
    d.projections.find row.ledgerAccountId = some projection →
    0 ≤ signedBalanceMinor account.accountClass projection.totals.debitTotalMinor
      projection.totals.creditTotalMinor
  backed : ∀ row ∈ d.customerAccounts.rows, ∃ account,
    d.accounts.find row.ledgerAccountId = some account ∧ account.accountClass = .LIABILITY
  unique : ∀ row ∈ d.customerAccounts.rows, ∀ row' ∈ d.customerAccounts.rows,
    row.identity = row'.identity → row = row'

/-- The accounts that the migrations create and the operations rely on. -/
def RequiredAccounts (d : LedgerStore) : Prop :=
  ∀ type ∈ [SystemAccountType.PLATFORM_SETTLEMENT_ASSET, .CUSTOMER_FUNDS_LIABILITY_CONTROL],
    ∃ account ∈ d.accounts.rows, account.systemAccountType = some type

/-- Customer accounts have the currency of their ledger accounts. -/
def OneCurrency (d : LedgerStore) : Prop := ∀ row ∈ d.customerAccounts.rows, ∀ account,
  d.accounts.find row.ledgerAccountId = some account → account.currency = row.currency

/-- The foreign keys of the tables. -/
structure ForeignKeys (d : LedgerStore) : Prop where
  postings : ∀ p ∈ d.postings.rows, (∃ entry, d.entries.find p.journalEntryId = some entry) ∧
    ∃ account, d.accounts.find p.ledgerAccountId = some account
  projections : ∀ p ∈ d.projections.rows, ∃ account, d.accounts.find p.ledgerAccountId = some account
  customerAccounts : ∀ row ∈ d.customerAccounts.rows, ∃ account,
    d.accounts.find row.ledgerAccountId = some account

/-! ## What the checks find -/

section Checks

variable {d : LedgerStore}

theorem limited_eq_nil {query : LedgerStore → List String} : limited query d = [] ↔ query d = [] := by
  unfold limited
  rw [List.map_eq_nil_iff, List.take_eq_nil_iff]
  exact or_iff_right (by decide)

theorem unbalancedJournals_eq_nil : unbalancedJournals d = [] ↔ ∀ entry ∈ d.entries.rows,
    2 ≤ (d.postingsOf entry.id).length ∧
      directionTotal ((d.postingsOf entry.id).map JournalPostingRow.toPosting) .DEBIT =
        directionTotal ((d.postingsOf entry.id).map JournalPostingRow.toPosting) .CREDIT := by
  unfold unbalancedJournals
  rw [List.map_eq_nil_iff, List.filter_eq_nil_iff]
  refine forall₂_congr fun entry _ => ?_
  simp only [decide_eq_true_eq, not_or, not_lt, not_not, List.length_map]

theorem postingCurrencyMismatches_eq_nil : postingCurrencyMismatches d = [] ↔
    ∀ p ∈ d.postings.rows, ∀ entry account, d.entries.find p.journalEntryId = some entry →
      d.accounts.find p.ledgerAccountId = some account →
      p.currency = entry.currency ∧ p.currency = account.currency := by
  unfold postingCurrencyMismatches
  rw [List.filterMap_eq_nil_iff]
  refine forall₂_congr fun p _ => ?_
  cases hentry : d.entries.find p.journalEntryId with
  | none => simp
  | some entry =>
    cases haccount : d.accounts.find p.ledgerAccountId with
    | none | some => simp

theorem nonPositivePostings_eq_nil : nonPositivePostings d = [] ↔ ∀ p ∈ d.postings.rows,
    ∀ entry, d.entries.find p.journalEntryId = some entry → 0 < p.amountMinor := by
  unfold nonPositivePostings
  rw [List.filterMap_eq_nil_iff]
  refine forall₂_congr fun p _ => ?_
  cases hentry : d.entries.find p.journalEntryId with
  | none | some => simp

theorem projectionDrifts_eq_nil : projectionDrifts d = [] ↔ ∀ account ∈ d.accounts.rows,
    ∀ projection, d.projections.find account.id = some projection →
      projection.totals = accountTotals d.lines account.id := by
  unfold projectionDrifts
  rw [List.filterMap_eq_nil_iff]
  refine forall₂_congr fun account _ => ?_
  cases hprojection : d.projections.find account.id with
  | none => simp
  | some projection => simp [Totals.ext_iff, accountTotals]

theorem missingProjections_eq_nil : missingProjections d = [] ↔ ∀ account ∈ d.accounts.rows,
    ∃ projection, d.projections.find account.id = some projection := by
  unfold missingProjections
  rw [List.map_eq_nil_iff, List.filter_eq_nil_iff]
  refine forall₂_congr fun account _ => ?_
  rw [Option.isNone_iff_eq_none, ← ne_eq, Option.ne_none_iff_exists']

theorem customerLedgerMismatches_eq_nil : customerLedgerMismatches d = [] ↔
    ∀ row ∈ d.customerAccounts.rows, ∃ account, d.accounts.find row.ledgerAccountId = some account ∧
      account.accountClass = .LIABILITY ∧ account.currency = row.currency := by
  unfold customerLedgerMismatches
  rw [List.map_eq_nil_iff, List.filter_eq_nil_iff]
  refine forall₂_congr fun row _ => ?_
  cases haccount : d.accounts.find row.ledgerAccountId with
  | none | some => simp

theorem negativeCustomerBalances_eq_nil : negativeCustomerBalances d = [] ↔
    ∀ row ∈ d.customerAccounts.rows, ∀ account projection,
      d.accounts.find row.ledgerAccountId = some account →
      d.projections.find row.ledgerAccountId = some projection →
      0 ≤ projection.totals.creditTotalMinor - projection.totals.debitTotalMinor := by
  unfold negativeCustomerBalances
  rw [List.filterMap_eq_nil_iff]
  refine forall₂_congr fun row _ => ?_
  cases haccount : d.accounts.find row.ledgerAccountId with
  | none => simp
  | some account =>
    cases hprojection : d.projections.find row.ledgerAccountId with
    | none | some => simp

theorem duplicateDefaultAccounts_eq_nil : duplicateDefaultAccounts d = [] ↔
    ∀ row ∈ d.customerAccounts.rows, ∀ row' ∈ d.customerAccounts.rows,
      row.identity = row'.identity → row = row' := by
  have hnodup : d.customerAccounts.rows.Nodup := List.Nodup.of_map _ d.customerAccounts.nodup_keys
  have hcount : ∀ identity, d.customerAccounts.rows.countP (fun row => row.identity = identity) =
      (d.customerAccounts.rows.filter fun row => row.identity = identity).length :=
    fun identity => List.countP_eq_length_filter
  unfold duplicateDefaultAccounts
  rw [List.filterMap_eq_nil_iff]
  constructor
  · intro h row hrow row' hrow' hidentity
    by_contra hne
    -- both rows are in the group
    have hsub : [row, row'] ⊆ d.customerAccounts.rows.filter fun r => r.identity = row.identity := by
      intro r hr
      rcases List.mem_pair.mp hr with rfl | rfl
      · exact List.mem_filter.mpr ⟨hrow, decide_eq_true rfl⟩
      · exact List.mem_filter.mpr ⟨hrow', decide_eq_true hidentity.symm⟩
    have htwo : [row, row'].Nodup := by simpa using hne
    have hlength := (htwo.subperm hsub).length_le
    have hgroup := h row.identity (List.mem_filter.mpr
      ⟨List.mem_dedup.mpr (List.mem_map_of_mem hrow), by rw [hcount]; exact decide_eq_true hlength⟩)
    rw [List.head?_eq_none_iff, ← List.length_eq_zero_iff, List.length_insertionSort,
      List.length_map] at hgroup
    rw [hgroup, List.length_cons, List.length_singleton] at hlength
    omega
  · intro h identity hidentity
    obtain ⟨-, htwo⟩ := List.mem_filter.mp hidentity
    rw [hcount, decide_eq_true_eq] at htwo
    have hgroup := hnodup.filter fun row => row.identity = identity
    have hmem : ∀ r ∈ d.customerAccounts.rows.filter fun row => row.identity = identity,
        r ∈ d.customerAccounts.rows ∧ r.identity = identity := by
      intro r hr
      obtain ⟨hr, hrid⟩ := List.mem_filter.mp hr
      exact ⟨hr, of_decide_eq_true hrid⟩
    rcases hrows : d.customerAccounts.rows.filter fun row => row.identity = identity with
      _ | ⟨a, _ | ⟨b, rest⟩⟩
    · rw [hrows, List.length_nil] at htwo
      omega
    · rw [hrows, List.length_singleton] at htwo
      omega
    · rw [hrows] at hmem hgroup
      obtain ⟨ha, haid⟩ := hmem a List.mem_cons_self
      obtain ⟨hb, hbid⟩ := hmem b (List.mem_cons_of_mem a List.mem_cons_self)
      have heq := h a ha b hb (haid.trans hbid.symm)
      exact absurd (heq ▸ List.mem_cons_self) (List.nodup_cons.mp hgroup).1

theorem missingSystemAccount_of_required (h : RequiredAccounts d) : missingSystemAccount d = [] := by
  unfold missingSystemAccount
  refine if_neg (not_lt.mpr ?_)
  have hsub : [SystemAccountType.PLATFORM_SETTLEMENT_ASSET, .CUSTOMER_FUNDS_LIABILITY_CONTROL] ⊆
      (d.accounts.rows.filterMap LedgerAccountRow.systemAccountType).dedup := by
    intro type htype
    obtain ⟨account, haccount, heq⟩ := h type htype
    exact List.mem_dedup.mpr (List.mem_filterMap.mpr ⟨account, haccount, heq⟩)
  have htwo : [SystemAccountType.PLATFORM_SETTLEMENT_ASSET,
      .CUSTOMER_FUNDS_LIABILITY_CONTROL].Nodup := by decide
  exact (htwo.subperm hsub).length_le

/-- No account is an agent's float. -/
def NoFloat (d : LedgerStore) : Prop :=
  ∀ account ∈ d.accounts.rows, account.systemAccountType ≠ some .AGENT_FLOAT

/-- Without a float the two kinds of system accounts are the required ones. -/
theorem required_of_missingSystemAccount (hfloat : NoFloat d) (h : missingSystemAccount d = []) :
    RequiredAccounts d := by
  unfold missingSystemAccount at h
  split_ifs at h with hlength
  intro type htype
  by_contra hmissing
  -- the other required type is the only one left
  have hothers : ∀ t ∈ (d.accounts.rows.filterMap LedgerAccountRow.systemAccountType).dedup,
      t ≠ type ∧ t ≠ .AGENT_FLOAT := by
    intro t ht
    obtain ⟨account, haccount, heq⟩ := List.mem_filterMap.mp (List.mem_dedup.mp ht)
    refine ⟨?_, ?_⟩
    · rintro rfl
      exact hmissing ⟨account, haccount, heq⟩
    · rintro rfl
      exact hfloat account haccount heq
  have hone : ∃ other, (d.accounts.rows.filterMap LedgerAccountRow.systemAccountType).dedup ⊆
      [other] := by
    rcases List.mem_pair.mp htype with rfl | rfl
    · refine ⟨.CUSTOMER_FUNDS_LIABILITY_CONTROL, fun t ht => ?_⟩
      obtain ⟨hne, hfloat⟩ := hothers t ht
      cases t
      · exact absurd rfl hne
      · exact List.mem_cons_self
      · exact absurd rfl hfloat
    · refine ⟨.PLATFORM_SETTLEMENT_ASSET, fun t ht => ?_⟩
      obtain ⟨hne, hfloat⟩ := hothers t ht
      cases t
      · exact List.mem_cons_self
      · exact absurd rfl hne
      · exact absurd rfl hfloat
  obtain ⟨other, hsub⟩ := hone
  exact hlength (Nat.lt_succ_of_le ((List.nodup_dedup _).subperm hsub).length_le)

/-! ## Both directions -/

/-- Where the books are in order, no check finds anything. -/
theorem checks_complete (hbooks : Books d) (hcurrency : OneCurrency d) (hsystem : RequiredAccounts d) :
    ∀ check ∈ reconciliationChecks, check.2 d = [] := by
  have hliability : ∀ row ∈ d.customerAccounts.rows, ∀ account,
      d.accounts.find row.ledgerAccountId = some account → account.accountClass = .LIABILITY := by
    intro row hrow account haccount
    obtain ⟨found, hfound, hclass⟩ := hbooks.backed row hrow
    obtain rfl := Option.some.inj (hfound.symm.trans haccount)
    exact hclass
  simp only [reconciliationChecks, List.mem_cons, List.not_mem_nil, or_false, forall_eq_or_imp,
    forall_eq, limited_eq_nil]
  refine ⟨unbalancedJournals_eq_nil.mpr fun entry hentry => ?_,
    postingCurrencyMismatches_eq_nil.mpr fun p hp entry account hentry haccount => ?_,
    nonPositivePostings_eq_nil.mpr fun p hp entry hentry => ?_,
    projectionDrifts_eq_nil.mpr fun account haccount projection hprojection => ?_,
    missingProjections_eq_nil.mpr fun account haccount => ?_,
    customerLedgerMismatches_eq_nil.mpr fun row hrow => ?_,
    duplicateDefaultAccounts_eq_nil.mpr hbooks.unique,
    negativeCustomerBalances_eq_nil.mpr fun row hrow account projection haccount hprojection => ?_,
    missingSystemAccount_of_required hsystem⟩
  · exact ⟨(hbooks.journals entry hentry).two, (hbooks.journals entry hentry).balanced⟩
  · obtain ⟨hmem, hkey⟩ := Table.find_some hentry
    have hsound := hbooks.journals entry hmem
    have hp : p ∈ d.postingsOf entry.id := List.mem_filter.mpr ⟨hp, decide_eq_true hkey.symm⟩
    obtain ⟨found, hfound, hcurrency⟩ := hsound.accounts p hp
    obtain rfl := Option.some.inj (hfound.symm.trans haccount)
    exact ⟨hsound.currency p hp, (hsound.currency p hp).trans hcurrency.symm⟩
  · obtain ⟨hmem, hkey⟩ := Table.find_some hentry
    exact (hbooks.journals entry hmem).positive p
      (List.mem_filter.mpr ⟨hp, decide_eq_true hkey.symm⟩)
  · obtain ⟨found, hfound, htotals⟩ := hbooks.projections account haccount
    obtain rfl := Option.some.inj (hfound.symm.trans hprojection)
    exact htotals
  · obtain ⟨projection, hprojection, -⟩ := hbooks.projections account haccount
    exact ⟨projection, hprojection⟩
  · obtain ⟨account, haccount, hclass⟩ := hbooks.backed row hrow
    exact ⟨account, haccount, hclass, hcurrency row hrow account haccount⟩
  · have hnonnegative := hbooks.nonnegative row hrow account projection haccount hprojection
    rwa [hliability row hrow account haccount, signedBalanceMinor, if_neg (by decide)] at hnonnegative

theorem directionTotal_perm {ps qs : List Posting} {direction : PostingDirection}
    (h : ps.Perm qs) : directionTotal ps direction = directionTotal qs direction :=
  ((h.filter _).map _).sum_eq

/-- Lines that balance within each group balance together. -/
theorem balanced_of_groups (ids : List String) {ps : List JournalPostingRow}
    (hids : ∀ p ∈ ps, p.journalEntryId ∈ ids)
    (h : ∀ id ∈ ids, directionTotal
      ((ps.filter fun p => p.journalEntryId = id).map JournalPostingRow.toPosting) .DEBIT =
        directionTotal
          ((ps.filter fun p => p.journalEntryId = id).map JournalPostingRow.toPosting) .CREDIT) :
    directionTotal (ps.map JournalPostingRow.toPosting) .DEBIT =
      directionTotal (ps.map JournalPostingRow.toPosting) .CREDIT := by
  induction ids generalizing ps with
  | nil =>
    obtain rfl : ps = [] := List.eq_nil_iff_forall_not_mem.mpr fun p hp => by cases hids p hp
    rfl
  | cons id ids ih =>
    have hsplit : ∀ direction, directionTotal (ps.map JournalPostingRow.toPosting) direction =
        directionTotal
          ((ps.filter fun p => p.journalEntryId = id).map JournalPostingRow.toPosting) direction +
        directionTotal
          ((ps.filter fun p => p.journalEntryId ≠ id).map JournalPostingRow.toPosting) direction := by
      intro direction
      have hperm := (List.filter_append_perm (fun p => decide (p.journalEntryId = id)) ps).map
        JournalPostingRow.toPosting
      rw [← directionTotal_perm hperm, List.map_append, directionTotal_append]
      simp only [decide_not]
    rw [hsplit, hsplit, h id List.mem_cons_self]
    congr 1
    refine ih (fun p hp => ?_) fun id' hid' => ?_
    · obtain ⟨hp, hne⟩ := List.mem_filter.mp hp
      exact (List.mem_cons.mp (hids p hp)).resolve_left (of_decide_eq_true hne)
    · rw [List.filter_filter]
      by_cases heq : id' = id
      · have hnone : (ps.filter fun p => decide (p.journalEntryId = id') &&
            decide (p.journalEntryId ≠ id)) = [] := by
          rw [List.filter_eq_nil_iff]
          intro p _ hboth
          simp only [Bool.and_eq_true, decide_eq_true_eq] at hboth
          exact hboth.2 (hboth.1.trans heq)
        rw [hnone]
        rfl
      · have hsame : (fun p : JournalPostingRow => decide (p.journalEntryId = id') &&
            decide (p.journalEntryId ≠ id)) = fun p => decide (p.journalEntryId = id') := by
          funext p
          by_cases hp : p.journalEntryId = id'
          · simp [hp, heq]
          · simp [hp]
        rw [hsame]
        exact h id' (List.mem_cons_of_mem id hid')

/-- Where no check finds anything, the books are in order. -/
theorem books_of_checks (hd : ForeignKeys d)
    (h : ∀ check ∈ reconciliationChecks, check.2 d = []) : Books d ∧ OneCurrency d := by
  simp only [reconciliationChecks, List.mem_cons, List.not_mem_nil, or_false, forall_eq_or_imp,
    forall_eq, limited_eq_nil, unbalancedJournals_eq_nil, postingCurrencyMismatches_eq_nil,
    nonPositivePostings_eq_nil, projectionDrifts_eq_nil, missingProjections_eq_nil,
    customerLedgerMismatches_eq_nil, duplicateDefaultAccounts_eq_nil,
    negativeCustomerBalances_eq_nil] at h
  obtain ⟨hbalanced, hcurrencies, hpositive, hdrift, hprojections, hbacked, hunique, hnonnegative, -⟩ := h
  have hentry : ∀ entry ∈ d.entries.rows, ∀ p ∈ d.postingsOf entry.id,
      p ∈ d.postings.rows ∧ d.entries.find p.journalEntryId = some entry := by
    intro entry hentry p hp
    obtain ⟨hp, hkey⟩ := List.mem_filter.mp hp
    rw [of_decide_eq_true hkey]
    exact ⟨hp, Table.find_of_mem hentry⟩
  refine ⟨⟨fun entry hmem => ?_, fun account haccount => ?_, ?_, ?_, ?_, hunique⟩, ?_⟩
  · refine ⟨(hbalanced entry hmem).1, fun p hp => ?_, fun p hp => ?_, fun p hp => ?_,
      (hbalanced entry hmem).2⟩
    · obtain ⟨hp, hfind⟩ := hentry entry hmem p hp
      exact hpositive p hp entry hfind
    · obtain ⟨hp, hfind⟩ := hentry entry hmem p hp
      obtain ⟨account, haccount⟩ := (hd.postings p hp).2
      exact (hcurrencies p hp entry account hfind haccount).1
    · obtain ⟨hp, hfind⟩ := hentry entry hmem p hp
      obtain ⟨account, haccount⟩ := (hd.postings p hp).2
      obtain ⟨hentryCurrency, haccountCurrency⟩ := hcurrencies p hp entry account hfind haccount
      exact ⟨account, haccount, haccountCurrency.symm.trans hentryCurrency⟩
  · obtain ⟨projection, hprojection⟩ := hprojections account haccount
    exact ⟨projection, hprojection, hdrift account haccount projection hprojection⟩
  · refine balanced_of_groups (d.entries.rows.map JournalEntryRow.id) (fun p hp => ?_) ?_
    · obtain ⟨entry, hfind⟩ := (hd.postings p hp).1
      obtain ⟨hmem, hkey⟩ := Table.find_some hfind
      exact List.mem_map.mpr ⟨entry, hmem, hkey⟩
    · intro id hid
      obtain ⟨entry, hmem, rfl⟩ := List.mem_map.mp hid
      exact (hbalanced entry hmem).2
  · intro row hrow account projection haccount hprojection
    obtain ⟨found, hfound, hclass, -⟩ := hbacked row hrow
    obtain rfl := Option.some.inj (hfound.symm.trans haccount)
    have hbalance := hnonnegative row hrow _ projection haccount hprojection
    rwa [hclass, signedBalanceMinor, if_neg (by decide)]
  · intro row hrow
    obtain ⟨account, haccount, hclass, -⟩ := hbacked row hrow
    exact ⟨account, haccount, hclass⟩
  · intro row hrow account haccount
    obtain ⟨found, hfound, -, hcurrency⟩ := hbacked row hrow
    obtain rfl := Option.some.inj (hfound.symm.trans haccount)
    exact hcurrency

end Checks

/-! ## A run on its own -/

/-- The answer of a call of reads that see these data, one after the other. -/
def answerOn {D L W E ε β α : Type*} : Client D L W E ε β α → List D → Option (Except ε α)
  | .ret a, [] => some (.ok a)
  | .throw e, [] => some (.error e)
  | .query next, d :: ds => answerOn (next d) ds
  | _, _ => none

/-- The reads of a run: four counts, the checks, and the row of the run. -/
def RECONCILIATION_READS : ℕ := 4 + reconciliationChecks.length + 1

/-- What the checks find on one state of the tables. -/
def collectIssues (d : LedgerStore) (checks : List (String × (LedgerStore → List (Option String))))
    (issues : List ReconciliationIssue) : List ReconciliationIssue :=
  checks.foldl (fun issues check => addIssues check.1 .ERROR issues (check.2 d)) issues

section Run

variable {d : LedgerDb} {code : String}
  {checks : List (String × (LedgerStore → List (Option String)))}
  {issues : List ReconciliationIssue} {rows : List (Option String)}

theorem answerOn_runChecks {T : Type} {f : List ReconciliationIssue → LedgerClient T}
    (ds : List LedgerDb) :
    answerOn ((runChecks checks issues).bind f) (List.replicate checks.length d ++ ds) =
      answerOn (f (collectIssues d.app checks issues)) ds := by
  induction checks generalizing issues with
  | nil => rfl
  | cons check checks ih => exact ih

/-- A run on one state of the tables reports what the checks find there. -/
theorem reconcile_given : answerOn reconcile (List.replicate RECONCILIATION_READS d) = some (.ok {
    status := reconciliationStatus (collectIssues d.app reconciliationChecks [])
    checkedJournalEntries := d.app.entries.rows.length
    checkedPostings := d.app.postings.rows.length
    checkedLedgerAccounts := d.app.accounts.rows.length
    checkedCustomerAccounts := d.app.customerAccounts.rows.length
    issueCount := (collectIssues d.app reconciliationChecks []).length
    issues := collectIssues d.app reconciliationChecks [] }) :=
  answerOn_runChecks [d]

theorem addIssues_errors (h : ∀ issue ∈ issues, issue.severity = .ERROR) :
    ∀ issue ∈ addIssues code .ERROR issues rows, issue.severity = .ERROR := by
  induction rows generalizing issues with
  | nil => exact h
  | cons row rows ih =>
    rw [addIssues]
    split_ifs
    · exact h
    · refine ih fun issue hissue => ?_
      rcases List.mem_append.mp hissue with hissue | hissue
      · exact h issue hissue
      · rw [List.mem_singleton.mp hissue]

theorem addIssues_eq_nil : addIssues code .ERROR issues rows = [] ↔ issues = [] ∧ rows = [] := by
  induction rows generalizing issues with
  | nil => simp [addIssues]
  | cons row rows ih =>
    rw [addIssues]
    split_ifs with hmax
    · have hne : issues ≠ [] := by
        rintro rfl
        exact absurd hmax (by decide)
      simp [hne]
    · rw [ih]
      simp

theorem collectIssues_errors {d : LedgerStore} (h : ∀ issue ∈ issues, issue.severity = .ERROR) :
    ∀ issue ∈ collectIssues d checks issues, issue.severity = .ERROR := by
  induction checks generalizing issues with
  | nil => exact h
  | cons check checks ih => exact ih (addIssues_errors h)

theorem collectIssues_eq_nil {d : LedgerStore} :
    collectIssues d checks issues = [] ↔ issues = [] ∧ ∀ check ∈ checks, check.2 d = [] := by
  induction checks generalizing issues with
  | nil => simp [collectIssues]
  | cons check checks ih =>
    show collectIssues d checks (addIssues check.1 .ERROR issues (check.2 d)) = [] ↔ _
    rw [ih, addIssues_eq_nil, List.forall_mem_cons, and_assoc]

/-- A run passes if no check finds anything. -/
theorem reconciliationStatus_pass {d : LedgerStore} :
    reconciliationStatus (collectIssues d checks []) = .PASS ↔ ∀ check ∈ checks, check.2 d = [] := by
  have herrors : ∀ issue ∈ collectIssues d checks [], issue.severity = .ERROR :=
    collectIssues_errors fun issue hissue => absurd hissue List.not_mem_nil
  have hnil : collectIssues d checks [] = [] ↔ ∀ check ∈ checks, check.2 d = [] :=
    collectIssues_eq_nil.trans (and_iff_right rfl)
  rw [← hnil]
  unfold reconciliationStatus
  constructor
  · intro hpass
    split_ifs at hpass with herror
    refine List.eq_nil_iff_forall_not_mem.mpr fun issue hissue => herror ?_
    exact List.any_eq_true.mpr ⟨issue, hissue, decide_eq_true (herrors issue hissue)⟩
  · intro hnone
    rw [hnone]
    rfl

end Run

/-! ## Runs beside the calls of the Ledger -/

/-- A call of the Ledger or a reconciliation. -/
inductive ServiceCall where
  | ledger (call : LedgerCall)
  | reconcile

/-- What a call of the service returns. -/
inductive ServiceResponse where
  | ledger (response : LedgerResponse)
  | reconciled (result : ReconciliationResult)

/-- The Ledger's calls and reconciliations, against a migrated database. -/
def ledgerService (runtime : Runtime) : LedgerCalls ServiceResponse ServiceCall where
  database := stored ledgerDatabase
  init := (ledger runtime).init
  call
    | .ledger call => ((ledger runtime).call call).bind fun response => .ret (.ledger response)
    | .reconcile => reconcile.bind fun result => .ret (.reconciled result)

/-- The contract of the calls: the books are kept, and customers' accounts stay sound. -/
def bookkeeping : Contract LedgerStore LedgerWrite where
  inv d _ := StoreInvariant d ∧ AccountsSound d ∧ RequiredAccounts d
  rely := Extends
  guar := Extends
  refl := storeContract.refl
  trans := storeContract.trans

/-- The contract of the calls with their records. -/
def serviceContract :
    Contract LedgerDb (StoredWrite LedgerWrite LedgerResponse) :=
  recordContract bookkeeping (fun _ _ _ _ => True) (fun _ => False) fun _ => True

section Bookkeeping

variable {d d' : LedgerStore} {runtime : Runtime}

theorem books_of_sound (hd : StoreInvariant d) (h : AccountsSound d) : Books d ∧ OneCurrency d := by
  refine ⟨⟨hd.journals, fun account haccount => ?_, hd.balanced, ?_, fun row hrow => ?_, h.unique⟩, ?_⟩
  · obtain ⟨projection, hfind, htotals, -⟩ := hd.accounts account haccount
    exact ⟨projection, hfind, htotals⟩
  · intro row hrow account projection haccount hprojection
    obtain ⟨found, hfound, -, -, hoverdraft⟩ := h.backed row hrow
    obtain rfl := Option.some.inj (hfound.symm.trans haccount)
    obtain ⟨hmem, hid⟩ := Table.find_some haccount
    obtain ⟨projection', hfind, -, hnonnegative⟩ := hd.accounts _ hmem
    have hid : found.id = row.ledgerAccountId := hid
    rw [hid, hprojection] at hfind
    obtain rfl := Option.some.inj hfind
    exact hnonnegative hoverdraft
  · obtain ⟨account, hfind, hclass, -⟩ := h.backed row hrow
    exact ⟨account, hfind, hclass⟩
  · intro row hrow account haccount
    obtain ⟨found, hfound, -, hcurrency, -⟩ := h.backed row hrow
    obtain rfl := Option.some.inj (hfound.symm.trans haccount)
    exact hcurrency

theorem RequiredAccounts.extends (h : RequiredAccounts d) (hextends : Extends d d') :
    RequiredAccounts d' := by
  intro type htype
  obtain ⟨account, hmem, heq⟩ := h type htype
  exact ⟨account, (Table.find_some (hextends.accounts _ _ (Table.find_of_mem hmem))).1, heq⟩

theorem AccountsSound.congr (h : AccountsSound d) (haccounts : d'.accounts = d.accounts)
    (hcustomers : d'.customerAccounts = d.customerAccounts) : AccountsSound d' := by
  constructor
  · rw [hcustomers]
    exact h.unique
  · rw [hcustomers, haccounts]
    exact h.backed
  · rw [hcustomers]
    exact h.owned
  · rw [hcustomers, haccounts]
    exact h.orphans

/-- The writes that create accounts. -/
def LedgerWrite.opensAccount : LedgerWrite → Bool
  | .createAccount _ | .createCustomerAccount _ => true
  | .createEntry _ | .createPosting _ | .updateProjection _ _ => false

variable {vs : List LedgerWrite}

theorem applyAll_accounts (h : ∀ w ∈ vs, w.opensAccount = false) :
    (ledgerDatabase.applyAll d vs).accounts = d.accounts ∧
      (ledgerDatabase.applyAll d vs).customerAccounts = d.customerAccounts := by
  induction vs generalizing d with
  | nil => exact ⟨rfl, rfl⟩
  | cons w vs ih =>
    have hw := h w List.mem_cons_self
    obtain ⟨haccounts, hcustomers⟩ := ih (d := applyWrite d w)
      fun w' hw' => h w' (List.mem_cons_of_mem w hw')
    rw [Database.applyAll_cons]
    cases w with
    | createAccount | createCustomerAccount => cases hw
    | createEntry | createPosting | updateProjection => exact ⟨haccounts, hcustomers⟩

/-- The transaction of `post` creates no account. -/
theorem opensAccount_journalRun {request : InternalJournalRequest} {correlationId : String}
    {actor : JournalActor} {postings : List Posting} {totalMinor : ℤ} {response : LedgerResponse}
    (h : (journalRun runtime request correlationId actor postings totalMinor).Yields vs response) :
    ∀ w ∈ vs, w.opensAccount = false := by
  obtain ⟨entry, rows, updates, rfl, -⟩ := journalRun_yields h
  intro w hw
  rw [journalWrites, List.cons_append, List.mem_cons, List.mem_append] at hw
  rcases hw with rfl | hw | hw
  · rfl
  · obtain ⟨posting, -, rfl⟩ := List.mem_map.mp hw
    rfl
  · obtain ⟨update, -, rfl⟩ := List.mem_map.mp hw
    rfl

theorem after_bookkeeping (h : bookkeeping.After d d') : storeContract.After d d' := by
  obtain ⟨hextends, log, hd, -⟩ := h
  exact ⟨hextends, log, hd⟩

/-- A commit that creates no account keeps the books. -/
theorem commits_bookkeeping {P : LedgerStore → Prop}
    (hcommits : Commits ledgerDatabase storeContract P vs d)
    (hvs : ∀ w ∈ vs, w.opensAccount = false) :
    Commits ledgerDatabase bookkeeping (fun _ => True) vs d := by
  rintro log ⟨hd, hsound, hsystem⟩ hdeferred
  obtain ⟨hinv, hextends, -⟩ := hcommits log hd hdeferred
  obtain ⟨haccounts, hcustomers⟩ := applyAll_accounts (d := d) hvs
  exact ⟨⟨hinv, hsound.congr haccounts hcustomers, hsystem.extends hextends⟩, hextends, trivial⟩

/-- A new account keeps the books. -/
theorem commits_bookkeeping_account {input : InternalProvisionDefaultAccountInput}
    {H : List LedgerLock} {value : LedgerResponse} (h : Provisioned input H d vs value) :
    Commits ledgerDatabase bookkeeping (fun _ => True) vs d := by
  rintro log ⟨hd, hsound, hsystem⟩ -
  cases h with
  | existing hfind hidentity => exact ⟨⟨hd, hsound, hsystem⟩, storeContract.refl d, trivial⟩
  | @created account row detail hnew hid =>
    have hcommits : Commits ledgerDatabase storeContract (fun _ => True)
        [.createAccount account, .createCustomerAccount row] d := commits_account hd hnew.fresh.2
    obtain ⟨hinv, hextends, -⟩ := hcommits [] hd rfl
    exact ⟨⟨hinv, hsound.create hnew, hsystem.extends hextends⟩, hextends, trivial⟩

end Bookkeeping

section Service

variable {runtime : Runtime} {d : LedgerDb}

/-- Every call of the Ledger keeps the books. -/
theorem wp_ledger (call : LedgerCall) : ((ledger runtime).call call).Wp (stored ledgerDatabase)
    serviceContract (fun _ _ => True) (fun _ _ => True) d := by
  cases call with
  | post request correlationId actor =>
    show (post runtime request correlationId actor).Wp _ _ _ _ _
    unfold post
    split
    · exact trivial
    next postings _ =>
      split
      · exact trivial
      next totalMinor hbalanced =>
        refine wp_answered (τ := bookkeeping) (fun _ _ h => h.1) fun a ha => ?_
        have hruns : Runs (journalRun runtime request correlationId actor postings totalMinor)
            (fun _ vs _ => Commits ledgerDatabase storeContract (fun _ => True) vs) [] [] a :=
          runs_journalRun hbalanced ha fun _ _ _ _ _ _ _ _ _ _ => trivial
        refine (Tx.Wp.contract (fun _ _ => after_bookkeeping) (Tx.Wp.yields hruns)).mono ?_
          fun _ _ h => h
        rintro H ws value d ⟨hcommits, vs, rfl, hyields⟩
        exact commits_bookkeeping hcommits (opensAccount_journalRun hyields)
  | provisionDefault input =>
    refine wp_answered (τ := bookkeeping) (fun _ _ h => h.1) fun a ha => ?_
    refine (Tx.Wp.contract (fun _ _ => after_bookkeeping) (runs_provisioned ha)).mono ?_ fun _ _ h => h
    rintro H vs value d ⟨-, hprovisioned⟩
    exact commits_bookkeeping_account hprovisioned

/-- The checks of a run find nothing, each at its own moment. -/
theorem wp_runChecks {checks : List (String × (LedgerStore → List (Option String)))}
    (hchecks : ∀ check ∈ checks, check ∈ reconciliationChecks) :
    (runChecks checks []).Wp (stored ledgerDatabase) serviceContract
      (fun issues _ => issues = []) (fun _ _ => True) d := by
  induction checks generalizing d with
  | nil => rfl
  | cons check checks ih =>
    refine fun d' hafter => ⟨trivial, ?_⟩
    beta_reduce
    obtain ⟨-, log, hd, hsound, hsystem⟩ := after_app hafter
    obtain ⟨hbooks, hcurrency⟩ := books_of_sound hd hsound
    have hnone := checks_complete hbooks hcurrency hsystem check (hchecks check List.mem_cons_self)
    rw [hnone]
    exact ih fun check' hcheck' => hchecks check' (List.mem_cons_of_mem check hcheck')

theorem wp_reconcile : reconcile.Wp (stored ledgerDatabase) serviceContract
    (fun result _ => result.status = .PASS) (fun _ _ => True) d := by
  refine fun d₁ _ => ⟨trivial, fun d₂ _ => ⟨trivial, fun d₃ _ => ⟨trivial, fun d₄ _ => ⟨trivial, ?_⟩⟩⟩⟩
  have hchecks : (runChecks reconciliationChecks []).Wp (stored ledgerDatabase) serviceContract
      (fun issues _ => issues = []) (fun _ _ => True) d₄ := wp_runChecks fun _ h => h
  show ((runChecks reconciliationChecks []).bind _).Wp _ _ _ _ _
  refine Client.wp_bind (hchecks.mono ?_ fun _ _ h => h)
  rintro issues d₅ rfl
  exact fun d₆ _ => ⟨trivial, rfl⟩

/-- The migrated database. -/
theorem service_init (h : (ledger runtime).init d) : serviceContract.inv d [] := by
  obtain ⟨hrecords, settlementId, controlId, hne, happ⟩ := h
  refine ⟨?_, fun k record hrecord => ?_, by simp, fun k => ?_⟩
  · rw [happ]
    refine ⟨storeInvariant_migrated hne, accountsSound_migrated hne, fun type htype => ?_⟩
    rw [accounts_migrated hne]
    rcases List.mem_pair.mp htype with rfl | rfl
    · exact ⟨_, List.mem_cons_self, rfl⟩
    · exact ⟨_, List.mem_cons_of_mem _ List.mem_cons_self, rfl⟩
  · rw [hrecords] at hrecord
    cases hrecord
  · rw [hrecords]
    rfl

/-- In every state that the Ledger's calls reach, customers' accounts are sound. -/
theorem accounts_sound {s} {C} (h : (ledger runtime).machine.Reachable C s) :
    AccountsSound s.db.app := by
  have hsound := Calls.sound (S := ledger runtime) (σ := serviceContract)
    (Q := fun _ _ _ => True) (R := fun _ _ _ => True) ?_ (fun _ _ _ _ _ _ => trivial)
    (fun _ _ _ _ _ _ => trivial) (fun d => service_init) (fun call d log _ => wp_ledger call) h
  · exact hsound.1.1.2.1
  · exact fun d d' hguar => ⟨hguar.1, fun k hk => absurd hk id, hguar.2.2⟩

/-- The status of a reconciliation that has returned. -/
def Passed : ServiceResponse → Prop
  | .reconciled result => result.status = .PASS
  | .ledger _ => True

/-- No reconciliation beside the calls of the Ledger fails. -/
theorem service_sound {s} {C} (h : (ledgerService runtime).machine.Reachable C s) :
    ∀ call response, (call, .client (.ret response)) ∈ s.procs → Passed response := by
  have hsound := Calls.sound (S := ledgerService runtime) (σ := serviceContract)
    (Q := fun _ response _ => Passed response) (R := fun _ _ _ => True) ?_
    (fun _ _ _ _ _ hpassed => hpassed) (fun _ _ _ _ _ _ => trivial) ?_ ?_ h
  · exact fun call response hmem => hsound.2 _ hmem
  · exact fun d d' hguar => ⟨hguar.1, fun k hk => absurd hk id, hguar.2.2⟩
  · intro d hd
    have hstart : (ledger runtime).init d := hd
    exact service_init hstart
  · rintro call d log -
    cases call with
    | ledger call => exact Client.wp_bind ((wp_ledger call).mono (fun _ _ _ => trivial) fun _ _ h => h)
    | reconcile => exact Client.wp_bind (wp_reconcile.mono (fun _ _ h => h) fun _ _ h => h)

end Service

/-! ## Soundness and completeness -/

/-- The books are in order and the required accounts exist. -/
def Reconciled (d : LedgerStore) : Prop := Books d ∧ RequiredAccounts d

/-- A run on one state of the tables passes only where the books are in order, each customer account
    in the currency of its ledger account, and does pass where the required accounts exist, too;
    without a float it passes only there. No run beside the calls of the Ledger fails. -/
theorem reconciliation_sound (runtime : Runtime) :
    (∀ d : LedgerDb, ForeignKeys d.app → ∃ result,
      answerOn reconcile (List.replicate RECONCILIATION_READS d) = some (.ok result) ∧
        (result.status = .PASS → Books d.app ∧ OneCurrency d.app) ∧
        (Reconciled d.app → OneCurrency d.app → result.status = .PASS) ∧
        (NoFloat d.app → (result.status = .PASS ↔ Reconciled d.app ∧ OneCurrency d.app))) ∧
      ∀ s, (ledgerService runtime).machine.Reachable Machine.always s → ∀ call result,
        (call, .client (.ret (.reconciled result))) ∈ s.procs → result.status = .PASS := by
  constructor
  · intro d hd
    have hsound : reconciliationStatus (collectIssues d.app reconciliationChecks []) = .PASS →
        Books d.app ∧ OneCurrency d.app :=
      fun hpass => books_of_checks hd (reconciliationStatus_pass.mp hpass)
    have hcomplete : Reconciled d.app → OneCurrency d.app →
        reconciliationStatus (collectIssues d.app reconciliationChecks []) = .PASS :=
      fun hbooks hcurrency =>
        reconciliationStatus_pass.mpr (checks_complete hbooks.1 hcurrency hbooks.2)
    refine ⟨_, reconcile_given, hsound, hcomplete, fun hfloat => ⟨fun hpass => ?_, fun h => ?_⟩⟩
    · obtain ⟨hbooks, hcurrency⟩ := hsound hpass
      have hnone := reconciliationStatus_pass.mp hpass
        ("MISSING_SYSTEM_ACCOUNT", missingSystemAccount) (by simp [reconciliationChecks])
      exact ⟨⟨hbooks, required_of_missingSystemAccount hfloat hnone⟩, hcurrency⟩
    · exact hcomplete h.1 h.2
  · exact fun s hs call result hmem => service_sound hs call _ hmem

/-- A store with one customer account. -/
def oneAccount (currency : String) : LedgerStore :=
  ledgerDatabase.applyAll (migratedStore "a1" "b2") [
    .createAccount {
      id := "c3"
      code := "CUST-AEGIS-ABCD-EFGH-2345"
      currency := "LKR"
      accountClass := .LIABILITY
      systemAccountType := none
      allowNegativeBalance := false },
    .createCustomerAccount {
      id := "d4"
      customerId := "customer-1"
      publicReference := "AEGIS-ABCD-EFGH-2345"
      maskedReference := "AEGIS-****-****-2345"
      productType := .TIER0_WALLET
      currency := currency
      status := .ACTIVE
      ledgerAccountId := "c3"
      createdAt := 0 }]

section OneAccount

variable (currency : String)

theorem oneAccount_customerAccounts : ∃ row, (oneAccount currency).customerAccounts.rows = [row] ∧
    row.ledgerAccountId = "c3" ∧ row.currency = currency := ⟨_, rfl, rfl, rfl⟩

theorem oneAccount_accounts : ∀ account ∈ (oneAccount currency).accounts.rows,
    (oneAccount currency).projections.find account.id = some (zeroProjection account.id) := by
  intro account haccount
  obtain ⟨c, hrows⟩ : ∃ c, (oneAccount currency).accounts.rows =
      [platformSettlement "a1", customerFundsControl "b2", c] ∧ c.id = "c3" := ⟨_, rfl, rfl⟩
  rw [hrows.1] at haccount
  rcases List.mem_cons.mp haccount with rfl | haccount
  · rfl
  · rcases List.mem_pair.mp haccount with rfl | rfl
    · rfl
    · rw [hrows.2]
      rfl

theorem oneAccount_foreignKeys : ForeignKeys (oneAccount currency) := by
  refine ⟨fun p hp => absurd hp List.not_mem_nil, fun p hp => ?_, fun row hrow => ?_⟩
  · have hrows : (oneAccount currency).projections.rows =
        [zeroProjection "a1", zeroProjection "b2", zeroProjection "c3"] := rfl
    rw [hrows] at hp
    rcases List.mem_cons.mp hp with rfl | hp
    · exact ⟨_, rfl⟩
    · rcases List.mem_pair.mp hp with rfl | rfl
      · exact ⟨_, rfl⟩
      · exact ⟨_, rfl⟩
  · obtain ⟨row', hrows, howner, -⟩ := oneAccount_customerAccounts currency
    rw [hrows] at hrow
    rw [List.mem_singleton.mp hrow, howner]
    exact ⟨_, rfl⟩

theorem oneAccount_reconciled : Reconciled (oneAccount currency) := by
  obtain ⟨row, hrows, howner, -⟩ := oneAccount_customerAccounts currency
  have hmem : ∀ r ∈ (oneAccount currency).customerAccounts.rows, r = row := by
    intro r hr
    rw [hrows] at hr
    exact List.mem_singleton.mp hr
  refine ⟨⟨fun entry hentry => absurd hentry List.not_mem_nil, fun account haccount => ?_, rfl,
    fun r hr account projection haccount hprojection => ?_, fun r hr => ?_,
    fun r hr r' hr' _ => (hmem r hr).trans (hmem r' hr').symm⟩, fun type htype => ?_⟩
  · exact ⟨_, oneAccount_accounts currency account haccount, rfl⟩
  · rw [hmem r hr, howner] at hprojection
    cases hprojection
    unfold signedBalanceMinor
    split_ifs <;> exact le_refl _
  · rw [hmem r hr, howner]
    exact ⟨_, rfl, rfl⟩
  · rcases List.mem_pair.mp htype with rfl | rfl
    · exact ⟨platformSettlement "a1", List.mem_cons_self, rfl⟩
    · exact ⟨customerFundsControl "b2", List.mem_cons_of_mem _ List.mem_cons_self, rfl⟩

end OneAccount

/-- A run on a store with one account, and reconciliations beside the Ledger's calls. -/
theorem reconciliation_sound_one : ∃ result,
    answerOn reconcile (List.replicate RECONCILIATION_READS
      { records := Table.empty, app := oneAccount "LKR" }) = some (.ok result) ∧
      result.status = .PASS := by
  obtain ⟨result, hresult, -, hpass, -⟩ := (reconciliation_sound plainRuntime).1
    { records := Table.empty, app := oneAccount "LKR" } (oneAccount_foreignKeys "LKR")
  refine ⟨result, hresult, hpass (oneAccount_reconciled "LKR") fun row hrow account haccount => ?_⟩
  obtain ⟨row', hrows, howner, hcurrency⟩ := oneAccount_customerAccounts "LKR"
  beta_reduce at hrow haccount
  rw [hrows] at hrow
  rw [List.mem_singleton.mp hrow, howner] at haccount
  rw [List.mem_singleton.mp hrow, hcurrency]
  cases haccount
  rfl

/-- An account in another currency than its ledger account is reported. -/
theorem reconciliation_currency : ¬ ∀ d : LedgerDb, ForeignKeys d.app →
    ∀ result, answerOn reconcile (List.replicate RECONCILIATION_READS d) = some (.ok result) →
      (result.status = .PASS ↔ Reconciled d.app) := by
  intro h
  have hpass := (h { records := Table.empty, app := oneAccount "USD" } (oneAccount_foreignKeys "USD")
    _ reconcile_given).mpr (oneAccount_reconciled "USD")
  rw [reconciliationStatus_pass] at hpass
  have hfound := hpass ("CUSTOMER_ACCOUNT_LEDGER_MISMATCH", limited customerLedgerMismatches)
    (by simp [reconciliationChecks])
  exact absurd hfound (by decide)

end AegisShield.Ledger
