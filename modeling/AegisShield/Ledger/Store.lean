import AegisShield.Common.Table
import AegisShield.Common.Transaction
import AegisShield.Ledger.Security

/-!
# The Ledger's tables

The rows of the Ledger's database (`schema.prisma`, `migration.sql`), the arithmetic of
`money.ts`, and the database as the transactions see it: what each write does, the
locks it needs, and the deferred trigger `assert_journal_integrity`. Amounts are
integers in minor units where the services exchange their decimal text.

Results:
* `StoreInvariant`: what double-entry bookkeeping asks of the tables.
* `StoreInvariant.journal`, `StoreInvariant.createAccount`: a journal that fits and a new
  account keep it.
* `integrity_of_invariant`: under the invariant the trigger has nothing to reject.
-/

namespace AegisShield.Ledger

open Common

/-! ## Money -/

/-- `LedgerAccountClass` (`schema.prisma`, lines 21-27). -/
inductive LedgerAccountClass where
  | ASSET
  | LIABILITY
  | EQUITY
  | REVENUE
  | EXPENSE
  deriving DecidableEq

/-- `PostingDirection` (`schema.prisma`, lines 34-37). -/
inductive PostingDirection where
  | DEBIT
  | CREDIT
  deriving DecidableEq

/-- `DEBIT_POSITIVE_CLASSES` (`money.ts`, lines 27-30). -/
def DEBIT_POSITIVE_CLASSES : List LedgerAccountClass := [.ASSET, .EXPENSE]

/-- `signedBalanceMinor` (`money.ts`, lines 39-47). -/
def signedBalanceMinor (accountClass : LedgerAccountClass)
    (debitTotalMinor creditTotalMinor : ℤ) : ℤ :=
  if accountClass ∈ DEBIT_POSITIVE_CLASSES then debitTotalMinor - creditTotalMinor
  else creditTotalMinor - debitTotalMinor

/-- The two totals of a projection. -/
@[ext]
structure Totals where
  debitTotalMinor : ℤ
  creditTotalMinor : ℤ
  deriving DecidableEq

/-- `applyDirection` (`money.ts`, lines 49-63). -/
def applyDirection (direction : PostingDirection) (amountMinor : ℤ) (totals : Totals) : Totals :=
  match direction with
  | .DEBIT => { totals with debitTotalMinor := totals.debitTotalMinor + amountMinor }
  | .CREDIT => { totals with creditTotalMinor := totals.creditTotalMinor + amountMinor }

/-- `parseMinorUnits` (`money.ts`, lines 12-17): at most 24 digits. -/
def parseMinorUnits (value : ℤ) : Except Thrown ℤ :=
  if value.natAbs < 10 ^ 24 then .ok value else .error .other

/-- A line of a journal. -/
structure Posting where
  ledgerAccountId : String
  direction : PostingDirection
  amountMinor : ℤ
  deriving DecidableEq

/-- The sum of the amounts in one direction. -/
def directionTotal (postings : List Posting) (direction : PostingDirection) : ℤ :=
  ((postings.filter fun p => p.direction = direction).map Posting.amountMinor).sum

/-- The sum of the amounts posted to an account in one direction. -/
def accountTotal (postings : List Posting) (id : String) (direction : PostingDirection) : ℤ :=
  directionTotal (postings.filter fun p => p.ledgerAccountId = id) direction

/-- The sums of the amounts posted to an account. -/
def accountTotals (postings : List Posting) (id : String) : Totals where
  debitTotalMinor := accountTotal postings id .DEBIT
  creditTotalMinor := accountTotal postings id .CREDIT

/-! ## Rows -/

/-- `SystemAccountType` (`schema.prisma`, lines 53-57). -/
inductive SystemAccountType where
  | PLATFORM_SETTLEMENT_ASSET
  | CUSTOMER_FUNDS_LIABILITY_CONTROL
  | AGENT_FLOAT
  deriving DecidableEq

/-- `LedgerAccount` (`schema.prisma`, lines 97-113). -/
structure LedgerAccountRow where
  id : String
  code : String
  currency : String
  accountClass : LedgerAccountClass
  systemAccountType : Option SystemAccountType
  allowNegativeBalance : Bool
  deriving DecidableEq

/-- `BalanceProjection` (`schema.prisma`, lines 159-168). -/
structure BalanceProjectionRow where
  ledgerAccountId : String
  totals : Totals
  version : ℕ
  deriving DecidableEq

/-- `AccountProductType` (`schema.prisma`, lines 11-13). -/
inductive AccountProductType where
  | TIER0_WALLET
  deriving DecidableEq

/-- `AccountStatus` (`schema.prisma`, lines 15-19). -/
inductive AccountStatus where
  | ACTIVE
  | FROZEN
  | CLOSED
  deriving DecidableEq

/-- `CustomerAccount` (`schema.prisma`, lines 77-93). -/
structure CustomerAccountRow where
  id : String
  customerId : String
  publicReference : String
  maskedReference : String
  productType : AccountProductType
  currency : String
  status : AccountStatus
  ledgerAccountId : String
  createdAt : ℤ
  deriving DecidableEq

/-- `JournalEntryType` (`schema.prisma`, lines 39-47). -/
inductive JournalEntryType where
  | ACCOUNT_ADJUSTMENT
  | SETTLEMENT_FUNDING
  | INTERNAL_TEST
  | CUSTOMER_TRANSFER
  | QR_PAYMENT
  | AGENT_CASH_IN
  | AGENT_CASH_OUT
  deriving DecidableEq

/-- `ActorType` (`schema.prisma`, lines 59-63). -/
inductive ActorType where
  | SERVICE
  | CUSTOMER
  | SYSTEM
  deriving DecidableEq

/-- `JournalEntry` (`schema.prisma`, lines 117-136). -/
structure JournalEntryRow where
  id : String
  reference : String
  entryType : JournalEntryType
  currency : String
  description : Option String
  correlationId : String
  effectiveAt : ℤ
  createdAt : ℤ
  createdByType : ActorType
  createdById : String
  metadata : Json

/-- `JournalPosting` (`schema.prisma`, lines 140-155). -/
structure JournalPostingRow extends Posting where
  id : String
  journalEntryId : String
  currency : String
  sequence : ℕ
  createdAt : ℤ
  deriving DecidableEq

instance : Keyed LedgerAccountRow String := ⟨LedgerAccountRow.id⟩
instance : Keyed BalanceProjectionRow String := ⟨BalanceProjectionRow.ledgerAccountId⟩
instance : Keyed CustomerAccountRow String := ⟨CustomerAccountRow.id⟩
instance : Keyed JournalEntryRow String := ⟨JournalEntryRow.id⟩
instance : Keyed JournalPostingRow String := ⟨JournalPostingRow.id⟩

/-- The Ledger's tables. -/
structure LedgerStore where
  accounts : Table LedgerAccountRow
  projections : Table BalanceProjectionRow
  customerAccounts : Table CustomerAccountRow
  entries : Table JournalEntryRow
  postings : Table JournalPostingRow

/-- The postings of a journal. -/
def LedgerStore.postingsOf (d : LedgerStore) (entryId : String) : List JournalPostingRow :=
  d.postings.rows.filter fun p => p.journalEntryId = entryId

/-- All journal lines. -/
def LedgerStore.lines (d : LedgerStore) : List Posting :=
  d.postings.rows.map JournalPostingRow.toPosting

/-! ## The database -/

/-- A row, an entry of a unique index, or an advisory lock. -/
inductive LedgerLock where
  | account (id : String)
  | accountCode (code : String)
  | projection (ledgerAccountId : String)
  | customerAccount (id : String)
  | publicReference (publicReference : String)
  | customerProduct (customerId : String) (productType : AccountProductType) (currency : String)
  | customerLedgerAccount (ledgerAccountId : String)
  | entry (id : String)
  | entryReference (reference : String)
  | posting (id : String)
  | postingSequence (journalEntryId : String) (sequence : ℕ)
  | advisory (key : String)
  deriving DecidableEq

/-- The writes of the Ledger's code. -/
inductive LedgerWrite where
  /-- With the trigger `bootstrap_balance_projection`. -/
  | createAccount (account : LedgerAccountRow)
  | createCustomerAccount (account : CustomerAccountRow)
  | createEntry (entry : JournalEntryRow)
  | createPosting (posting : JournalPostingRow)
  /-- With `version: { increment: 1 }`. -/
  | updateProjection (ledgerAccountId : String) (totals : Totals)

/-- The projection that `bootstrap_balance_projection` inserts. -/
def zeroProjection (ledgerAccountId : String) : BalanceProjectionRow where
  ledgerAccountId := ledgerAccountId
  totals := { debitTotalMinor := 0, creditTotalMinor := 0 }
  version := 0

/-- The update of a projection. -/
def updateProjection (projections : Table BalanceProjectionRow) (ledgerAccountId : String)
    (totals : Totals) : Table BalanceProjectionRow :=
  match projections.find ledgerAccountId with
  | none => projections
  | some projection =>
    projections.put { projection with totals := totals, version := projection.version + 1 }

/-- The tables after a write. -/
def applyWrite (d : LedgerStore) : LedgerWrite → LedgerStore
  | .createAccount account => { d with
      accounts := d.accounts.add account
      projections := d.projections.add (zeroProjection account.id) }
  | .createCustomerAccount account => { d with
      customerAccounts := d.customerAccounts.add account }
  | .createEntry entry => { d with entries := d.entries.add entry }
  | .createPosting posting => { d with postings := d.postings.add posting }
  | .updateProjection ledgerAccountId totals => { d with
      projections := updateProjection d.projections ledgerAccountId totals }

/-- The rows and index entries that a write locks. -/
def writeLocks : LedgerWrite → List LedgerLock
  | .createAccount account =>
    [.account account.id, .accountCode account.code, .projection account.id]
  | .createCustomerAccount account => [.customerAccount account.id,
      .publicReference account.publicReference,
      .customerProduct account.customerId account.productType account.currency,
      .customerLedgerAccount account.ledgerAccountId]
  | .createEntry entry => [.entry entry.id, .entryReference entry.reference]
  | .createPosting posting =>
    [.posting posting.id, .postingSequence posting.journalEntryId posting.sequence]
  | .updateProjection ledgerAccountId _ => [.projection ledgerAccountId]

/-- `assert_journal_integrity` (`migration.sql`, lines 187-248). -/
def assertJournalIntegrity (d : LedgerStore) (targetEntryId : String) : Bool :=
  match d.entries.find targetEntryId with
  | none => false
  | some entry =>
    let postings := d.postingsOf targetEntryId
    2 ≤ postings.length &&
      postings.all (fun p => p.currency = entry.currency) &&
      postings.all (fun p => match d.accounts.find p.ledgerAccountId with
        | none => true
        | some account => account.currency = p.currency) &&
      directionTotal (postings.map JournalPostingRow.toPosting) .DEBIT =
        directionTotal (postings.map JournalPostingRow.toPosting) .CREDIT

/-- The journal that a write makes the deferred trigger check. -/
def triggeredEntry : LedgerWrite → Option String
  | .createEntry entry => some entry.id
  | .createPosting posting => some posting.journalEntryId
  | .createAccount _ | .createCustomerAccount _ | .updateProjection _ _ => none

/-- The Ledger's database. -/
def ledgerDatabase : Database LedgerStore LedgerLock LedgerWrite Thrown where
  apply := applyWrite
  footprint := writeLocks
  deferred d ws := (ws.filterMap triggeredEntry).all (assertJournalIntegrity (ws.foldl applyWrite d))
  fault := .other

/-! ## The invariant -/

/-- A journal with at least two postings, all positive and in its currency, on accounts
    of its currency, and with equal debits and credits. -/
structure JournalSound (d : LedgerStore) (entry : JournalEntryRow) : Prop where
  two : 2 ≤ (d.postingsOf entry.id).length
  positive : ∀ p ∈ d.postingsOf entry.id, 0 < p.amountMinor
  currency : ∀ p ∈ d.postingsOf entry.id, p.currency = entry.currency
  accounts : ∀ p ∈ d.postingsOf entry.id, ∃ account,
    d.accounts.find p.ledgerAccountId = some account ∧ account.currency = entry.currency
  balanced : directionTotal ((d.postingsOf entry.id).map JournalPostingRow.toPosting) .DEBIT =
    directionTotal ((d.postingsOf entry.id).map JournalPostingRow.toPosting) .CREDIT

/-- Double-entry bookkeeping. -/
structure StoreInvariant (d : LedgerStore) : Prop where
  journals : ∀ entry ∈ d.entries.rows, JournalSound d entry
  /-- Every account has a projection with the sums of its postings, and an account
      without an overdraft allowance has no negative balance. -/
  accounts : ∀ account ∈ d.accounts.rows, ∃ projection,
    d.projections.find account.id = some projection ∧
      projection.totals = accountTotals d.lines account.id ∧
      (account.allowNegativeBalance = false → 0 ≤ signedBalanceMinor account.accountClass
        projection.totals.debitTotalMinor projection.totals.creditTotalMinor)
  balanced : directionTotal d.lines .DEBIT = directionTotal d.lines .CREDIT
  /-- The foreign keys of postings and projections. -/
  postings : ∀ p ∈ d.postings.rows, (∃ entry, d.entries.find p.journalEntryId = some entry) ∧
    ∃ account, d.accounts.find p.ledgerAccountId = some account
  owners : ∀ id, d.accounts.find id = none → d.projections.find id = none

/-! ## Sums of postings -/

section Sums

variable {ps qs : List Posting} {p : Posting} {id : String} {direction : PostingDirection}

@[simp] theorem directionTotal_append :
    directionTotal (ps ++ qs) direction = directionTotal ps direction + directionTotal qs direction := by
  unfold directionTotal
  rw [List.filter_append, List.map_append, List.sum_append]

@[simp] theorem accountTotal_append : accountTotal (ps ++ qs) id direction =
    accountTotal ps id direction + accountTotal qs id direction := by
  unfold accountTotal
  rw [List.filter_append, directionTotal_append]

theorem accountTotal_cons : accountTotal (p :: ps) id direction =
    (if p.ledgerAccountId = id ∧ p.direction = direction then p.amountMinor else 0) +
      accountTotal ps id direction := by
  unfold accountTotal directionTotal
  by_cases hid : p.ledgerAccountId = id
  · by_cases hdirection : p.direction = direction
    · simp [hid, hdirection]
    · simp [hid, hdirection]
  · simp [hid]

/-- What is posted to no account adds nothing. -/
theorem accountTotal_eq_zero (h : ∀ p ∈ ps, p.ledgerAccountId ≠ id) :
    accountTotal ps id direction = 0 := by
  unfold accountTotal
  rw [List.filter_eq_nil_iff.mpr fun p hp => by simpa using h p hp]
  rfl

end Sums

/-! ## What the writes do -/

section Writes

variable {d : LedgerStore} {ws : List LedgerWrite} {rows : List JournalPostingRow}
  {updates : List (String × Totals)} {id : String}

theorem applyAll_postings (hnew : ∀ p ∈ rows, d.postings.find p.id = none)
    (hnodup : (rows.map JournalPostingRow.id).Nodup) :
    ledgerDatabase.applyAll d (rows.map .createPosting) =
      { d with postings := (ledgerDatabase.applyAll d (rows.map .createPosting)).postings } ∧
      (ledgerDatabase.applyAll d (rows.map .createPosting)).postings.rows =
        d.postings.rows ++ rows := by
  induction rows generalizing d with
  | nil => simp
  | cons p rows ih =>
    rw [List.map_cons, List.nodup_cons] at hnodup
    have hp : d.postings.find (key p) = none := hnew p List.mem_cons_self
    have hrest : ∀ q ∈ rows, (d.postings.add p).find q.id = none := by
      intro q hq
      have hne : p.id ≠ q.id := fun heq => hnodup.1 (heq ▸ List.mem_map_of_mem hq)
      rw [Table.find_add_ne (show key p ≠ q.id from hne)]
      exact hnew q (List.mem_cons_of_mem p hq)
    obtain ⟨hstore, hrows⟩ := ih (d := { d with postings := d.postings.add p }) hrest hnodup.2
    rw [List.map_cons, Database.applyAll_cons]
    refine ⟨hstore, hrows.trans ?_⟩
    show (d.postings.add p).rows ++ rows = _
    rw [Table.rows_add hp, List.append_assoc, List.singleton_append]

variable {projections : Table BalanceProjectionRow} {totals : Totals}

theorem find_updateProjection_ne
    {k : String} (h : id ≠ k) : (updateProjection projections id totals).find k = projections.find k := by
  unfold updateProjection
  cases hfind : projections.find id with
  | none => rfl
  | some projection =>
    have hkey := Table.key_of_find hfind
    exact Table.find_put_ne fun heq => h (hkey.symm.trans heq)

variable {projection : BalanceProjectionRow}

theorem find_updateProjection (h : projections.find id = some projection) :
    (updateProjection projections id totals).find id =
      some { projection with totals := totals, version := projection.version + 1 } := by
  unfold updateProjection
  rw [h]
  have hkey := Table.key_of_find h
  subst hkey
  exact Table.find_put_self (r := { projection with totals := totals, version := _ }) h

/-- The projections after the updates of a journal. -/
def updateAll (projections : Table BalanceProjectionRow) (updates : List (String × Totals)) :
    Table BalanceProjectionRow :=
  updates.foldl (fun t u => updateProjection t u.1 u.2) projections

theorem applyAll_updates :
    ledgerDatabase.applyAll d (updates.map fun u => .updateProjection u.1 u.2) =
      { d with projections := updateAll d.projections updates } := by
  induction updates generalizing d with
  | nil => rfl
  | cons u updates ih => exact ih

theorem find_updateAll_ne
    (h : id ∉ updates.map Prod.fst) : (updateAll projections updates).find id = projections.find id := by
  induction updates generalizing projections with
  | nil => rfl
  | cons u updates ih =>
    rw [List.map_cons, List.mem_cons, not_or] at h
    show (updateAll (updateProjection projections u.1 u.2) updates).find id = _
    rw [ih h.2, find_updateProjection_ne (Ne.symm h.1)]

theorem find_updateAll (hnodup : (updates.map Prod.fst).Nodup)
    (hmem : (id, totals) ∈ updates) (h : projections.find id = some projection) :
    (updateAll projections updates).find id =
      some { projection with totals := totals, version := projection.version + 1 } := by
  induction updates generalizing projections with
  | nil => cases hmem
  | cons u updates ih =>
    rw [List.map_cons, List.nodup_cons] at hnodup
    show (updateAll (updateProjection projections u.1 u.2) updates).find id = _
    rcases List.mem_cons.mp hmem with rfl | hmem
    · rw [find_updateAll_ne hnodup.1, find_updateProjection h]
    · have hne : u.1 ≠ id := fun heq => hnodup.1 (heq ▸ List.mem_map_of_mem hmem)
      exact ih hnodup.2 hmem ((find_updateProjection_ne hne).trans h)

end Writes

/-! ## A journal keeps the invariant -/

section Journal

variable {d : LedgerStore} {entry : JournalEntryRow} {rows : List JournalPostingRow}
  {updates : List (String × Totals)} {id : String}

/-- The writes of a journal. -/
def journalWrites (entry : JournalEntryRow) (rows : List JournalPostingRow)
    (updates : List (String × Totals)) : List LedgerWrite :=
  .createEntry entry :: rows.map .createPosting ++ updates.map fun u => .updateProjection u.1 u.2

/-- A balanced journal of fresh rows with the updates that its postings ask for. -/
structure JournalFits (d : LedgerStore) (entry : JournalEntryRow) (rows : List JournalPostingRow)
    (updates : List (String × Totals)) : Prop where
  entry_new : d.entries.find entry.id = none
  rows_new : ∀ p ∈ rows, d.postings.find p.id = none
  rows_nodup : (rows.map JournalPostingRow.id).Nodup
  updates_nodup : (updates.map Prod.fst).Nodup
  journal : ∀ p ∈ rows, p.journalEntryId = entry.id ∧ p.currency = entry.currency ∧ 0 < p.amountMinor
  two : 2 ≤ rows.length
  balanced : directionTotal (rows.map JournalPostingRow.toPosting) .DEBIT =
    directionTotal (rows.map JournalPostingRow.toPosting) .CREDIT
  posted : ∀ p ∈ rows, p.ledgerAccountId ∈ updates.map Prod.fst
  updated : ∀ u ∈ updates, ∃ account projection, d.accounts.find u.1 = some account ∧
    account.currency = entry.currency ∧ d.projections.find u.1 = some projection ∧
    u.2.debitTotalMinor = projection.totals.debitTotalMinor +
      accountTotal (rows.map JournalPostingRow.toPosting) u.1 .DEBIT ∧
    u.2.creditTotalMinor = projection.totals.creditTotalMinor +
      accountTotal (rows.map JournalPostingRow.toPosting) u.1 .CREDIT ∧
    (account.allowNegativeBalance = false → 0 ≤ signedBalanceMinor account.accountClass
      u.2.debitTotalMinor u.2.creditTotalMinor)

/-- The tables after a journal. -/
structure JournalPosted (d d' : LedgerStore) (entry : JournalEntryRow)
    (rows : List JournalPostingRow) (updates : List (String × Totals)) : Prop where
  accounts : d'.accounts = d.accounts
  customerAccounts : d'.customerAccounts = d.customerAccounts
  projections : d'.projections = updateAll d.projections updates
  entries : d'.entries = d.entries.add entry
  postings : d'.postings.rows = d.postings.rows ++ rows

theorem applyAll_journal (h : JournalFits d entry rows updates) :
    JournalPosted d (ledgerDatabase.applyAll d (journalWrites entry rows updates)) entry rows
      updates := by
  obtain ⟨hstore, hrows⟩ := applyAll_postings (d := { d with entries := d.entries.add entry })
    h.rows_new h.rows_nodup
  unfold journalWrites
  rw [List.cons_append, Database.applyAll_cons, Database.applyAll_append, applyAll_updates]
  have haccounts := congrArg LedgerStore.accounts hstore
  have hcustomers := congrArg LedgerStore.customerAccounts hstore
  have hprojections := congrArg (fun d => updateAll d.projections updates) hstore
  have hentries := congrArg LedgerStore.entries hstore
  exact ⟨haccounts, hcustomers, hprojections, hentries, hrows⟩

variable {d' : LedgerStore}

/-- The postings of the earlier journals are still theirs, and those of the new one are its own. -/
theorem JournalPosted.postingsOf (h : JournalFits d entry rows updates) (hd : StoreInvariant d)
    (hposted : JournalPosted d d' entry rows updates) :
    (∀ other, d.entries.find other ≠ none → d'.postingsOf other = d.postingsOf other) ∧
      d'.postingsOf entry.id = rows := by
  unfold LedgerStore.postingsOf
  rw [hposted.postings]
  constructor
  · intro other hother
    have hne : entry.id ≠ other := fun heq => hother (heq ▸ h.entry_new)
    have hnone : rows.filter (fun p => p.journalEntryId = other) = [] := by
      rw [List.filter_eq_nil_iff]
      intro p hp
      simpa [(h.journal p hp).1] using hne
    rw [List.filter_append, hnone, List.append_nil]
  · have hold : d.postings.rows.filter (fun p => p.journalEntryId = entry.id) = [] := by
      rw [List.filter_eq_nil_iff]
      intro p hp hid
      obtain ⟨e, he⟩ := (hd.postings p hp).1
      rw [of_decide_eq_true hid, h.entry_new] at he
      cases he
    rw [List.filter_append, hold, List.nil_append, List.filter_eq_self]
    intro p hp
    simpa using (h.journal p hp).1

/-- A journal that fits keeps the invariant. -/
theorem StoreInvariant.journal (hd : StoreInvariant d) (h : JournalFits d entry rows updates)
    (hposted : JournalPosted d d' entry rows updates) : StoreInvariant d' := by
  obtain ⟨hold, hnew⟩ := hposted.postingsOf h hd
  have hlines : d'.lines = d.lines ++ rows.map JournalPostingRow.toPosting := by
    unfold LedgerStore.lines
    rw [hposted.postings, List.map_append]
  have hentries : d'.entries.rows = d.entries.rows ++ [entry] := by
    rw [hposted.entries, Table.rows_add h.entry_new]
  constructor
  · intro e he
    rw [hentries] at he
    rcases List.mem_append.mp he with he | he
    · have hsound := hd.journals e he
      have hpost := hold e.id fun hnone => by cases (Table.find_of_mem he).symm.trans hnone
      exact ⟨by rw [hpost]; exact hsound.two, by rw [hpost]; exact hsound.positive,
        by rw [hpost]; exact hsound.currency,
        by rw [hpost, hposted.accounts]; exact hsound.accounts, by rw [hpost]; exact hsound.balanced⟩
    · rw [List.mem_singleton.mp he]
      refine ⟨by rw [hnew]; exact h.two, ?_, ?_, ?_, by rw [hnew]; exact h.balanced⟩
      · rw [hnew]
        exact fun p hp => (h.journal p hp).2.2
      · rw [hnew]
        exact fun p hp => (h.journal p hp).2.1
      · rw [hnew]
        intro p hp
        obtain ⟨u, hu, hid⟩ := List.mem_map.mp (h.posted p hp)
        obtain ⟨account, -, hfind, hcurrency, -⟩ := h.updated u hu
        exact ⟨account, by rw [hposted.accounts, ← hid, hfind], hcurrency⟩
  · intro account haccount
    rw [hposted.accounts] at haccount
    obtain ⟨projection, hfind, htotals, hnonnegative⟩ := hd.accounts account haccount
    rw [hposted.projections, hlines]
    by_cases hid : account.id ∈ updates.map Prod.fst
    · obtain ⟨u, hu, huid⟩ := List.mem_map.mp hid
      obtain ⟨account', projection', hfind', -, hprojection', hdebit, hcredit, hfunds⟩ :=
        h.updated u hu
      rw [huid] at hfind' hprojection' hdebit hcredit
      obtain rfl : account = account' :=
        Option.some.inj ((Table.find_of_mem haccount).symm.trans hfind')
      obtain rfl : projection = projection' := Option.some.inj (hfind.symm.trans hprojection')
      refine ⟨_, find_updateAll h.updates_nodup (huid ▸ hu) hfind, ?_, hfunds⟩
      rw [htotals] at hdebit hcredit
      exact Totals.ext (by rw [hdebit]; simp [accountTotals]) (by rw [hcredit]; simp [accountTotals])
    · have hnone : ∀ direction,
          accountTotal (rows.map JournalPostingRow.toPosting) account.id direction = 0 := by
        intro direction
        refine accountTotal_eq_zero fun p hp heq => hid ?_
        obtain ⟨q, hq, rfl⟩ := List.mem_map.mp hp
        exact heq ▸ h.posted q hq
      refine ⟨projection, by rw [find_updateAll_ne hid, hfind], ?_, hnonnegative⟩
      rw [htotals]
      exact Totals.ext (by simp [accountTotals, hnone]) (by simp [accountTotals, hnone])
  · rw [hlines, directionTotal_append, directionTotal_append, hd.balanced, h.balanced]
  · intro p hp
    rw [hposted.postings] at hp
    rw [hposted.accounts, hposted.entries]
    rcases List.mem_append.mp hp with hp | hp
    · obtain ⟨⟨e, he⟩, haccount⟩ := hd.postings p hp
      exact ⟨⟨e, Table.find_add_of_some he⟩, haccount⟩
    · obtain ⟨u, hu, hid⟩ := List.mem_map.mp (h.posted p hp)
      obtain ⟨account, -, hfind, -⟩ := h.updated u hu
      refine ⟨⟨entry, ?_⟩, account, by rw [← hid, hfind]⟩
      rw [Table.find_add h.entry_new]
      exact if_pos (h.journal p hp).1.symm
  · intro id hid
    rw [hposted.accounts] at hid
    rw [hposted.projections, find_updateAll_ne, hd.owners id hid]
    intro hmem
    obtain ⟨u, hu, rfl⟩ := List.mem_map.mp hmem
    obtain ⟨account, -, hfind, -⟩ := h.updated u hu
    rw [hid] at hfind
    cases hfind

end Journal

/-! ## A new account keeps the invariant -/

section Account

variable {d : LedgerStore} {account : LedgerAccountRow}

theorem StoreInvariant.createAccount (hd : StoreInvariant d) (hnew : d.accounts.find account.id = none) :
    StoreInvariant (applyWrite d (.createAccount account)) := by
  have hkeep : ∀ {id found}, d.accounts.find id = some found →
      (d.accounts.add account).find id = some found := Table.find_add_of_some
  have hnone : ∀ direction, accountTotal d.lines account.id direction = 0 := by
    intro direction
    refine accountTotal_eq_zero fun p hp heq => ?_
    obtain ⟨q, hq, rfl⟩ := List.mem_map.mp hp
    obtain ⟨found, hfound⟩ := (hd.postings q hq).2
    rw [heq, hnew] at hfound
    cases hfound
  constructor
  · intro entry hentry
    have hsound := hd.journals entry hentry
    refine ⟨hsound.two, hsound.positive, hsound.currency, fun p hp => ?_, hsound.balanced⟩
    obtain ⟨found, hfound, hcurrency⟩ := hsound.accounts p hp
    exact ⟨found, hkeep hfound, hcurrency⟩
  · intro found hmem
    show ∃ projection, (d.projections.add (zeroProjection account.id)).find found.id = _ ∧ _
    have hprojection : d.projections.find (key (zeroProjection account.id)) = none :=
      hd.owners account.id hnew
    replace hmem : found ∈ d.accounts.rows ++ [account] := by
      rw [← Table.rows_add hnew]
      exact hmem
    rcases List.mem_append.mp hmem with hmem | hmem
    · obtain ⟨projection, hfind, hrest⟩ := hd.accounts found hmem
      exact ⟨projection, Table.find_add_of_some hfind, hrest⟩
    · rw [List.mem_singleton.mp hmem]
      refine ⟨zeroProjection account.id, ?_, ?_, fun _ => ?_⟩
      · rw [Table.find_add hprojection]
        exact if_pos rfl
      · exact Totals.ext (hnone .DEBIT).symm (hnone .CREDIT).symm
      · unfold signedBalanceMinor
        split_ifs <;> exact le_refl _
  · exact hd.balanced
  · intro p hp
    obtain ⟨hentry, found, hfound⟩ := hd.postings p hp
    exact ⟨hentry, found, hkeep hfound⟩
  · intro id hid
    show (d.projections.add (zeroProjection account.id)).find id = none
    have hne : account.id ≠ id := by
      rintro rfl
      have hfind : (d.accounts.add account).find account.id = some account := by
        rw [Table.find_add hnew]
        exact if_pos rfl
      cases hfind.symm.trans hid
    rw [Table.find_add_ne (show key (zeroProjection account.id) ≠ id from hne)]
    refine hd.owners id ?_
    rw [← hid]
    exact (Table.find_add_ne hne).symm

end Account

/-! ## What stays -/

/-- Accounts and journals are never changed or deleted. -/
structure Extends (d d' : LedgerStore) : Prop where
  accounts : ∀ id row, d.accounts.find id = some row → d'.accounts.find id = some row
  customerAccounts : ∀ id row, d.customerAccounts.find id = some row →
    d'.customerAccounts.find id = some row
  entries : ∀ id row, d.entries.find id = some row → d'.entries.find id = some row
  postingsOf : ∀ id row, d.entries.find id = some row → d'.postingsOf id = d.postingsOf id

/-- The contract of the Ledger's transactions. -/
def storeContract : Contract LedgerStore LedgerWrite where
  inv d _ := StoreInvariant d
  rely := Extends
  guar := Extends
  refl _ := ⟨fun _ _ h => h, fun _ _ h => h, fun _ _ h => h, fun _ _ _ => rfl⟩
  trans _ _ _ h h' := ⟨fun id row hrow => h'.accounts id row (h.accounts id row hrow),
    fun id row hrow => h'.customerAccounts id row (h.customerAccounts id row hrow),
    fun id row hrow => h'.entries id row (h.entries id row hrow), fun id row hrow =>
      (h'.postingsOf id row (h.entries id row hrow)).trans (h.postingsOf id row hrow)⟩

theorem JournalPosted.extends {d d' : LedgerStore} {entry : JournalEntryRow}
    {rows : List JournalPostingRow} {updates : List (String × Totals)}
    (h : JournalFits d entry rows updates) (hd : StoreInvariant d)
    (hposted : JournalPosted d d' entry rows updates) : Extends d d' where
  accounts id row hrow := by rw [hposted.accounts, hrow]
  customerAccounts id row hrow := by rw [hposted.customerAccounts, hrow]
  entries id row hrow := by
    rw [hposted.entries]
    exact Table.find_add_of_some hrow
  postingsOf id row hrow := (hposted.postingsOf h hd).1 id (by rw [hrow]; simp)

/-! ## What a lock protects -/

section Locked

variable {d d' : LedgerStore} {w : LedgerWrite} {H : List LedgerLock} {id : String}

theorem applyWrite_accounts (h : .account id ∉ writeLocks w) :
    (applyWrite d w).accounts.find id = d.accounts.find id := by
  cases w with
  | createAccount account => exact Table.find_add_ne fun heq => h (by simp [writeLocks, ← heq, key])
  | createCustomerAccount | createEntry | createPosting | updateProjection => rfl

theorem applyWrite_projections (h : .projection id ∉ writeLocks w) :
    (applyWrite d w).projections.find id = d.projections.find id := by
  cases w with
  | createAccount account =>
    exact Table.find_add_ne fun heq => h (by simp [writeLocks, ← heq, key, zeroProjection])
  | createCustomerAccount | createEntry | createPosting => rfl
  | updateProjection ledgerAccountId totals =>
    exact find_updateProjection_ne fun heq => h (by simp [writeLocks, heq])

theorem applyWrite_entries (h : .entry id ∉ writeLocks w) :
    (applyWrite d w).entries.find id = d.entries.find id := by
  cases w with
  | createAccount | createCustomerAccount | createPosting | updateProjection => rfl
  | createEntry entry => exact Table.find_add_ne fun heq => h (by simp [writeLocks, ← heq, key])

theorem applyWrite_postings (h : .posting id ∉ writeLocks w) :
    (applyWrite d w).postings.find id = d.postings.find id := by
  cases w with
  | createAccount | createCustomerAccount | createEntry | updateProjection => rfl
  | createPosting posting =>
    exact Table.find_add_ne fun heq => h (by simp [writeLocks, ← heq, key])

/-- What a lock protects is the same after the commits of others. -/
theorem Outside.locked {T : Type} (read : LedgerStore → T) {lock : LedgerLock} (hlock : lock ∈ H)
    (hread : ∀ d w, lock ∉ writeLocks w → read (applyWrite d w) = read d)
    (h : ledgerDatabase.Outside H d d') : read d' = read d :=
  h.keeps (P := fun d' => read d' = read d)
    (fun d₁ w hw hd₁ => (hread d₁ w fun hmem => hw lock hmem hlock).trans hd₁) rfl

end Locked

/-! ## The deferred trigger -/

/-- Where the invariant holds the trigger accepts every journal. -/
theorem integrity_of_invariant {d : LedgerStore} (hd : StoreInvariant d) {id : String}
    {entry : JournalEntryRow} (h : d.entries.find id = some entry) :
    assertJournalIntegrity d id = true := by
  obtain ⟨hmem, rfl⟩ := Table.find_some h
  have hsound := hd.journals entry hmem
  unfold assertJournalIntegrity
  rw [h]
  simp only [Bool.and_eq_true, decide_eq_true_eq, List.all_eq_true]
  refine ⟨⟨⟨hsound.two, hsound.currency⟩, fun p hp => ?_⟩, hsound.balanced⟩
  obtain ⟨account, hfind, hcurrency⟩ := hsound.accounts p hp
  rw [hfind]
  exact decide_eq_true (hcurrency.trans (hsound.currency p hp).symm)

end AegisShield.Ledger
