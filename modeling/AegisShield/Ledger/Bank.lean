import AegisShield.Common.Bookkeeping
import AegisShield.Ledger.RequestIdentity
import AegisShield.Ledger.RunningBalance

/-!
# The Ledger as a bank

What the Ledger's calls do to the accounts and balances, whatever their interleaving, against the
double-entry books of `Common.Bookkeeping`: `JournalService.post` (`journal.service.ts`) books the
movement that its request asks for, `AccountService.provisionDefault` (`account.service.ts`) opens an
account or does nothing.

Results:
* `ledger_keeps_books`: the committed states are what the books make of the requests of the
  committed calls, in the order of the commits.
* `balances_as_asked`: every balance is the sum of what the requests of the committed calls ask, and
  the balances of each currency add up to nothing.
-/

namespace AegisShield.Ledger

open Common

/-! ## The books of a store -/

/-- The debits less the credits of a projection. -/
def Totals.net (totals : Totals) : ℤ := totals.debitTotalMinor - totals.creditTotalMinor

/-- The terms of an account. -/
def LedgerAccountRow.terms (account : LedgerAccountRow) : AccountTerms String where
  currency := account.currency
  debitNormal := account.accountClass ∈ DEBIT_POSITIVE_CLASSES
  overdraft := account.allowNegativeBalance

/-- The debits less the credits of an account, by its projection. -/
def LedgerStore.net (d : LedgerStore) (id : String) : ℤ :=
  ((d.projections.find id).map fun projection => projection.totals.net).getD 0

/-- The books that the accounts and projections of a store keep. -/
noncomputable def LedgerStore.books (d : LedgerStore) : AccountBooks String String where
  terms id := (d.accounts.find id).map LedgerAccountRow.terms
  balance := Finsupp.onFinset (d.projections.rows.map BalanceProjectionRow.ledgerAccountId).toFinset
    d.net fun id hid => by
      rw [List.mem_toFinset]
      by_contra hnot
      have hnone : d.projections.find id = none := Table.find_eq_none.mpr hnot
      rw [LedgerStore.net, hnone] at hid
      exact hid rfl

/-- A posting as a signed amount, debits positive. -/
def Posting.net (p : Posting) : ℤ :=
  match p.direction with
  | .DEBIT => p.amountMinor
  | .CREDIT => -p.amountMinor

/-- What some postings move. -/
noncomputable def movement (postings : List Posting) : String →₀ ℤ :=
  (postings.map fun p => Finsupp.single p.ledgerAccountId p.net).sum

section Movement

variable {ps : List Posting} {p : Posting} {id : String}

theorem movement_cons : movement (p :: ps) = Finsupp.single p.ledgerAccountId p.net + movement ps :=
  List.sum_cons

theorem movement_apply (ps : List Posting) (id : String) :
    movement ps id = (accountTotals ps id).net := by
  induction ps with
  | nil => rfl
  | cons p ps ih =>
    rw [movement_cons, Finsupp.add_apply, ih, Finsupp.single_apply]
    simp only [Totals.net, accountTotals, accountTotal_cons]
    by_cases hid : p.ledgerAccountId = id
    · cases hdirection : p.direction with
      | DEBIT | CREDIT => simp [hid, Posting.net, hdirection]; omega
    · simp [hid]

theorem sum_movement (ps : List Posting) : ((movement ps).sum fun _ amount => amount) =
    directionTotal ps .DEBIT - directionTotal ps .CREDIT := by
  induction ps with
  | nil => rfl
  | cons p ps ih =>
    rw [movement_cons, Finsupp.sum_add_index' (fun _ => rfl) (fun _ _ _ => rfl), ih,
      Finsupp.sum_single_index rfl]
    unfold directionTotal Posting.net
    cases hdirection : p.direction with
    | DEBIT | CREDIT => simp [hdirection]; omega

end Movement

/-! ## What a commit enters -/

section Steps

variable {d d' : LedgerStore} {entry : JournalEntryRow} {rows : List JournalPostingRow}
  {updates : List (String × Totals)} {id : String}

theorem books_balance (d : LedgerStore) (id : String) : d.books.balance id = d.net id :=
  rfl

theorem net_of_find {projection : BalanceProjectionRow}
    (h : d.projections.find id = some projection) :
    d.net id = projection.totals.net := by
  rw [LedgerStore.net, h]
  rfl

theorem signed_terms (account : LedgerAccountRow) (totals : Totals) :
    account.terms.signed totals.net = signedBalanceMinor account.accountClass
      totals.debitTotalMinor totals.creditTotalMinor := by
  unfold AccountTerms.signed LedgerAccountRow.terms signedBalanceMinor Totals.net
  by_cases hclass : account.accountClass ∈ DEBIT_POSITIVE_CLASSES
  · simp [hclass]
  · simp [hclass]

/-- The postings of a journal that fits, by the update of their account. -/
theorem JournalFits.update (h : JournalFits d entry rows updates)
    (hid : movement (rows.map JournalPostingRow.toPosting) id ≠ 0) :
    ∃ totals, (id, totals) ∈ updates := by
  by_contra hnone
  refine hid ?_
  have hout : ∀ direction,
      accountTotal (rows.map JournalPostingRow.toPosting) id direction = 0 := by
    intro direction
    refine accountTotal_eq_zero fun p hp heq => hnone ?_
    obtain ⟨q, hq, rfl⟩ := List.mem_map.mp hp
    obtain ⟨u, hu, hfst⟩ := List.mem_map.mp (h.posted q hq)
    exact ⟨u.2, by rw [← heq, ← hfst]; exact hu⟩
  rw [movement_apply, accountTotals, Totals.net, hout, hout, sub_self]

/-- An update adds what the postings move. -/
theorem JournalFits.net_update (h : JournalFits d entry rows updates) {totals : Totals}
    (hu : (id, totals) ∈ updates) :
    totals.net = d.net id + movement (rows.map JournalPostingRow.toPosting) id := by
  obtain ⟨account, projection, -, -, hprojection, hdebit, hcredit, -⟩ := h.updated _ hu
  rw [net_of_find hprojection, movement_apply]
  simp only [Totals.net, accountTotals] at hdebit hcredit ⊢
  omega

/-- The books admit a journal that fits. -/
theorem JournalFits.admits (h : JournalFits d entry rows updates) :
    d.books.Admits (movement (rows.map JournalPostingRow.toPosting)) := by
  refine ⟨?_, ⟨entry.currency, fun id hid => ?_⟩, fun id hid terms hterms => ?_⟩
  · rw [sum_movement, h.balanced, sub_self]
  · obtain ⟨totals, hu⟩ := h.update (Finsupp.mem_support_iff.mp hid)
    obtain ⟨account, -, hfind, hcurrency, -⟩ := h.updated _ hu
    show ((d.accounts.find id).map LedgerAccountRow.terms).map AccountTerms.currency = _
    rw [hfind]
    exact congrArg some hcurrency
  · obtain ⟨totals, hu⟩ := h.update (Finsupp.mem_support_iff.mp hid)
    obtain ⟨account, -, hfind, -, -, -, -, hfunds⟩ := h.updated _ hu
    obtain rfl : account.terms = terms := by
      have hsome : (d.accounts.find id).map LedgerAccountRow.terms = some terms := hterms
      rw [hfind] at hsome
      exact Option.some.inj hsome
    rw [Finsupp.add_apply, books_balance, ← h.net_update hu]
    intro hoverdraft
    rw [signed_terms]
    exact hfunds hoverdraft

/-- A journal that fits is a movement. -/
theorem books_journal (h : JournalFits d entry rows updates)
    (hposted : JournalPosted d d' entry rows updates) :
    AccountBooks.machine.step d.books (.move (movement (rows.map JournalPostingRow.toPosting))) =
      some d'.books := by
  refine AccountBooks.step_eq_some.mpr ⟨h.admits, AccountBooks.ext ?_ (Finsupp.ext fun id => ?_)⟩
  · funext id
    show (d.accounts.find id).map LedgerAccountRow.terms = (d'.accounts.find id).map _
    rw [hposted.accounts]
  · show (d.books.balance + movement _) id = d'.books.balance id
    rw [Finsupp.add_apply, books_balance, books_balance]
    by_cases hid : id ∈ updates.map Prod.fst
    · obtain ⟨u, hu, rfl⟩ := List.mem_map.mp hid
      obtain ⟨-, projection, -, -, hprojection, -⟩ := h.updated u hu
      have hfind := find_updateAll h.updates_nodup hu hprojection
      rw [← hposted.projections] at hfind
      rw [net_of_find hfind, ← h.net_update hu]
    · have hzero : movement (rows.map JournalPostingRow.toPosting) id = 0 := by
        by_contra hne
        obtain ⟨totals, hu⟩ := h.update hne
        exact hid (List.mem_map_of_mem hu)
      rw [hzero, add_zero, LedgerStore.net, LedgerStore.net, hposted.projections,
        find_updateAll_ne hid]

/-- A new ledger account is opened with its terms. -/
theorem books_account (hd : StoreInvariant d) (account : LedgerAccountRow)
    (hnew : d.accounts.find account.id = none) :
    AccountBooks.machine.step d.books (.openAccount account.id account.terms) =
      some (applyWrite d (.createAccount account)).books := by
  have hlegal : d.books.Legal (.openAccount account.id account.terms) := by
    show (d.accounts.find account.id).map LedgerAccountRow.terms = none
    rw [hnew]
    rfl
  refine AccountBooks.step_eq_some.mpr ⟨hlegal, AccountBooks.ext ?_ (Finsupp.ext fun id => ?_)⟩
  · funext id
    show _ = ((d.accounts.add account).find id).map LedgerAccountRow.terms
    by_cases hid : id = account.id
    · have hfind : (d.accounts.add account).find account.id = some account :=
        (Table.find_add hnew).trans (if_pos rfl)
      rw [hid, AccountBooks.terms_openAccount_self, hfind]
      rfl
    · rw [AccountBooks.terms_openAccount_of_ne hid,
        Table.find_add_ne (show key account ≠ id from Ne.symm hid)]
      rfl
  · have hnone : d.projections.find account.id = none := hd.owners _ hnew
    show d.net id = (((d.projections.add (zeroProjection account.id)).find id).map fun projection =>
      projection.totals.net).getD 0
    by_cases hid : account.id = id
    · have hfind : (d.projections.add (zeroProjection account.id)).find account.id =
          some (zeroProjection account.id) := (Table.find_add hnone).trans (if_pos rfl)
      rw [← hid, hfind, LedgerStore.net, hnone]
      rfl
    · rw [Table.find_add_ne (show key (zeroProjection account.id) ≠ id from hid)]
      rfl

end Steps

/-! ## The contract of the books -/

/-- The posting that a write inserts. -/
def LedgerWrite.posting : LedgerWrite → Option Posting
  | .createPosting row => some row.toPosting
  | _ => none

/-- The entry that the writes of a transaction stand for. -/
noncomputable def entriesOf : List LedgerWrite → List (BookEntry String String)
  | .createAccount account :: _ => [.openAccount account.id account.terms]
  | .createEntry _ :: ws => [.move (movement (ws.filterMap LedgerWrite.posting))]
  | _ => []

/-- The entries of the migrations. -/
def migratedEntries (settlementId controlId : String) : List (BookEntry String String) :=
  [.openAccount settlementId (platformSettlement settlementId).terms,
    .openAccount controlId (customerFundsControl controlId).terms]

/-- The books are what the commits make of those of the migrations. -/
def Kept (d : LedgerStore) (log : List (List LedgerWrite)) : Prop :=
  ∃ settlementId controlId, settlementId ≠ controlId ∧ AccountBooks.machine.run AccountBooks.empty
    (migratedEntries settlementId controlId ++ log.flatMap entriesOf) = some d.books

/-- The contract of the store with the books. -/
def bookContract : Contract LedgerStore LedgerWrite where
  inv d log := StoreInvariant d ∧ Kept d log
  rely := Extends
  guar := Extends
  refl := storeContract.refl
  trans := storeContract.trans

section Kept

variable {d d' : LedgerStore} {log : List (List LedgerWrite)} {ws : List LedgerWrite}
  {runtime : Runtime} {postings : List Posting}

theorem after_store (h : bookContract.After d d') : storeContract.After d d' :=
  ⟨h.1, h.2.imp fun _ hinv => hinv.1⟩

/-- A commit whose entries lead from books to books. -/
theorem Kept.commit (h : Kept d log)
    (hstep : AccountBooks.machine.run d.books (entriesOf ws) = some d'.books) :
    Kept d' (log ++ [ws]) := by
  obtain ⟨settlementId, controlId, hne, hrun⟩ := h
  refine ⟨settlementId, controlId, hne, ?_⟩
  rw [List.flatMap_append, List.flatMap_singleton, ← List.append_assoc]
  exact Machine.run_append hrun hstep

theorem entriesOf_journal (entry : JournalEntryRow) (rows : List JournalPostingRow)
    (updates : List (String × Totals)) : entriesOf (journalWrites entry rows updates) =
      [.move (movement (rows.map JournalPostingRow.toPosting))] := by
  have hrows : (rows.map LedgerWrite.createPosting).filterMap LedgerWrite.posting =
      rows.map JournalPostingRow.toPosting := by
    rw [List.filterMap_map]
    exact congrFun (List.filterMap_eq_map (f := JournalPostingRow.toPosting)) rows
  have hupdates : (updates.map fun u => LedgerWrite.updateProjection u.1 u.2).filterMap
      LedgerWrite.posting = [] := by
    rw [List.filterMap_map]
    exact List.filterMap_eq_nil_iff.mpr fun _ _ => rfl
  rw [journalWrites, List.cons_append, entriesOf, List.filterMap_append, hrows, hupdates,
    List.append_nil]

variable {value : LedgerResponse}

/-- A journal keeps the books. -/
theorem commits_journalled {totalMinor : ℤ} (h : Journalled postings totalMinor d ws value) :
    Commits ledgerDatabase bookContract (fun _ => True) ws d := by
  obtain ⟨hd, entry, rows, updates, rfl, hfits, -⟩ := h
  have hposted := applyAll_journal hfits
  rintro log ⟨-, hkept⟩ -
  refine ⟨⟨hd.journal hfits hposted, hkept.commit ?_⟩, hposted.extends hfits hd, trivial⟩
  rw [entriesOf_journal, Machine.run_singleton]
  exact books_journal hfits hposted

/-- A provisioned account keeps the books. -/
theorem commits_opened {input : InternalProvisionDefaultAccountInput} {H : List LedgerLock}
    (hd : StoreInvariant d) (h : Provisioned input H d ws value) :
    Commits ledgerDatabase bookContract (fun _ => True) ws d := by
  rintro log ⟨-, hkept⟩ hdeferred
  cases h with
  | existing hfind hidentity =>
    exact ⟨⟨hd, hkept.commit rfl⟩, storeContract.refl _, trivial⟩
  | @created account row detail hnew hid =>
    have hcommits : Commits ledgerDatabase storeContract (fun _ => True)
        [.createAccount account, .createCustomerAccount row] d := commits_account hd hnew.fresh.2
    obtain ⟨hinv, hextends, -⟩ := hcommits [] hd hdeferred
    refine ⟨⟨hinv, hkept.commit ?_⟩, hextends, trivial⟩
    rw [entriesOf, Machine.run_singleton]
    exact books_account hd account hnew.fresh.2

end Kept

/-! ## Refinement -/

/-- The terms of a customer's account. -/
def walletTerms (currency : String) : AccountTerms String where
  currency := currency
  debitNormal := false
  overdraft := false

/-- What a call asks of the books. -/
inductive Asked : LedgerCall → List (BookEntry String String) → Prop
  | post (request : InternalJournalRequest) (correlationId : String) (actor : JournalActor) :
      Asked (.post request correlationId actor) [.move (movement request.postings)]
  | existing (input : InternalProvisionDefaultAccountInput) : Asked (.provisionDefault input) []
  | opened (input : InternalProvisionDefaultAccountInput) (id : String) :
      Asked (.provisionDefault input) [.openAccount id (walletTerms input.currency)]

section Refinement

variable {runtime : Runtime} {s : LedgerState} {d : LedgerDb}
  {postings ps : List Posting} {input : InternalProvisionDefaultAccountInput}

/-- Merging postings does not change what they move. -/
theorem movement_normalised (h : normalisePostings ps = .ok postings) :
    movement postings = movement ps := by
  have htotal : ∀ id direction,
      accountTotal postings id direction = accountTotal ps id direction := by
    intro id direction
    rw [accountTotal_eq_lineTotal, accountTotal_eq_lineTotal, (normalisePostings_merged h).totals]
  ext id
  rw [movement_apply, movement_apply]
  simp only [Totals.net, accountTotals, htotal]

/-- The contract of the calls with the books. -/
def bookCallContract :
    Contract LedgerDb (StoredWrite LedgerWrite LedgerResponse) :=
  recordContract bookContract (fun _ _ _ _ => True) (fun _ => False) fun _ => True

theorem wp_keptCall (call : LedgerCall) : ((ledger runtime).call call).Wp (ledger runtime).database
    bookCallContract (fun _ _ => True) (fun _ _ => True) d := by
  cases call with
  | post request correlationId actor =>
    show (post runtime request correlationId actor).Wp _ _ _ _ _
    unfold post
    split
    · exact trivial
    · split
      · exact trivial
      next totalMinor hbalanced =>
        exact wp_answered (τ := bookContract) (fun _ _ h => h.1) fun a ha =>
          ((runs_journalled hbalanced ha).mono (fun _ _ _ _ h => commits_journalled h)
            fun _ _ h => h).contract fun _ _ => after_store
  | provisionDefault input =>
    exact wp_answered (τ := bookContract) (fun _ _ h => h.1) fun a ha => ((runs_provisioned ha).mono
      (fun _ _ _ _ h => commits_opened h.1 h.2) fun _ _ h => h).contract fun _ _ => after_store

theorem books_migrated {settlementId controlId : String} (h : settlementId ≠ controlId) :
    AccountBooks.machine.run AccountBooks.empty (migratedEntries settlementId controlId) =
      some (migratedStore settlementId controlId).books := by
  have hempty : AccountBooks.empty = emptyStore.books :=
    AccountBooks.ext rfl (Finsupp.ext fun _ => rfl)
  have hsettlement := books_account storeInvariant_empty (platformSettlement settlementId) rfl
  have hinv : StoreInvariant (applyWrite emptyStore
      (.createAccount (platformSettlement settlementId))) := storeInvariant_empty.createAccount rfl
  have hcontrol := books_account hinv (customerFundsControl controlId) (Table.find_add_ne h)
  rw [hempty, migratedEntries, Machine.run, Option.bind_eq_some_iff]
  refine ⟨_, hsettlement, ?_⟩
  rw [Machine.run_singleton]
  exact hcontrol

/-- The books are what the commits make of those of the migrations. -/
theorem kept_of_reachable (h : (ledger runtime).machine.Reachable Machine.always s) :
    Kept s.db.app ((s.log.map Prod.snd).map appWrites) := by
  refine (Calls.sound (σ := bookCallContract) (Q := fun _ _ _ => True) (R := fun _ _ _ => True)
    ?_ (fun _ _ _ _ _ _ => trivial) (fun _ _ _ _ _ _ => trivial) ?_ ?_ h).1.1.2
  · exact fun d d' hguar => ⟨hguar.1, fun k hk => absurd hk id, hguar.2.2⟩
  · rintro d ⟨hrecords, settlementId, controlId, hne, happ⟩
    refine ⟨⟨?_, settlementId, controlId, hne, ?_⟩, ?_, by simp, ?_⟩
    · rw [happ]
      exact storeInvariant_migrated hne
    · rw [happ]
      simpa using books_migrated hne
    · intro k record hrecord
      rw [hrecords] at hrecord
      cases hrecord
    · intro k
      rw [hrecords]
      rfl
  · exact fun call d log _ => wp_keptCall call

/-- A commit enters what its call asks. -/
theorem asked_of_mem (h : (ledger runtime).machine.Reachable Machine.always s) {call : LedgerCall}
    {ws : List (StoredWrite LedgerWrite LedgerResponse)} (hmem : (call, ws) ∈ s.log) :
    Asked call (entriesOf (appWrites ws)) := by
  obtain ⟨request, correlationId, actor, postings, totalMinor, response, rfl, hnormalised, hrun⟩ |
    ⟨input, response, rfl, hrun⟩ := yields_of_mem h hmem
  · obtain ⟨entry, rows, updates, hws, -, hpostings, -⟩ := journalRun_yields hrun
    rw [hws, entriesOf_journal, hpostings, movement_normalised hnormalised]
    exact .post request correlationId actor
  · obtain ⟨hws, -⟩ | ⟨account, row, detail, hws, -, -, hrows⟩ := provisionRun_yields hrun
    · rw [hws]
      exact .existing input
    · have hterms : account.terms = walletTerms input.currency := by
        unfold LedgerAccountRow.terms walletTerms
        rw [hrows.liability, hrows.overdraft, hrows.currency]
        rfl
      rw [hws, entriesOf, hterms]
      exact .opened input account.id

/-- **The Ledger keeps the books of what was asked of it.** In every committed state, whatever the
    interleaving of calls, the accounts and balances are what legal entries, one for each commit and
    in the order of the commits, make of empty books; the entry of a commit is the movement that its
    request asks for, or the account that it opens. -/
theorem ledger_keeps_books (h : (ledger runtime).machine.Reachable Machine.always s) :
    ∃ settlementId controlId entries, settlementId ≠ controlId ∧
      List.Forall₂ (fun commit asked => Asked commit.1 asked) s.log entries ∧
      AccountBooks.machine.run AccountBooks.empty
        (migratedEntries settlementId controlId ++ entries.flatten) = some s.db.app.books := by
  obtain ⟨settlementId, controlId, hne, hrun⟩ := kept_of_reachable h
  refine ⟨settlementId, controlId, s.log.map fun commit => entriesOf (appWrites commit.2), hne,
    ?_, ?_⟩
  · rw [List.forall₂_map_right_iff, List.forall₂_same]
    exact fun commit hmem => asked_of_mem h hmem
  · rw [List.map_map, List.flatMap_map, List.flatMap_def] at hrun
    exact hrun

end Refinement

/-- The Ledger before any call. -/
def freshLedger : LedgerState where
  db := { records := Table.empty, app := migratedStore "a1" "b2" }
  procs := []
  log := []

theorem freshLedger_init : (ledger plainRuntime).machine.init freshLedger :=
  ⟨⟨rfl, "a1", "b2", by decide, rfl⟩, rfl, rfl⟩

/-- The control account is funded by call `n`. -/
def fundingRun (n : ℕ) : List (Calls.Action Env LedgerCall) :=
  [.start funding, .next n .query, .next n .begin, .next n (.stmt (env "-")),
    .next n (.stmt (env "-")), .next n (.stmt (env "e1")), .next n (.stmt (env "p1")),
    .next n (.stmt (env "p2")), .next n (.stmt (env "-")), .next n (.stmt (env "-")),
    .next n (.stmt (env "-")), .next n .finish]

theorem ledger_keeps_books_funding :
    ∃ s, (ledger plainRuntime).machine.Reachable Machine.always s ∧ s.log.length = 1 ∧
      ∃ settlementId controlId entries, settlementId ≠ controlId ∧
        List.Forall₂ (fun commit asked => Asked commit.1 asked) s.log entries ∧
        AccountBooks.machine.run AccountBooks.empty
          (migratedEntries settlementId controlId ++ entries.flatten) = some s.db.app.books := by
  obtain ⟨s, hs, hlog⟩ := Machine.reachable_of_run (M := (ledger plainRuntime).machine)
    (fundingRun 0)
    (fun s => s.log.length = 1)
    freshLedger_init (by decide)
  exact ⟨s, hs, of_decide_eq_true hlog, ledger_keeps_books hs⟩

/-! ## What follows of the books -/

/-- What a call asks to be booked on an account, debits positive. -/
def LedgerCall.asks (call : LedgerCall) (id : String) : ℤ :=
  match call with
  | .post request _ _ => (accountTotals request.postings id).net
  | .provisionDefault _ => 0

section Audit

variable {runtime : Runtime} {s : LedgerState} {d : LedgerStore}

/-- The entries of a call move what it asks. -/
theorem asks_of_asked {call : LedgerCall} {entries : List (BookEntry String String)}
    (h : Asked call entries) (id : String) :
    (entries.map BookEntry.amounts).sum id = call.asks id := by
  cases h with
  | post request correlationId actor =>
    show (movement request.postings + 0) id = _
    rw [add_zero, movement_apply]
    rfl
  | existing | opened => rfl

/-- The books of a reachable state are reached by the system of the books. -/
theorem books_reachable (h : (ledger runtime).machine.Reachable Machine.always s) :
    AccountBooks.machine.Reachable Machine.always s.db.app.books := by
  obtain ⟨settlementId, controlId, -, hrun⟩ := kept_of_reachable h
  have hempty : (AccountBooks.machine : Machine (AccountBooks String String) _).Reachable
      Machine.always AccountBooks.empty := .init rfl
  exact hempty.path (Machine.path_of_run hrun)

/-- The holdings of a currency are the sum over the accounts of that currency. -/
theorem holdings_books (d : LedgerStore) (currency : String) :
    d.books.holdings currency =
      ((d.accounts.rows.filter fun a => a.currency = currency).map fun a => d.net a.id).sum := by
  have hids : ∀ id, d.books.currency id = some currency ↔
      id ∈ (d.accounts.rows.filter fun a => a.currency = currency).map LedgerAccountRow.id := by
    intro id
    show ((d.accounts.find id).map LedgerAccountRow.terms).map AccountTerms.currency = _ ↔ _
    simp only [Option.map_map, Option.map_eq_some_iff, List.mem_map, List.mem_filter,
      decide_eq_true_eq]
    constructor
    · rintro ⟨account, hfind, hcurrency⟩
      obtain ⟨hmem, hid⟩ := Table.find_some hfind
      exact ⟨account, ⟨hmem, hcurrency⟩, hid⟩
    · rintro ⟨account, ⟨hmem, hcurrency⟩, rfl⟩
      exact ⟨account, Table.find_of_mem hmem, hcurrency⟩
  have hnodup : ((d.accounts.rows.filter fun a => a.currency = currency).map
      LedgerAccountRow.id).Nodup :=
    d.accounts.nodup_keys.sublist (List.filter_sublist.map _)
  have hlist := List.sum_toFinset d.net hnodup
  rw [List.map_map] at hlist
  refine Eq.trans ?_ hlist
  unfold AccountBooks.holdings Finsupp.sum
  rw [← Finset.sum_filter]
  refine Finset.sum_subset (fun id hid => ?_) fun id hid hout => ?_
  · exact List.mem_toFinset.mpr ((hids id).mp (Finset.mem_filter.mp hid).2)
  · by_contra hne
    refine hout (Finset.mem_filter.mpr ⟨Finsupp.mem_support_iff.mpr hne, ?_⟩)
    exact (hids id).mpr (List.mem_toFinset.mp hid)

/-- What the entries of some commits move, all together. -/
theorem amounts_log {log : List (LedgerCall × List (StoredWrite LedgerWrite LedgerResponse))}
    (id : String) (h : ∀ commit ∈ log, Asked commit.1 (entriesOf (appWrites commit.2))) :
    ((log.flatMap fun commit => entriesOf (appWrites commit.2)).map BookEntry.amounts).sum id =
      (log.map fun commit => commit.1.asks id).sum := by
  induction log with
  | nil => rfl
  | cons commit log ih =>
    rw [List.forall_mem_cons] at h
    rw [List.flatMap_cons, List.map_append, List.sum_append, Finsupp.add_apply,
      asks_of_asked h.1, ih h.2, List.map_cons, List.sum_cons]

/-- **Every balance is the sum of what was asked.** In every committed state the debits less the
    credits of an account are what the requests of the committed calls book on it, all together, and
    those of all accounts of one currency add up to nothing. -/
theorem balances_as_asked (h : (ledger runtime).machine.Reachable Machine.always s) :
    (∀ id, s.db.app.net id = (s.log.map fun commit => commit.1.asks id).sum) ∧
      ∀ currency, ((s.db.app.accounts.rows.filter fun a => a.currency = currency).map
        fun a => s.db.app.net a.id).sum = 0 := by
  constructor
  · intro id
    obtain ⟨settlementId, controlId, -, hrun⟩ := kept_of_reachable h
    have hbalance := AccountBooks.balance_of_run hrun
    have hmigrated : ((migratedEntries settlementId controlId).map BookEntry.amounts).sum = 0 := by
      simp [migratedEntries, BookEntry.amounts]
    have hempty : (AccountBooks.empty : AccountBooks String String).balance = 0 := rfl
    rw [← books_balance, hbalance, List.map_append, List.sum_append, hempty, hmigrated, zero_add,
      zero_add, List.flatMap_map, List.flatMap_map]
    exact amounts_log id fun commit hmem => asked_of_mem h hmem
  · intro currency
    rw [← holdings_books]
    exact (AccountBooks.sound_of_reachable (books_reachable h)).conserved currency

end Audit

theorem balances_as_asked_funding :
    ∃ s, (ledger plainRuntime).machine.Reachable Machine.always s ∧ s.db.app.net "b2" = -400 ∧
      s.db.app.net "b2" = (s.log.map fun commit => commit.1.asks "b2").sum := by
  obtain ⟨s, hs, hnet⟩ := Machine.reachable_of_run (M := (ledger plainRuntime).machine)
    (fundingRun 0)
    (fun s => s.db.app.net "b2" = -400)
    freshLedger_init (by decide)
  exact ⟨s, hs, of_decide_eq_true hnet, (balances_as_asked hs).1 "b2"⟩

end AegisShield.Ledger
