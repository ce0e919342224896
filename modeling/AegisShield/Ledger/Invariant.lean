import AegisShield.Ledger.Accounts

/-!
# The invariant of the Ledger's store

Any number of calls of `JournalService.post` and `AccountService.provisionDefault` on a
migrated database, interleaved statement by statement, with any statement or commit
failing.

Results:
* `store_invariant`: every committed state keeps double-entry bookkeeping.
-/

namespace AegisShield.Ledger

open Common

/-- A call of the Ledger's controllers. -/
inductive LedgerCall where
  | post (request : InternalJournalRequest) (correlationId : String) (actor : JournalActor)
  | provisionDefault (input : InternalProvisionDefaultAccountInput)

/-- The tables before the migrations insert rows. -/
def emptyStore : LedgerStore where
  accounts := Table.empty
  projections := Table.empty
  customerAccounts := Table.empty
  entries := Table.empty
  postings := Table.empty

/-- The account `SYS-PLATFORM-SETTLEMENT-LKR` (`migration.sql`, line 290). -/
def platformSettlement (id : String) : LedgerAccountRow where
  id := id
  code := "SYS-PLATFORM-SETTLEMENT-LKR"
  currency := "LKR"
  accountClass := .ASSET
  systemAccountType := some .PLATFORM_SETTLEMENT_ASSET
  allowNegativeBalance := true

/-- The account `SYS-CUSTOMER-FUNDS-CONTROL-LKR` (`migration.sql`, line 291). -/
def customerFundsControl (id : String) : LedgerAccountRow where
  id := id
  code := "SYS-CUSTOMER-FUNDS-CONTROL-LKR"
  currency := "LKR"
  accountClass := .LIABILITY
  systemAccountType := some .CUSTOMER_FUNDS_LIABILITY_CONTROL
  allowNegativeBalance := true

/-- The tables after the migrations, with the generated identifiers. -/
def migratedStore (settlementId controlId : String) : LedgerStore :=
  ledgerDatabase.applyAll emptyStore [.createAccount (platformSettlement settlementId),
    .createAccount (customerFundsControl controlId)]

/-- The committed data and the calls of the Ledger. -/
abbrev LedgerState := LedgerCallsState LedgerResponse LedgerCall

/-- The Ledger: calls against a migrated database. -/
def ledger (runtime : Runtime) : LedgerCalls LedgerResponse LedgerCall where
  database := stored ledgerDatabase
  init d := d.records = Table.empty ∧ ∃ settlementId controlId, settlementId ≠ controlId ∧
    d.app = migratedStore settlementId controlId
  call
    | .post request correlationId actor => post runtime request correlationId actor
    | .provisionDefault input => provisionDefault runtime input

/-! ## Every call keeps the contract -/

/-- The contract of the calls: nothing is asked of the stored responses. -/
def ledgerContract :
    Contract LedgerDb (StoredWrite LedgerWrite LedgerResponse) :=
  recordContract storeContract (fun _ _ _ _ => True) (fun _ => False) fun _ => True

variable {runtime : Runtime} {s : LedgerState} {d : LedgerDb}

theorem storeInvariant_empty : StoreInvariant emptyStore := by
  constructor
  · intro entry hentry
    cases hentry
  · intro account haccount
    cases haccount
  · rfl
  · intro p hp
    cases hp
  · intro id hid
    rfl

theorem storeInvariant_migrated {settlementId controlId : String} (h : settlementId ≠ controlId) :
    StoreInvariant (migratedStore settlementId controlId) := by
  have hsettlement : StoreInvariant
      (applyWrite emptyStore (.createAccount (platformSettlement settlementId))) :=
    storeInvariant_empty.createAccount rfl
  refine hsettlement.createAccount ?_
  show ((Table.empty : Table LedgerAccountRow).add (platformSettlement settlementId)).find controlId = _
  rw [Table.find_add_ne (show key (platformSettlement settlementId) ≠ controlId from h)]
  rfl

/-- An idempotent call whose run keeps a contract that implies the invariant of the store. -/
theorem wp_answered {τ : Contract LedgerStore LedgerWrite}
    (hτ : ∀ a log, τ.inv a log → StoreInvariant a)
    {options : ExecuteOptions LedgerStore LedgerLock LedgerWrite Env LedgerResponse LedgerResponse}
    (hrun : ∀ a, StoreInvariant a → options.run.Wp ledgerDatabase τ
      (fun _ vs _ => Commits ledgerDatabase τ (fun _ => True) vs) (fun _ _ => True) [] [] a) :
    ((execute runtime options).bind fun outcome => .ret outcome.result).Wp (stored ledgerDatabase)
      (recordContract τ (fun _ _ _ _ => True) (fun _ => False) fun _ => True)
      (fun _ _ => True) (fun _ _ => True) d := by
  refine Client.wp_bind (Client.Wp.mono (fun _ _ _ => trivial) (fun _ _ _ => trivial)
    (wp_execute (fun _ _ _ _ _ _ h => h) trivial ?_))
  rintro a ⟨-, log, ha⟩
  exact hrun a (hτ a _ ha)

theorem wp_call (call : LedgerCall) : ((ledger runtime).call call).Wp (ledger runtime).database
    ledgerContract (fun _ _ => True) (fun _ _ => True) d := by
  cases call with
  | post request correlationId actor =>
    show (post runtime request correlationId actor).Wp _ _ _ _ _
    unfold post
    split
    · exact trivial
    · split
      · exact trivial
      next totalMinor hbalanced =>
        exact wp_answered (fun _ _ h => h) fun a ha =>
          runs_journalRun hbalanced ha fun _ _ _ _ _ _ _ _ _ _ => trivial
  | provisionDefault input => exact wp_answered (fun _ _ h => h) fun a ha => runs_provisionRun ha

/-- Every committed state keeps double-entry bookkeeping. -/
theorem store_invariant (h : (ledger runtime).machine.Reachable Machine.always s) :
    StoreInvariant s.db.app := by
  refine (Calls.sound (σ := ledgerContract) (Q := fun _ _ _ => True) (R := fun _ _ _ => True)
    ?_ (fun _ _ _ _ _ _ => trivial) (fun _ _ _ _ _ _ => trivial) ?_ ?_ h).1.1
  · exact fun d d' hguar => ⟨hguar.1, fun k hk => absurd hk id, hguar.2.2⟩
  · rintro d ⟨hrecords, settlementId, controlId, hne, happ⟩
    refine ⟨?_, ?_, by simp, ?_⟩
    · rw [happ]
      exact storeInvariant_migrated hne
    · intro k record hrecord
      rw [hrecords] at hrecord
      cases hrecord
    · intro k
      rw [hrecords]
      rfl
  · exact fun call d log _ => wp_call call

/-- A call that funds the customers' control account. -/
def funding : LedgerCall := .post
  { reference := some "funding-1"
    entryType := .SETTLEMENT_FUNDING
    currency := "LKR"
    description := none
    effectiveAt := none
    idempotencyKey := "funding-key-0001"
    postings := [{ ledgerAccountId := "a1", direction := .DEBIT, amountMinor := 400 },
      { ledgerAccountId := "b2", direction := .CREDIT, amountMinor := 100 },
      { ledgerAccountId := "b2", direction := .CREDIT, amountMinor := 300 }]
    metadata := none }
  "correlation-1" { type := .SYSTEM, id := "operator" }

/-- A call that opens an account. -/
def opening : LedgerCall := .provisionDefault
  { customerId := "customer-1", productType := .TIER0_WALLET, currency := "LKR",
    idempotencyKey := "opening-key-0001" }

/-- The identifiers, texts and times that the statements get. -/
def env (uuid : String) : Env := { uuid := uuid, random := "ABCD-EFGH-2345", now := 0 }

/-- A funding journal and a new account, with their statements interleaved. -/
theorem store_invariant_two : ∃ s, (ledger plainRuntime).machine.Reachable Machine.always s ∧
    StoreInvariant s.db.app ∧
    s.db.app.entries.rows.map (fun e => e.reference) = ["funding-1"] ∧
    s.db.app.projections.rows.map (fun p => (p.ledgerAccountId, p.totals)) =
      [("a1", ⟨400, 0⟩), ("b2", ⟨0, 400⟩), ("c3", ⟨0, 0⟩)] := by
  obtain ⟨s, hs, hrows⟩ := Machine.reachable_of_run (M := (ledger plainRuntime).machine)
    [.start funding, .start opening, .next 0 .query, .next 1 .query, .next 0 .begin, .next 1 .begin,
      .next 0 (.stmt (env "-")), .next 1 (.stmt (env "-")), .next 0 (.stmt (env "-")),
      .next 1 (.stmt (env "-")), .next 0 (.stmt (env "e1")), .next 1 (.stmt (env "-")),
      .next 0 (.stmt (env "p1")), .next 1 (.stmt (env "-")), .next 0 (.stmt (env "p2")),
      .next 1 (.stmt (env "c3")), .next 0 (.stmt (env "-")), .next 1 (.stmt (env "d4")),
      .next 0 (.stmt (env "-")), .next 1 (.stmt (env "-")), .next 0 (.stmt (env "-")),
      .next 1 (.stmt (env "-")), .next 1 .finish, .next 0 .finish]
    (fun s => s.db.app.entries.rows.map (fun e => e.reference) = ["funding-1"] ∧
      s.db.app.projections.rows.map (fun p => (p.ledgerAccountId, p.totals)) =
        [("a1", ⟨400, 0⟩), ("b2", ⟨0, 400⟩), ("c3", ⟨0, 0⟩)])
    (s := { db := { records := Table.empty, app := migratedStore "a1" "b2" }, procs := [], log := [] })
    ⟨⟨rfl, "a1", "b2", by decide, rfl⟩, rfl, rfl⟩ (by decide)
  exact ⟨s, hs, store_invariant hs, of_decide_eq_true hrows⟩

end AegisShield.Ledger
