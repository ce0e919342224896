import AegisShield.Ledger.ExactlyOnce
import AegisShield.Ledger.Invariant

/-!
# Provisioning is unique

Any number of calls of `AccountService.provisionDefault`, interleaved statement by
statement, with any idempotency keys, each of which may fail anywhere.

Results:
* `provisioning_sound`: one account for a customer, product and currency, each with a ledger
  account of its own.
* `commit_of_response`: a recorded response is that of a committed run.
* `accounts_unique`: the calls report one account per identity, as created under one key only.
-/

namespace AegisShield.Ledger

open Common

variable {ι : Type*}

/-! ## Model -/

/-- Calls of `provisionDefault` against a migrated database. -/
def provisioning (runtime : Runtime) (inputs : ι → InternalProvisionDefaultAccountInput) :
    LedgerCalls LedgerResponse ι where
  database := stored ledgerDatabase
  init := (ledger runtime).init
  call i := provisionDefault runtime (inputs i)

/-- The codes of the accounts that the migrations create. -/
def systemCodes : List String := ["SYS-PLATFORM-SETTLEMENT-LKR", "SYS-CUSTOMER-FUNDS-CONTROL-LKR"]

/-- One account for a customer, product and currency, on a LIABILITY account of its own
    without an overdraft; and no other ledger account. -/
structure AccountsSound (d : LedgerStore) : Prop where
  unique : ∀ row ∈ d.customerAccounts.rows, ∀ row' ∈ d.customerAccounts.rows,
    row.identity = row'.identity → row = row'
  backed : ∀ row ∈ d.customerAccounts.rows, ∃ account,
    d.accounts.find row.ledgerAccountId = some account ∧ account.accountClass = .LIABILITY ∧
      account.currency = row.currency ∧ account.allowNegativeBalance = false
  owned : ∀ row ∈ d.customerAccounts.rows, ∀ row' ∈ d.customerAccounts.rows,
    row.ledgerAccountId = row'.ledgerAccountId → row = row'
  orphans : ∀ account ∈ d.accounts.rows, account.code ∈ systemCodes ∨
    ∃ row ∈ d.customerAccounts.rows, row.ledgerAccountId = account.id

/-- What the calls have made of the accounts and reported of them. -/
structure AccountsUnique (inputs : ι → InternalProvisionDefaultAccountInput)
    (s : LedgerCallsState LedgerResponse ι) : Prop where
  accounts : AccountsSound s.db.app
  /-- Nothing is booked on a new account. -/
  zero : ∀ row ∈ s.db.app.customerAccounts.rows,
    s.db.app.projections.find row.ledgerAccountId = some (zeroProjection row.ledgerAccountId)
  /-- A successful call returns the account of its customer, product and currency. -/
  returns : ∀ i response, (i, .client (.ret response)) ∈ s.procs → ∃ result row,
    response = .account result ∧ s.db.app.customerAccounts.find result.account.id = some row ∧
      row.identity = (inputs i).identity
  /-- Successful calls with one customer, product and currency return one account. -/
  same : ∀ i j result result', (i, .client (.ret (.account result))) ∈ s.procs →
    (j, .client (.ret (.account result'))) ∈ s.procs →
    (inputs i).identity = (inputs j).identity → result.account.id = result'.account.id
  /-- Calls that report the creation of one account have one key. -/
  creator : ∀ i j result result', (i, .client (.ret (.account result))) ∈ s.procs →
    (j, .client (.ret (.account result'))) ∈ s.procs → result.created = true →
    result'.created = true → result.account.id = result'.account.id →
    (inputs i).idempotencyKey = (inputs j).idempotencyKey

/-! ## Commits -/

/-- The writes create a customer account with this identifier. -/
def opens (id : String) (ws : List LedgerWrite) : Bool :=
  ws.any fun
    | .createCustomerAccount row => row.id = id
    | _ => false

/-- No ledger account has been booked on. -/
def Untouched (d : LedgerStore) : Prop := ∀ account ∈ d.accounts.rows,
  d.projections.find account.id = some (zeroProjection account.id)

/-- The contract of the calls: each customer account stands for one commit. -/
def accountContract : Contract LedgerStore LedgerWrite where
  inv d log := StoreInvariant d ∧ AccountsSound d ∧ Untouched d ∧
    ∀ id, log.countP (opens id) = if (d.customerAccounts.find id).isSome then 1 else 0
  rely := Extends
  guar := Extends
  refl := storeContract.refl
  trans := storeContract.trans

section Account

variable {d : LedgerStore} {account : LedgerAccountRow} {row : CustomerAccountRow}
  {input : InternalProvisionDefaultAccountInput} {H : List LedgerLock}

/-- The tables after a new account. -/
theorem applyAll_create : ledgerDatabase.applyAll d
    [.createAccount account, .createCustomerAccount row] = { d with
      accounts := d.accounts.add account
      projections := d.projections.add (zeroProjection account.id)
      customerAccounts := d.customerAccounts.add row } := rfl

/-- A new account keeps the others apart. -/
theorem AccountsSound.create (h : AccountsSound d) (hnew : NewAccount input account row H d) :
    AccountsSound (ledgerDatabase.applyAll d
      [.createAccount account, .createCustomerAccount row]) := by
  have hfresh : d.accounts.find (key account) = none := hnew.fresh.2
  have hunused : d.customerAccounts.find (key row) = none := hnew.unused.id
  have hrows := Table.rows_add hunused
  have haccounts := Table.rows_add hfresh
  rw [applyAll_create]
  constructor
  · intro r hr r' hr' hidentity
    beta_reduce at hr hr'
    rw [hrows] at hr hr'
    rcases List.mem_append.mp hr with hr | hr <;> rcases List.mem_append.mp hr' with hr' | hr'
    · exact h.unique r hr r' hr' hidentity
    · rw [List.mem_singleton.mp hr'] at hidentity
      exact absurd hidentity (hnew.unused.identity r hr)
    · rw [List.mem_singleton.mp hr] at hidentity
      exact absurd hidentity.symm (hnew.unused.identity r' hr')
    · rw [List.mem_singleton.mp hr, List.mem_singleton.mp hr']
  · intro r hr
    beta_reduce at hr
    rw [hrows] at hr
    rcases List.mem_append.mp hr with hr | hr
    · obtain ⟨found, hfound, hrest⟩ := h.backed r hr
      exact ⟨found, Table.find_add_of_some hfound, hrest⟩
    · rw [List.mem_singleton.mp hr]
      refine ⟨account, ?_, hnew.liability, ?_, hnew.overdraft⟩
      · show (d.accounts.add account).find row.ledgerAccountId = _
        rw [hnew.owner, Table.find_add hfresh]
        exact if_pos rfl
      · rw [hnew.currency]
        exact (congrArg (fun identity => identity.2.2) hnew.identity).symm
  · intro r hr r' hr' howner
    beta_reduce at hr hr'
    rw [hrows] at hr hr'
    rcases List.mem_append.mp hr with hr | hr <;> rcases List.mem_append.mp hr' with hr' | hr'
    · exact h.owned r hr r' hr' howner
    · rw [List.mem_singleton.mp hr'] at howner
      exact absurd howner (hnew.unused.ledgerAccountId r hr)
    · rw [List.mem_singleton.mp hr] at howner
      exact absurd howner.symm (hnew.unused.ledgerAccountId r' hr')
    · rw [List.mem_singleton.mp hr, List.mem_singleton.mp hr']
  · intro found hfound
    beta_reduce at hfound ⊢
    rw [haccounts] at hfound
    rw [hrows]
    rcases List.mem_append.mp hfound with hfound | hfound
    · refine (h.orphans found hfound).imp_right fun hrow => ?_
      obtain ⟨r, hr, howner⟩ := hrow
      exact ⟨r, List.mem_append_left _ hr, howner⟩
    · rw [List.mem_singleton.mp hfound]
      exact .inr ⟨row, List.mem_append_right _ List.mem_cons_self, hnew.owner⟩

/-- A new account starts at zero. -/
theorem Untouched.create (hd : StoreInvariant d) (h : Untouched d)
    (hnew : NewAccount input account row H d) : Untouched (ledgerDatabase.applyAll d
      [.createAccount account, .createCustomerAccount row]) := by
  have hfresh : d.accounts.find (key account) = none := hnew.fresh.2
  have hprojection : d.projections.find (key (zeroProjection account.id)) = none :=
    hd.owners account.id hfresh
  intro found hfound
  rw [applyAll_create] at hfound ⊢
  rw [Table.rows_add hfresh] at hfound
  rcases List.mem_append.mp hfound with hfound | hfound
  · exact Table.find_add_of_some (h found hfound)
  · rw [List.mem_singleton.mp hfound]
    show (d.projections.add (zeroProjection account.id)).find account.id = _
    rw [Table.find_add hprojection]
    exact if_pos rfl

theorem opens_create {id : String} :
    opens id [.createAccount account, .createCustomerAccount row] = decide (row.id = id) := by
  simp [opens]

/-- What a call is to commit keeps the contract. -/
theorem commits_provisioned {vs : List LedgerWrite} {value : LedgerResponse}
    (h : Provisioned input H d vs value) : Commits ledgerDatabase accountContract
      (fun d => ∃ result row, value = .account result ∧
        d.customerAccounts.find result.account.id = some row ∧ row.identity = input.identity) vs d := by
  rintro log ⟨hd, hsound, huntouched, hcount⟩ -
  cases h with
  | existing hfind hidentity =>
    refine ⟨⟨hd, hsound, huntouched, fun id => ?_⟩, storeContract.refl d, _, _, rfl, hfind, hidentity⟩
    rw [List.countP_append, hcount id]
    rfl
  | @created account row detail hnew hid =>
    have hcommits : Commits ledgerDatabase storeContract (fun _ => True)
        [.createAccount account, .createCustomerAccount row] d := commits_account hd hnew.fresh.2
    obtain ⟨hinv, hextends, -⟩ := hcommits [] hd rfl
    have hfind : ∀ id, (ledgerDatabase.applyAll d [.createAccount account,
        .createCustomerAccount row]).customerAccounts.find id =
          if row.id = id then some row else d.customerAccounts.find id :=
      fun id => Table.find_add hnew.unused.id
    refine ⟨⟨hinv, hsound.create hnew, huntouched.create hd hnew, fun id => ?_⟩, hextends, _, row,
      rfl, ?_, hnew.identity⟩
    · rw [List.countP_append, List.countP_singleton, opens_create, hcount id, hfind id]
      by_cases heq : row.id = id
      · rw [← heq, hnew.unused.id]
        simp
      · simp [heq]
    · rw [hfind, hid, if_pos rfl]

end Account

/-! ## The records -/

section Records

variable (runtime : Runtime) (inputs : ι → InternalProvisionDefaultAccountInput)

/-- A recorded response reports an account of the request's customer, product and currency. -/
def ValidAccount (k : String × String) (hash : String) (body : LedgerResponse)
    (d : LedgerStore) : Prop :=
  ∃ i result row, k = (provisionOptions runtime (inputs i)).recordKey runtime ∧
    hash = (provisionOptions runtime (inputs i)).requestHash runtime ∧ body = .account result ∧
      d.customerAccounts.find result.account.id = some row ∧ row.identity = (inputs i).identity

/-- The contract of the calls with their records. -/
def provisioningContract :
    Contract LedgerDb (StoredWrite LedgerWrite LedgerResponse) :=
  recordContract accountContract (ValidAccount runtime inputs) (fun _ => False) fun _ => True

/-- The record of a call holds the response, for its request. -/
def Responded (i : ι) (response : LedgerResponse) (d : LedgerDb) : Prop :=
  ∃ record, d.records.find ((provisionOptions runtime (inputs i)).recordKey runtime) = some record ∧
    record.requestHash = (provisionOptions runtime (inputs i)).requestHash runtime ∧
      record.responseBody = some response

variable {runtime inputs} {d : LedgerDb}
  {s : LedgerCallsState LedgerResponse ι}

variable {body response : LedgerResponse} {settlementId controlId : String}

theorem ValidAccount.extends {k : String × String} {hash : String}
    {a a' : LedgerStore} (hextends : Extends a a') (h : ValidAccount runtime inputs k hash body a) :
    ValidAccount runtime inputs k hash body a' := by
  obtain ⟨i, result, row, hk, hhash, hbody, hrow, hidentity⟩ := h
  exact ⟨i, result, row, hk, hhash, hbody, hextends.customerAccounts _ _ hrow, hidentity⟩

/-- A response that `provisionDefault` accepts is returned as it is. -/
theorem decode_account {input : InternalProvisionDefaultAccountInput}
    (h : (provisionOptions runtime input).decode body = .ok response) : body = response := by
  cases body with
  | account result =>
    simp only [provisionOptions] at h
    split_ifs at h
    cases h
    rfl
  | journal result => cases h

/-- A call keeps the contract and returns what its record holds. -/
theorem wp_provisioning (i : ι) : (provisionDefault runtime (inputs i)).Wp (stored ledgerDatabase)
    (provisioningContract runtime inputs) (Responded runtime inputs i) (fun _ _ => True) d := by
  refine Client.wp_bind (Client.Wp.mono ?_ (fun _ _ _ => trivial)
    (wp_execute (fun _ _ _ _ _ hext h => h.extends hext) trivial ?_))
  · rintro ⟨response, replayed⟩ d ⟨record, body, hrecord, hhash, hbody, hvalue⟩
    refine ⟨record, hrecord, hhash, hbody.trans (congrArg some ?_)⟩
    cases replayed with
    | false => exact hvalue
    | true => exact decode_account hvalue
  · rintro a ⟨-, log, ha, -⟩
    refine (Tx.Wp.contract (fun d d' hafter => ?_) (runs_provisioned ha)).mono ?_ fun _ _ h => h
    · obtain ⟨hextends, log, hd, -⟩ := hafter
      exact ⟨hextends, log, hd⟩
    · rintro H vs value a' ⟨-, hprovisioned⟩ log hlog hdeferred
      obtain ⟨hinv, hguar, result, row, rfl, hrow, hidentity⟩ :=
        commits_provisioned hprovisioned log hlog hdeferred
      exact ⟨hinv, hguar, i, result, row, rfl, rfl, rfl, hrow, hidentity⟩

theorem accounts_migrated (h : settlementId ≠ controlId) :
    (migratedStore settlementId controlId).accounts.rows =
      [platformSettlement settlementId, customerFundsControl controlId] := by
  have hnew : (Table.empty.add (platformSettlement settlementId)).find controlId = none :=
    Table.find_add_ne h
  exact Table.rows_add hnew

theorem accountsSound_migrated (h : settlementId ≠ controlId) :
    AccountsSound (migratedStore settlementId controlId) := by
  have hnone : ∀ row, row ∉ (migratedStore settlementId controlId).customerAccounts.rows :=
    fun row => List.not_mem_nil
  refine ⟨fun row hrow => absurd hrow (hnone row), fun row hrow => absurd hrow (hnone row),
    fun row hrow => absurd hrow (hnone row), fun account haccount => ?_⟩
  rw [accounts_migrated h] at haccount
  rcases List.mem_pair.mp haccount with rfl | rfl
  · exact .inl List.mem_cons_self
  · exact .inl (List.mem_cons_of_mem _ List.mem_cons_self)

theorem untouched_migrated (h : settlementId ≠ controlId) :
    Untouched (migratedStore settlementId controlId) := by
  have hprojection : (Table.empty.add (zeroProjection settlementId)).find controlId = none :=
    Table.find_add_ne h
  have hprojections : ∀ id, (migratedStore settlementId controlId).projections.find id =
      if controlId = id then some (zeroProjection controlId)
      else (Table.empty.add (zeroProjection settlementId)).find id :=
    fun id => Table.find_add hprojection
  have hfirst : (Table.empty.add (zeroProjection settlementId)).find settlementId =
      some (zeroProjection settlementId) := (Table.find_add rfl).trans (if_pos rfl)
  intro account haccount
  rw [accounts_migrated h] at haccount
  rcases List.mem_pair.mp haccount with rfl | rfl
  · exact (hprojections settlementId).trans ((if_neg h.symm).trans hfirst)
  · exact (hprojections controlId).trans (if_pos rfl)

/-- Every call keeps the contract. -/
theorem provisioning_sound {C} (h : (provisioning runtime inputs).machine.Reachable C s) :
    (provisioningContract runtime inputs).inv s.db (s.log.map Prod.snd) ∧
      ∀ i response, (i, .client (.ret response)) ∈ s.procs →
        Responded runtime inputs i response s.db := by
  have hsound := Calls.sound (S := provisioning runtime inputs)
    (σ := provisioningContract runtime inputs) (Q := Responded runtime inputs)
    (R := fun _ _ _ => True) ?_ ?_ (fun _ _ _ _ _ _ => trivial) ?_
    (fun i d log _ => wp_provisioning i) h
  · exact ⟨hsound.1, fun i response hmem => hsound.2 _ hmem⟩
  · exact fun d d' hguar => ⟨hguar.1, fun k hk => absurd hk id, hguar.2.2⟩
  · rintro i response d d' ⟨⟨hkept, -⟩, -⟩ ⟨record, hrecord, hrest⟩
    exact ⟨record, hkept _ _ hrecord, hrest⟩
  · rintro d ⟨hrecords, settlementId, controlId, hne, happ⟩
    refine ⟨?_, fun k record hrecord => ?_, by simp, fun k => ?_⟩
    · rw [happ]
      exact ⟨storeInvariant_migrated hne, accountsSound_migrated hne, untouched_migrated hne,
        fun id => rfl⟩
    · rw [hrecords] at hrecord
      cases hrecord
    · rw [hrecords]
      rfl

/-- A recorded response is that of a committed run of a call with the key. -/
theorem commit_of_response {C} (h : (provisioning runtime inputs).machine.Reachable C s) {i : ι}
    (hresponse : Responded runtime inputs i response s.db) :
    ∃ j ws vs, (j, ws) ∈ s.log ∧ appWrites ws = vs ∧
      (provisionRun runtime (inputs j)).Yields vs response ∧
      runtime.sha256 (inputs j).idempotencyKey = runtime.sha256 (inputs i).idempotencyKey := by
  obtain ⟨record, hrecord, -, hbody⟩ := hresponse
  obtain ⟨⟨-, -, hlog, hcount⟩, -⟩ := provisioning_sound h
  have hone := hcount ((provisionOptions runtime (inputs i)).recordKey runtime)
  rw [hrecord, Option.isSome_some, if_pos rfl, List.countP_map] at hone
  obtain ⟨⟨j, ws⟩, hmem, hcreates⟩ := List.countP_pos_iff.mp (hone.symm ▸ Nat.one_pos)
  have hmakes : ((execute runtime (provisionOptions runtime (inputs j))).bind
      fun outcome => .ret outcome.result).Makes ws := Calls.makes_of_mem_log h hmem
  obtain ⟨vs, value, hyields, hws⟩ := makes_answered hmakes
  obtain ⟨record', vs', body, hws', hfind⟩ := hlog ws (List.mem_map_of_mem hmem)
  obtain ⟨rfl, rfl⟩ := executionWrites_inj (hws.symm.trans hws')
  rw [Function.comp_apply, hws, creates_execution, decide_eq_true_eq] at hcreates
  rw [hcreates, hrecord] at hfind
  refine ⟨j, ws, vs, hmem, ?_, ?_, congrArg Prod.snd hcreates⟩
  · rw [hws]
    exact appWrites_execution
  · rw [Option.some.inj hfind] at hbody
    exact Option.some.inj hbody ▸ hyields

end Records

/-! ## What a run of `provisionDefault` writes -/

section Yields

variable {runtime : Runtime} {input : InternalProvisionDefaultAccountInput}
  {vs : List LedgerWrite}

theorem readDetail_yields {row : LedgerStore → Option CustomerAccountRow}
    {detail : Option CustomerAccountDetail} (h : (readDetail row).Yields vs detail) :
    vs = [] ∧ ∃ d, (row d).map CustomerAccountRow.id = detail.map CustomerAccountDetail.id := by
  unfold readDetail at h
  cases h with
  | @stmt _ _ _ d e ws _ h =>
    beta_reduce at h
    split at h
    next hrow =>
      cases h
      exact ⟨rfl, d, by rw [hrow]; rfl⟩
    next found hrow =>
      split at h
      · cases h
      next detail hdetail =>
        cases h
        refine ⟨rfl, d, ?_⟩
        unfold toDetail at hdetail
        split at hdetail
        · cases hdetail
          rw [hrow]
          rfl
        · cases hdetail

/-- The rows that `createAccount` writes for a request. -/
structure RowsFor (input : InternalProvisionDefaultAccountInput) (account : LedgerAccountRow)
    (row : CustomerAccountRow) : Prop where
  liability : account.accountClass = .LIABILITY
  overdraft : account.allowNegativeBalance = false
  currency : account.currency = input.currency
  owner : row.ledgerAccountId = account.id
  identity : row.identity = input.identity

theorem createAccount_yields {attempts : ℕ} {row : CustomerAccountRow}
    (h : (createAccount runtime input attempts).Yields vs row) :
    ∃ account, vs = [.createAccount account, .createCustomerAccount row] ∧
      RowsFor input account row := by
  induction attempts generalizing vs with
  | zero => cases h
  | succ attempts ih =>
    obtain ⟨ws₁, reference, ws₂, hfind, hrest, rfl⟩ := h.of_bind
    have hnothing : ws₁ = [] := by
      unfold findReference at hfind
      cases hfind with
      | stmt hfind =>
        cases hfind
        rfl
    rw [hnothing, List.nil_append]
    split_ifs at hrest
    · exact ih hrest
    · split at hrest
      · cases hrest
      · obtain ⟨ws₃, account, ws₄, haccount, hrow, rfl⟩ := hrest.of_bind
        obtain ⟨rfl, e, rfl⟩ := writeRow_yields haccount
        obtain ⟨rfl, e', rfl⟩ := writeRow_yields hrow
        exact ⟨_, rfl, rfl, rfl, rfl, rfl, rfl⟩

/-- A complete run finds an account, or writes the account that it reports. -/
theorem provisionRun_yields {response : LedgerResponse}
    (h : (provisionRun runtime input).Yields vs response) :
    (vs = [] ∧ ∃ detail, response = .account { account := detail, created := false }) ∨
      ∃ account row detail, vs = [.createAccount account, .createCustomerAccount row] ∧
        row.id = detail.id ∧ response = .account { account := detail, created := true } ∧
        RowsFor input account row := by
  obtain ⟨ws₁, _, ws₂, hlock, hrest, rfl⟩ := h.of_bind
  obtain ⟨ws₃, existing, ws₄, hread, hrest, rfl⟩ := hrest.of_bind
  obtain ⟨rfl, -⟩ := readDetail_yields hread
  have hnothing : ws₁ = [] := by
    unfold lockIdentity at hlock
    cases hlock with
    | stmt hlock =>
      cases hlock
      rfl
  rw [hnothing, List.nil_append, List.nil_append]
  cases existing with
  | some detail =>
    cases hrest
    exact .inl ⟨rfl, detail, rfl⟩
  | none =>
    obtain ⟨ws₅, row, ws₆, hcreate, hrest, hws⟩ := hrest.of_bind
    obtain ⟨ws₇, detail, ws₈, hdetail, hrest, rfl⟩ := hrest.of_bind
    obtain ⟨rfl, d, hid⟩ := readDetail_yields hdetail
    obtain ⟨account, rfl, hrows⟩ := createAccount_yields hcreate
    cases detail with
    | none => cases hrest
    | some detail =>
      cases hrest
      rw [hws]
      exact .inr ⟨account, row, detail, rfl, Option.some.inj hid, rfl, hrows⟩

/-- A run that reports a creation writes the account that it reports. -/
theorem opens_of_yields {result : ProvisionDefaultAccountResult}
    (h : (provisionRun runtime input).Yields vs (.account result)) (hcreated : result.created = true) :
    opens result.account.id vs = true := by
  obtain ⟨-, detail, hresponse⟩ | ⟨account, row, detail, rfl, hid, hresponse, -⟩ :=
    provisionRun_yields h
  · cases hresponse
    cases hcreated
  · cases hresponse
    rw [opens_create, decide_eq_true_eq]
    exact hid

end Yields

/-! ## Payloads -/

theorem canonicalMembers_provision (runtime : Runtime)
    (input : InternalProvisionDefaultAccountInput) : (canonicalMembers runtime
      [("customerId", .string input.customerId), ("productType", .string input.productType.text),
        ("currency", .string input.currency)]).insertionSort keyLe =
      [("currency", stringifyString input.currency), ("customerId", stringifyString input.customerId),
        ("productType", stringifyString input.productType.text)] := by
  have hproduct : ∀ a b, keyLe ("customerId", a) ("productType", b) := fun a b => by
    show lexLe (utf16 "customerId") (utf16 "productType") = true
    decide
  have hcurrency : ∀ a b, ¬ keyLe ("customerId", a) ("currency", b) := fun a b => by
    show ¬ lexLe (utf16 "customerId") (utf16 "currency") = true
    decide
  have hcurrency' : ∀ a b, ¬ keyLe ("productType", a) ("currency", b) := fun a b => by
    show ¬ lexLe (utf16 "productType") (utf16 "currency") = true
    decide
  simp [canonicalMembers, canonicalJson, List.orderedInsert, hproduct, hcurrency, hcurrency']

/-- The canonical payload tells the customer, product and currency. -/
theorem identity_of_payload {runtime : Runtime} {a b : InternalProvisionDefaultAccountInput}
    (h : SamePayload runtime (provisionOptions runtime a) (provisionOptions runtime b)) :
    a.identity = b.identity := by
  have htext : ∀ input : InternalProvisionDefaultAccountInput,
      (canonicalJson runtime (provisionOptions runtime input).payload).toList =
        "\x7b\"currency\":".toList ++ ((stringifyString input.currency).toList ++
          (",\"customerId\":".toList ++ ((stringifyString input.customerId).toList ++
          (",\"productType\":".toList ++ ((stringifyString input.productType.text).toList ++
          "\x7d".toList))))) := by
    intro input
    have hkeys : stringifyString "currency" = "\"currency\"" ∧
        stringifyString "customerId" = "\"customerId\"" ∧
        stringifyString "productType" = "\"productType\"" := by decide
    obtain ⟨hcurrency, hcustomer, hproduct⟩ := hkeys
    simp only [provisionOptions, canonicalJson, canonicalMembers_provision]
    simp [hcurrency, hcustomer, hproduct]
  unfold SamePayload at h
  have hlist := congrArg String.toList h
  rw [htext, htext] at hlist
  obtain ⟨hcurrency, hlist⟩ := prefixFree_stringifyString _ _ _ _ (List.append_cancel_left hlist)
  obtain ⟨hcustomer, hlist⟩ := prefixFree_stringifyString _ _ _ _ (List.append_cancel_left hlist)
  have hproduct : a.productType = b.productType := by
    cases a.productType
    cases b.productType
    rfl
  exact Prod.ext hcustomer (Prod.ext hproduct hcurrency)

/-! ## Uniqueness -/

theorem eq_of_countP_le_one {α : Type*} {p : α → Bool} {l : List α} {a b : α}
    (h : l.countP p ≤ 1) (ha : a ∈ l) (hb : b ∈ l) (hpa : p a = true) (hpb : p b = true) :
    a = b := by
  rw [List.countP_eq_length_filter] at h
  have ha' : a ∈ l.filter p := List.mem_filter.mpr ⟨ha, hpa⟩
  have hb' : b ∈ l.filter p := List.mem_filter.mpr ⟨hb, hpb⟩
  rcases hl : l.filter p with _ | ⟨c, _ | ⟨c', rest⟩⟩
  · rw [hl] at ha'
    cases ha'
  · rw [hl] at ha' hb'
    rw [List.mem_singleton.mp ha', List.mem_singleton.mp hb']
  · rw [hl, List.length_cons, List.length_cons] at h
    omega

section Unique

variable {runtime : Runtime} {inputs : ι → InternalProvisionDefaultAccountInput}
  {s : LedgerCallsState LedgerResponse ι}

/-- What a response reports is an account of the call's customer, product and currency. -/
theorem account_of_response (hfree : CollisionFree runtime fun i => provisionOptions runtime (inputs i))
    {C} (h : (provisioning runtime inputs).machine.Reachable C s) {i : ι} {response : LedgerResponse}
    (hresponse : Responded runtime inputs i response s.db) : ∃ result row,
      response = .account result ∧ s.db.app.customerAccounts.find result.account.id = some row ∧
        row.identity = (inputs i).identity := by
  obtain ⟨record, hrecord, hhash, hbody⟩ := hresponse
  obtain ⟨⟨-, hrecords, -⟩, -⟩ := provisioning_sound h
  obtain ⟨-, body, hbody', j, result, row, -, hhash', rfl, hrow, hidentity⟩ :=
    hrecords _ record hrecord
  obtain rfl : response = .account result := Option.some.inj (hbody.symm.trans hbody')
  refine ⟨result, row, rfl, hrow, hidentity.trans ?_⟩
  exact identity_of_payload (hfree.payloads j i (hhash'.symm.trans hhash))

/-- Provisioning is unique, in every run. -/
theorem accounts_unique (runtime : Runtime) (inputs : ι → InternalProvisionDefaultAccountInput)
    (hfree : CollisionFree runtime fun i => provisionOptions runtime (inputs i))
    (h : (provisioning runtime inputs).machine.Reachable Machine.always s) :
    AccountsUnique inputs s := by
  obtain ⟨⟨⟨-, hsound, huntouched, hopens⟩, -⟩, hresponded⟩ := provisioning_sound h
  refine ⟨hsound, fun row hrow => ?_,
    fun i response hmem => account_of_response hfree h (hresponded i response hmem),
    fun i j result result' hi hj hidentity => ?_,
    fun i j result result' hi hj hcreated hcreated' hid => ?_⟩
  · obtain ⟨account, hfind, -⟩ := hsound.backed row hrow
    obtain ⟨hmem, hid⟩ := Table.find_some hfind
    rw [← hid]
    exact huntouched account hmem
  · obtain ⟨_, row, hresult, hrow, hrowid⟩ := account_of_response hfree h (hresponded i _ hi)
    obtain ⟨_, row', hresult', hrow', hrowid'⟩ := account_of_response hfree h (hresponded j _ hj)
    cases hresult
    cases hresult'
    obtain ⟨hmem, hkey⟩ := Table.find_some hrow
    obtain ⟨hmem', hkey'⟩ := Table.find_some hrow'
    rw [← hkey, ← hkey', hsound.unique row hmem row' hmem' ((hrowid.trans hidentity).trans hrowid'.symm)]
  · obtain ⟨i', ws, vs, hmem, hws, hyields, hkey⟩ := commit_of_response h (hresponded i _ hi)
    obtain ⟨j', ws', vs', hmem', hws', hyields', hkey'⟩ := commit_of_response h (hresponded j _ hj)
    have hcount : s.log.countP (fun entry => opens result.account.id (appWrites entry.2)) ≤ 1 := by
      have hcount := hopens result.account.id
      rw [List.map_map, List.countP_map] at hcount
      refine hcount.le.trans ?_
      split_ifs <;> omega
    have hsame : (i', ws) = (j', ws') := by
      refine eq_of_countP_le_one hcount hmem hmem' ?_ ?_
      · show opens result.account.id (appWrites ws) = true
        rw [hws]
        exact opens_of_yields hyields hcreated
      · show opens result.account.id (appWrites ws') = true
        rw [hws', hid]
        exact opens_of_yields hyields' hcreated'
    obtain ⟨rfl, -⟩ := Prod.mk.inj hsame
    exact hfree.keys i j (hkey.symm.trans hkey')

end Unique

/-- Three requests for the account of one customer, the first two under one key. -/
def threeRequests (n : Fin 3) : InternalProvisionDefaultAccountInput where
  customerId := "customer-1"
  productType := .TIER0_WALLET
  currency := "LKR"
  idempotencyKey := if n = 2 then "opening-key-0002" else "opening-key-0001"

theorem collisionFree_threeRequests :
    CollisionFree plainRuntime fun n => provisionOptions plainRuntime (threeRequests n) :=
  ⟨by decide, by decide⟩

/-- The account that a response reports, and whether as created. -/
def LedgerResponse.reported : LedgerResponse → String × Bool
  | .account result => (result.account.id, result.created)
  | .journal _ => ("", false)

/-- The calls start, and the third one locks the customer first. -/
def allStart : List (Calls.Action Env (Fin 3)) :=
  [.start 0, .start 1, .start 2, .next 0 .query, .next 1 .query, .next 2 .query,
    .next 0 .begin, .next 1 .begin, .next 2 .begin, .next 2 (.stmt (env "-"))]

/-- The statements of the first call, with the ids that they generate. -/
def firstCreates : List (Calls.Action Env (Fin 3)) :=
  ["-", "-", "-", "-", "c3", "d0000001-0000-4000-8000-000000000001", "-", "-"].map
    fun uuid => .next 0 (.stmt (env uuid))

/-- The calls commit in their order. -/
def allFinish : List (Calls.Action Env (Fin 3)) :=
  [.next 0 .finish, .next 1 (.stmt (env "-")), .next 1 .finish, .next 1 .query,
    .next 2 (.stmt (env "-")), .next 2 (.stmt (env "-")), .next 2 (.stmt (env "-")),
    .next 2 .finish]

/-- The first call creates the account, the second one replays its response, and the
    third one finds the account. -/
theorem accounts_unique_three : ∃ s, AccountsUnique threeRequests s ∧
    s.procs.map (fun q => q.2.answer.map fun r => r.map LedgerResponse.reported) =
        [some (.ok ("d0000001-0000-4000-8000-000000000001", true)),
          some (.ok ("d0000001-0000-4000-8000-000000000001", true)),
          some (.ok ("d0000001-0000-4000-8000-000000000001", false))] := by
  obtain ⟨s, hs, hanswers⟩ := Machine.reachable_of_run
    (M := (provisioning plainRuntime threeRequests).machine) (allStart ++ firstCreates ++ allFinish)
    (fun s => s.procs.map (fun q => q.2.answer.map fun r => r.map LedgerResponse.reported) =
        [some (.ok ("d0000001-0000-4000-8000-000000000001", true)),
          some (.ok ("d0000001-0000-4000-8000-000000000001", true)),
          some (.ok ("d0000001-0000-4000-8000-000000000001", false))])
    (s := { db := { records := Table.empty, app := migratedStore "a1" "b2" }, procs := [], log := [] })
    ⟨⟨rfl, "a1", "b2", by decide, rfl⟩, rfl, rfl⟩ (by decide +kernel)
  exact ⟨s, accounts_unique plainRuntime threeRequests collisionFree_threeRequests hs,
    of_decide_eq_true hanswers⟩

end AegisShield.Ledger
