import AegisShield.Common.Format
import AegisShield.Ledger.Journal

/-!
# Provisioning an account

`AccountService.provisionDefault` (`account.service.ts`): under an advisory lock for the
account's identity, the customer's existing account, or a new ledger account with a new
customer account that refers to it.

Results:
* `runs_provisioned`: what the transaction is to commit.
* `runs_provisionRun`: the transaction keeps the contract of the store.
-/

namespace AegisShield.Ledger

open Common

/-! ## References -/

/-- A character of `[A-Z0-9]`. -/
def isReferenceLetter (c : Char) : Bool := c.isUpper || c.isDigit

/-- `[A-Z0-9]{4}-[A-Z0-9]{4}-[A-Z0-9]{4}`. -/
def threeGroups : Format :=
  List.replicate 4 isReferenceLetter ++ (Format.literal "-" ++ (List.replicate 4 isReferenceLetter ++
    (Format.literal "-" ++ List.replicate 4 isReferenceLetter)))

/-- `publicAccountReferenceSchema` (`contracts/accounts/v1.ts`, lines 89-94). -/
def publicAccountReferenceSchema : Format := Format.literal "AEGIS-" ++ threeGroups

/-- `maskedAccountReferenceSchema` (`contracts/accounts/v1.ts`, lines 99-104). -/
def maskedAccountReferenceSchema : Format :=
  Format.literal "AEGIS-****-****-" ++ List.replicate 4 isReferenceLetter

/-- `maskAccountReference` (`account-reference.ts`, lines 28-35). -/
def maskAccountReference (publicReference : String) : Except Thrown String :=
  match publicReference.toList.splitOn '-' with
  | [_, _, _, lastGroup] =>
    if lastGroup = [] then .error .other
    else .ok ("AEGIS-****-****-" ++ String.ofList lastGroup)
  | _ => .error .other

/-! ## The transaction -/

/-- `InternalProvisionDefaultAccountInput` (`contracts/accounts/v1.ts`, lines 338-340). -/
structure InternalProvisionDefaultAccountInput where
  customerId : String
  productType : AccountProductType
  currency : String
  idempotencyKey : String

/-- The text of a product type. -/
def AccountProductType.text : AccountProductType → String
  | .TIER0_WALLET => "TIER0_WALLET"

/-- `toDetail` (lines 101-110), of a row with the rows it refers to. -/
def toDetail (d : LedgerStore) (row : CustomerAccountRow) : Except Thrown CustomerAccountDetail :=
  match d.accounts.find row.ledgerAccountId, d.projections.find row.ledgerAccountId with
  | some account, some projection => .ok {
      id := row.id
      maskedReference := row.maskedReference
      productType := row.productType
      status := row.status
      currency := row.currency
      createdAt := row.createdAt
      balance := signedBalanceMinor account.accountClass projection.totals.debitTotalMinor
        projection.totals.creditTotalMinor
      receivingReference := row.publicReference }
  | _, _ => .error .other

/-- A statement that reads a row and describes it (`select: ACCOUNT_SELECTION`). -/
def readDetail (row : LedgerStore → Option CustomerAccountRow) :
    LedgerTx (Option CustomerAccountDetail) :=
  .stmt (fun _ _ => []) (fun _ _ => []) fun d _ =>
    match row d with
    | none => .ret none
    | some row =>
      match toDetail d row with
      | .error e => .throw e
      | .ok detail => .ret (some detail)

section Statements

variable (runtime : Runtime)

/-- `advisoryLockKey` (`security.ts`, lines 54-56): the first 16 digits name the lock. -/
def advisoryLockKey (value : String) : String :=
  String.ofList ((runtime.sha256 value).toList.take 16)

/-- `pg_advisory_xact_lock` (lines 135-137). -/
def lockIdentity (input : InternalProvisionDefaultAccountInput) : LedgerTx Unit :=
  .stmt (fun _ _ => [.advisory (advisoryLockKey runtime ("customer-account:" ++ input.customerId ++
      ":" ++ input.productType.text ++ ":" ++ input.currency))])
    (fun _ _ => []) fun _ _ => .ret ()

/-- The constraints of `ledger_accounts`. -/
def accountViolation (d : LedgerStore) (account : LedgerAccountRow) : Option Thrown :=
  if (d.accounts.find account.id).isSome then some (uniqueViolation runtime ["id"])
  else if d.accounts.rows.any fun other => other.code = account.code then
    some (uniqueViolation runtime ["code"])
  else none

/-- The constraints of `customer_accounts`. -/
def customerAccountViolation (d : LedgerStore) (account : CustomerAccountRow) : Option Thrown :=
  if (d.customerAccounts.find account.id).isSome then some (uniqueViolation runtime ["id"])
  else if d.customerAccounts.rows.any fun other =>
      other.publicReference = account.publicReference then
    some (uniqueViolation runtime ["public_reference"])
  else if d.customerAccounts.rows.any fun other => other.ledgerAccountId = account.ledgerAccountId then
    some (uniqueViolation runtime ["ledger_account_id"])
  else if d.customerAccounts.rows.any fun other => other.customerId = account.customerId ∧
      other.productType = account.productType ∧ other.currency = account.currency then
    some (uniqueViolation runtime ["customer_id", "product_type", "currency"])
  else if (d.accounts.find account.ledgerAccountId).isNone then some .other
  else none

/-- A generated reference and whether it is taken (lines 172-177). -/
def findReference : LedgerTx (String × Bool) :=
  .stmt (fun _ _ => []) (fun _ _ => []) fun d e => .ret ("AEGIS-" ++ e.random,
    d.customerAccounts.rows.any fun row => row.publicReference = "AEGIS-" ++ e.random)

/-- The two rows of a new account (lines 179-204). -/
def createRows (input : InternalProvisionDefaultAccountInput)
    (publicReference maskedReference : String) : LedgerTx CustomerAccountRow :=
  (writeRow (fun e => ({
      id := e.uuid
      code := "CUST-" ++ publicReference
      currency := input.currency
      accountClass := .LIABILITY
      systemAccountType := none
      allowNegativeBalance := false } : LedgerAccountRow))
    .createAccount (accountViolation runtime)).bind fun ledgerAccount =>
  writeRow (fun e => {
      id := e.uuid
      customerId := input.customerId
      publicReference := publicReference
      maskedReference := maskedReference
      productType := input.productType
      currency := input.currency
      status := .ACTIVE
      ledgerAccountId := ledgerAccount.id
      createdAt := e.now })
    .createCustomerAccount (customerAccountViolation runtime)

/-- `createAccount` (lines 165-207), with the attempts that are left. -/
def createAccount (input : InternalProvisionDefaultAccountInput) :
    ℕ → LedgerTx CustomerAccountRow
  | 0 => .throw .other
  | attempts + 1 =>
    findReference.bind fun reference =>
      if reference.2 then createAccount input attempts
      else
        match maskAccountReference reference.1 with
        | .error e => .throw e
        | .ok maskedReference => createRows runtime input reference.1 maskedReference

/-- `MAX_REFERENCE_ATTEMPTS` (line 67). -/
def MAX_REFERENCE_ATTEMPTS : ℕ := 5

/-- The existing account (lines 139-148). -/
def findExisting (input : InternalProvisionDefaultAccountInput) (d : LedgerStore) :
    Option CustomerAccountRow :=
  d.customerAccounts.rows.find? fun row => row.customerId = input.customerId ∧
    row.productType = input.productType ∧ row.currency = input.currency

/-- The transaction of `provisionDefault` (lines 132-160). -/
def provisionRun (input : InternalProvisionDefaultAccountInput) : LedgerTx LedgerResponse :=
  (lockIdentity runtime input).bind fun _ =>
    (readDetail (findExisting input)).bind fun existing =>
      match existing with
      | some detail => .ret (.account { account := detail, created := false })
      | none =>
        (createAccount runtime input MAX_REFERENCE_ATTEMPTS).bind fun created =>
          (readDetail fun _ => some created).bind fun detail =>
            match detail with
            | none => .throw .other
            | some detail => .ret (.account { account := detail, created := true })

/-- `provisionDefaultAccountResultSchema` (`contracts/accounts/v1.ts`, lines 319-324). -/
def provisionDefaultAccountResultSchema (result : ProvisionDefaultAccountResult) : Bool :=
  isUuid result.account.id && maskedAccountReferenceSchema.accepts result.account.maskedReference &&
    currencyCodeSchema result.account.currency && decide (result.account.balance.natAbs < 10 ^ 24) &&
    publicAccountReferenceSchema.accepts result.account.receivingReference

/-- The options of `provisionDefault` (lines 124-161). -/
def provisionOptions (input : InternalProvisionDefaultAccountInput) :
    ExecuteOptions LedgerStore LedgerLock LedgerWrite Env LedgerResponse LedgerResponse where
  scope := "customer-account:default"
  idempotencyKey := input.idempotencyKey
  payload := .object [("customerId", .string input.customerId),
    ("productType", .string input.productType.text), ("currency", .string input.currency)]
  run := provisionRun runtime input
  encode := id
  decode
    | .account result =>
      if provisionDefaultAccountResultSchema result then .ok (.account result) else .error .other
    | .journal _ => .error .other

/-- `provisionDefault` (lines 119-163). -/
def provisionDefault (input : InternalProvisionDefaultAccountInput) :
    LedgerClient LedgerResponse :=
  (execute runtime (provisionOptions runtime input)).bind fun outcome => .ret outcome.result

end Statements

/-! ## What the statements establish -/

section Wp

variable {runtime : Runtime} {input : InternalProvisionDefaultAccountInput}
  {H : List LedgerLock} {ws : List LedgerWrite} {d d' : LedgerStore}

/-- A statement that neither locks nor writes. -/
theorem runs_read {T : Type} {next : LedgerStore → Env → LedgerTx T}
    {Q : List LedgerLock → List LedgerWrite → T → LedgerStore → Prop}
    (h : ∀ d' e, Later H d d' → Runs (next (ledgerDatabase.applyAll d' ws) e) Q H ws d') :
    Runs (.stmt (fun _ _ => []) (fun _ _ => []) next) Q H ws d := by
  intro d' e hout hafter
  refine ⟨by simp, ?_⟩
  beta_reduce
  rw [List.append_nil, List.append_nil]
  exact h d' e ⟨hout, hafter⟩

/-- The end of a transaction. -/
theorem runs_ret {T : Type} {value : T}
    {Q : List LedgerLock → List LedgerWrite → T → LedgerStore → Prop}
    (h : ∀ d', Later H d d' → Q H ws value d') : Runs (.ret value) Q H ws d :=
  fun d' hout hafter => h d' ⟨hout, hafter⟩

/-- What the statement returns describes the row that it read. -/
theorem runs_readDetail {row : LedgerStore → Option CustomerAccountRow}
    {Q : List LedgerLock → List LedgerWrite → Option CustomerAccountDetail → LedgerStore → Prop}
    (hnone : ∀ d' d'', Later H d d' → Later H d' d'' →
      row (ledgerDatabase.applyAll d' ws) = none → Q H ws none d'')
    (hsome : ∀ d' d'' found detail, Later H d d' → Later H d' d'' →
      row (ledgerDatabase.applyAll d' ws) = some found → detail.id = found.id →
      Q H ws (some detail) d'') : Runs (readDetail row) Q H ws d := by
  refine runs_read fun d' e hlater => ?_
  split
  next hrow =>
    exact runs_ret fun d'' hlater' => hnone d' d'' hlater hlater' hrow
  next found hrow =>
    split
    · trivial
    next detail hdetail =>
      have hid : detail.id = found.id := by
        unfold toDetail at hdetail
        split at hdetail
        · cases hdetail
          rfl
        · cases hdetail
      exact runs_ret fun d'' hlater' => hsome d' d'' found detail hlater hlater' hrow hid

/-- The transaction holds the lock of a ledger account whose identifier is free. -/
def Fresh (account : LedgerAccountRow) (H : List LedgerLock) (d : LedgerStore) : Prop :=
  .account account.id ∈ H ∧ d.accounts.find account.id = none

variable {account : LedgerAccountRow}

theorem Fresh.later (h : Fresh account H d) (hd : Later H d d') :
    Fresh account H d' := by
  refine ⟨h.1, ?_⟩
  rw [Outside.locked (fun d => d.accounts.find account.id) h.1
    (fun _ _ => applyWrite_accounts) hd.1, h.2]

theorem Fresh.mono {K : List LedgerLock} (h : Fresh account H d) :
    Fresh account (H ++ K) d := ⟨List.mem_append_left K h.1, h.2⟩

theorem accountViolation_none
    (h : accountViolation runtime d account = none) : d.accounts.find account.id = none := by
  unfold accountViolation at h
  split_ifs at h with hid
  simpa using hid

/-- The customer, product and currency of an account. -/
def CustomerAccountRow.identity (row : CustomerAccountRow) : String × AccountProductType × String :=
  (row.customerId, row.productType, row.currency)

/-- The customer, product and currency of a call. -/
def InternalProvisionDefaultAccountInput.identity (input : InternalProvisionDefaultAccountInput) :
    String × AccountProductType × String :=
  (input.customerId, input.productType, input.currency)

/-- No customer account has one of the unique values of the row. -/
structure Unused (row : CustomerAccountRow) (d : LedgerStore) : Prop where
  id : d.customerAccounts.find row.id = none
  identity : ∀ other ∈ d.customerAccounts.rows, other.identity ≠ row.identity
  ledgerAccountId : ∀ other ∈ d.customerAccounts.rows, other.ledgerAccountId ≠ row.ledgerAccountId

theorem customerAccountViolation_none {row : CustomerAccountRow}
    (h : customerAccountViolation runtime d row = none) : Unused row d := by
  unfold customerAccountViolation at h
  split_ifs at h with hid hreference howner hidentity
  refine ⟨by simpa using hid, fun other hother heq => hidentity ?_, fun other hother heq => howner ?_⟩
  · obtain ⟨hcustomer, hrest⟩ := Prod.mk.inj heq
    obtain ⟨hproduct, hcurrency⟩ := Prod.mk.inj hrest
    exact List.any_eq_true.mpr ⟨other, hother, decide_eq_true ⟨hcustomer, hproduct, hcurrency⟩⟩
  · exact List.any_eq_true.mpr ⟨other, hother, decide_eq_true heq⟩

/-- Another customer account leaves the unique values of the row alone. -/
theorem Unused.applyWrite {row : CustomerAccountRow} {w : LedgerWrite} (h : Unused row d)
    (hw : ∀ l ∈ writeLocks w, l ∉ writeLocks (.createCustomerAccount row)) :
    Unused row (applyWrite d w) := by
  cases w with
  | createCustomerAccount other =>
    have hmem : ∀ r ∈ (d.customerAccounts.add other).rows, r ∈ d.customerAccounts.rows ∨ r = other := by
      intro r hr
      unfold Table.add at hr
      cases hinsert : d.customerAccounts.insert other with
      | none =>
        rw [hinsert] at hr
        exact .inl hr
      | some rows =>
        rw [hinsert, Option.getD_some, (Table.insert_some hinsert).2] at hr
        exact (List.mem_append.mp hr).imp_right List.mem_singleton.mp
    simp only [writeLocks, List.mem_cons, List.not_mem_nil, or_false, forall_eq_or_imp, forall_eq,
      not_or, LedgerLock.customerAccount.injEq, LedgerLock.customerProduct.injEq,
      LedgerLock.customerLedgerAccount.injEq] at hw
    refine ⟨?_, fun r hr heq => ?_, fun r hr heq => ?_⟩
    · exact (Table.find_add_ne hw.1.1).trans h.id
    · rcases hmem r hr with hr | rfl
      · exact h.identity r hr heq
      · obtain ⟨hcustomer, hrest⟩ := Prod.mk.inj heq
        obtain ⟨-, hcurrency⟩ := Prod.mk.inj hrest
        exact hw.2.2.1.2.2.1 ⟨hcustomer, trivial, hcurrency⟩
    · rcases hmem r hr with hr | rfl
      · exact h.ledgerAccountId r hr heq
      · exact hw.2.2.2.2.2.2 heq
  | createAccount | createEntry | createPosting | updateProjection =>
    exact ⟨h.id, h.identity, h.ledgerAccountId⟩

/-- A transaction that is to commit a new account holds the locks of its rows, whose
    unique values are free. -/
structure NewAccount (input : InternalProvisionDefaultAccountInput) (account : LedgerAccountRow)
    (row : CustomerAccountRow) (H : List LedgerLock) (d : LedgerStore) : Prop where
  fresh : Fresh account H d
  liability : account.accountClass = .LIABILITY
  overdraft : account.allowNegativeBalance = false
  currency : account.currency = input.currency
  owner : row.ledgerAccountId = account.id
  identity : row.identity = input.identity
  locked : ∀ l ∈ writeLocks (.createCustomerAccount row), l ∈ H
  unused : Unused row d

theorem NewAccount.later {row : CustomerAccountRow}
    (h : NewAccount input account row H d) (hd : Later H d d') :
    NewAccount input account row H d' where
  fresh := h.fresh.later hd
  liability := h.liability
  overdraft := h.overdraft
  currency := h.currency
  owner := h.owner
  identity := h.identity
  locked := h.locked
  unused := hd.1.keeps (fun _ _ hw hunused => hunused.applyWrite fun l hl hrow =>
    hw l hl (h.locked l hrow)) h.unused

theorem runs_createRows {publicReference maskedReference : String}
    {Q : List LedgerLock → List LedgerWrite → CustomerAccountRow → LedgerStore → Prop}
    (hd : StoreInvariant d)
    (h : ∀ H d' account row, StoreInvariant d' → NewAccount input account row H d' →
      Q H [.createAccount account, .createCustomerAccount row] row d') :
    Runs (createRows runtime input publicReference maskedReference) Q H [] d := by
  refine runs_bind hd (runs_writeRow fun d₁ d₂ e hlater hviolation hlater₁ => ?_)
  refine runs_writeRow fun d₃ d₄ e' hlater₂ hviolation' hlater₃ => ?_
  have hfresh : Fresh _ _ d₂ := Fresh.later
    ⟨List.mem_append_right H List.mem_cons_self, accountViolation_none hviolation⟩ hlater₁
  have hunused := customerAccountViolation_none hviolation'
  refine h _ d₄ _ _ hlater₃.invariant (NewAccount.later ⟨(hfresh.later hlater₂).mono, rfl, rfl, rfl,
    rfl, rfl, fun l hl => List.mem_append_right _ hl, ?_⟩ hlater₃)
  exact ⟨hunused.id, hunused.identity, hunused.ledgerAccountId⟩

theorem runs_createAccount {attempts : ℕ}
    {Q : List LedgerLock → List LedgerWrite → CustomerAccountRow → LedgerStore → Prop}
    (hd : StoreInvariant d)
    (h : ∀ H d' account row, StoreInvariant d' → NewAccount input account row H d' →
      Q H [.createAccount account, .createCustomerAccount row] row d') :
    Runs (createAccount runtime input attempts) Q H [] d := by
  induction attempts generalizing d with
  | zero => exact trivial
  | succ attempts ih =>
    refine runs_bind hd (runs_read fun d₁ e hlater => runs_ret fun d₂ hlater₁ => ?_)
    split_ifs
    · exact ih hlater₁.invariant
    · split
      · trivial
      · exact runs_createRows hlater₁.invariant h

/-- The rows of a new account keep the contract of the store. -/
theorem commits_account {row : CustomerAccountRow}
    (hd : StoreInvariant d) (hnew : d.accounts.find account.id = none) :
    Commits ledgerDatabase storeContract (fun _ => True)
      [.createAccount account, .createCustomerAccount row] d := by
  rintro log - -
  have hinv := hd.createAccount hnew
  refine ⟨?_, ?_, trivial⟩
  · refine ⟨fun entry hentry => ?_, hinv.accounts, hinv.balanced, hinv.postings, hinv.owners⟩
    have hsound := hinv.journals entry hentry
    exact ⟨hsound.two, hsound.positive, hsound.currency, hsound.accounts, hsound.balanced⟩
  · exact ⟨fun _ _ hrow => Table.find_add_of_some hrow, fun _ _ hrow => Table.find_add_of_some hrow,
      fun _ _ hrow => hrow, fun _ _ _ => rfl⟩

/-- What `provisionDefault` is to commit: nothing, with the customer's account in the
    response, or a new account. -/
inductive Provisioned (input : InternalProvisionDefaultAccountInput) (H : List LedgerLock)
    (d : LedgerStore) : List LedgerWrite → LedgerResponse → Prop
  | existing {row detail}
      (hfind : d.customerAccounts.find detail.id = some row) (hidentity : row.identity = input.identity) :
      Provisioned input H d [] (.account { account := detail, created := false })
  | created {account row detail}
      (hnew : NewAccount input account row H d) (hid : detail.id = row.id) :
      Provisioned input H d [.createAccount account, .createCustomerAccount row]
        (.account { account := detail, created := true })

/-- The transaction of `provisionDefault`. -/
theorem runs_provisioned (hd : StoreInvariant d) :
    Runs (provisionRun runtime input)
      (fun H vs value d => StoreInvariant d ∧ Provisioned input H d vs value) [] [] d := by
  refine runs_bind hd fun d₁ e hout hafter => ⟨by simp, fun d₂ hout₂ hafter₂ => ?_⟩
  have hd₂ : StoreInvariant d₂ := Later.invariant ⟨hout₂, hafter₂⟩
  refine runs_bind hd₂ (runs_readDetail (fun d₃ d₄ _ hlater _ => ?_) ?_)
  · refine runs_bind hlater.invariant (runs_createAccount hlater.invariant ?_)
    intro H d₅ account row hd₅ hnew
    refine runs_bind hd₅ (runs_readDetail (fun _ _ _ _ hnone => by cases hnone) ?_)
    rintro d₆ d₇ found detail hlater₆ hlater₇ hfound hid
    cases hfound
    refine runs_ret fun d₈ hlater₈ => ⟨hlater₈.invariant, ?_⟩
    exact .created (((hnew.later hlater₆).later hlater₇).later hlater₈) hid
  · rintro d₃ d₄ found detail _ hlater hfound hid
    have hrow := Table.find_of_mem (List.mem_of_find?_eq_some hfound)
    have hidentity : found.identity = input.identity := by
      unfold findExisting at hfound
      have hmatch := List.find?_some hfound
      obtain ⟨hcustomer, hproduct, hcurrency⟩ := of_decide_eq_true hmatch
      exact Prod.ext hcustomer (Prod.ext hproduct hcurrency)
    refine runs_ret fun d₅ hlater₅ => ⟨hlater₅.invariant, .existing ?_ hidentity⟩
    have hextends := (hlater.2.trans hlater₅.2).1
    rw [hid]
    exact hextends.customerAccounts _ _ hrow

/-- The transaction of `provisionDefault` keeps the contract of the store. -/
theorem runs_provisionRun (hd : StoreInvariant d) :
    Runs (provisionRun runtime input)
      (fun _ vs _ => Commits ledgerDatabase storeContract (fun _ => True) vs) [] [] d := by
  refine (runs_provisioned hd).mono (fun H vs value d h => ?_) fun _ _ h => h
  obtain ⟨hd, hprovisioned⟩ := h
  cases hprovisioned with
  | existing hfind hidentity => exact fun _ _ _ => ⟨hd, storeContract.refl _, trivial⟩
  | created hnew hid => exact commits_account hd hnew.fresh.2

end Wp

end AegisShield.Ledger
