import AegisShield.Ledger.Idempotency
import AegisShield.Ledger.Store

/-!
# Posting a journal

`JournalService.post` (`journal.service.ts`): normalisation and validation before the
transaction, then the transaction that locks the accounts, projects their totals, and
writes the entry, its postings and the projections under an idempotency key.

Results:
* `runs_journalled`: what the transaction is to commit.
* `runs_journalRun`: the transaction keeps the contract of the store, and its response
  describes the journal it commits.
-/

namespace AegisShield.Ledger

open Common

/-! ## Requests and responses -/

/-- What a statement gets from the environment: a generated identifier, the random part
    of a reference, and the time. -/
structure Env where
  uuid : String
  random : String
  now : ℤ

/-- `InternalJournalRequest` (`contracts/accounts/v1.ts`, lines 363-365). -/
structure InternalJournalRequest where
  reference : Option String
  entryType : JournalEntryType
  currency : String
  description : Option String
  effectiveAt : Option String
  idempotencyKey : String
  postings : List Posting
  metadata : Option Json

/-- `JournalActor` (lines 33-36). -/
structure JournalActor where
  type : ActorType
  id : String

/-- A posting of `JournalResult` (`contracts/accounts/v1.ts`). -/
structure JournalPostingResult extends Posting where
  id : String
  sequence : ℕ
  deriving DecidableEq

/-- `JournalResult` (`contracts/accounts/v1.ts`, line 390). -/
structure JournalResult where
  id : String
  reference : String
  entryType : JournalEntryType
  currency : String
  totalMinor : ℤ
  effectiveAt : ℤ
  createdAt : ℤ
  postings : List JournalPostingResult
  deriving DecidableEq

/-- `CustomerAccountDetail` (`contracts/accounts/v1.ts`, line 206). -/
structure CustomerAccountDetail where
  id : String
  maskedReference : String
  productType : AccountProductType
  status : AccountStatus
  currency : String
  createdAt : ℤ
  balance : ℤ
  receivingReference : String
  deriving DecidableEq

/-- `ProvisionDefaultAccountResult` (`contracts/accounts/v1.ts`, lines 325-327). -/
structure ProvisionDefaultAccountResult where
  account : CustomerAccountDetail
  created : Bool
  deriving DecidableEq

/-- The responses that the idempotency records hold. -/
inductive LedgerResponse where
  | journal (result : JournalResult)
  | account (result : ProvisionDefaultAccountResult)
  deriving DecidableEq

/-- A transaction of the Ledger. -/
abbrev LedgerTx (T : Type) := Tx LedgerStore LedgerLock LedgerWrite Env Thrown T

/-- The tables of the Ledger, with its idempotency records. -/
abbrev LedgerDb := Stored LedgerStore LedgerResponse

/-- A call of the Ledger. -/
abbrev LedgerClient (T : Type) := Client LedgerDb (StoredLock LedgerLock)
  (StoredWrite LedgerWrite LedgerResponse) Env Thrown LedgerResponse T

/-- Concurrent calls of the Ledger that return `T`, one for each input. -/
abbrev LedgerCalls (T : Type) (ι : Type*) := Calls LedgerDb (StoredLock LedgerLock)
  (StoredWrite LedgerWrite LedgerResponse) Env Thrown LedgerResponse T ι

/-- The committed data, the calls and the commits. -/
abbrev LedgerCallsState (T : Type) (ι : Type*) := Calls.State LedgerDb (StoredLock LedgerLock)
  (StoredWrite LedgerWrite LedgerResponse) Env Thrown LedgerResponse T ι

/-! ## Normalisation -/

/-- The text of a direction. -/
def PostingDirection.text : PostingDirection → String
  | .DEBIT => "DEBIT"
  | .CREDIT => "CREDIT"

/-- `${posting.ledgerAccountId}:${posting.direction}`. -/
def postingKey (posting : Posting) : String :=
  posting.ledgerAccountId ++ ":" ++ posting.direction.text

/-- One round of the loop of `normalisePostings`. -/
def combine (combined : List Posting) (posting : Posting) : List Posting :=
  if combined.any fun p => postingKey p = postingKey posting then
    combined.map fun p => if postingKey p = postingKey posting then
      { p with amountMinor := p.amountMinor + posting.amountMinor } else p
  else combined ++ [posting]

/-- `normalisePostings` (lines 53-83). -/
def normalisePostings (postings : List Posting) : Except Thrown (List Posting) :=
  postings.foldlM (fun combined posting => do
    let amountMinor ← parseMinorUnits posting.amountMinor
    return combine combined { posting with amountMinor := amountMinor }) []

/-- `assertBalanced` (lines 85-103). -/
def assertBalanced (postings : List Posting) : Except Thrown ℤ :=
  if postings.length < 2 then .error unbalancedJournalError
  else if postings.any fun p => p.amountMinor ≤ 0 then .error unbalancedJournalError
  else if directionTotal postings .DEBIT ≠ directionTotal postings .CREDIT ∨
      directionTotal postings .DEBIT = 0 then .error unbalancedJournalError
  else .ok (directionTotal postings .DEBIT)

theorem assertBalanced_ok {postings : List Posting} {totalMinor : ℤ}
    (h : assertBalanced postings = .ok totalMinor) : 2 ≤ postings.length ∧
      (∀ p ∈ postings, 0 < p.amountMinor) ∧
      directionTotal postings .DEBIT = directionTotal postings .CREDIT := by
  unfold assertBalanced at h
  split_ifs at h with hlength hpositive hbalanced
  refine ⟨by omega, fun p hp => ?_, ?_⟩
  · by_contra hle
    exact hpositive (List.any_eq_true.mpr ⟨p, hp, decide_eq_true (by omega)⟩)
  · by_contra hne
    exact hbalanced (.inl hne)

/-- The order of `sort()` on texts. -/
def textLe (a b : String) : Prop := lexLe (utf16 a) (utf16 b) = true

instance : DecidableRel textLe := fun _ _ => inferInstanceAs (Decidable (_ = true))

/-- `deterministicAccountOrder` (lines 105-109). -/
def deterministicAccountOrder (ledgerAccountIds : List String) : List String :=
  ledgerAccountIds.dedup.insertionSort textLe

theorem nodup_deterministicAccountOrder (ids : List String) :
    (deterministicAccountOrder ids).Nodup :=
  (List.perm_insertionSort textLe ids.dedup).nodup_iff.mpr ids.nodup_dedup

/-! ## The transaction -/

/-- `LockedAccount` (lines 38-46). -/
structure LockedAccount where
  id : String
  currency : String
  accountClass : LedgerAccountClass
  allowNegativeBalance : Bool
  totals : Totals
  version : ℕ

/-- The row of the join of accounts and projections. -/
def lockedAccount (d : LedgerStore) (id : String) : Option LockedAccount :=
  match d.accounts.find id, d.projections.find id with
  | some account, some projection => some {
      id := account.id
      currency := account.currency
      accountClass := account.accountClass
      allowNegativeBalance := account.allowNegativeBalance
      totals := projection.totals
      version := projection.version }
  | _, _ => none

/-- A UUID as PostgreSQL returns it. -/
def lowerCase (id : String) : String := String.ofList (id.toList.map Char.toLower)

/-- The rows that `lockAccounts` selects: PostgreSQL compares UUIDs without regard to
    letter case. -/
def selectAccounts (d : LedgerStore) (uniqueIds : List String) : List LockedAccount :=
  (deterministicAccountOrder (uniqueIds.map lowerCase)).filterMap (lockedAccount d)

/-- `lockAccounts` (lines 268-310). -/
def lockAccounts (ledgerAccountIds : List String) : LedgerTx (List LockedAccount) :=
  let uniqueIds := deterministicAccountOrder ledgerAccountIds
  .stmt (fun d _ => (selectAccounts d uniqueIds).flatMap fun a => [.account a.id, .projection a.id])
    (fun _ _ => []) fun d _ =>
      if (selectAccounts d uniqueIds).length ≠ uniqueIds.length then .throw accountNotFoundError
      else .ret (selectAccounts d uniqueIds)

/-- The loop over the postings (lines 170-183). -/
def projectPostings : List LockedAccount → List Posting → Except Thrown (List LockedAccount)
  | projected, [] => .ok projected
  | projected, posting :: postings =>
    match projected.find? fun a => a.id = posting.ledgerAccountId with
    | none => .error accountNotFoundError
    | some _ => projectPostings (projected.map fun a => if a.id = posting.ledgerAccountId then
        { a with totals := applyDirection posting.direction posting.amountMinor a.totals } else a)
        postings

/-- The checks and the projection of the totals (lines 165-194). -/
def projectAccounts (accounts : List LockedAccount) (currency : String) (postings : List Posting) :
    Except Thrown (List LockedAccount) :=
  if accounts.any fun a => a.currency ≠ currency then .error currencyMismatchError
  else
    match projectPostings accounts postings with
    | .error e => .error e
    | .ok projected =>
      if projected.any fun a => decide (signedBalanceMinor a.accountClass a.totals.debitTotalMinor
          a.totals.creditTotalMinor < 0) && !a.allowNegativeBalance then
        .error insufficientFundsError
      else .ok projected

/-- A value of a BIGINT column. -/
def isBigint (value : ℤ) : Bool := -2 ^ 63 ≤ value && value < 2 ^ 63

/-- A statement that writes one row, unless a constraint is violated. -/
def writeRow {T : Type} (row : Env → T) (write : T → LedgerWrite)
    (violation : LedgerStore → T → Option Thrown) : LedgerTx T :=
  .stmt (fun _ e => writeLocks (write (row e)))
    (fun d e => match violation d (row e) with
      | some _ => []
      | none => [write (row e)])
    fun d e => match violation d (row e) with
      | some thrown => .throw thrown
      | none => .ret (row e)

section Statements

variable (runtime : Runtime)

/-- The constraints of `journal_entries`. -/
def entryViolation (d : LedgerStore) (entry : JournalEntryRow) : Option Thrown :=
  if (d.entries.find entry.id).isSome then some (uniqueViolation runtime ["id"])
  else if d.entries.rows.any fun other => other.reference = entry.reference then
    some (uniqueViolation runtime ["reference"])
  else none

/-- `tx.journalEntry.create` (lines 199-213). -/
def createEntry (request : InternalJournalRequest) (correlationId : String) (actor : JournalActor) :
    LedgerTx JournalEntryRow :=
  writeRow (fun e => {
      id := e.uuid
      reference := request.reference.getD ("JRN-" ++ e.random)
      entryType := request.entryType
      currency := request.currency
      description := request.description
      correlationId := correlationId
      effectiveAt := (request.effectiveAt.map runtime.parseDate).getD e.now
      createdAt := e.now
      createdByType := actor.type
      createdById := String.ofList (actor.id.toList.take 64)
      metadata := request.metadata.getD (.object []) })
    .createEntry (entryViolation runtime)

/-- The constraints of `journal_postings`. -/
def postingViolation (d : LedgerStore) (posting : JournalPostingRow) : Option Thrown :=
  if (d.postings.find posting.id).isSome then some (uniqueViolation runtime ["id"])
  else if (d.postingsOf posting.journalEntryId).any fun p => p.sequence = posting.sequence then
    some (uniqueViolation runtime ["journal_entry_id", "sequence"])
  else if posting.amountMinor ≤ 0 ∨ !isBigint posting.amountMinor ∨ 32 ≤ posting.sequence then
    some .other
  else if (d.entries.find posting.journalEntryId).isNone ∨
      (d.accounts.find posting.ledgerAccountId).isNone then some .other
  else none

/-- `tx.journalPosting.create` (lines 217-227). -/
def createPosting (entry : JournalEntryRow) (posting : Posting) (sequence : ℕ) :
    LedgerTx JournalPostingRow :=
  writeRow (fun e => {
      toPosting := posting
      id := e.uuid
      journalEntryId := entry.id
      currency := entry.currency
      sequence := sequence
      createdAt := e.now })
    .createPosting (postingViolation runtime)

/-- The loop over the postings (lines 216-235). -/
def createPostings (entry : JournalEntryRow) : List Posting → ℕ → LedgerTx (List JournalPostingRow)
  | [], _ => .ret []
  | posting :: postings, sequence =>
    (createPosting runtime entry posting sequence).bind fun created =>
      (createPostings entry postings (sequence + 1)).bind fun rest => .ret (created :: rest)

/-- The constraints of `balance_projections`; an update of no row fails. -/
def projectionViolation (d : LedgerStore) (update : String × Totals) : Option Thrown :=
  if (d.projections.find update.1).isNone then some .other
  else if update.2.debitTotalMinor < 0 ∨ update.2.creditTotalMinor < 0 ∨
      !isBigint update.2.debitTotalMinor ∨ !isBigint update.2.creditTotalMinor then some .other
  else none

/-- The loop over the projected accounts (lines 237-246). -/
def updateProjections : List LockedAccount → LedgerTx Unit
  | [] => .ret ()
  | account :: projected =>
    (writeRow (fun _ => (account.id, account.totals)) (fun u => .updateProjection u.1 u.2)
      projectionViolation).bind fun _ => updateProjections projected

/-- The response of a journal (lines 248-257). -/
def journalResult (entry : JournalEntryRow) (rows : List JournalPostingRow) (totalMinor : ℤ) :
    JournalResult where
  id := entry.id
  reference := entry.reference
  entryType := entry.entryType
  currency := entry.currency
  totalMinor := totalMinor
  effectiveAt := entry.effectiveAt
  createdAt := entry.createdAt
  postings := rows.map fun p => { toPosting := p.toPosting, id := p.id, sequence := p.sequence }

/-- The transaction of `post` (lines 160-258). -/
def journalRun (request : InternalJournalRequest) (correlationId : String) (actor : JournalActor)
    (postings : List Posting) (totalMinor : ℤ) : LedgerTx LedgerResponse :=
  (lockAccounts (postings.map Posting.ledgerAccountId)).bind fun accounts =>
    match projectAccounts accounts request.currency postings with
    | .error e => .throw e
    | .ok projected =>
      (createEntry runtime request correlationId actor).bind fun entry =>
        (createPostings runtime entry postings 0).bind fun rows =>
          (updateProjections projected).bind fun _ =>
            .ret (.journal (journalResult entry rows totalMinor))

/-- The text of an entry type. -/
def JournalEntryType.text : JournalEntryType → String
  | .ACCOUNT_ADJUSTMENT => "ACCOUNT_ADJUSTMENT"
  | .SETTLEMENT_FUNDING => "SETTLEMENT_FUNDING"
  | .INTERNAL_TEST => "INTERNAL_TEST"
  | .CUSTOMER_TRANSFER => "CUSTOMER_TRANSFER"
  | .QR_PAYMENT => "QR_PAYMENT"
  | .AGENT_CASH_IN => "AGENT_CASH_IN"
  | .AGENT_CASH_OUT => "AGENT_CASH_OUT"

/-- An optional member of a payload. -/
def optionalText (value : Option String) : Json := (value.map .string).getD .undefined

/-- The order of the postings in the payload (lines 151-156). -/
def postingLe (a b : Posting) : Prop := textLe (postingKey a) (postingKey b)

instance : DecidableRel postingLe := fun _ _ => inferInstanceAs (Decidable (textLe _ _))

/-- The payload of `post` (lines 138-157). -/
def journalPayload (request : InternalJournalRequest) (postings : List Posting) : Json :=
  .object [("entryType", .string request.entryType.text), ("currency", .string request.currency),
    ("reference", optionalText request.reference),
    ("description", optionalText request.description),
    ("effectiveAt", optionalText request.effectiveAt),
    ("metadata", request.metadata.getD .undefined),
    ("postings", .array ((postings.insertionSort postingLe).map fun p =>
      .object [("ledgerAccountId", .string p.ledgerAccountId),
        ("direction", .string p.direction.text), ("amountMinor", .string (toString p.amountMinor))]))]

/-- A character of a journal reference. -/
def isReferenceChar (c : Char) : Bool :=
  c.isAlphanum || c = '.' || c = '_' || c = ':' || c = '-'

/-- `journalReferenceSchema` (`contracts/accounts/v1.ts`, lines 109-115). -/
def journalReferenceSchema (reference : String) : Bool :=
  8 ≤ reference.length && reference.length ≤ 64 && reference.toList.all isReferenceChar

/-- A character of a UUID at a position. -/
def isUuidChar (i : ℕ) (c : Char) : Bool :=
  if i = 8 ∨ i = 13 ∨ i = 18 ∨ i = 23 then c = '-'
  else c.isDigit || ('a' ≤ c && c ≤ 'f') || ('A' ≤ c && c ≤ 'F')

/-- `z.uuid()`: 32 hexadecimal digits in five groups, with a version from 1 to 8 and the
    variant of RFC 9562, or the nil or the maximal UUID. -/
def isUuid (text : String) : Bool :=
  let chars := text.toList
  chars.length = 36 && (chars.zipIdx.all fun x => isUuidChar x.2 x.1) &&
    ((chars[14]?.any fun c => '1' ≤ c && c ≤ '8') &&
        (chars[19]?.any fun c => "89abAB".toList.contains c) ||
      text = "00000000-0000-0000-0000-000000000000" ||
      text = "ffffffff-ffff-ffff-ffff-ffffffffffff")

/-- `currencyCodeSchema` (`contracts/accounts/v1.ts`, lines 11-14). -/
def currencyCodeSchema (currency : String) : Bool :=
  currency.length = 3 && currency.toList.all Char.isUpper

/-- `positiveMinorUnitsSchema` (`contracts/accounts/v1.ts`, lines 24-26). -/
def positiveMinorUnitsSchema (value : ℤ) : Bool := 0 < value && value.natAbs < 10 ^ 24

/-- `journalResultSchema` (`contracts/accounts/v1.ts`, lines 378-389). -/
def journalResultSchema (result : JournalResult) : Bool :=
  isUuid result.id && journalReferenceSchema result.reference &&
    currencyCodeSchema result.currency && positiveMinorUnitsSchema result.totalMinor &&
    2 ≤ result.postings.length && result.postings.length ≤ 32 && result.postings.all fun p =>
      isUuid p.id && isUuid p.ledgerAccountId && positiveMinorUnitsSchema p.amountMinor &&
        p.sequence ≤ 31

/-- The options of `post` (lines 135-259). -/
def journalOptions (request : InternalJournalRequest) (correlationId : String)
    (actor : JournalActor) (postings : List Posting) (totalMinor : ℤ) :
    ExecuteOptions LedgerStore LedgerLock LedgerWrite Env LedgerResponse LedgerResponse where
  scope := "journal-entry"
  idempotencyKey := request.idempotencyKey
  payload := journalPayload request postings
  run := journalRun runtime request correlationId actor postings totalMinor
  encode := id
  decode
    | .journal result => if journalResultSchema result then .ok (.journal result) else .error .other
    | .account _ => .error .other

/-- `post` (lines 127-261). -/
def post (request : InternalJournalRequest) (correlationId : String) (actor : JournalActor) :
    LedgerClient LedgerResponse :=
  match normalisePostings request.postings with
  | .error e => .throw e
  | .ok postings =>
    match assertBalanced postings with
    | .error e => .throw e
    | .ok totalMinor =>
      (execute runtime (journalOptions runtime request correlationId actor postings totalMinor)).bind
        fun outcome => .ret outcome.result

end Statements

/-! ## What the statements establish -/

section Wp

variable {H : List LedgerLock} {ws : List LedgerWrite} {d d' : LedgerStore} {T : Type}

/-- The weakest precondition of a transaction that may fail with any error. -/
def Runs (tx : LedgerTx T) (Q : List LedgerLock → List LedgerWrite → T → LedgerStore → Prop)
    (H : List LedgerLock) (ws : List LedgerWrite) (d : LedgerStore) : Prop :=
  tx.Wp ledgerDatabase storeContract Q (fun _ _ => True) H ws d

/-- Other transactions may have committed, but none that needs the locks `H`. -/
def Later (H : List LedgerLock) (d d' : LedgerStore) : Prop :=
  ledgerDatabase.Outside H d d' ∧ storeContract.After d d'

theorem Later.invariant (h : Later H d d') : StoreInvariant d' := by
  obtain ⟨-, -, log, hinv⟩ := h
  exact hinv

theorem runs_bind {S : Type} {tx : LedgerTx T} {f : T → LedgerTx S}
    {Q : List LedgerLock → List LedgerWrite → S → LedgerStore → Prop} (hd : StoreInvariant d)
    (h : Runs tx (fun H ws b d => Runs (f b) Q H ws d) H ws d) : Runs (tx.bind f) Q H ws d := by
  have hinv : storeContract.inv d [] := hd
  exact Tx.wp_bind hinv h

/-- A statement that writes one row: no constraint was violated where it ran. -/
theorem runs_writeRow {row : Env → T} {write : T → LedgerWrite}
    {violation : LedgerStore → T → Option Thrown}
    {Q : List LedgerLock → List LedgerWrite → T → LedgerStore → Prop}
    (h : ∀ d' d'' e, Later H d d' → violation (ledgerDatabase.applyAll d' ws) (row e) = none →
      Later (H ++ writeLocks (write (row e))) d' d'' →
      Q (H ++ writeLocks (write (row e))) (ws ++ [write (row e)]) (row e) d'') :
    Runs (writeRow row write violation) Q H ws d := by
  intro d' e hout hafter
  beta_reduce
  cases hviolation : violation (ledgerDatabase.applyAll d' ws) (row e) with
  | some thrown => exact ⟨by simp, trivial⟩
  | none =>
    refine ⟨fun w hw l hl => ?_, fun d'' hout' hafter' => ?_⟩
    · rw [List.mem_singleton.mp hw] at hl
      exact List.mem_append_right _ hl
    · exact h d' d'' e ⟨hout, hafter⟩ hviolation ⟨hout', hafter'⟩

end Wp

/-! ## The locked accounts -/

section Locks

variable {accounts projected : List LockedAccount} {postings : List Posting} {currency : String}
  {H K : List LedgerLock} {d d' : LedgerStore}

/-- The transaction holds the locks of the accounts, which are as it read them. -/
def Locked (accounts : List LockedAccount) (H : List LedgerLock) (d : LedgerStore) : Prop :=
  ∀ a ∈ accounts, .account a.id ∈ H ∧ .projection a.id ∈ H ∧ lockedAccount d a.id = some a

theorem Locked.mono (h : Locked accounts H d) : Locked accounts (H ++ K) d := fun a ha =>
  ⟨List.mem_append_left K (h a ha).1, List.mem_append_left K (h a ha).2.1, (h a ha).2.2⟩

theorem Locked.later (h : Locked accounts H d) (hd : Later H d d') : Locked accounts H d' := by
  intro a ha
  obtain ⟨haccount, hprojection, hlocked⟩ := h a ha
  refine ⟨haccount, hprojection, ?_⟩
  rw [← hlocked]
  unfold lockedAccount
  rw [Outside.locked (fun d => d.accounts.find a.id) haccount
      (fun _ _ => applyWrite_accounts) hd.1,
    Outside.locked (fun d => d.projections.find a.id) hprojection
      (fun _ _ => applyWrite_projections) hd.1]

theorem lockedAccount_some {id : String} {a : LockedAccount} (h : lockedAccount d id = some a) :
    a.id = id ∧ ∃ account projection, d.accounts.find id = some account ∧
      d.projections.find id = some projection ∧ account.currency = a.currency ∧
      account.accountClass = a.accountClass ∧
      account.allowNegativeBalance = a.allowNegativeBalance ∧ projection.totals = a.totals := by
  unfold lockedAccount at h
  split at h
  next account projection haccount hprojection =>
    cases h
    exact ⟨Table.key_of_find haccount, account, projection, haccount, hprojection, rfl, rfl, rfl, rfl⟩
  · cases h

theorem sublist_selectAccounts (uniqueIds : List String) :
    ((selectAccounts d uniqueIds).map LockedAccount.id).Sublist
      (deterministicAccountOrder (uniqueIds.map lowerCase)) := by
  unfold selectAccounts
  induction deterministicAccountOrder (uniqueIds.map lowerCase) with
  | nil => exact List.Sublist.refl _
  | cons id ids ih =>
    cases hlocked : lockedAccount d id with
    | none =>
      rw [List.filterMap_cons_none hlocked]
      exact ih.cons id
    | some a =>
      rw [List.filterMap_cons_some hlocked, List.map_cons, (lockedAccount_some hlocked).1]
      exact ih.cons_cons id

theorem ids_selectAccounts (uniqueIds : List String) :
    ((selectAccounts d uniqueIds).map LockedAccount.id).Nodup :=
  (sublist_selectAccounts uniqueIds).nodup (nodup_deterministicAccountOrder _)

/-- `lockAccounts` returns locked accounts, each once. -/
theorem runs_lockAccounts {ids : List String}
    {Q : List LedgerLock → List LedgerWrite → List LockedAccount → LedgerStore → Prop}
    (h : ∀ H d' accounts, StoreInvariant d' → (accounts.map LockedAccount.id).Nodup →
      Locked accounts H d' → Q H [] accounts d') : Runs (lockAccounts ids) Q [] [] d := by
  intro d' e hout hafter
  refine ⟨by simp, ?_⟩
  beta_reduce
  rw [Database.applyAll_nil]
  split_ifs with hlength
  · trivial
  · intro d'' hout' hafter'
    refine h _ d'' _ (Later.invariant ⟨hout', hafter'⟩) (ids_selectAccounts _) ?_
    rw [List.nil_append] at hout' ⊢
    have hlocked : Locked (selectAccounts d' (deterministicAccountOrder ids))
        ((selectAccounts d' (deterministicAccountOrder ids)).flatMap
          fun a => [.account a.id, .projection a.id]) d' := by
      intro a ha
      obtain ⟨id, -, hid⟩ := List.mem_filterMap.mp ha
      obtain ⟨rfl, -⟩ := lockedAccount_some hid
      exact ⟨List.mem_flatMap.mpr ⟨a, ha, by simp⟩, List.mem_flatMap.mpr ⟨a, ha, by simp⟩, hid⟩
    exact hlocked.later ⟨hout', hafter'⟩

/-- An account after the postings. -/
def LockedAccount.posted (a : LockedAccount) (postings : List Posting) : LockedAccount :=
  { a with totals := {
      debitTotalMinor := a.totals.debitTotalMinor + accountTotal postings a.id .DEBIT
      creditTotalMinor := a.totals.creditTotalMinor + accountTotal postings a.id .CREDIT } }

theorem LockedAccount.posted_cons (a : LockedAccount) (posting : Posting) :
    (if a.id = posting.ledgerAccountId then
      { a with totals := applyDirection posting.direction posting.amountMinor a.totals }
      else a).posted postings = a.posted (posting :: postings) := by
  unfold LockedAccount.posted
  rw [accountTotal_cons, accountTotal_cons]
  by_cases hid : a.id = posting.ledgerAccountId
  · rw [if_pos hid]
    cases hdirection : posting.direction with
    | DEBIT | CREDIT => simp [hid, applyDirection, Int.add_assoc]
  · simp [hid, Ne.symm hid]

theorem projectPostings_ok (h : projectPostings accounts postings = .ok projected) :
    (∀ p ∈ postings, p.ledgerAccountId ∈ accounts.map LockedAccount.id) ∧
      projected = accounts.map fun a => a.posted postings := by
  induction postings generalizing accounts with
  | nil =>
    cases h
    refine ⟨by simp, (List.map_id'' (fun a => ?_) _).symm⟩
    simp [LockedAccount.posted, accountTotal, directionTotal]
  | cons posting postings ih =>
    rw [projectPostings] at h
    split at h
    · cases h
    next account hfind =>
      obtain ⟨hmem, hprojected⟩ := ih h
      have hids : ∀ id, id ∈ (accounts.map fun a => if a.id = posting.ledgerAccountId then
          { a with totals := applyDirection posting.direction posting.amountMinor a.totals }
          else a).map LockedAccount.id → id ∈ accounts.map LockedAccount.id := by
        intro id hid
        rw [List.map_map] at hid
        obtain ⟨a, ha, rfl⟩ := List.mem_map.mp hid
        refine List.mem_map.mpr ⟨a, ha, ?_⟩
        simp only [Function.comp_apply]
        split_ifs <;> rfl
      constructor
      · intro p hp
        rcases List.mem_cons.mp hp with rfl | hp
        · have hid : account.id = p.ledgerAccountId := by simpa using List.find?_some hfind
          exact List.mem_map.mpr ⟨account, List.mem_of_find?_eq_some hfind, hid⟩
        · exact hids _ (hmem p hp)
      · rw [hprojected, List.map_map]
        exact List.map_congr_left fun a _ => a.posted_cons posting

/-- What the checks before the writes establish. -/
theorem projectAccounts_ok (h : projectAccounts accounts currency postings = .ok projected) :
    (∀ a ∈ accounts, a.currency = currency) ∧
      (∀ p ∈ postings, p.ledgerAccountId ∈ accounts.map LockedAccount.id) ∧
      projected = accounts.map (fun a => a.posted postings) ∧
      ∀ a ∈ projected, a.allowNegativeBalance = false → 0 ≤ signedBalanceMinor a.accountClass
        a.totals.debitTotalMinor a.totals.creditTotalMinor := by
  unfold projectAccounts at h
  split_ifs at h with hcurrency
  split at h
  · cases h
  next projected' hprojected =>
    split_ifs at h with hfunds
    cases h
    obtain ⟨hmem, hmap⟩ := projectPostings_ok hprojected
    refine ⟨fun a ha => ?_, hmem, hmap, fun a ha hallow => ?_⟩
    · by_contra hne
      exact hcurrency (List.any_eq_true.mpr ⟨a, ha, decide_eq_true hne⟩)
    · by_contra hlt
      refine hfunds (List.any_eq_true.mpr ⟨a, ha, ?_⟩)
      rw [hallow]
      simpa using hlt

end Locks

/-! ## The draft of a journal -/

section Draft

variable {runtime : Runtime} {accounts projected : List LockedAccount} {postings : List Posting}
  {entry : JournalEntryRow} {rows : List JournalPostingRow} {updates : List (String × Totals)}
  {H K : List LedgerLock} {ws : List LedgerWrite} {d d' : LedgerStore}

/-- The transaction holds the locks of the rows it has inserted, which nobody else has. -/
structure Drafted (entry : JournalEntryRow) (rows : List JournalPostingRow)
    (H : List LedgerLock) (d : LedgerStore) : Prop where
  entry_new : .entry entry.id ∈ H ∧ d.entries.find entry.id = none
  rows_new : ∀ p ∈ rows, .posting p.id ∈ H ∧ d.postings.find p.id = none
  nodup : (rows.map JournalPostingRow.id).Nodup

theorem Drafted.mono (h : Drafted entry rows H d) : Drafted entry rows (H ++ K) d :=
  ⟨⟨List.mem_append_left K h.entry_new.1, h.entry_new.2⟩,
    fun p hp => ⟨List.mem_append_left K (h.rows_new p hp).1, (h.rows_new p hp).2⟩, h.nodup⟩

theorem Drafted.later (h : Drafted entry rows H d) (hd : Later H d d') :
    Drafted entry rows H d' where
  entry_new := by
    refine ⟨h.entry_new.1, ?_⟩
    rw [Outside.locked (fun d => d.entries.find entry.id) h.entry_new.1
      (fun _ _ => applyWrite_entries) hd.1, h.entry_new.2]
  rows_new p hp := by
    refine ⟨(h.rows_new p hp).1, ?_⟩
    rw [Outside.locked (fun d => d.postings.find p.id) (h.rows_new p hp).1
      (fun _ _ => applyWrite_postings) hd.1, (h.rows_new p hp).2]
  nodup := h.nodup

/-- The postings that the transaction sees. -/
theorem Drafted.seen (h : Drafted entry rows H d) :
    (ledgerDatabase.applyAll d (.createEntry entry :: rows.map .createPosting)).postings.rows =
      d.postings.rows ++ rows :=
  (applyAll_postings (d := { d with entries := d.entries.add entry })
    (fun p hp => (h.rows_new p hp).2) h.nodup).2

variable {posting : JournalPostingRow}

theorem postingViolation_none
    (h : postingViolation runtime d posting = none) : d.postings.find posting.id = none := by
  unfold postingViolation at h
  split_ifs at h with hid
  simpa using hid

/-- The draft with the next posting. -/
theorem Drafted.insert (h : Drafted entry rows H d) (hviolation : postingViolation runtime
      (ledgerDatabase.applyAll d (.createEntry entry :: rows.map .createPosting)) posting = none) :
    Drafted entry (rows ++ [posting]) (H ++ writeLocks (.createPosting posting)) d := by
  have hnone := postingViolation_none hviolation
  rw [Table.find_eq_none, h.seen, List.map_append, List.mem_append, not_or] at hnone
  refine ⟨h.mono.entry_new, fun p hp => ?_, ?_⟩
  · rcases List.mem_append.mp hp with hp | hp
    · exact h.mono.rows_new p hp
    · rw [List.mem_singleton.mp hp]
      exact ⟨List.mem_append_right _ List.mem_cons_self, Table.find_eq_none.mpr hnone.1⟩
  · rw [List.map_append, List.map_singleton, List.nodup_append]
    refine ⟨h.nodup, List.nodup_singleton _, fun a ha b hb hab => hnone.2 ?_⟩
    rw [List.mem_singleton.mp hb] at hab
    exact hab ▸ ha

theorem runs_createEntry {request : InternalJournalRequest} {correlationId : String}
    {actor : JournalActor}
    {Q : List LedgerLock → List LedgerWrite → JournalEntryRow → LedgerStore → Prop}
    (hlocked : Locked accounts H d)
    (h : ∀ H d' entry, StoreInvariant d' → Locked accounts H d' → Drafted entry [] H d' →
      entry.currency = request.currency → Q H [.createEntry entry] entry d') :
    Runs (createEntry runtime request correlationId actor) Q H [] d := by
  refine runs_writeRow fun d' d'' e hlater hviolation hlater' => ?_
  refine h _ d'' _ hlater'.invariant ((hlocked.later hlater).mono.later hlater') ?_ rfl
  refine Drafted.later ⟨⟨List.mem_append_right _ List.mem_cons_self, ?_⟩, by simp, by simp⟩ hlater'
  unfold entryViolation at hviolation
  split_ifs at hviolation with hid
  simpa using hid

theorem runs_createPostings
    {Q : List LedgerLock → List LedgerWrite → List JournalPostingRow → LedgerStore → Prop}
    {sequence : ℕ} (hd : StoreInvariant d) (hlocked : Locked accounts H d)
    (hdrafted : Drafted entry rows H d)
    (h : ∀ H d' created, StoreInvariant d' → Locked accounts H d' →
      Drafted entry (rows ++ created) H d' →
      created.map JournalPostingRow.toPosting = postings →
      (∀ p ∈ created, p.journalEntryId = entry.id ∧ p.currency = entry.currency) →
      Q H (.createEntry entry :: (rows ++ created).map .createPosting) created d') :
    Runs (createPostings runtime entry postings sequence) Q H
      (.createEntry entry :: rows.map .createPosting) d := by
  induction postings generalizing rows sequence H d Q with
  | nil =>
    intro d' hout hafter
    have hlater : Later H d d' := ⟨hout, hafter⟩
    simpa using h H d' [] hlater.invariant (hlocked.later hlater)
      (by simpa using hdrafted.later hlater) rfl (by simp)
  | cons posting postings ih =>
    refine runs_bind hd (runs_writeRow fun d' d'' e hlater hviolation hlater' => ?_)
    have hdrafted' := ((hdrafted.later hlater).insert hviolation).later hlater'
    refine runs_bind hlater'.invariant ?_
    have hws : ∀ p : JournalPostingRow, LedgerWrite.createEntry entry :: rows.map .createPosting ++
        [.createPosting p] = .createEntry entry :: (rows ++ [p]).map .createPosting := by simp
    rw [hws]
    refine ih hlater'.invariant ((hlocked.later hlater).mono.later hlater') hdrafted' ?_
    intro K d₃ created hd₃ hlocked₃ hdrafted₃ hpostings hcreated d₄ hout hafter
    have hlater₄ : Later K d₃ d₄ := ⟨hout, hafter⟩
    rw [List.append_assoc, List.singleton_append] at hdrafted₃ ⊢
    refine h K d₄ _ hlater₄.invariant (hlocked₃.later hlater₄) (hdrafted₃.later hlater₄) ?_ ?_
    · rw [List.map_cons, hpostings]
    · intro p hp
      rcases List.mem_cons.mp hp with rfl | hp
      · exact ⟨rfl, rfl⟩
      · exact hcreated p hp

/-- The updates of the projections of some accounts. -/
def updatesOf (projected : List LockedAccount) : List (String × Totals) :=
  projected.map fun a => (a.id, a.totals)

theorem runs_updateProjections {Q : List LedgerLock → List LedgerWrite → Unit → LedgerStore → Prop}
    (hd : StoreInvariant d) (hlocked : Locked accounts H d) (hdrafted : Drafted entry rows H d)
    (h : ∀ H d', StoreInvariant d' → Locked accounts H d' → Drafted entry rows H d' →
      Q H (ws ++ (updatesOf projected).map fun u => .updateProjection u.1 u.2) () d') :
    Runs (updateProjections projected) Q H ws d := by
  induction projected generalizing H ws d with
  | nil =>
    intro d' hout hafter
    have hlater : Later H d d' := ⟨hout, hafter⟩
    have hend := h H d' hlater.invariant (hlocked.later hlater) (hdrafted.later hlater)
    rwa [updatesOf, List.map_nil, List.map_nil, List.append_nil] at hend
  | cons account projected ih =>
    refine runs_bind hd (runs_writeRow fun d' d'' e hlater _ hlater' => ?_)
    refine ih hlater'.invariant ((hlocked.later hlater).mono.later hlater')
      ((hdrafted.later hlater).mono.later hlater') fun K d₃ hd₃ hlocked₃ hdrafted₃ => ?_
    have hend := h K d₃ hd₃ hlocked₃ hdrafted₃
    rwa [updatesOf, List.map_cons, List.map_cons, ← List.singleton_append, ← List.append_assoc]
      at hend

end Draft

/-! ## The commit of a journal -/

section Commit

variable {runtime : Runtime} {accounts projected : List LockedAccount} {postings : List Posting}
  {entry : JournalEntryRow} {rows : List JournalPostingRow} {H : List LedgerLock}
  {d d' : LedgerStore} {currency : String}

variable {totalMinor : ℤ} {request : InternalJournalRequest} {correlationId : String}
  {actor : JournalActor}

/-- The draft that has passed the checks fits. -/
theorem journalFits (hlocked : Locked accounts H d) (hdrafted : Drafted entry rows H d)
    (hnodup : (accounts.map LockedAccount.id).Nodup)
    (hprojected : projectAccounts accounts currency postings = .ok projected)
    (hbalanced : assertBalanced postings = .ok totalMinor) (hcurrency : entry.currency = currency)
    (hpostings : rows.map JournalPostingRow.toPosting = postings)
    (hrows : ∀ p ∈ rows, p.journalEntryId = entry.id ∧ p.currency = entry.currency) :
    JournalFits d entry rows (updatesOf projected) := by
  obtain ⟨htwo, hpositive, htotals⟩ := assertBalanced_ok hbalanced
  obtain ⟨hcurrencies, hids, rfl, hfunds⟩ := projectAccounts_ok hprojected
  have hfst : (updatesOf (accounts.map fun a => a.posted postings)).map Prod.fst =
      accounts.map LockedAccount.id := by
    rw [updatesOf, List.map_map, List.map_map]
    rfl
  have hmem : ∀ p ∈ rows, p.toPosting ∈ postings := by
    intro p hp
    rw [← hpostings]
    exact List.mem_map_of_mem hp
  constructor
  · exact hdrafted.entry_new.2
  · exact fun p hp => (hdrafted.rows_new p hp).2
  · exact hdrafted.nodup
  · rw [hfst]
    exact hnodup
  · intro p hp
    exact ⟨(hrows p hp).1, (hrows p hp).2, hpositive _ (hmem p hp)⟩
  · rw [← hpostings, List.length_map] at htwo
    exact htwo
  · rw [hpostings]
    exact htotals
  · intro p hp
    rw [hfst]
    exact hids _ (hmem p hp)
  · intro u hu
    obtain ⟨a', ha', rfl⟩ := List.mem_map.mp hu
    obtain ⟨a, ha, rfl⟩ := List.mem_map.mp ha'
    obtain ⟨-, account, projection, haccount, hprojection, haccountCurrency, hclass, hallow, htotal⟩ :=
      lockedAccount_some (hlocked a ha).2.2
    have hnonnegative := hfunds _ ha'
    rw [← hpostings] at hnonnegative ⊢
    refine ⟨account, projection, haccount, ?_, hprojection, ?_, ?_, fun hfalse => ?_⟩
    · rw [haccountCurrency, hcurrencies a ha, hcurrency]
    · rw [htotal]
      rfl
    · rw [htotal]
      rfl
    · rw [hclass]
      exact hnonnegative (hallow.symm.trans hfalse)

/-- What `post` is to commit: a journal of the postings that fits, described by the response. -/
structure Journalled (postings : List Posting) (totalMinor : ℤ) (d : LedgerStore)
    (vs : List LedgerWrite) (value : LedgerResponse) : Prop where
  invariant : StoreInvariant d
  journal : ∃ entry rows updates, vs = journalWrites entry rows updates ∧
    JournalFits d entry rows updates ∧ rows.map JournalPostingRow.toPosting = postings ∧
    value = .journal (journalResult entry rows totalMinor)

/-- The transaction of `post`. -/
theorem runs_journalled
    (hbalanced : assertBalanced postings = .ok totalMinor) (hd : StoreInvariant d) :
    Runs (journalRun runtime request correlationId actor postings totalMinor)
      (fun _ vs value d => Journalled postings totalMinor d vs value) [] [] d := by
  refine runs_bind hd (runs_lockAccounts fun H d accounts hd hnodup hlocked => ?_)
  cases hprojected : projectAccounts accounts request.currency postings with
  | error e => exact trivial
  | ok projected =>
    refine runs_bind hd (runs_createEntry hlocked fun H d entry hd hlocked hdrafted hcurrency => ?_)
    refine runs_bind hd (runs_createPostings hd hlocked hdrafted ?_)
    intro H d rows hd hlocked hdrafted hpostings hrows
    refine runs_bind hd (runs_updateProjections hd hlocked hdrafted ?_)
    intro H d hd hlocked hdrafted d' hout hafter
    have hlater : Later H d d' := ⟨hout, hafter⟩
    rw [List.nil_append] at hdrafted
    have hfits := journalFits (hlocked.later hlater) (hdrafted.later hlater) hnodup hprojected
      hbalanced hcurrency hpostings hrows
    exact ⟨hlater.invariant, entry, rows, updatesOf projected, rfl, hfits, hpostings, rfl⟩

/-- The transaction of `post` keeps the contract, and what it leaves behind is a
    journal of the postings with the response that describes it. -/
theorem runs_journalRun {P : LedgerResponse → LedgerStore → Prop}
    (hbalanced : assertBalanced postings = .ok totalMinor) (hd : StoreInvariant d)
    (hP : ∀ d d' entry rows updates, StoreInvariant d' → JournalFits d entry rows updates →
      JournalPosted d d' entry rows updates → d'.postingsOf entry.id = rows →
      rows.map JournalPostingRow.toPosting = postings →
      P (.journal (journalResult entry rows totalMinor)) d') :
    Runs (journalRun runtime request correlationId actor postings totalMinor)
      (fun _ vs value => Commits ledgerDatabase storeContract (P value) vs) [] [] d := by
  refine (runs_journalled hbalanced hd).mono (fun H vs value d h log _ _ => ?_) fun _ _ h => h
  obtain ⟨hd, entry, rows, updates, rfl, hfits, hpostings, rfl⟩ := h
  have hposted := applyAll_journal hfits
  have hinv' := StoreInvariant.journal hd hfits hposted
  exact ⟨hinv', hposted.extends hfits hd, hP d _ entry rows _ hinv' hfits hposted
    (hposted.postingsOf hfits hd).2 hpostings⟩

end Commit

/-! ## What a run of `post` writes -/

section Yields

variable {runtime : Runtime} {vs : List LedgerWrite}

/-- A statement that inserts one row writes that row. -/
theorem writeRow_yields {T : Type} {row : Env → T} {write : T → LedgerWrite}
    {violation : LedgerStore → T → Option Thrown} {value : T}
    (h : (writeRow row write violation).Yields vs value) :
    vs = [write value] ∧ ∃ e, value = row e := by
  unfold writeRow at h
  cases h with
  | @stmt _ _ _ d e ws _ h =>
    beta_reduce at h ⊢
    cases hviolation : violation d (row e) with
    | some thrown =>
      rw [hviolation] at h
      cases h
    | none =>
      rw [hviolation] at h
      cases h
      exact ⟨rfl, e, rfl⟩

theorem lockAccounts_yields {ids : List String} {accounts : List LockedAccount}
    (h : (lockAccounts ids).Yields vs accounts) : vs = [] := by
  unfold lockAccounts at h
  cases h with
  | stmt h =>
    beta_reduce at h
    split_ifs at h
    · cases h
    · cases h
      rfl

theorem createPostings_yields {entry : JournalEntryRow} {postings : List Posting} {sequence : ℕ}
    {rows : List JournalPostingRow}
    (h : (createPostings runtime entry postings sequence).Yields vs rows) :
    vs = rows.map .createPosting ∧ rows.map JournalPostingRow.toPosting = postings ∧
      ∀ p ∈ rows, p.journalEntryId = entry.id := by
  induction postings generalizing sequence vs rows with
  | nil =>
    cases h
    exact ⟨rfl, rfl, by simp⟩
  | cons posting postings ih =>
    obtain ⟨ws₁, created, ws₂, hcreate, hnext, rfl⟩ := h.of_bind
    obtain ⟨ws₃, rest, ws₄, hrest, hret, rfl⟩ := hnext.of_bind
    cases hret
    obtain ⟨rfl, e, rfl⟩ := writeRow_yields hcreate
    obtain ⟨rfl, hpostings, hentry⟩ := ih hrest
    refine ⟨?_, ?_, List.forall_mem_cons.mpr ⟨rfl, hentry⟩⟩
    · rw [List.append_nil, List.singleton_append, List.map_cons]
    · rw [List.map_cons, hpostings]

theorem updateProjections_yields {projected : List LockedAccount} {value : Unit}
    (h : (updateProjections projected).Yields vs value) :
    vs = (updatesOf projected).map fun u => .updateProjection u.1 u.2 := by
  induction projected generalizing vs with
  | nil =>
    cases h
    rfl
  | cons account projected ih =>
    obtain ⟨ws₁, update, ws₂, hupdate, hrest, rfl⟩ := h.of_bind
    obtain ⟨rfl, e, rfl⟩ := writeRow_yields hupdate
    rw [ih hrest]
    rfl

/-- A complete run of `post` writes one journal with its postings. -/
theorem journalRun_yields {request : InternalJournalRequest} {correlationId : String}
    {actor : JournalActor} {postings : List Posting} {totalMinor : ℤ} {response : LedgerResponse}
    (h : (journalRun runtime request correlationId actor postings totalMinor).Yields vs response) :
    ∃ entry rows updates, vs = journalWrites entry rows updates ∧
      response = .journal (journalResult entry rows totalMinor) ∧
      rows.map JournalPostingRow.toPosting = postings ∧
      (∀ p ∈ rows, p.journalEntryId = entry.id) ∧
      ∀ reference, request.reference = some reference → entry.reference = reference := by
  obtain ⟨ws₁, accounts, ws₂, hlock, hprojected, rfl⟩ := h.of_bind
  obtain rfl := lockAccounts_yields hlock
  split at hprojected
  · cases hprojected
  next projected _ =>
    obtain ⟨ws₃, entry, ws₄, hentry, hentered, rfl⟩ := hprojected.of_bind
    obtain ⟨ws₅, rows, ws₆, hrows, hposted, rfl⟩ := hentered.of_bind
    obtain ⟨ws₇, update, ws₈, hupdate, hret, rfl⟩ := hposted.of_bind
    cases hret
    obtain ⟨rfl, e, rfl⟩ := writeRow_yields hentry
    obtain ⟨rfl, hpostings, hjournal⟩ := createPostings_yields hrows
    obtain rfl := updateProjections_yields hupdate
    refine ⟨_, rows, updatesOf projected, ?_, rfl, hpostings, hjournal, fun reference hreference => ?_⟩
    · rw [List.append_nil]
      rfl
    · show request.reference.getD _ = reference
      rw [hreference, Option.getD_some]

end Yields

end AegisShield.Ledger
