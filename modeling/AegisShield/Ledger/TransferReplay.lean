import AegisShield.Ledger.ExactlyOnce
import AegisShield.Ledger.ReportedBalance

/-!
# A transfer that is sent again

`CustomerTransferService.transfer` for a command whose journal is committed
(`customer-transfer.service.ts`). The checks of the accounts and of the balance stand before
the call of `JournalService.post`, which looks up the idempotency key.

Results:
* `settled_of_committed`: what the Ledger keeps of a committed command.
* `transfer_replay`: the command is answered with its journal, in every later state, just where
  the checks still accept it and the stored response is well formed.
* `replay_refused`: the money was spent since.
-/

namespace AegisShield.Ledger

open Common
open Payments (InternalLedgerTransferCommand)

/-! ## The property -/

/-- The `where` of the first read of `resolve`. -/
def isSource (input : InternalLedgerTransferCommand) (row : CustomerAccountRow) : Bool :=
  decide (row.id = input.sourceAccountId ∧ row.customerId = input.senderCustomerId)

/-- The `where` of the second read of `resolve`. -/
def isRecipient (input : InternalLedgerTransferCommand) (row : CustomerAccountRow) : Bool :=
  decide (row.publicReference = input.recipientReference)

/-- The journal of the command, between the accounts that it names, has been committed. -/
structure Committed (s : TransferState) (input : InternalLedgerTransferCommand)
    (source recipient : Account) : Prop where
  source_found : s.ledger.db.app.customerAccounts.rows.find? (isSource input) = some source.row
  recipient_found :
    s.ledger.db.app.customerAccounts.rows.find? (isRecipient input) = some recipient.row
  posted : ∃ correlationId ws,
    (LedgerCall.post (transferRequest input source recipient) correlationId paymentsActor, ws) ∈
      s.ledger.log

/-- The same Ledger, with any statuses of the customers' accounts: an operator sets them in the
    database. -/
structure StatusesSet (s t : TransferState) : Prop where
  transfers : t.transfers = s.transfers
  procs : t.ledger.procs = s.ledger.procs
  log : t.ledger.log = s.ledger.log
  records : t.ledger.db.records = s.ledger.db.records
  accounts : t.ledger.db.app.accounts = s.ledger.db.app.accounts
  projections : t.ledger.db.app.projections = s.ledger.db.app.projections
  entries : t.ledger.db.app.entries = s.ledger.db.app.entries
  postings : t.ledger.db.app.postings = s.ledger.db.app.postings
  customerAccounts : List.Forall₂ (fun row row' => row' = { row with status := row'.status })
    s.ledger.db.app.customerAccounts.rows t.ledger.db.app.customerAccounts.rows

/-- The command is sent once more. -/
def TransferState.reissue (s : TransferState) (input : InternalLedgerTransferCommand)
    (correlationId : String) : TransferState :=
  { s with transfers := s.transfers ++
      [{ input := input, correlationId := correlationId, stage := .resolving none none }] }

/-- The steps of one call of `transfer` and of its call of `post`, when no statement fails. -/
def alone (n call : ℕ) (_ : TransferState) : TransferAction → Prop
  | .step m move => m = n ∧ move ≠ .fail
  | .ledger (.next m move) => m = call ∧ move ≠ .abort ∧ move ≠ .lose ∧ move ≠ .crash
  | _ => False

/-- The states in which the command, sent once more, may stand. -/
def Sends (runtime : Runtime) (s : TransferState) (input : InternalLedgerTransferCommand)
    (correlationId : String) (t : TransferState) : Prop :=
  (transfers runtime).Path (alone s.transfers.length s.ledger.procs.length)
    (s.reissue input correlationId) t

/-- The command is answered with the journal, and nothing is stored. -/
structure Replays (runtime : Runtime) (s : TransferState) (input : InternalLedgerTransferCommand)
    (journal : JournalResult) : Prop where
  unchanged : ∀ correlationId t, Sends runtime s input correlationId t → t.ledger.db = s.ledger.db
  answer : ∀ correlationId t, Sends runtime s input correlationId t →
    ∀ p r, t.transfers[s.transfers.length]? = some p → p.stage = .done r →
      ∃ result, r = .ok result ∧ result.journalId = journal.id
  ends : ∀ correlationId, ∃ t, Sends runtime s input correlationId t ∧
    ∃ p r, t.transfers[s.transfers.length]? = some p ∧ p.stage = .done r

/-- The checks before the call of `post` accept the command. -/
def Passes (d : LedgerStore) (input : InternalLedgerTransferCommand) (source recipient : Account) :
    Prop :=
  findSource d input = .ok (some source) ∧ findRecipient d input = .ok (some recipient) ∧
    resolve input (some source) (some recipient) = .ok (source, recipient) ∧
    checkAmount input source = .ok ()

/-- When the command is answered: the checks accept it, and so does the schema of the stored
    response. -/
def StillAccepted (d : LedgerStore) (input : InternalLedgerTransferCommand)
    (journal : JournalResult) : Prop :=
  (∃ source recipient, Passes d input source recipient) ∧ journalResultSchema journal = true

/-! ## The two postings -/

section Postings

variable {runtime : Runtime} {input : InternalLedgerTransferCommand}
  {source recipient source' recipient' : Account} {postings : List Posting}

/-- The postings of a transfer. -/
def transferPostings (input : InternalLedgerTransferCommand) (source recipient : Account) :
    List Posting :=
  (transferRequest input source recipient).postings

theorem postingKey_ne (a b : String) (amount amount' : ℤ) :
    postingKey ⟨a, .DEBIT, amount⟩ ≠ postingKey ⟨b, .CREDIT, amount'⟩ := by
  intro heq
  have hlists := congrArg (fun text => (text.toList.reverse.take 3)) heq
  simp [postingKey, PostingDirection.text] at hlists

/-- A debit and a credit are not merged. -/
theorem normalisePostings_transfer
    (h : normalisePostings (transferPostings input source recipient) = .ok postings) :
    postings = transferPostings input source recipient := by
  unfold normalisePostings transferPostings transferRequest at h
  simp only [List.foldlM_cons, List.foldlM_nil] at h
  cases hparse : parseMinorUnits input.amountMinor with
  | error e =>
    rw [hparse] at h
    cases h
  | ok amount =>
    have hamount : input.amountMinor = amount := by
      unfold parseMinorUnits at hparse
      split_ifs at hparse
      exact Except.ok.inj hparse
    have hkey := postingKey_ne source.row.ledgerAccountId recipient.row.ledgerAccountId amount amount
    rw [hparse] at h
    simp only [bind, Except.bind, pure, Except.pure, combine, List.any_nil, Bool.false_eq_true,
      if_false, List.nil_append, List.any_cons, hkey, decide_false, Bool.or_false] at h
    rw [← Except.ok.inj h]
    unfold transferPostings transferRequest
    rw [hamount]
    rfl

/-- The request depends on the accounts by their Ledger accounts. -/
theorem transferRequest_congr (hsource : source'.row.ledgerAccountId = source.row.ledgerAccountId)
    (hrecipient : recipient'.row.ledgerAccountId = recipient.row.ledgerAccountId) :
    transferRequest input source' recipient' = transferRequest input source recipient := by
  unfold transferRequest
  rw [hsource, hrecipient]

theorem postingOn_transfer {journal : JournalResult}
    (h : journal.postings.map JournalPostingResult.toPosting =
      transferPostings input source recipient) :
    (∃ posting, journal.postingOn source.row.ledgerAccountId = some posting) ∧
      ∃ posting, journal.postingOn recipient.row.ledgerAccountId = some posting := by
  have hfound : ∀ p ∈ transferPostings input source recipient,
      ∃ posting, journal.postingOn p.ledgerAccountId = some posting := by
    intro p hp
    rw [← h] at hp
    obtain ⟨item, hitem, rfl⟩ := List.mem_map.mp hp
    refine Option.isSome_iff_exists.mp (List.find?_isSome.mpr ⟨item, hitem, ?_⟩)
    exact decide_eq_true rfl
  unfold transferPostings transferRequest at hfound
  exact ⟨hfound _ List.mem_cons_self, hfound _ (List.mem_cons_of_mem _ List.mem_cons_self)⟩

end Postings

/-! ## What the Ledger keeps of a committed command -/

section Settled

variable {runtime : Runtime} {s t : TransferState} {input : InternalLedgerTransferCommand}
  {source recipient : Account} {journal : JournalResult}

variable {request : InternalJournalRequest} {actor : JournalActor}

/-- The response of a complete run of `post`. -/
theorem journalRun_response {correlationId : String} {postings : List Posting} {totalMinor : ℤ}
    {vs : List LedgerWrite}
    {response : LedgerResponse}
    (h : (journalRun runtime request correlationId actor postings totalMinor).Yields vs response) :
    ∃ journal, response = .journal journal ∧
      (∀ reference, request.reference = some reference → journal.reference = reference) ∧
      journal.postings.map JournalPostingResult.toPosting = postings := by
  obtain ⟨entry, rows, updates, -, rfl, rfl, -, hreference⟩ := journalRun_yields h
  exact ⟨_, rfl, hreference, map_journalResult entry rows totalMinor⟩

/-- What the Ledger keeps of a committed command. -/
structure Settled (runtime : Runtime) (d : LedgerDb)
    (input : InternalLedgerTransferCommand) (source recipient : Account) (journal : JournalResult) :
    Prop where
  source_found : ∃ row, d.app.customerAccounts.rows.find? (isSource input) = some row ∧
    row.ledgerAccountId = source.row.ledgerAccountId
  recipient_found : ∃ row, d.app.customerAccounts.rows.find? (isRecipient input) = some row ∧
    row.ledgerAccountId = recipient.row.ledgerAccountId
  normal : normalisePostings (transferPostings input source recipient) =
    .ok (transferPostings input source recipient)
  balanced : ∃ totalMinor, assertBalanced (transferPostings input source recipient) = .ok totalMinor
  recorded : ∃ record,
    d.records.find ("journal-entry", runtime.sha256 input.idempotencyKey) = some record ∧
      record.status = .COMPLETED ∧ record.responseBody = some (.journal journal) ∧
      record.requestHash = canonicalRequestHash runtime
        (journalPayload (transferRequest input source recipient)
          (transferPostings input source recipient))
  reference : journal.reference = input.transferReference
  postings : journal.postings.map JournalPostingResult.toPosting =
    transferPostings input source recipient

/-- A commit of `post`. -/
theorem makes_post {correlationId : String} {ws : List (StoredWrite LedgerWrite LedgerResponse)}
    (h : (post runtime request correlationId actor).Makes ws) :
    ∃ postings totalMinor vs journal, normalisePostings request.postings = .ok postings ∧
      assertBalanced postings = .ok totalMinor ∧
      ws = executionWrites ((journalOptions runtime request correlationId actor postings
        totalMinor).reservation runtime) vs (.journal journal) ∧
      (∀ reference, request.reference = some reference → journal.reference = reference) ∧
      journal.postings.map JournalPostingResult.toPosting = postings := by
  unfold post at h
  split at h
  · cases h
  next postings hnormal =>
    split at h
    · cases h
    next totalMinor hbalanced =>
      obtain ⟨vs, value, hrun, hws⟩ := makes_answered h
      obtain ⟨journal, hvalue, hreference, hpostings⟩ := journalRun_response hrun
      refine ⟨postings, totalMinor, vs, journal, hnormal, hbalanced, ?_, hreference, hpostings⟩
      rw [hws, ← hvalue]
      rfl

/-- What the Ledger keeps of a committed command. -/
theorem settled_of_committed (h : (transfers runtime).Reachable Machine.always s)
    (hcommitted : Committed s input source recipient) :
    ∃ journal, Settled runtime s.ledger.db input source recipient journal := by
  obtain ⟨correlationId, ws, hmem⟩ := hcommitted.posted
  have hreach := ledger_of_transfers h
  have hmakes : (post runtime (transferRequest input source recipient) correlationId
    paymentsActor).Makes ws := Calls.makes_of_mem_log hreach hmem
  obtain ⟨postings, totalMinor, vs, journal, hnormal, hbalanced, hws, hreference, hpostings⟩ :=
    makes_post hmakes
  obtain rfl := normalisePostings_transfer hnormal
  obtain ⟨⟨-, -, hlog, -⟩, -⟩ := responses_sound hreach
  obtain ⟨record, vs', body, hws', hfind⟩ := hlog ws (List.mem_map_of_mem hmem)
  obtain ⟨rfl, rfl⟩ := executionWrites_inj (hws.symm.trans hws')
  exact ⟨journal, ⟨_, hcommitted.source_found, rfl⟩, ⟨_, hcommitted.recipient_found, rfl⟩, hnormal,
    ⟨totalMinor, hbalanced⟩, ⟨_, hfind, rfl, rfl, rfl⟩, hreference _ rfl, hpostings⟩

/-! ## Later states -/

/-- Writes only add customers' accounts. -/
theorem customerAccounts_isPrefix (ws : List LedgerWrite) (a : LedgerStore) :
    a.customerAccounts.rows <+: (ledgerDatabase.applyAll a ws).customerAccounts.rows := by
  induction ws generalizing a with
  | nil => exact List.prefix_refl _
  | cons w ws ih =>
    rw [Database.applyAll_cons]
    refine List.IsPrefix.trans ?_ (ih _)
    cases w with
    | createCustomerAccount account =>
      show _ <+: (a.customerAccounts.add account).rows
      rcases rows_add_cases a.customerAccounts account with hsame | hadded
      · rw [hsame]
      · rw [hadded]
        exact List.prefix_append _ _
    | _ => exact List.prefix_refl _

theorem customerAccounts_step {l l' : LedgerState} {action : Calls.Action Env LedgerCall}
    (h : (ledger runtime).machine.step l action = some l') :
    l.db.app.customerAccounts.rows <+: l'.db.app.customerAccounts.rows := by
  cases action with
  | start call =>
    obtain rfl := Calls.step_start h
    exact List.prefix_refl _
  | next n move =>
    obtain ⟨i, p, p', -, -, ⟨-, rfl⟩ | ⟨ws, -, rfl⟩⟩ := Calls.step_next h
    · exact List.prefix_refl _
    · show _ <+: ((stored ledgerDatabase).applyAll l.db ws).app.customerAccounts.rows
      rw [applyAll_app]
      exact customerAccounts_isPrefix _ _

theorem Settled.grows {d d' : LedgerDb}
    (hrecords : ∀ k record, d.records.find k = some record → d'.records.find k = some record)
    (hrows : d.app.customerAccounts.rows <+: d'.app.customerAccounts.rows)
    (h : Settled runtime d input source recipient journal) :
    Settled runtime d' input source recipient journal := by
  obtain ⟨⟨row, hrow, hid⟩, ⟨row', hrow', hid'⟩, hnormal, hbalanced, ⟨record, hrecord, hrest⟩, hreference,
    hpostings⟩ := h
  exact ⟨⟨row, hrows.find?_eq_some hrow, hid⟩, ⟨row', hrows.find?_eq_some hrow', hid'⟩, hnormal,
    hbalanced, ⟨record, hrecords _ _ hrecord, hrest⟩, hreference, hpostings⟩

theorem Settled.path (hreach : (transfers runtime).Reachable Machine.always s)
    (hpath : (transfers runtime).Path Machine.always s t)
    (h : Settled runtime s.ledger.db input source recipient journal) :
    Settled runtime t.ledger.db input source recipient journal := by
  refine Machine.Path.stable
    (P := fun t => Settled runtime t.ledger.db input source recipient journal) hreach ?_ hpath h
  rintro t a u ht - hstep hsettled
  have hledger : ∀ {action l}, (ledger runtime).machine.step t.ledger action = some l →
      Settled runtime l.db input source recipient journal := fun hl =>
    hsettled.grows (grows_of_step (ledger_of_transfers ht) hl).records (customerAccounts_step hl)
  cases a with
  | ledger action =>
    obtain ⟨l, hl, rfl⟩ := transfers_ledger hstep
    exact hledger hl
  | transfer input correlationId =>
    cases hstep
    exact hsettled
  | step n move =>
    obtain ⟨p, l, p', -, hnext, rfl⟩ := transfers_step hstep
    rcases (transferStep_of_next hnext).ledger with rfl | ⟨call, hcall⟩
    · exact hsettled
    · exact hledger hcall

/-- A search that does not ask for the status. -/
theorem find?_statuses {f : CustomerAccountRow → Bool}
    (hf : ∀ row status, f { row with status := status } = f row)
    {rows rows' : List CustomerAccountRow}
    (h : List.Forall₂ (fun row row' => row' = { row with status := row'.status }) rows rows') :
    Option.Rel (fun row row' => row' = { row with status := row'.status }) (rows.find? f)
      (rows'.find? f) := by
  induction h with
  | nil => exact .none
  | @cons row row' rows rows' hrow _ ih =>
    have hsame : f row' = f row := by
      rw [hrow]
      exact hf row _
    rw [List.find?_cons, List.find?_cons, hsame]
    cases f row with
    | true => exact .some hrow
    | false => exact ih

theorem Settled.statuses (hset : StatusesSet s t)
    (h : Settled runtime s.ledger.db input source recipient journal) :
    Settled runtime t.ledger.db input source recipient journal := by
  have hfind : ∀ {f : CustomerAccountRow → Bool} {id : String},
      (∀ row status, f { row with status := status } = f row) →
      (∃ row, s.ledger.db.app.customerAccounts.rows.find? f = some row ∧
        row.ledgerAccountId = id) →
      ∃ row, t.ledger.db.app.customerAccounts.rows.find? f = some row ∧
        row.ledgerAccountId = id := by
    rintro f id hf ⟨row, hrow, rfl⟩
    have hrel := find?_statuses hf hset.customerAccounts
    rw [hrow] at hrel
    cases hother : t.ledger.db.app.customerAccounts.rows.find? f with
    | none =>
      rw [hother] at hrel
      cases hrel
    | some row' =>
      rw [hother] at hrel
      cases hrel with
      | some hsame =>
        refine ⟨row', rfl, ?_⟩
        rw [hsame]
  refine ⟨hfind (fun _ _ => rfl) h.source_found, hfind (fun _ _ => rfl) h.recipient_found, h.normal,
    h.balanced, ?_, h.reference, h.postings⟩
  rw [hset.records]
  exact h.recorded

end Settled

/-! ## The command, sent once more -/

section Alone

variable {runtime : Runtime} {s t u : TransferState} {input : InternalLedgerTransferCommand}
  {correlationId : String} {source recipient : Account} {journal : JournalResult}
  {d : LedgerDb}

/-- The call of `post` finds the stored response. -/
theorem post_query (h : Settled runtime d input source recipient journal) (correlationId : String) :
    ∃ next, post runtime (transferRequest input source recipient) correlationId paymentsActor =
        .query next ∧
      next d = if journalResultSchema journal = true then .ret (.journal journal)
        else .throw .other := by
  obtain ⟨totalMinor, hbalanced⟩ := h.balanced
  obtain ⟨record, hrecord, hstatus, hbody, hhash⟩ := h.recorded
  have hpost : post runtime (transferRequest input source recipient) correlationId paymentsActor =
      (execute runtime (journalOptions runtime (transferRequest input source recipient)
        correlationId paymentsActor (transferPostings input source recipient) totalMinor)).bind
        fun outcome => .ret outcome.result := by
    have hnormal : normalisePostings (transferRequest input source recipient).postings = _ := h.normal
    unfold post
    rw [hnormal]
    dsimp only
    rw [hbalanced]
  have hreplay : replayIfSettled runtime (journalOptions runtime
      (transferRequest input source recipient) correlationId paymentsActor
      (transferPostings input source recipient) totalMinor) false d =
        if journalResultSchema journal = true then
          .ok (some { result := .journal journal, replayed := true })
        else .error .other := by
    have hequal : timingSafeStringEqual record.requestHash ((journalOptions runtime
        (transferRequest input source recipient) correlationId paymentsActor
        (transferPostings input source recipient) totalMinor).requestHash runtime) = true :=
      (timingSafeStringEqual_iff (runtime.sha256_ne_empty _)).mpr hhash
    have hfind : d.records.find ((journalOptions runtime (transferRequest input source recipient)
        correlationId paymentsActor (transferPostings input source recipient)
        totalMinor).recordKey runtime) = some record := hrecord
    unfold replayIfSettled
    rw [hfind]
    dsimp only
    rw [hequal, hstatus, hbody]
    by_cases hschema : journalResultSchema journal = true
    · simp [journalOptions, hschema, Except.map]
    · simp [journalOptions, hschema, Except.map]
  refine ⟨_, hpost, ?_⟩
  beta_reduce
  rw [hreplay]
  split_ifs
  · rfl
  · rfl

/-- A call of the Ledger, and where it stands. -/
abbrev LedgerProc := LedgerCall × Proc LedgerDb (StoredLock LedgerLock)
  (StoredWrite LedgerWrite LedgerResponse) Env Thrown LedgerResponse LedgerResponse

/-- The state with the call at a stage and these calls of the Ledger. -/
def reissued (s : TransferState) (input : InternalLedgerTransferCommand) (correlationId : String)
    (stage : TransferStage) (procs : List LedgerProc) : TransferState where
  ledger := { s.ledger with procs := procs }
  transfers := s.transfers ++
    [{ input := input, correlationId := correlationId, stage := stage }]

variable {stage : TransferStage} {procs : List LedgerProc}

/-- A step of the call that is sent once more. -/
theorem step_reissued {move : TransferMove} :
    (transfers runtime).step (reissued s input correlationId stage procs)
        (.step s.transfers.length move) =
      (TransferCall.next runtime { s.ledger with procs := procs }
        { input := input, correlationId := correlationId, stage := stage } move).map fun r =>
          { ledger := r.1, transfers := s.transfers ++ [r.2] } := by
  have hget : (reissued s input correlationId stage procs).transfers[s.transfers.length]? =
      some { input := input, correlationId := correlationId, stage := stage } :=
    List.getElem?_concat_length
  have hset : ∀ p : TransferCall, (reissued s input correlationId stage procs).transfers.set
      s.transfers.length p = s.transfers ++ [p] := by
    intro p
    simp [reissued]
  simp only [transfers, hget, hset]
  rfl

/-- The call of `post` that the command makes when it is sent once more. -/
def replayedPost (input : InternalLedgerTransferCommand) (correlationId : String)
    (source recipient : Account) : LedgerCall :=
  .post (transferRequest input source recipient) correlationId paymentsActor

/-- The stages of a command that is answered with its journal. -/
inductive Replaying (runtime : Runtime) (procs : List LedgerProc)
    (input : InternalLedgerTransferCommand) (correlationId : String) (source recipient : Account)
    (journal : JournalResult) : TransferStage → List LedgerProc → Prop
  | resolving {source₀ recipient₀} (hsource : source₀ = none ∨ source₀ = some (some source))
      (hrecipient : recipient₀ = none ∨ recipient₀ = some (some recipient)) :
      Replaying runtime procs input correlationId source recipient journal
        (.resolving source₀ recipient₀) procs
  | asking : Replaying runtime procs input correlationId source recipient journal
      (.posting source recipient procs.length)
      (procs ++ [(replayedPost input correlationId source recipient,
        .client ((ledger runtime).call (replayedPost input correlationId source recipient)))])
  | answered : Replaying runtime procs input correlationId source recipient journal
      (.posting source recipient procs.length)
      (procs ++ [(replayedPost input correlationId source recipient,
        .client (.ret (.journal journal)))])
  | reading (senderPosting recipientPosting : JournalPostingResult)
      (sourceAfter recipientAfter : Option Totals) :
      Replaying runtime procs input correlationId source recipient journal
        (.reading source recipient journal senderPosting recipientPosting sourceAfter recipientAfter)
        (procs ++ [(replayedPost input correlationId source recipient,
          .client (.ret (.journal journal)))])
  | done {result} (h : result.journalId = journal.id) :
      Replaying runtime procs input correlationId source recipient journal (.done (.ok result))
        (procs ++ [(replayedPost input correlationId source recipient,
          .client (.ret (.journal journal)))])

/-- What the steps of the command need. -/
structure Ready (runtime : Runtime) (d : LedgerDb)
    (input : InternalLedgerTransferCommand) (source recipient : Account) (journal : JournalResult) :
    Prop where
  settled : Settled runtime d input source recipient journal
  passes : Passes d.app input source recipient
  schema : journalResultSchema journal = true
  projections : ∀ id, id = source.row.ledgerAccountId ∨ id = recipient.row.ledgerAccountId →
    ∃ projection, d.app.projections.find id = some projection

/-- A step of `transfer` goes on with the replay. -/
theorem Replaying.step (hready : Ready runtime s.ledger.db input source recipient journal)
    {move : TransferMove} (hmove : move ≠ .fail)
    (h : Replaying runtime s.ledger.procs input correlationId source recipient journal stage procs)
    (hstep : (transfers runtime).step (reissued s input correlationId stage procs)
      (.step s.transfers.length move) = some t) :
    ∃ stage' procs', t = reissued s input correlationId stage' procs' ∧
      Replaying runtime s.ledger.procs input correlationId source recipient journal stage'
        procs' := by
  obtain ⟨hsource, hrecipient, hresolve, hamount⟩ := hready.passes
  rw [step_reissued] at hstep
  obtain ⟨⟨l, p⟩, hnext, rfl⟩ := Option.map_eq_some_iff.mp hstep
  unfold TransferCall.next at hnext
  cases h with
  | resolving hsource₀ hrecipient₀ =>
    cases move with
    | readSource =>
      rcases hsource₀ with rfl | rfl
      · dsimp only at hnext
        rw [hsource] at hnext
        cases hnext
        exact ⟨_, _, rfl, .resolving (.inr rfl) hrecipient₀⟩
      · cases hnext
    | readRecipient =>
      rcases hrecipient₀ with rfl | rfl
      · dsimp only at hnext
        rw [hrecipient] at hnext
        cases hnext
        exact ⟨_, _, rfl, .resolving hsource₀ (.inr rfl)⟩
      · rcases hsource₀ with rfl | rfl
        · cases hnext
        · cases hnext
    | proceed =>
      rcases hsource₀ with rfl | rfl
      · cases hnext
      · rcases hrecipient₀ with rfl | rfl
        · cases hnext
        · dsimp only at hnext
          rw [hresolve] at hnext
          dsimp only at hnext
          rw [hamount] at hnext
          cases hnext
          exact ⟨_, _, rfl, .asking⟩
    | fail => exact absurd rfl hmove
  | asking =>
    cases move with
    | proceed =>
      dsimp only at hnext
      rw [List.getElem?_concat_length] at hnext
      obtain ⟨next, hpost, -⟩ := post_query hready.settled correlationId
      have hquery : (ledger runtime).call (replayedPost input correlationId source recipient) =
        .query next := hpost
      rw [hquery] at hnext
      cases hnext
    | readSource | readRecipient => cases hnext
    | fail => exact absurd rfl hmove
  | answered =>
    obtain ⟨⟨senderPosting, hsender⟩, recipientPosting, hposting⟩ :=
      postingOn_transfer hready.settled.postings
    cases move with
    | proceed =>
      dsimp only at hnext
      rw [List.getElem?_concat_length] at hnext
      dsimp only [Proc.answer] at hnext
      rw [hsender, hposting] at hnext
      cases hnext
      exact ⟨_, _, rfl, .reading senderPosting recipientPosting none none⟩
    | readSource | readRecipient => cases hnext
    | fail => exact absurd rfl hmove
  | reading senderPosting recipientPosting sourceAfter recipientAfter =>
    obtain ⟨sourceProjection, hsourceProjection⟩ := hready.projections _ (.inl rfl)
    obtain ⟨recipientProjection, hrecipientProjection⟩ := hready.projections _ (.inr rfl)
    cases move with
    | readSource =>
      rcases sourceAfter with _ | totals
      · dsimp only at hnext
        rw [hsourceProjection] at hnext
        cases hnext
        exact ⟨_, _, rfl, .reading senderPosting recipientPosting _ recipientAfter⟩
      · cases hnext
    | readRecipient =>
      rcases recipientAfter with _ | totals
      · dsimp only at hnext
        rw [hrecipientProjection] at hnext
        cases hnext
        exact ⟨_, _, rfl, .reading senderPosting recipientPosting sourceAfter _⟩
      · rcases sourceAfter with _ | totals
        · cases hnext
        · cases hnext
    | proceed =>
      rcases sourceAfter with _ | sourceAfter
      · cases hnext
      · rcases recipientAfter with _ | recipientAfter
        · cases hnext
        · cases hnext
          exact ⟨_, _, rfl, .done rfl⟩
    | fail => exact absurd rfl hmove
  | done hid =>
    cases move with
    | fail => exact absurd rfl hmove
    | readSource | readRecipient | proceed => cases hnext

/-- A step of the call of `post` goes on with the replay. -/
theorem Replaying.answer (hready : Ready runtime s.ledger.db input source recipient journal)
    {move : Move Env} (habort : move ≠ .abort)
    (hcrash : move ≠ .crash)
    (h : Replaying runtime s.ledger.procs input correlationId source recipient journal stage procs)
    (hstep : (transfers runtime).step (reissued s input correlationId stage procs)
      (.ledger (.next s.ledger.procs.length move)) = some t) :
    ∃ stage' procs', t = reissued s input correlationId stage' procs' ∧
      Replaying runtime s.ledger.procs input correlationId source recipient journal stage'
        procs' := by
  obtain ⟨l, hl, rfl⟩ := transfers_ledger hstep
  obtain ⟨i, p, p', hp, -, hcases⟩ := Calls.step_next hl
  have hlast : ∀ {proc}, (procs = s.ledger.procs ++
      [(replayedPost input correlationId source recipient, proc)]) →
      i = replayedPost input correlationId source recipient ∧ p = proc := by
    rintro proc rfl
    have hget : (reissued s input correlationId stage (s.ledger.procs ++
        [(replayedPost input correlationId source recipient, proc)])).ledger.procs[
          s.ledger.procs.length]? = some (replayedPost input correlationId source recipient, proc) :=
      List.getElem?_concat_length
    rw [hget] at hp
    cases hp
    exact ⟨rfl, rfl⟩
  have hidle : ∀ {ws}, p = .client (.ret (.journal journal)) →
      p.next (ledger runtime).database s.ledger.db move = some (p', ws) → False := by
    rintro ws rfl hnext
    cases move with
    | crash => exact hcrash rfl
    | _ => cases hnext
  have hreturned : procs = s.ledger.procs ++ [(replayedPost input correlationId source recipient,
      .client (.ret (.journal journal)))] → False := by
    intro hprocs
    rcases hcases with ⟨hnext, -⟩ | ⟨ws, hnext, -⟩
    · exact hidle (hlast hprocs).2 hnext
    · exact hidle (hlast hprocs).2 hnext
  cases h with
  | resolving hsource₀ hrecipient₀ =>
    simp [reissued] at hp
  | asking =>
    obtain ⟨rfl, rfl⟩ := hlast rfl
    obtain ⟨next, hpost, hvalue⟩ := post_query hready.settled correlationId
    have hquery : (ledger runtime).call (replayedPost input correlationId source recipient) =
      .query next := hpost
    rw [if_pos hready.schema] at hvalue
    rw [hquery] at hcases
    cases move with
    | query =>
      rcases hcases with ⟨hnext, rfl⟩ | ⟨ws, hnext, -⟩
      · cases hnext
        refine ⟨_, _, ?_, .answered⟩
        simp [reissued, hvalue]
      · cases hnext
    | abort => exact absurd rfl habort
    | crash => exact absurd rfl hcrash
    | _ =>
      rcases hcases with ⟨hnext, -⟩ | ⟨ws, hnext, -⟩
      · cases hnext
      · cases hnext
  | answered | reading | done => exact (hreturned rfl).elim

/-- The command is answered with its journal, whatever its steps. -/
theorem replaying_of_sends (hready : Ready runtime s.ledger.db input source recipient journal)
    (h : Sends runtime s input correlationId t) :
    ∃ stage procs, t = reissued s input correlationId stage procs ∧
      Replaying runtime s.ledger.procs input correlationId source recipient journal stage procs := by
  unfold Sends at h
  induction h with
  | refl => exact ⟨_, _, rfl, .resolving (.inl rfl) (.inl rfl)⟩
  | @tail t u action _ halone hstep ih =>
    obtain ⟨stage, procs, rfl, hreplaying⟩ := ih
    cases action with
    | step n move =>
      obtain ⟨rfl, hmove⟩ := halone
      exact hreplaying.step hready hmove hstep
    | transfer input correlationId => exact halone.elim
    | ledger action =>
      cases action with
      | start call => exact halone.elim
      | next n move =>
        obtain ⟨rfl, habort, -, hcrash⟩ := halone
        exact hreplaying.answer hready habort hcrash hstep

/-! ## Runs of the command -/

theorem Sends.start (runtime : Runtime) (s : TransferState) (input : InternalLedgerTransferCommand)
    (correlationId : String) : Sends runtime s input correlationId
    (reissued s input correlationId (.resolving none none) s.ledger.procs) := .refl

theorem Sends.step {stage' : TransferStage} {procs' : List LedgerProc}
    (h : Sends runtime s input correlationId (reissued s input correlationId stage procs))
    (move : TransferMove) (hmove : move ≠ .fail)
    (hnext : TransferCall.next runtime { s.ledger with procs := procs }
      { input := input, correlationId := correlationId, stage := stage } move =
        some ({ s.ledger with procs := procs' },
          { input := input, correlationId := correlationId, stage := stage' })) :
    Sends runtime s input correlationId (reissued s input correlationId stage' procs') := by
  have halone : alone s.transfers.length s.ledger.procs.length
    (reissued s input correlationId stage procs) (.step s.transfers.length move) := ⟨rfl, hmove⟩
  refine Machine.Path.tail h halone ?_
  rw [step_reissued, hnext]
  rfl

theorem Sends.query {call : LedgerCall} {next : LedgerDb → LedgerClient LedgerResponse}
    (h : Sends runtime s input correlationId (reissued s input correlationId stage
      (s.ledger.procs ++ [(call, .client (.query next))]))) :
    Sends runtime s input correlationId (reissued s input correlationId stage
      (s.ledger.procs ++ [(call, .client (next s.ledger.db))])) := by
  have halone : alone s.transfers.length s.ledger.procs.length
      (reissued s input correlationId stage (s.ledger.procs ++ [(call, .client (.query next))]))
      (.ledger (.next s.ledger.procs.length .query)) := ⟨rfl, by simp, by simp, by simp⟩
  refine Machine.Path.tail h halone ?_
  have hcall : (s.ledger.procs ++ [(call, .client (.query next))])[s.ledger.procs.length]? =
      some (call, .client (.query next)) := List.getElem?_concat_length
  have hfree : Calls.free (s.ledger.procs ++ [(call, .client (.query next))])
      s.ledger.procs.length [] = true := Calls.free_iff.mpr fun _ _ _ _ l hl => by cases hl
  simp only [transfers, Calls.machine, reissued, hcall, Proc.next, Proc.held, hfree, if_true,
    Option.map_some, List.set_append_right _ _ le_rfl, Nat.sub_self, List.set_cons_zero]

/-- The command reads both accounts. -/
theorem Sends.read {source₀ recipient₀ : Option Account}
    (hsource : findSource s.ledger.db.app input = .ok source₀)
    (hrecipient : findRecipient s.ledger.db.app input = .ok recipient₀) :
    Sends runtime s input correlationId
      (reissued s input correlationId (.resolving (some source₀) (some recipient₀))
        s.ledger.procs) := by
  have hfirst : Sends runtime s input correlationId
      (reissued s input correlationId (.resolving (some source₀) none) s.ledger.procs) := by
    refine (Sends.start runtime s input correlationId).step .readSource (by simp) ?_
    unfold TransferCall.next
    dsimp only
    rw [hsource]
  refine hfirst.step .readRecipient (by simp) ?_
  unfold TransferCall.next
  dsimp only
  rw [hrecipient]

/-- The command waits for the answer of `post`. -/
theorem Sends.post (correlationId : String)
    (hsettled : Settled runtime s.ledger.db input source recipient journal)
    (hpasses : Passes s.ledger.db.app input source recipient) :
    Sends runtime s input correlationId (reissued s input correlationId
      (.posting source recipient s.ledger.procs.length)
      (s.ledger.procs ++ [(replayedPost input correlationId source recipient,
        .client (if journalResultSchema journal = true then .ret (.journal journal)
          else .throw .other))])) := by
  obtain ⟨hsource, hrecipient, hresolve, hamount⟩ := hpasses
  obtain ⟨next, hpost, hvalue⟩ := post_query hsettled correlationId
  have hcalled : Sends runtime s input correlationId (reissued s input correlationId
      (.posting source recipient s.ledger.procs.length)
      (s.ledger.procs ++ [(replayedPost input correlationId source recipient,
        .client (.query next))])) := by
    refine (Sends.read hsource hrecipient).step .proceed (by simp) ?_
    unfold TransferCall.next
    dsimp only
    rw [hresolve]
    dsimp only
    rw [hamount]
    have hcall : (ledger runtime).call (replayedPost input correlationId source recipient) =
      .query next := hpost
    rw [← hcall]
    rfl
  rw [← hvalue]
  exact hcalled.query

/-- The command ends. -/
theorem Sends.done (correlationId : String)
    (hready : Ready runtime s.ledger.db input source recipient journal) :
    ∃ r procs, Sends runtime s input correlationId
      (reissued s input correlationId (.done r) procs) := by
  obtain ⟨⟨senderPosting, hsender⟩, recipientPosting, hposting⟩ :=
    postingOn_transfer hready.settled.postings
  obtain ⟨sourceProjection, hsourceProjection⟩ := hready.projections _ (.inl rfl)
  obtain ⟨recipientProjection, hrecipientProjection⟩ := hready.projections _ (.inr rfl)
  have hanswered := Sends.post correlationId hready.settled hready.passes
  rw [if_pos hready.schema] at hanswered
  obtain ⟨procs, hprocs⟩ : ∃ procs, procs = s.ledger.procs ++
    [(replayedPost input correlationId source recipient, .client (.ret (.journal journal)))] :=
      ⟨_, rfl⟩
  rw [← hprocs] at hanswered
  have hposted : Sends runtime s input correlationId (reissued s input correlationId
      (.reading source recipient journal senderPosting recipientPosting none none) procs) := by
    refine hanswered.step .proceed (by simp) ?_
    unfold TransferCall.next
    dsimp only
    rw [hprocs, List.getElem?_concat_length]
    dsimp only [Proc.answer]
    rw [hsender, hposting]
  have hsourceRead : Sends runtime s input correlationId (reissued s input correlationId
      (.reading source recipient journal senderPosting recipientPosting
        (some sourceProjection.totals) none) procs) := by
    refine hposted.step .readSource (by simp) ?_
    unfold TransferCall.next
    dsimp only
    rw [hsourceProjection]
  have hread : Sends runtime s input correlationId (reissued s input correlationId
      (.reading source recipient journal senderPosting recipientPosting
        (some sourceProjection.totals) (some recipientProjection.totals)) procs) := by
    refine hsourceRead.step .readRecipient (by simp) ?_
    unfold TransferCall.next
    dsimp only
    rw [hrecipientProjection]
  exact ⟨_, procs, hread.step .proceed (by simp) rfl⟩

theorem stage_of_reissued {p : TransferCall}
    (h : (reissued s input correlationId stage procs).transfers[s.transfers.length]? = some p) :
    p.stage = stage := by
  have hget : (reissued s input correlationId stage procs).transfers[s.transfers.length]? =
      some { input := input, correlationId := correlationId, stage := stage } :=
    List.getElem?_concat_length
  rw [hget] at h
  cases h
  rfl

theorem replays_of_ready (hready : Ready runtime s.ledger.db input source recipient journal) :
    Replays runtime s input journal where
  unchanged correlationId t h := by
    obtain ⟨stage, procs, rfl, -⟩ := replaying_of_sends hready h
    rfl
  answer correlationId t h p r hp hstage := by
    obtain ⟨stage, procs, rfl, hreplaying⟩ := replaying_of_sends hready h
    obtain rfl := stage_of_reissued hp
    rw [hstage] at hreplaying
    cases hreplaying with
    | done hid => exact ⟨_, rfl, hid⟩
  ends correlationId := by
    obtain ⟨r, procs, h⟩ := Sends.done correlationId hready
    exact ⟨_, h, _, r, List.getElem?_concat_length, rfl⟩

variable {e : Thrown}

/-- A command that ends with an error is not answered with its journal. -/
theorem not_replays_of_error (h : Sends runtime s input correlationId
      (reissued s input correlationId (.done (.error e)) procs)) :
    ¬ Replays runtime s input journal := by
  intro hreplays
  obtain ⟨result, hresult, -⟩ :=
    hreplays.answer correlationId _ h _ _ List.getElem?_concat_length rfl
  cases hresult

/-- A step that throws ends the command. -/
theorem not_replays_of_throw
    (h : Sends runtime s input correlationId (reissued s input correlationId stage procs))
    (move : TransferMove) (hmove : move ≠ .fail)
    (hnext : TransferCall.next runtime { s.ledger with procs := procs }
      { input := input, correlationId := correlationId, stage := stage } move =
        some ({ s.ledger with procs := procs },
          { input := input, correlationId := correlationId, stage := .done (.error e) })) :
    ¬ Replays runtime s input journal :=
  not_replays_of_error (h.step move hmove hnext)

/-- A command that is answered has passed the checks. -/
theorem passes_of_replays (h : Replays runtime s input journal) :
    ∃ source recipient, Passes s.ledger.db.app input source recipient := by
  have hstart := Sends.start runtime s input "correlation"
  cases hsource : findSource s.ledger.db.app input with
  | error e =>
    refine absurd h (not_replays_of_throw hstart .readSource (e := e) (by simp) ?_)
    unfold TransferCall.next
    dsimp only
    rw [hsource]
    rfl
  | ok source₀ =>
    cases hrecipient : findRecipient s.ledger.db.app input with
    | error e =>
      refine absurd h (not_replays_of_throw hstart .readRecipient (e := e) (by simp) ?_)
      unfold TransferCall.next
      dsimp only
      rw [hrecipient]
      rfl
    | ok recipient₀ =>
      have hread : Sends runtime s input "correlation" (reissued s input "correlation"
        (.resolving (some source₀) (some recipient₀)) s.ledger.procs) := .read hsource hrecipient
      cases hresolve : resolve input source₀ recipient₀ with
      | error e =>
        refine absurd h (not_replays_of_throw hread .proceed (e := e) (by simp) ?_)
        unfold TransferCall.next
        dsimp only
        rw [hresolve]
        rfl
      | ok accounts =>
        obtain ⟨source, recipient⟩ := accounts
        obtain ⟨rfl, rfl⟩ := resolve_ok hresolve
        cases hamount : checkAmount input source with
        | error e =>
          refine absurd h (not_replays_of_throw hread .proceed (e := e) (by simp) ?_)
          unfold TransferCall.next
          dsimp only
          rw [hresolve]
          dsimp only
          rw [hamount]
          rfl
        | ok _ => exact ⟨source, recipient, hsource, hrecipient, hresolve, hamount⟩

/-- A command that is answered finds a well-formed response. -/
theorem schema_of_replays (hsettled : Settled runtime s.ledger.db input source recipient journal)
    (hpasses : Passes s.ledger.db.app input source recipient)
    (h : Replays runtime s input journal) : journalResultSchema journal = true := by
  by_contra hschema
  have hanswered := Sends.post "correlation" hsettled hpasses
  rw [if_neg hschema] at hanswered
  refine absurd h (not_replays_of_throw hanswered .proceed (e := .other) (by simp) ?_)
  unfold TransferCall.next
  dsimp only
  rw [List.getElem?_concat_length]
  rfl

/-! ## The checks -/

theorem readAccount_ledgerAccount {d : LedgerStore} {row : Option CustomerAccountRow}
    {account : Account} (h : readAccount d row = .ok (some account)) :
    ∃ ledgerAccount, d.accounts.find account.row.ledgerAccountId = some ledgerAccount := by
  cases row with
  | none => cases h
  | some row =>
    simp only [readAccount, withLedgerAccount] at h
    split at h
    · cases h
    next ledgerAccount hfind =>
      cases h
      exact ⟨ledgerAccount, hfind⟩

/-- An account with a Ledger account has a projection. -/
theorem projection_of_account {d : LedgerStore} (hd : StoreInvariant d) {id : String}
    {account : LedgerAccountRow} (h : d.accounts.find id = some account) :
    ∃ projection, d.projections.find id = some projection := by
  obtain ⟨hmem, rfl⟩ := Table.find_some h
  obtain ⟨projection, hfind, -⟩ := hd.accounts account hmem
  exact ⟨projection, hfind⟩

/-- The record is that of a command between the accounts that are found. -/
theorem Settled.found {source' recipient' : Account}
    (h : Settled runtime d input source recipient journal)
    (hpasses : Passes d.app input source' recipient') :
    Settled runtime d input source' recipient' journal := by
  have hsource : d.app.customerAccounts.rows.find? (isSource input) = some source'.row :=
    readAccount_row hpasses.1
  have hrecipient : d.app.customerAccounts.rows.find? (isRecipient input) = some recipient'.row :=
    readAccount_row hpasses.2.1
  obtain ⟨row, hrow, hid⟩ := h.source_found
  obtain ⟨row', hrow', hid'⟩ := h.recipient_found
  cases hrow.symm.trans hsource
  cases hrow'.symm.trans hrecipient
  have hrequest : transferRequest input source' recipient' = transferRequest input source recipient :=
    transferRequest_congr hid hid'
  have hpostings : transferPostings input source' recipient' =
    transferPostings input source recipient := congrArg InternalJournalRequest.postings hrequest
  obtain ⟨-, -, hnormal, hbalanced, hrecorded, hreference, hposted⟩ := h
  refine ⟨⟨_, hsource, rfl⟩, ⟨_, hrecipient, rfl⟩, ?_, ?_, ?_, hreference, ?_⟩
  · rw [hpostings]
    exact hnormal
  · rw [hpostings]
    exact hbalanced
  · rw [hrequest, hpostings]
    exact hrecorded
  · rw [hpostings]
    exact hposted

/-- The command is answered just where it is still accepted. -/
theorem replays_iff (hd : StoreInvariant s.ledger.db.app) (hset : StatusesSet s t)
    (hsettled : Settled runtime t.ledger.db input source recipient journal) :
    Replays runtime t input journal ↔ StillAccepted t.ledger.db.app input journal := by
  constructor
  · intro h
    obtain ⟨source', recipient', hpasses⟩ := passes_of_replays h
    exact ⟨⟨source', recipient', hpasses⟩, schema_of_replays (hsettled.found hpasses) hpasses h⟩
  · rintro ⟨⟨source', recipient', hpasses⟩, hschema⟩
    refine replays_of_ready ⟨hsettled.found hpasses, hpasses, hschema, ?_⟩
    rw [hset.projections]
    have haccount : ∀ {id account}, t.ledger.db.app.accounts.find id = some account →
        ∃ projection, s.ledger.db.app.projections.find id = some projection := by
      intro id account hfind
      rw [hset.accounts] at hfind
      exact projection_of_account hd hfind
    rintro id (rfl | rfl)
    · obtain ⟨account, hfind⟩ := readAccount_ledgerAccount hpasses.1
      exact haccount hfind
    · obtain ⟨account, hfind⟩ := readAccount_ledgerAccount hpasses.2.1
      exact haccount hfind

end Alone

/-- **A committed command is answered with its journal just where it is still accepted.** In every
    later state, with any statuses of the accounts. -/
theorem transfer_replay (runtime : Runtime) (s : TransferState)
    (h : (transfers runtime).Reachable Machine.always s) (input : InternalLedgerTransferCommand)
    (source recipient : Account) (hcommitted : Committed s input source recipient) :
    ∃ journal, Recorded runtime input.idempotencyKey (.journal journal) s.ledger.db ∧
      journal.reference = input.transferReference ∧
      ∀ t u, (transfers runtime).Path Machine.always s t → StatusesSet t u →
        (Replays runtime u input journal ↔ StillAccepted u.ledger.db.app input journal) := by
  obtain ⟨journal, hsettled⟩ := settled_of_committed h hcommitted
  obtain ⟨record, hrecord, -, hbody, -⟩ := hsettled.recorded
  refine ⟨journal, ⟨record, hrecord, hbody⟩, hsettled.reference, fun t u hpath hset => ?_⟩
  have hd := store_invariant (ledger_of_transfers (h.path hpath))
  exact replays_iff hd hset ((hsettled.path h hpath).statuses hset)

/-! ## Two runs -/

/-- The identifier that a statement gets. -/
def uuidAt (text : String) : String := "00000000-0000-4000-8000-00000000" ++ text

/-- What a statement gets at a time. -/
def identifiedAt (now : ℤ) (text : String) : Env where
  uuid := uuidAt text
  random := "ABCD-EFGH-" ++ text
  now := now

/-- The moves of a call of the Ledger whose statements all run. -/
def identifiedMoves (call : ℕ) (now : ℤ) (texts : List String) : List TransferAction :=
  [.ledger (.next call .query), .ledger (.next call .begin)] ++
    texts.map (fun text => .ledger (.next call (.stmt (identifiedAt now text)))) ++
    [.ledger (.next call .finish)]

/-- The first customer's account gets 4.00 LKR. -/
def deposit : LedgerCall := .post
  { reference := some "funding-1"
    entryType := .SETTLEMENT_FUNDING
    currency := "LKR"
    description := none
    effectiveAt := none
    idempotencyKey := "funding-key-0001"
    postings := [{ ledgerAccountId := "a1", direction := .DEBIT, amountMinor := 400 },
      { ledgerAccountId := uuidAt "c001", direction := .CREDIT, amountMinor := 400 }]
    metadata := none }
  "correlation-1" { type := .SYSTEM, id := "operator" }

/-- A payment from the first customer to the second one. -/
def payment (amountMinor : ℤ) : InternalLedgerTransferCommand where
  senderCustomerId := "customer-1"
  sourceAccountId := uuidAt "d001"
  recipientReference := "AEGIS-ABCD-EFGH-0002"
  amountMinor := amountMinor
  currency := "LKR"
  transferId := "t1"
  transferReference := "reference-t1"
  idempotencyKey := "transfer:t1"

/-- A payment is posted. -/
def paid (amountMinor : ℤ) : List TransferAction :=
  .ledger (.start (openAccount "customer-1")) ::
    identifiedMoves 0 1 ["-", "-", "-", "0001", "c001", "d001", "-", "-"] ++
  .ledger (.start (openAccount "customer-2")) ::
    identifiedMoves 1 2 ["-", "-", "-", "0002", "c002", "d002", "-", "-"] ++
  .ledger (.start deposit) ::
    identifiedMoves 2 3 ["-", "-", "e001", "e003", "e004", "-", "-", "-"] ++
  startTransfer 0 (payment amountMinor) ++
    identifiedMoves 3 4 ["-", "-", "e002", "e005", "e006", "-", "-", "-"]

/-- The account of a customer with a number. -/
def accountNumber (number : String) (createdAt : ℤ) : Account where
  row := {
    id := uuidAt ("d" ++ number)
    customerId := "customer-" ++ toString createdAt
    publicReference := "AEGIS-ABCD-EFGH-0" ++ number
    maskedReference := "AEGIS-****-****-0" ++ number
    productType := .TIER0_WALLET
    currency := "LKR"
    status := .ACTIVE
    ledgerAccountId := uuidAt ("c" ++ number)
    createdAt := createdAt }
  accountClass := .LIABILITY
  balanceProjection := none

/-- The call is the one that posts the command. -/
def isPayment (input : InternalLedgerTransferCommand) (source recipient : Account) :
    LedgerCall → Bool
  | .post ⟨some reference, .CUSTOMER_TRANSFER, currency, some description, none, key, postings,
      some (.object [(name, .string id), (name', .string reference')])⟩ _ ⟨.SERVICE, actor⟩ =>
    decide (reference = input.transferReference ∧ currency = input.currency ∧
      description = "Customer transfer" ∧ key = input.idempotencyKey ∧
      postings = transferPostings input source recipient ∧ name = "transferId" ∧
      id = input.transferId ∧ name' = "transferReference" ∧ reference' = input.transferReference ∧
      actor = "payments")
  | _ => false

theorem isPayment_elim {input : InternalLedgerTransferCommand} {source recipient : Account}
    {call : LedgerCall} (h : isPayment input source recipient call = true) :
    ∃ correlationId, call = .post (transferRequest input source recipient) correlationId
      paymentsActor := by
  unfold isPayment at h
  split at h
  next reference currency description key postings name id name' reference' correlationId actor =>
    obtain ⟨rfl, rfl, rfl, rfl, rfl, rfl, rfl, rfl, rfl, rfl⟩ := of_decide_eq_true h
    exact ⟨correlationId, rfl⟩
  · cases h

/-- The payment has been posted, between the two accounts. -/
def paymentPosted (s : TransferState) (amountMinor : ℤ) : Bool :=
  decide (s.ledger.db.app.customerAccounts.rows =
      [(accountNumber "001" 1).row, (accountNumber "002" 2).row]) &&
    s.ledger.log.any fun entry => isPayment (payment amountMinor) (accountNumber "001" 1)
      (accountNumber "002" 2) entry.1

variable {amountMinor : ℤ}

theorem committed_of_posted {s : TransferState}
    (h : paymentPosted s amountMinor = true) : Committed s (payment amountMinor)
      (accountNumber "001" 1) (accountNumber "002" 2) := by
  unfold paymentPosted at h
  rw [Bool.and_eq_true, decide_eq_true_eq] at h
  obtain ⟨hrows, hlog⟩ := h
  obtain ⟨⟨call, ws⟩, hmem, hcall⟩ := List.any_eq_true.mp hlog
  obtain ⟨correlationId, rfl⟩ := isPayment_elim hcall
  refine ⟨?_, ?_, correlationId, ws, hmem⟩
  · rw [hrows]
    rfl
  · rw [hrows]
    rfl

/-- The checks accept the command. -/
def accepts (d : LedgerStore) (input : InternalLedgerTransferCommand) : Bool :=
  match findSource d input, findRecipient d input with
  | .ok (some source), .ok (some recipient) =>
    (resolve input (some source) (some recipient)).toBool && (checkAmount input source).toBool
  | _, _ => false

theorem accepts_iff {d : LedgerStore} {input : InternalLedgerTransferCommand} :
    accepts d input = true ↔ ∃ source recipient, Passes d input source recipient := by
  unfold accepts
  constructor
  · intro h
    split at h
    next source recipient hsource hrecipient =>
      rw [Bool.and_eq_true] at h
      refine ⟨source, recipient, hsource, hrecipient, ?_, ?_⟩
      · cases hresolve : resolve input (some source) (some recipient) with
        | error e =>
          rw [hresolve] at h
          cases h.1
        | ok accounts =>
          obtain ⟨source', recipient'⟩ := accounts
          obtain ⟨hsource', hrecipient'⟩ := resolve_ok hresolve
          cases hsource'
          cases hrecipient'
          rfl
      · cases hamount : checkAmount input source with
        | error e =>
          rw [hamount] at h
          cases h.2
        | ok _ => rfl
    · cases h
  · rintro ⟨source, recipient, hsource, hrecipient, hresolve, hamount⟩
    rw [hsource, hrecipient]
    dsimp only
    rw [hresolve, hamount]
    rfl

/-- The stored response of the payment is well formed. -/
def wellStored (s : TransferState) : Bool :=
  (s.ledger.db.records.find ("journal-entry", plainRuntime.sha256 "transfer:t1")).all fun record =>
    match record.responseBody with
    | some (.journal journal) => journalResultSchema journal
    | _ => false

theorem schema_of_wellStored {s : TransferState} {journal : JournalResult} (h : wellStored s = true)
    (hrecorded : Recorded plainRuntime (payment amountMinor).idempotencyKey (.journal journal)
      s.ledger.db) : journalResultSchema journal = true := by
  obtain ⟨record, hrecord, hbody⟩ := hrecorded
  have hfind : s.ledger.db.records.find ("journal-entry", plainRuntime.sha256 "transfer:t1") =
    some record := hrecord
  unfold wellStored at h
  rw [hfind, Option.all_some, hbody] at h
  exact h

theorem statusesSet_refl (s : TransferState) : StatusesSet s s :=
  ⟨rfl, rfl, rfl, rfl, rfl, rfl, rfl, rfl, List.forall₂_same.mpr fun _ _ => rfl⟩

/-- A payment of 1.00 LKR from 4.00 LKR is answered a second time. -/
theorem transfer_replay_first : ∃ s journal, Replays plainRuntime s (payment 100) journal ∧
    journal.reference = "reference-t1" := by
  obtain ⟨s, hs, hend⟩ := Machine.reachable_of_run (M := transfers plainRuntime) (paid 100)
    (fun s => paymentPosted s 100 && (accepts s.ledger.db.app (payment 100) && wellStored s))
    noTransfers_init (by decide +kernel)
  rw [Bool.and_eq_true, Bool.and_eq_true] at hend
  obtain ⟨hposted, haccepts, hstored⟩ := hend
  obtain ⟨journal, hrecorded, hreference, hreplays⟩ := transfer_replay plainRuntime s hs
    (payment 100) (accountNumber "001" 1) (accountNumber "002" 2) (committed_of_posted hposted)
  refine ⟨s, journal, (hreplays s s .refl (statusesSet_refl s)).mpr ⟨accepts_iff.mp haccepts, ?_⟩,
    hreference⟩
  exact schema_of_wellStored hstored hrecorded

/-- A payment of 3.00 LKR from 4.00 LKR is refused a second time: the money is gone. -/
theorem replay_refused : ¬ ∀ (runtime : Runtime) (s : TransferState),
    (transfers runtime).Reachable Machine.always s →
    ∀ (input : InternalLedgerTransferCommand) (source recipient : Account),
      Committed s input source recipient →
      ∃ journal, journal.reference = input.transferReference ∧
        ∀ t u, (transfers runtime).Path Machine.always s t → StatusesSet t u →
          Replays runtime u input journal := by
  intro h
  obtain ⟨s, hs, hend⟩ := Machine.reachable_of_run (M := transfers plainRuntime) (paid 300)
    (fun s => paymentPosted s 300 && !accepts s.ledger.db.app (payment 300))
    noTransfers_init (by decide +kernel)
  rw [Bool.and_eq_true, Bool.not_eq_true'] at hend
  obtain ⟨hposted, hrefused⟩ := hend
  obtain ⟨journal, -, hreplays⟩ := h plainRuntime s hs (payment 300) (accountNumber "001" 1)
    (accountNumber "002" 2) (committed_of_posted hposted)
  have haccepts := accepts_iff.mpr (passes_of_replays (hreplays s s .refl (statusesSet_refl s)))
  rw [hrefused] at haccepts
  cases haccepts

end AegisShield.Ledger
