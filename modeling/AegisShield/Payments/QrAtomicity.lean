import AegisShield.Payments.Qr

/-!
# What a settlement writes

`settle` (`qr.service.ts`, lines 502-592) makes up to three writes after the Ledger's answer.
Here a call of it runs alone from that answer on, and each of its writes may fail.

Results:
* `noting_returns`: how a call ends that has written the outcome to the row.
* `settled_of_run`: what `settle` has written when it returns, and what it returns.
* `settle_atomic`: it has written all or nothing, and returns the status that is stored, if no
  write after a first one that marks the redemption as completed fails.

**Deviation.** The `catch` returns the row as it was before, also when the redemption has been
completed in the database.
-/

namespace AegisShield.Payments

open Common

/-! ## The property -/

/-- A dynamic code is redeemed if and only if one of its redemptions is completed. -/
def RedeemedIffCompleted (redemptions : Table QrRedemptionRow) (d : QrTables) : Prop :=
  ∀ request ∈ d.requests.rows, request.type = .DYNAMIC →
    (request.status = .REDEEMED ↔ ∃ r ∈ redemptions.rows,
      r.qrPaymentRequestId = request.id ∧ r.status = .COMPLETED)

/-- The event of a completed redemption (lines 555-563). -/
def completedEvent (redemption : QrRedemptionRow) (now : ℕ) : QrPaymentEvent where
  qrPaymentRequestId := redemption.qrPaymentRequestId
  eventType := .COMPLETED
  previousStatus := some "PROCESSING"
  nextStatus := some "COMPLETED"
  safeCode := none
  occurredAt := now

/-- The event of a failed redemption (lines 577-586). -/
def failedEvent (redemption : QrRedemptionRow) (code : Option String) (now : ℕ) :
    QrPaymentEvent where
  qrPaymentRequestId := redemption.qrPaymentRequestId
  eventType := .FAILED
  previousStatus := some "PROCESSING"
  nextStatus := some "FAILED"
  safeCode := some (code.getD "UNKNOWN")
  occurredAt := now

/-- All the writes of `settle` for an outcome are in the tables. -/
def AllWritten (s s' : ChannelShared QrRedemptionRow QrTables) (redemption : QrRedemptionRow) :
    LedgerOutcome → Prop
  | .result result => ∃ t t' t'', s'.rows = s.rows.put (redemption.complete result t) ∧
      s'.side = (s.side.apply (.redeem redemption.qrPaymentRequestId t')).apply
        (.event (completedEvent redemption t''))
  | .callError _ code => ∃ t t', s'.rows = s.rows.put (redemption.fail t) ∧
      s'.side = s.side.apply (.event (failedEvent redemption code t'))
  | .unavailable => False

/-- `settle` has written all or nothing and returns the status that is stored, and dynamic codes
    are redeemed with their redemptions. -/
structure SettledAtomically (s s' : ChannelShared QrRedemptionRow QrTables)
    (redemption returned : QrRedemptionRow) (outcome : LedgerOutcome) : Prop where
  atomic : s'.rows = s.rows ∧ s'.side = s.side ∨ AllWritten s s' redemption outcome
  status : ∃ stored, s'.rows.find redemption.id = some stored ∧ stored.status = returned.status
  redeemed : RedeemedIffCompleted s'.rows s'.side

/-- `settle` returns after the Ledger's answer and these steps: each write runs or fails, and at
    the end it returns. -/
def Returns (runtime : QrRuntime) (s : ChannelShared QrRedemptionRow QrTables)
    (input : ConfirmInput) (redemption : QrRedemptionRow) (outcome : LedgerOutcome)
    (steps : List ChannelInput) (s' : ChannelShared QrRedemptionRow QrTables)
    (returned : QrRedemptionRow) : Prop :=
  (qrService runtime).runAlone s (.awaiting input redemption) (.reply outcome :: steps) =
    some (s', .confirmed input returned)

/-- No write after the first one fails. -/
def LaterWritesRun (steps : List ChannelInput) : Prop := .fail ∉ steps.tail

/-! ## The writes that follow -/

section Noting

variable {Row S N I D X : Type} [Keyed Row String] {runtime : Runtime}
  {channel : Channel Row S N I D} {initial : S → Prop} {other : S → X → Option S}
  {s s' : ChannelShared Row S} {input : ConfirmInput} {row updated returned : Row}
  {outcome : LedgerOutcome} {steps : List ChannelInput}

/-- A call that has returned takes no step. -/
theorem confirmed_returns {row' : Row}
    (h : (channelService runtime channel initial other).runAlone s (.confirmed input row) steps =
      some (s', .confirmed input row')) : steps = [] ∧ s' = s ∧ row' = row := by
  cases steps with
  | nil =>
    cases h
    exact ⟨rfl, rfl, rfl⟩
  | cons x steps =>
    obtain ⟨s₁, call₁, hnext, -⟩ := Pool.runAlone_cons.mp h
    cases x <;> cases hnext

/-- A call that has thrown does not return. -/
theorem thrown_not_returns {e : Thrown}
    (h : (channelService runtime channel initial other).runAlone s (.thrown e) steps =
      some (s', .confirmed input returned)) : False := by
  cases steps with
  | nil => cases h
  | cons x steps =>
    obtain ⟨s₁, call₁, hnext, -⟩ := Pool.runAlone_cons.mp h
    cases x <;> cases hnext

/-- How a call ends that has written the outcome to the row: all the later writes run, or one of
    them fails. -/
inductive Noted (channel : Channel Row S N I D) (s s' : ChannelShared Row S) (row updated : Row)
    (outcome : LedgerOutcome) (notes : List (ℕ → N)) (steps : List ChannelInput) : Row → Prop
  | all (times : List ℕ) (hlength : times.length = notes.length)
      (hside : s'.side = (List.zipWith (fun note now => note now) notes times).foldl
        channel.apply s.side)
      (hrows : s'.rows = s.rows) (hsteps : .fail ∉ steps) :
      Noted channel s s' row updated outcome notes steps updated
  | failed (result : InternalLedgerTransferResult) (houtcome : outcome = .result result)
      (hrows : s'.rows = s.rows) (hsteps : .fail ∈ steps) :
      Noted channel s s' row updated outcome notes steps row

theorem noting_returns {notes : List (ℕ → N)}
    (h : (channelService runtime channel initial other).runAlone s
      (.noting input row updated outcome notes) steps = some (s', .confirmed input returned)) :
    Noted channel s s' row updated outcome notes steps returned := by
  induction notes generalizing s steps with
  | nil =>
    cases steps with
    | nil => cases h
    | cons x steps =>
      obtain ⟨s₁, call₁, hnext, hrest⟩ := Pool.runAlone_cons.mp h
      cases x with
      | run e =>
        cases hnext
        obtain ⟨rfl, rfl, rfl⟩ := confirmed_returns hrest
        exact .all [] rfl rfl rfl (by simp)
      | reply | fail => cases hnext
      | crash =>
        cases hnext
        exact (thrown_not_returns hrest).elim
  | cons note notes ih =>
    cases steps with
    | nil => cases h
    | cons x steps =>
      obtain ⟨s₁, call₁, hnext, hrest⟩ := Pool.runAlone_cons.mp h
      cases x with
      | run e =>
        cases hnext
        cases ih hrest with
        | all times hlength hside hrows hsteps =>
          exact .all (e.now :: times) (by rw [List.length_cons, List.length_cons, hlength]) hside
            hrows (by simpa using hsteps)
        | failed result houtcome hrows hsteps =>
          exact .failed result houtcome hrows (List.mem_cons_of_mem _ hsteps)
      | reply outcome => cases hnext
      | fail =>
        cases hnext
        cases outcome with
        | result result =>
          obtain ⟨rfl, rfl, rfl⟩ := confirmed_returns hrest
          exact .failed result rfl rfl List.mem_cons_self
        | callError | unavailable => exact (thrown_not_returns hrest).elim
      | crash =>
        cases hnext
        exact (thrown_not_returns hrest).elim

end Noting

/-! ## What `settle` has written when it returns -/

section Settle

variable {runtime : QrRuntime} {s s' : ChannelShared QrRedemptionRow QrTables}
  {input : ConfirmInput} {redemption returned : QrRedemptionRow} {request : QrPaymentRequestRow}
  {outcome : LedgerOutcome} {steps : List ChannelInput}

/-- How `settle` ends when it returns. -/
inductive Settled (s s' : ChannelShared QrRedemptionRow QrTables) (redemption : QrRedemptionRow)
    (outcome : LedgerOutcome) (steps : List ChannelInput) : QrRedemptionRow → Prop
  /-- The outcome asks for no write, or the first write has failed. -/
  | nothing (hrows : s'.rows = s.rows) (hside : s'.side = s.side) (hsteps : LaterWritesRun steps) :
      Settled s s' redemption outcome steps redemption
  | written {updated} (hall : AllWritten s s' redemption outcome)
      (hstored : s'.rows.find redemption.id = some updated) (hsteps : LaterWritesRun steps) :
      Settled s s' redemption outcome steps updated
  /-- The redemption is completed, and a later write has failed. -/
  | torn {result now} (houtcome : outcome = .result result)
      (hrows : s'.rows = s.rows.put (redemption.complete result now))
      (hsteps : ¬ LaterWritesRun steps) : Settled s s' redemption outcome steps redemption

variable {result : InternalLedgerTransferResult} {now : ℕ} {d : QrTables} {event : QrPaymentEvent}

theorem find_complete (hstored : s.rows.find redemption.id = some redemption) :
    (s.rows.put (redemption.complete result now)).find redemption.id =
      some (redemption.complete result now) :=
  Table.find_put_self hstored

theorem find_fail (hstored : s.rows.find redemption.id = some redemption) :
    (s.rows.put (redemption.fail now)).find redemption.id = some (redemption.fail now) :=
  Table.find_put_self hstored

theorem qrService_next {call : ChannelCall QrRedemptionRow QrNote QrPreviewInput QrDraft}
    {x : ChannelInput} : (qrService runtime).next s call x =
      channelNext runtime.toRuntime (qrChannel runtime) s call x := rfl

/-- `settle` after an answer that it writes down. -/
theorem answered_returns (hstored : s.rows.find redemption.id = some redemption)
    (houtcome : outcome.writes = true)
    (h : (qrService runtime).runAlone s (.answered input redemption outcome) steps =
      some (s', .confirmed input returned)) :
    Settled s s' redemption outcome steps returned := by
  cases steps with
  | nil => cases h
  | cons x steps =>
    obtain ⟨s₁, call₁, hnext, hrest⟩ := Pool.runAlone_cons.mp h
    have hfind : s.rows.find (key redemption) = some redemption := hstored
    cases x with
    | run e =>
      cases outcome with
      | result result =>
        rw [qrService_next] at hnext
        simp only [channelNext, hfind] at hnext
        split_ifs at hnext
        · cases hnext
          obtain ⟨rfl, rfl, rfl⟩ := confirmed_returns hrest
          exact .nothing rfl rfl List.not_mem_nil
        · cases hnext
          cases noting_returns hrest with
          | all times hlength hside hrows hsteps =>
            obtain ⟨t', t'', rfl⟩ := List.length_eq_two.mp hlength
            refine .written ⟨e.now, t', t'', hrows, hside⟩ ?_ hsteps
            rw [hrows]
            exact find_complete hstored
          | failed result' houtcome' hrows hsteps =>
            exact .torn rfl hrows (not_not_intro hsteps)
      | callError status code =>
        rw [qrService_next] at hnext
        simp only [channelNext, hfind] at hnext
        cases hnext
        cases noting_returns hrest with
        | all times hlength hside hrows hsteps =>
          obtain ⟨t', rfl⟩ := List.length_eq_one_iff.mp hlength
          refine .written ⟨e.now, t', hrows, hside⟩ ?_ hsteps
          rw [hrows]
          exact find_fail hstored
        | failed result' houtcome' hrows hsteps => cases houtcome'
      | unavailable => cases houtcome
    | reply outcome => cases hnext
    | fail =>
      cases hnext
      cases outcome with
      | result result =>
        obtain ⟨rfl, rfl, rfl⟩ := confirmed_returns hrest
        exact .nothing rfl rfl List.not_mem_nil
      | callError status code => exact (thrown_not_returns hrest).elim
      | unavailable => cases houtcome
    | crash =>
      cases hnext
      exact (thrown_not_returns hrest).elim

theorem settled_of_run (hstored : s.rows.find redemption.id = some redemption)
    (h : Returns runtime s input redemption outcome steps s' returned) :
    Settled s s' redemption outcome steps returned := by
  obtain ⟨s₁, call₁, hnext, hrest⟩ := Pool.runAlone_cons.mp h
  rw [qrService_next] at hnext
  simp only [channelNext] at hnext
  split at hnext
  · cases hnext
  next remote hanswer =>
    have hstored' : ({ s with remote := remote } : ChannelShared QrRedemptionRow QrTables).rows.find
        redemption.id = some redemption := hstored
    by_cases hwrites : outcome.writes = true
    · rw [if_pos hwrites] at hnext
      cases hnext
      cases answered_returns hstored' hwrites hrest with
      | nothing hrows hside hsteps => exact .nothing hrows hside hsteps
      | written hall hupdated hsteps =>
        refine .written ?_ hupdated hsteps
        cases outcome with
        | result | callError | unavailable => exact hall
      | torn houtcome hrows hsteps => exact .torn houtcome hrows hsteps
    · rw [if_neg hwrites] at hnext
      cases hnext
      obtain ⟨rfl, rfl, rfl⟩ := confirmed_returns hrest
      exact .nothing rfl rfl List.not_mem_nil

/-! ## Codes and their redemptions -/

/-- A redemption that was not completed is replaced. -/
theorem completed_put {rows : Table QrRedemptionRow} {updated : QrRedemptionRow} {id : String}
    (hstored : rows.find redemption.id = some redemption)
    (hstatus : redemption.status ≠ .COMPLETED) (hkey : updated.id = redemption.id) :
    (∃ r ∈ (rows.put updated).rows, r.qrPaymentRequestId = id ∧ r.status = .COMPLETED) ↔
      (updated.qrPaymentRequestId = id ∧ updated.status = .COMPLETED) ∨
        ∃ r ∈ rows.rows, r.qrPaymentRequestId = id ∧ r.status = .COMPLETED := by
  have hfound : rows.find (key updated) = some redemption := by
    show rows.find updated.id = _
    rw [hkey]
    exact hstored
  constructor
  · rintro ⟨r, hr, hid, hcompleted⟩
    rcases Table.mem_put hr with ⟨hold, -⟩ | rfl
    · exact .inr ⟨r, hold, hid, hcompleted⟩
    · exact .inl ⟨hid, hcompleted⟩
  · rintro (⟨hid, hcompleted⟩ | ⟨r, hr, hid, hcompleted⟩)
    · exact ⟨updated, (Table.find_some (Table.find_put_self hfound)).1, hid, hcompleted⟩
    · have hne : key updated ≠ key r := by
        intro heq
        obtain rfl := Table.eq_of_key (Table.find_some hfound).1 hr
          ((Table.find_some hfound).2.trans heq)
        exact hstatus hcompleted
      refine ⟨r, (Table.find_some (k := key r) ?_).1, hid, hcompleted⟩
      rw [Table.find_put_ne hne]
      exact Table.find_of_mem hr

/-- A failed redemption leaves its code as it is. -/
theorem redeemed_fail (hstored : s.rows.find redemption.id = some redemption)
    (hstatus : redemption.status ≠ .COMPLETED) (h : RedeemedIffCompleted s.rows d) :
    RedeemedIffCompleted (s.rows.put (redemption.fail now)) (d.apply (.event event)) := by
  intro request' hrequest htype
  have hkey : (redemption.fail now).id = redemption.id := rfl
  rw [h request' hrequest htype, completed_put hstored hstatus hkey]
  exact (or_iff_right fun hupdated => nomatch hupdated.2).symm

/-- A completed redemption redeems its code. -/
theorem redeemed_complete {redeemedAt : ℕ} (hstored : s.rows.find redemption.id = some redemption)
    (hstatus : redemption.status ≠ .COMPLETED)
    (hrequest : d.requests.find redemption.qrPaymentRequestId = some request)
    (h : RedeemedIffCompleted s.rows d) :
    RedeemedIffCompleted (s.rows.put (redemption.complete result now))
      ((d.apply (.redeem redemption.qrPaymentRequestId redeemedAt)).apply (.event event)) := by
  have hid : request.id = redemption.qrPaymentRequestId := (Table.find_some hrequest).2
  intro request' hrequest' htype
  have hkey : (redemption.complete result now).id = redemption.id := rfl
  rw [completed_put hstored hstatus hkey]
  unfold QrTables.apply at hrequest'
  simp only [hrequest] at hrequest'
  rcases Table.mem_put hrequest' with ⟨hold, hne⟩ | rfl
  · rw [h request' hold htype]
    refine (or_iff_right fun hupdated => hne ?_).symm
    show request'.id = request.id
    rw [hid, ← hupdated.1]
    rfl
  · exact iff_of_true rfl (.inl ⟨hid.symm, rfl⟩)

/-- **`settle` is atomic if and only if no write after a completed first one fails.** For every
    redemption in processing whose code exists. -/
theorem settle_atomic (runtime : QrRuntime) (s s' : ChannelShared QrRedemptionRow QrTables)
    (input : ConfirmInput) (redemption returned : QrRedemptionRow) (request : QrPaymentRequestRow)
    (outcome : LedgerOutcome) (steps : List ChannelInput)
    (hstored : s.rows.find redemption.id = some redemption)
    (hstatus : redemption.status = .PROCESSING)
    (hrequest : s.side.requests.find redemption.qrPaymentRequestId = some request)
    (hredeemed : RedeemedIffCompleted s.rows s.side)
    (h : Returns runtime s input redemption outcome steps s' returned) :
    SettledAtomically s s' redemption returned outcome ↔ LaterWritesRun steps := by
  have hopen : redemption.status ≠ .COMPLETED := by
    rw [hstatus]
    decide
  cases settled_of_run hstored h with
  | nothing hrows hside hsteps =>
    refine iff_of_true ⟨.inl ⟨hrows, hside⟩, ⟨redemption, ?_, rfl⟩, ?_⟩ hsteps
    · rw [hrows]
      exact hstored
    · rw [hrows, hside]
      exact hredeemed
  | written hall hupdated hsteps =>
    refine iff_of_true ⟨.inr hall, ⟨_, hupdated, rfl⟩, ?_⟩ hsteps
    cases outcome with
    | result result =>
      obtain ⟨t, t', t'', hrows, hside⟩ := hall
      rw [hrows, hside]
      exact redeemed_complete hstored hopen hrequest hredeemed
    | callError status code =>
      obtain ⟨t, t', hrows, hside⟩ := hall
      rw [hrows, hside]
      exact redeemed_fail hstored hopen hredeemed
    | unavailable => exact hall.elim
  | torn houtcome hrows hsteps =>
    refine iff_of_false ?_ hsteps
    rintro ⟨-, ⟨stored, hfind, hsame⟩, -⟩
    rw [hrows, find_complete hstored] at hfind
    cases hfind
    rw [hstatus] at hsame
    cases hsame

end Settle

/-! ## Two settlements -/

/-- A payment of five rupees for the shop's dynamic code. -/
def scannedRedemption : QrRedemptionRow where
  id := "r-1"
  qrPaymentRequestId := "qr-1"
  displayReference := "AEGIS-QRP-0000-0000-0001"
  senderCustomerId := "customer-1"
  senderAccountId := "account-1"
  senderMaskedReference := "AEGIS-****-1234"
  recipientCustomerId := "shop"
  recipientAccountId := "account-shop"
  recipientMaskedReference := "AEGIS-****-CCCC"
  currency := "LKR"
  amountMinor := 500
  status := .PROCESSING
  intentTokenHash := "token"
  idempotencyKeyHash := "key"
  requestHash := "request"
  ledgerJournalId := none
  senderBalanceAfterMinor := none
  recipientBalanceAfterMinor := none
  correlationId := "c-1"
  createdAt := 1
  completedAt := none
  failedAt := none

/-- The shop's code. -/
def scannedRequest : QrPaymentRequestRow :=
  (fiveRupeeIssue .DYNAMIC).row plainQrRuntime (some 500)

/-- The tables when the command has been executed. -/
def scanned : ChannelShared QrRedemptionRow QrTables where
  rows := Table.empty.add scannedRedemption
  side := { requests := Table.empty.add scannedRequest, events := [] }
  remote := { commands := [], pending := [], journals := ["qr-pay:r-1"] }
  claims := []
  origins := []

/-- The Ledger's result for it. -/
def scannedPosted : InternalLedgerTransferResult where
  journalId := "j-1"
  senderPostingId := "p-1"
  recipientPostingId := "p-2"
  senderBalanceAfter := 0
  recipientBalanceAfter := 500

/-- The confirm of the payment. -/
def scannedConfirm : ConfirmInput where
  caller := "customer-1"
  intentToken := "token"
  idempotencyKey := "key"

/-- A statement runs at a time. -/
def runAt (now : ℕ) : ChannelInput := .run (plainEnv now "-" "-" 0)

theorem scanned_redeemed : RedeemedIffCompleted scanned.rows scanned.side := by
  unfold RedeemedIffCompleted
  decide

/-- All the writes run. -/
theorem settle_atomic_all : ∃ s' returned,
    SettledAtomically scanned s' scannedRedemption returned (.result scannedPosted) ∧
      returned.status = .COMPLETED := by
  refine ⟨_, scannedRedemption.complete scannedPosted 2, (settle_atomic plainQrRuntime scanned _
    scannedConfirm scannedRedemption _ scannedRequest (.result scannedPosted)
    [runAt 2, runAt 3, runAt 4, runAt 5] rfl rfl rfl scanned_redeemed rfl).mpr ?_, rfl⟩
  unfold LaterWritesRun runAt
  simp

/-- The write that redeems the code fails: the redemption is completed, and returned as in
    processing. -/
theorem settle_torn : ¬ ∀ (runtime : QrRuntime)
    (s s' : ChannelShared QrRedemptionRow QrTables) (input : ConfirmInput)
    (redemption returned : QrRedemptionRow) (request : QrPaymentRequestRow)
    (outcome : LedgerOutcome) (steps : List ChannelInput),
    s.rows.find redemption.id = some redemption → redemption.status = .PROCESSING →
    s.side.requests.find redemption.qrPaymentRequestId = some request →
    RedeemedIffCompleted s.rows s.side →
    Returns runtime s input redemption outcome steps s' returned →
    SettledAtomically s s' redemption returned outcome := by
  intro h
  have hrun : Returns plainQrRuntime scanned scannedConfirm scannedRedemption
      (.result scannedPosted) [runAt 2, .fail]
      { scanned with rows := scanned.rows.put (scannedRedemption.complete scannedPosted 2) }
      scannedRedemption := rfl
  obtain ⟨-, ⟨stored, hfind, hsame⟩, -⟩ := h _ _ _ _ _ _ scannedRequest _ _ rfl rfl rfl
    scanned_redeemed hrun
  rw [find_complete (s := scanned) rfl] at hfind
  cases hfind
  cases hsame

end AegisShield.Payments
