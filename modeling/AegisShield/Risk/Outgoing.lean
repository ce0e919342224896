import AegisShield.Payments.OneToOne
import AegisShield.Risk.Events

/-!
# The outgoing amount of a subject

The counter `outgoing:86400s` (`event.service.ts`, lines 127-139) beside the previews and
confirms of transfers. Payments emits an event for a preview (`transfers.service.ts`, lines
209-224), and the Gateway one for a preview and one for a confirm
(`transfers.controller.ts`, lines 116-126 and 234-243). The calls of Payments are interleaved in
any way, and events arrive in any order, or are lost.

Results:
* `counted_reachable`: what has been counted, or is on its way, is the amounts of the previews.
* `outgoing_iff`: when all events have arrived within one window, the counter is what the
  completed transfers come to if and only if every preview was for the maximal amount and its
  transfer is completed.

**Deviation.** Both services emit a counted event for one preview, and the event of a confirm
has no amount.
-/

namespace AegisShield.Risk

open Common
open Payments (IntentRequest IntentCall IntentState IntentAction IntentShared TransferIntentRow
  TransferRow PaymentsLimits Confirmation intentService)

/-! ## The events -/

/-- The identifier and the time that an event gets when it is emitted. -/
structure EventStamp where
  eventId : String
  uuid : String
  occurredAt : ℕ

/-- The event of `createIntent` (`transfers.service.ts`, lines 209-224), as
    `PaymentsRiskClient.emit` completes it. -/
def paymentsPreviewEvent (limits : PaymentsLimits) (request : IntentRequest) (stamp : EventStamp) :
    SecurityEvent where
  eventId := stamp.eventId
  source := .PAYMENTS
  sourceEventId := "payments:" ++ stamp.uuid
  eventType := if request.amountMinor ≥ limits.maxTransferMinor then .HIGH_VALUE_TRANSFER
    else .TRANSFER_PREVIEW
  occurredAt := stamp.occurredAt
  subjectId := some request.senderCustomerId
  amountMinor := some (.string (toString request.amountMinor))

/-- The event of a preview (`transfers.controller.ts`, lines 116-126), as `RiskClient.emit`
    completes it. -/
def gatewayPreviewEvent (request : IntentRequest) (stamp : EventStamp) : SecurityEvent where
  eventId := stamp.eventId
  source := .GATEWAY
  sourceEventId := "gateway:" ++ stamp.uuid
  eventType := .TRANSFER_PREVIEW
  occurredAt := stamp.occurredAt
  subjectId := some request.senderCustomerId
  amountMinor := some (.string (toString request.amountMinor))

/-- The event of a confirm (`transfers.controller.ts`, lines 234-243). -/
def gatewayConfirmationEvent (c : Confirmation) (stamp : EventStamp) : SecurityEvent where
  eventId := stamp.eventId
  source := .GATEWAY
  sourceEventId := "gateway:" ++ stamp.uuid
  eventType := .TRANSFER_CONFIRMATION
  occurredAt := stamp.occurredAt
  subjectId := some c.senderCustomerId
  amountMinor := none

/-- The events that are emitted when a call of Payments takes a step: those of a preview when it
    returns, and that of a confirm when it returns. The event of the Gateway for a preview is
    taken as emitted with that of Payments; one that is never emitted counts as lost. -/
def emits (limits : PaymentsLimits) (payments gateway : EventStamp) :
    IntentCall → IntentCall → List SecurityEvent
  | .inserting request _, .intended _ =>
    [paymentsPreviewEvent limits request payments, gatewayPreviewEvent request gateway]
  | _, .confirmed c _ => [gatewayConfirmationEvent c gateway]
  | _, _ => []

/-! ## All interleavings -/

/-- The calls of Payments, the events that are on their way, and the stores of the risk engine. -/
structure OutgoingState where
  payments : IntentState
  emitted : List SecurityEvent
  risk : EventStore

/-- A step of Payments, the arrival of an event, or its loss: both clients go on when `fetch`
    fails. -/
inductive OutgoingAction where
  | payments (action : IntentAction) (payments gateway : EventStamp)
  | ingest (n : ℕ) (statements : List IngestEnv)
  | lose (n : ℕ)

/-- The events of a step of Payments. -/
def emittedBy (limits : PaymentsLimits) (payments gateway : EventStamp) (p q : IntentState) :
    IntentAction → List SecurityEvent
  | .next n _ =>
    match p.calls[n]?, q.calls[n]? with
    | some call, some call' => emits limits payments gateway call call'
    | _, _ => []
  | _ => []

/-- The stores after the ingestion of an event, if it is accepted. -/
def accepted (runtime : RiskRuntime) (sourceTokens : RiskSource → String) (store : EventStore)
    (event : SecurityEvent) (statements : List IngestEnv) : Option EventStore :=
  match (ingestPool runtime sourceTokens).runAlone store { event := event, stage := .rating }
      (statements.map some) with
  | some (store', ⟨_, .done (.ok result)⟩) => if result.duplicate then none else some store'
  | _ => none

/-- Previews, authorizations, confirms and the events of them. -/
def outgoingSystem (runtime : Payments.Runtime) (limits : PaymentsLimits)
    (riskRuntime : RiskRuntime) (sourceTokens : RiskSource → String) :
    Machine OutgoingState OutgoingAction where
  init s := (intentService runtime limits).machine.init s.payments ∧ s.emitted = [] ∧
    s.risk = EventStore.migrated
  step s
    | .payments action payments gateway =>
      ((intentService runtime limits).machine.step s.payments action).map fun p =>
        { s with
          payments := p
          emitted := s.emitted ++ emittedBy limits payments gateway s.payments p action }
    | .ingest n statements =>
      match s.emitted[n]? with
      | none => none
      | some event => (accepted riskRuntime sourceTokens s.risk event statements).map fun store =>
          { s with emitted := s.emitted.eraseIdx n, risk := store }
    | .lose n => some { s with emitted := s.emitted.eraseIdx n }

/-! ## The property -/

/-- The length of the window, in milliseconds. -/
def windowMs : ℕ := 86400 * 1000

/-- No event is lost, and each arrives in the window that begins at `start`. -/
def deliveredFrom (start : ℕ) (_ : OutgoingState) : OutgoingAction → Prop
  | .payments _ _ _ => True
  | .ingest _ statements => ∀ e ∈ statements, start ≤ e.now ∧ e.now ≤ start + windowMs
  | .lose _ => False

/-- The counter of a subject, as `velocity.read` gives it. -/
def outgoingIncrement (subject : String) (amount : ℕ) : Increment :=
  ⟨subject, "outgoing:86400s", 86400, amount⟩

/-- What the confirmed transfers of a subject come to. -/
def confirmedTotal (transfers : Table TransferRow) (subject : String) : ℤ :=
  ((transfers.rows.filter fun row => decide (row.senderCustomerId = subject) &&
    decide (row.status = .COMPLETED)).map TransferRow.amountMinor).sum

/-- The counter is what the confirmed transfers come to. -/
def CountsConfirmed (riskRuntime : RiskRuntime) (s : OutgoingState) (subject : String) (now : ℕ) :
    Prop :=
  (s.risk.read riskRuntime.sha256 now (outgoingIncrement subject 0) : ℤ) =
    confirmedTotal s.payments.shared.transfers subject

/-- The transfer of the intent is completed. -/
def IsPaid (s : IntentShared) (intent : TransferIntentRow) : Prop :=
  ∃ row ∈ s.transfers.rows, row.intentId = intent.id ∧ row.status = .COMPLETED

/-- Every preview of the subject was for the maximal amount, and its transfer is completed. -/
def OnlyMaximalPaid (limits : PaymentsLimits) (s : IntentShared) (subject : String) : Prop :=
  ∀ intent ∈ s.intents.rows, intent.senderCustomerId = subject →
    intent.amountMinor = limits.maxTransferMinor ∧ IsPaid s intent

/-- No other customer has the key of the subject. -/
def KeyFree (riskRuntime : RiskRuntime) (s : IntentShared) (subject : String) : Prop :=
  ∀ intent ∈ s.intents.rows,
    riskRuntime.sha256 intent.senderCustomerId = riskRuntime.sha256 subject →
      intent.senderCustomerId = subject

/-! ## Keys of counters -/

section Keys

variable {sha256 : String → String} {inc inc' : Increment} {runtime : RiskRuntime}
  {event : SecurityEvent} {store store' : EventStore} {key : String}

/-- The other signals that are counted. -/
def otherSignals : List String :=
  ["requests:60s", "auth-failures:600s", "transfers:600s", "insufficient:600s",
    "idempotency:600s", "invalid-sensitive:600s", "ingestion-source:60s"]

theorem otherSignals_initial : ∀ signal ∈ otherSignals,
    signal.toList.head?.any (· ≠ 'o') = true := by decide

/-- Another signal has another key. -/
theorem velocityKey_ne (h : inc.signal = "outgoing:86400s") (h' : inc'.signal ∈ otherSignals) :
    EventStore.velocityKey sha256 inc ≠ EventStore.velocityKey sha256 inc' := by
  intro heq
  unfold EventStore.velocityKey at heq
  rw [h, String.append_assoc, String.append_assoc, String.append_assoc, String.append_assoc,
    String.append_right_inj] at heq
  have hhead := congrArg (fun text => text.toList.head?) heq
  simp only [String.toList_append, List.head?_append] at hhead
  obtain ⟨c, hc, hne⟩ := (Option.any_eq_true _ _).mp (otherSignals_initial _ h')
  rw [hc] at hhead
  have hinitial : "outgoing:86400s".toList.head? = some 'o' := by decide
  rw [hinitial] at hhead
  simp only [Option.some_or, Option.some.injEq] at hhead
  exact absurd hhead.symm (of_decide_eq_true hne)

theorem eq_of_mem_ite {c : Prop} [Decidable c] (h : inc ∈ if c then [inc'] else []) :
    inc = inc' := by
  split_ifs at h
  · exact List.mem_singleton.mp h
  · cases h

/-- The increments of an event are of the outgoing counter, or of another signal. -/
theorem increments_signal (h : inc ∈ event.increments runtime) :
    (inc.signal = "outgoing:86400s" ∧ inc.windowSeconds = 86400) ∨ inc.signal ∈ otherSignals := by
  unfold SecurityEvent.increments at h
  split at h
  · cases h
  · simp only [List.mem_append] at h
    rcases h with ((((h | h) | h) | h) | h) | h
    · rw [List.mem_singleton.mp h]
      exact .inr (by simp [otherSignals])
    · rw [eq_of_mem_ite h]
      exact .inr (by simp [otherSignals])
    · split_ifs at h
      · rcases List.mem_append.mp h with h | h
        · rw [List.mem_singleton.mp h]
          exact .inr (by simp [otherSignals])
        · obtain ⟨amount, -, rfl⟩ := Option.map_eq_some_iff.mp (Option.mem_toList.mp h)
          exact .inl ⟨rfl, rfl⟩
      · cases h
    iterate 3
      · rw [eq_of_mem_ite h]
        exact .inr (by simp [otherSignals])

/-- What increments of a key come to. -/
def keyTotal (sha256 : String → String) (key : String) (incs : List Increment) : ℕ :=
  ((incs.filter fun inc => EventStore.velocityKey sha256 inc = key).map Increment.amount).sum

theorem keyTotal_append (incs incs' : List Increment) :
    keyTotal sha256 key (incs ++ incs') = keyTotal sha256 key incs + keyTotal sha256 key incs' := by
  unfold keyTotal
  rw [List.filter_append, List.map_append, List.sum_append]

theorem keyTotal_cons (inc : Increment) (incs : List Increment) :
    keyTotal sha256 key (inc :: incs) =
      (if EventStore.velocityKey sha256 inc = key then inc.amount else 0) +
        keyTotal sha256 key incs := by
  unfold keyTotal
  by_cases h : EventStore.velocityKey sha256 inc = key
  · simp [h]
  · simp [h]

/-- Increments of other keys come to nothing. -/
theorem keyTotal_eq_zero {incs : List Increment}
    (h : ∀ inc ∈ incs, EventStore.velocityKey sha256 inc ≠ key) : keyTotal sha256 key incs = 0 := by
  unfold keyTotal
  rw [List.filter_eq_nil_iff.mpr fun inc hinc => by simpa using h inc hinc]
  rfl

/-- The key of the subject's counter. -/
def outgoingKey (sha256 : String → String) (subject : String) : String :=
  EventStore.velocityKey sha256 (outgoingIncrement subject 0)

theorem outgoingKey_inj {subject subject' : String} :
    outgoingKey sha256 subject = outgoingKey sha256 subject' ↔ sha256 subject = sha256 subject' := by
  unfold outgoingKey EventStore.velocityKey outgoingIncrement
  exact String.append_right_inj _

/-- What an event counts for a subject. -/
theorem keyTotal_increments {subject customer : String} (hevent : event.subjectId = some customer) :
    keyTotal runtime.sha256 (outgoingKey runtime.sha256 subject) (event.increments runtime) =
      if runtime.sha256 customer = runtime.sha256 subject ∧
          event.eventType ∈ [SecurityEventType.TRANSFER_PREVIEW, .TRANSFER_CONFIRMATION] then
        (positiveSafe (numberOrZero runtime.number event.amountMinor)).getD 0
      else 0 := by
  have hother : ∀ {inc' : Increment}, inc'.signal ∈ otherSignals →
      keyTotal runtime.sha256 (outgoingKey runtime.sha256 subject) [inc'] = 0 := by
    intro inc' h
    refine keyTotal_eq_zero fun inc hinc => ?_
    rw [List.mem_singleton.mp hinc]
    exact (velocityKey_ne rfl h).symm
  have hite : ∀ {inc' : Increment} {c : Prop} [Decidable c], inc'.signal ∈ otherSignals →
      keyTotal runtime.sha256 (outgoingKey runtime.sha256 subject) (if c then [inc'] else []) = 0 := by
    intro inc' c _ h
    split_ifs
    · exact hother h
    · rfl
  unfold SecurityEvent.increments
  rw [hevent]
  dsimp only
  rw [keyTotal_append, keyTotal_append, keyTotal_append, keyTotal_append, keyTotal_append,
    hother (by simp [otherSignals]), hite (by simp [otherSignals]), hite (by simp [otherSignals]),
    hite (by simp [otherSignals]), hite (by simp [otherSignals])]
  simp only [zero_add, add_zero]
  by_cases htype : event.eventType ∈ [SecurityEventType.TRANSFER_PREVIEW, .TRANSFER_CONFIRMATION]
  · rw [if_pos htype, keyTotal_append, hother (by simp [otherSignals]), zero_add]
    cases hamount : positiveSafe (numberOrZero runtime.number event.amountMinor) with
    | none => simp [keyTotal]
    | some amount =>
      have hkey : EventStore.velocityKey runtime.sha256 ⟨customer, "outgoing:86400s", 86400, amount⟩ =
          outgoingKey runtime.sha256 customer := rfl
      simp only [Option.map_some, Option.toList_some, keyTotal_cons, hkey, outgoingKey_inj,
        Option.getD_some, htype, and_true]
      rfl
  · rw [if_neg htype, if_neg fun h => htype h.2]
    rfl

end Keys

/-! ## The arrival of an event -/

/-- The counter is what was counted since the window began, and expires after it. -/
def Windowed (sha256 : String → String) (start : ℕ) (store : EventStore) (key : String) : Prop :=
  (store.cells key = none ∧ keyTotal sha256 key (store.applied.map Prod.snd) = 0) ∨
    ∃ last, store.cells key = some
        { value := keyTotal sha256 key (store.applied.map Prod.snd), expiresAt := some last } ∧
      start + windowMs ≤ last

section Arrival

variable {runtime : RiskRuntime} {sourceTokens : RiskSource → String}
  {store store' : EventStore} {event event' : SecurityEvent} {result : IngestResult}
  {statements : List IngestEnv} {start : ℕ} {key : String}

/-- An increment of another counter. -/
theorem Windowed.other {now : ℕ} {inc : Increment}
    (hkey : EventStore.velocityKey runtime.sha256 inc ≠ key)
    (h : Windowed runtime.sha256 start store key) :
    Windowed runtime.sha256 start (store.increment runtime.sha256 now inc) key := by
  have hcell : (store.increment runtime.sha256 now inc).cells key = store.cells key :=
    Function.update_of_ne hkey.symm _ _
  unfold Windowed
  rw [hcell]
  exact h

/-- An increment of an event, in the window. -/
theorem Windowed.apply {e : IngestEnv} {inc : Increment} {eventKey : EventKey}
    (hnow : start ≤ e.now ∧ e.now ≤ start + windowMs)
    (hwindow : EventStore.velocityKey runtime.sha256 inc = key → inc.windowSeconds = 86400)
    (h : Windowed runtime.sha256 start store key) :
    Windowed runtime.sha256 start (store.apply runtime.sha256 e.now eventKey inc) key := by
  have happlied : keyTotal runtime.sha256 key
      ((store.apply runtime.sha256 e.now eventKey inc).applied.map Prod.snd) =
        keyTotal runtime.sha256 key (store.applied.map Prod.snd) +
          if EventStore.velocityKey runtime.sha256 inc = key then inc.amount else 0 := by
    show keyTotal runtime.sha256 key ((store.applied ++ [(eventKey, inc)]).map Prod.snd) = _
    rw [List.map_append, keyTotal_append, List.map_singleton, keyTotal_cons]
    rfl
  unfold Windowed
  rw [happlied]
  by_cases hkey : EventStore.velocityKey runtime.sha256 inc = key
  · have hcell : (store.apply runtime.sha256 e.now eventKey inc).cells key =
        Cell.expireNx e.now 86400 (Cell.incrBy e.now inc.amount (store.cells key)) := by
      show Function.update store.cells _ _ key = _
      rw [hkey, Function.update_self, hwindow hkey]
    rw [if_pos hkey, hcell]
    right
    rcases h with ⟨hnone, hzero⟩ | ⟨last, hsome, hlast⟩
    · refine ⟨e.now + 86400 * 1000, ?_, Nat.add_le_add_right hnow.1 _⟩
      rw [hnone, hzero, zero_add, Cell.expireNx_incrBy_of_absent rfl]
    · refine ⟨last, ?_, hlast⟩
      rw [hsome, Cell.expireNx_incrBy_of_live (le_trans hnow.2 hlast)]
  · have hcell : (store.apply runtime.sha256 e.now eventKey inc).cells key = store.cells key :=
      Function.update_of_ne (Ne.symm hkey) _ _
    rw [if_neg hkey, hcell, add_zero]
    exact h

theorem ingestPool_next {p : IngestCall} {e : Option IngestEnv} :
    (ingestPool runtime sourceTokens).next store p e = IngestCall.next runtime store p e := rfl

variable {es : List (Option IngestEnv)} {receivedAt : ℕ}

/-- A call that has ended takes no step. -/
theorem done_runAlone {r : Except IngestError IngestResult}
    {p : IngestCall} (h : (ingestPool runtime sourceTokens).runAlone store
      { event := event, stage := .done r } es = some (store', p)) :
    store' = store ∧ p = { event := event, stage := .done r } := by
  cases es with
  | nil =>
    cases h
    exact ⟨rfl, rfl⟩
  | cons e es =>
    obtain ⟨store₁, p₁, hnext, -⟩ := Pool.runAlone_cons.mp h
    cases e <;> cases hnext

/-- The rest of a call after a statement whose answer arrives; without an answer it does not
    return. -/
theorem answered_runAlone {p : IngestCall} {stage : IngestStage} {e : IngestEnv}
    (h : (ingestPool runtime sourceTokens).runAlone store (p.answer e stage) es =
      some (store', { event := event', stage := .done (.ok result) })) :
    (ingestPool runtime sourceTokens).runAlone store { p with stage := stage } es =
      some (store', { event := event', stage := .done (.ok result) }) := by
  unfold IngestCall.answer at h
  split_ifs at h
  · exact h
  · obtain ⟨-, hdone⟩ := done_runAlone h
    cases hdone

/-- The increments of a call that returns. -/
theorem counting_runAlone {incs : List Increment}
    (h : (ingestPool runtime sourceTokens).runAlone store
      { event := event, stage := IngestCall.afterIncrement event receivedAt incs }
      (statements.map some) = some (store', { event := event', stage := .done (.ok result) }))
    (hnow : ∀ e ∈ statements, start ≤ e.now ∧ e.now ≤ start + windowMs)
    (hwindow : ∀ inc ∈ incs, EventStore.velocityKey runtime.sha256 inc = key →
      inc.windowSeconds = 86400) (hwindowed : Windowed runtime.sha256 start store key) :
    store'.applied.map Prod.snd = store.applied.map Prod.snd ++ incs ∧
      Windowed runtime.sha256 start store' key := by
  induction incs generalizing store statements with
  | nil =>
    obtain ⟨rfl, -⟩ := done_runAlone h
    exact ⟨(List.append_nil _).symm, hwindowed⟩
  | cons inc incs ih =>
    cases statements with
    | nil => cases h
    | cons e statements =>
      obtain ⟨store₁, p₁, hnext, hrest⟩ := Pool.runAlone_cons.mp h
      cases hnext
      obtain ⟨happlied, hend⟩ := ih (answered_runAlone hrest)
        (fun e he => hnow e (List.mem_cons_of_mem _ he))
        (fun inc hinc => hwindow inc (List.mem_cons_of_mem _ hinc))
        (hwindowed.apply (hnow e List.mem_cons_self) (hwindow inc List.mem_cons_self))
      refine ⟨happlied.trans ?_, hend⟩
      show (store.applied ++ [(event.key, inc)]).map Prod.snd ++ incs = _
      rw [List.map_append, List.append_assoc]
      rfl

/-- A call whose event was stored before returns it as a duplicate. -/
theorem finding_runAlone (h : (ingestPool runtime sourceTokens).runAlone store
      { event := event, stage := .finding } (statements.map some) =
        some (store', { event := event', stage := .done (.ok result) })) :
    result.duplicate = true := by
  cases statements with
  | nil => cases h
  | cons e statements =>
    obtain ⟨store₁, p₁, hnext, hrest⟩ := Pool.runAlone_cons.mp h
    simp only [ingestPool_next, IngestCall.next] at hnext
    split at hnext
    · cases hnext
      obtain ⟨-, hdone⟩ := done_runAlone hrest
      cases hdone
    next existing hfound =>
      cases hnext
      have hnoting := answered_runAlone hrest
      cases statements with
      | nil => cases hnoting
      | cons e' statements =>
        obtain ⟨store₂, p₂, hnext, hrest⟩ := Pool.runAlone_cons.mp hnoting
        simp only [ingestPool_next, IngestCall.next] at hnext
        split at hnext
        · cases hnext
          obtain ⟨-, hdone⟩ := done_runAlone hrest
          cases hdone
        · cases hnext
          obtain ⟨-, hdone⟩ := done_runAlone (answered_runAlone hrest)
          cases hdone
          rfl

theorem create_cells {now : ℕ} (h : store.create event receivedAt now = some store') :
    store'.cells = store.cells := by
  unfold EventStore.create at h
  split_ifs at h
  obtain ⟨events, -, rfl⟩ := Option.map_eq_some_iff.mp h
  rfl

/-- An event that is accepted in the window counts its increments. -/
theorem accepted_counts (h : accepted runtime sourceTokens store event statements = some store')
    (hnow : ∀ e ∈ statements, start ≤ e.now ∧ e.now ≤ start + windowMs) {subject : String}
    (hwindowed : Windowed runtime.sha256 start store (outgoingKey runtime.sha256 subject)) :
    store'.applied.map Prod.snd = store.applied.map Prod.snd ++ event.increments runtime ∧
      Windowed runtime.sha256 start store' (outgoingKey runtime.sha256 subject) := by
  unfold accepted at h
  split at h
  next store'' event' result hrun =>
    split_ifs at h with hduplicate
    cases h
    cases statements with
    | nil => cases hrun
    | cons e statements =>
      obtain ⟨store₁, p₁, hnext, hrest⟩ := Pool.runAlone_cons.mp hrun
      cases hnext
      have hrated := answered_runAlone hrest
      split_ifs at hrated
      · obtain ⟨-, hdone⟩ := done_runAlone hrated
        cases hdone
      · cases statements with
        | nil => cases hrated
        | cons e' statements =>
          obtain ⟨store₂, p₂, hnext, hrest⟩ := Pool.runAlone_cons.mp hrated
          simp only [ingestPool_next, IngestCall.next] at hnext
          split at hnext
          · cases hnext
            exact absurd (finding_runAlone (answered_runAlone hrest)) hduplicate
          next created hcreate =>
            cases hnext
            obtain ⟨-, -, -, happlied⟩ := create_some hcreate
            have hrate : Windowed runtime.sha256 start
                (store.increment runtime.sha256 e.now (rateIncrement event))
                (outgoingKey runtime.sha256 subject) :=
              hwindowed.other (velocityKey_ne rfl (by simp [rateIncrement, otherSignals])).symm
            have hcreated : Windowed runtime.sha256 start store₂
                (outgoingKey runtime.sha256 subject) := by
              unfold Windowed
              rw [happlied, create_cells hcreate]
              exact hrate
            obtain ⟨hcounted, hend⟩ := counting_runAlone (answered_runAlone hrest)
              (fun e he => hnow e (List.mem_cons_of_mem _ (List.mem_cons_of_mem _ he)))
              (fun inc hinc hkey => (increments_signal hinc).elim And.right fun hother =>
                absurd hkey.symm (velocityKey_ne rfl hother))
              hcreated
            rw [happlied] at hcounted
            exact ⟨hcounted, hend⟩
  · cases h

end Arrival

/-! ## The amounts of previews -/

/-- The amount is in the limits of a transfer. -/
def Allowed (limits : PaymentsLimits) (amountMinor : ℤ) : Prop :=
  limits.minTransferMinor ≤ amountMinor ∧ amountMinor ≤ limits.maxTransferMinor

/-- A preview that is about to be inserted has passed the limits. -/
def AllowedCall (limits : PaymentsLimits) : IntentCall → Prop
  | .inserting request _ => Allowed limits request.amountMinor
  | _ => True

section Amounts

variable {runtime : Payments.Runtime} {limits : PaymentsLimits} {s s' : IntentShared}
  {call call' : IntentCall} {x : Payments.IntentInput}

theorem allowedCall_move (h : Payments.IntentMove runtime limits s call x s' call') :
    AllowedCall limits call' := by
  cases h with
  | drafted hdraft =>
    obtain ⟨-, hmin, hmax⟩ := Payments.intentDraft_ok hdraft
    exact ⟨hmin, hmax⟩
  | _ => trivial

theorem allowed_move (h : Payments.TablesMove runtime limits s s' call call')
    (hs : ∀ id intent, s.intents.find id = some intent → Allowed limits intent.amountMinor)
    (hcall : AllowedCall limits call) (id : String) (intent : TransferIntentRow)
    (hfind : s'.intents.find id = some intent) : Allowed limits intent.amountMinor := by
  rcases h.intent_of hfind with ⟨old, hold, hterms, -⟩ | ⟨request, preview, e, rfl, rfl, -, -⟩
  · have hamount : intent.amountMinor = old.amountMinor := congrArg (·.amountMinor) hterms
    rw [hamount]
    exact hs id old hold
  · exact hcall

/-- Every intent has an amount in the limits. -/
theorem allowed_reachable {p : IntentState}
    (h : (intentService runtime limits).machine.Reachable Machine.always p) :
    (∀ id intent, p.shared.intents.find id = some intent → Allowed limits intent.amountMinor) ∧
      ∀ call ∈ p.calls, AllowedCall limits call := by
  refine Pool.invariant (G := fun s : IntentShared => ∀ id intent,
    s.intents.find id = some intent → Allowed limits intent.amountMinor)
    (A := fun _ => AllowedCall limits) ?_ ?_ ?_ ?_ h
  · rintro s rfl id intent ⟨⟩
  · intro s start _
    cases start with
    | createIntent | authorize | confirm => trivial
  · intro p n x call s' call' hs hcalls _ hcall hnext
    have hmove := Payments.intentMove_of_next hnext
    have hafter := @Payments.tablesMove_after runtime limits p.shared call x
    have hknown := hcalls call (Pool.mem_of_getElem? hcall)
    refine ⟨allowed_move hmove.tables (allowed_move hafter hs hknown) hknown,
      allowedCall_move hmove, fun m other _ hother => ?_⟩
    exact hcalls other (Pool.mem_of_getElem? hother)
  · exact fun s x => x.elim

end Amounts

/-! ## What the previews count -/

/-- What the events of a preview count. -/
def previewCount (limits : PaymentsLimits) (amountMinor : ℤ) : ℕ :=
  (if amountMinor < limits.maxTransferMinor then amountMinor.toNat else 0) + amountMinor.toNat

/-- What the events of an intent count for a subject. -/
def intentCount (sha256 : String → String) (limits : PaymentsLimits) (subject : String)
    (intent : TransferIntentRow) : ℕ :=
  if sha256 intent.senderCustomerId = sha256 subject then previewCount limits intent.amountMinor
  else 0

/-- What an event counts for a subject. -/
def eventCount (runtime : RiskRuntime) (subject : String) (event : SecurityEvent) : ℕ :=
  keyTotal runtime.sha256 (outgoingKey runtime.sha256 subject) (event.increments runtime)

section Counts

variable {runtime : RiskRuntime} {limits : PaymentsLimits} {request : IntentRequest}
  {c : Confirmation} {stamp : EventStamp} {subject : String}

/-- `Number(amountMinor)` is a positive safe integer. -/
theorem positiveSafe_amount {amountMinor : ℤ} (hpos : 0 < amountMinor)
    (hsafe : amountMinor ≤ Json.maxSafeInteger) :
    positiveSafe (numberOrZero runtime.number (some (.string (toString amountMinor)))) =
      some amountMinor.toNat := by
  obtain ⟨n, rfl⟩ := Int.eq_ofNat_of_zero_le hpos.le
  have hn : n ≤ Json.maxSafeInteger := by exact_mod_cast hsafe
  have htext : toString (n : ℤ) = toString n := rfl
  have hnonempty : toString n ≠ "" := by
    rw [Nat.toString_eq_ofList_toDigits]
    intro hempty
    exact Nat.toDigits_ne_nil (String.ofList_eq_empty_iff.mp hempty)
  show positiveSafe (if toString (n : ℤ) = "" then some 0
    else runtime.number (toString (n : ℤ))) = _
  rw [htext, if_neg hnonempty, runtime.number_toString n hn]
  unfold positiveSafe
  rw [Option.bind_some, Rat.den_natCast, Rat.num_natCast, if_pos ⟨rfl, hpos, hsafe⟩]

theorem eventCount_payments (hpos : 0 < request.amountMinor)
    (hsafe : request.amountMinor ≤ Json.maxSafeInteger) :
    eventCount runtime subject (paymentsPreviewEvent limits request stamp) =
      if runtime.sha256 request.senderCustomerId = runtime.sha256 subject ∧
          request.amountMinor < limits.maxTransferMinor then request.amountMinor.toNat else 0 := by
  have hsubject : (paymentsPreviewEvent limits request stamp).subjectId =
    some request.senderCustomerId := rfl
  have hamount : (paymentsPreviewEvent limits request stamp).amountMinor =
    some (.string (toString request.amountMinor)) := rfl
  have htype : (paymentsPreviewEvent limits request stamp).eventType ∈
      [SecurityEventType.TRANSFER_PREVIEW, .TRANSFER_CONFIRMATION] ↔
        request.amountMinor < limits.maxTransferMinor := by
    show (if request.amountMinor ≥ limits.maxTransferMinor then
      SecurityEventType.HIGH_VALUE_TRANSFER else .TRANSFER_PREVIEW) ∈ _ ↔ _
    by_cases hmax : request.amountMinor ≥ limits.maxTransferMinor
    · simp [hmax]
    · simp [hmax, not_le.mp hmax]
  unfold eventCount
  rw [keyTotal_increments hsubject, hamount, positiveSafe_amount hpos hsafe, Option.getD_some]
  exact if_congr (and_congr_right fun _ => htype) rfl rfl

theorem eventCount_gateway (hpos : 0 < request.amountMinor)
    (hsafe : request.amountMinor ≤ Json.maxSafeInteger) :
    eventCount runtime subject (gatewayPreviewEvent request stamp) =
      if runtime.sha256 request.senderCustomerId = runtime.sha256 subject then
        request.amountMinor.toNat else 0 := by
  have hsubject : (gatewayPreviewEvent request stamp).subjectId =
    some request.senderCustomerId := rfl
  have hamount : (gatewayPreviewEvent request stamp).amountMinor =
    some (.string (toString request.amountMinor)) := rfl
  unfold eventCount
  rw [keyTotal_increments hsubject, hamount, positiveSafe_amount hpos hsafe, Option.getD_some]
  exact if_congr (and_iff_left (List.mem_cons_self)) rfl rfl

/-- A confirm counts nothing. -/
theorem eventCount_confirmation :
    eventCount runtime subject (gatewayConfirmationEvent c stamp) = 0 := by
  have hsubject : (gatewayConfirmationEvent c stamp).subjectId = some c.senderCustomerId := rfl
  have hamount : positiveSafe (numberOrZero runtime.number
    (gatewayConfirmationEvent c stamp).amountMinor) = none := rfl
  unfold eventCount
  rw [keyTotal_increments hsubject, hamount, Option.getD_none, ite_self]

end Counts

section Moves

variable {runtime : Payments.Runtime} {limits : PaymentsLimits} {riskRuntime : RiskRuntime}
  {s s' : IntentShared} {call call' : IntentCall} {x : Payments.IntentInput}
  {payments gateway : EventStamp} {subject : String}

theorem emits_confirmed {c : Confirmation} {row : TransferRow} :
    emits limits payments gateway call (.confirmed c row) = [gatewayConfirmationEvent c gateway] := by
  cases call <;> rfl

/-- Without a new intent no counted event is emitted. -/
theorem emits_count (h : ∀ token, call' ≠ .intended token) :
    ((emits limits payments gateway call call').map (eventCount riskRuntime subject)).sum = 0 := by
  cases call' with
  | intended token => exact absurd rfl (h token)
  | confirmed c row =>
    rw [emits_confirmed, List.map_singleton, List.sum_singleton, eventCount_confirmation]
  | _ => cases call <;> rfl

/-- An update of an intent that keeps its terms keeps what is counted. -/
theorem counts_put {intents : Table TransferIntentRow} {id : String}
    {intent intent' : TransferIntentRow} (hfind : intents.find id = some intent)
    (hterms : intent'.terms = intent.terms) :
    ((intents.put intent').rows.map (intentCount riskRuntime.sha256 limits subject)).sum =
      (intents.rows.map (intentCount riskRuntime.sha256 limits subject)).sum := by
  have hid : intent'.id = intent.id := congrArg (·.id) hterms
  have hsender : intent'.senderCustomerId = intent.senderCustomerId :=
    congrArg (·.senderCustomerId) hterms
  have hamount : intent'.amountMinor = intent.amountMinor := congrArg (·.amountMinor) hterms
  have hcount : intentCount riskRuntime.sha256 limits subject intent' =
      intentCount riskRuntime.sha256 limits subject intent := by
    unfold intentCount
    rw [hsender, hamount]
  have hkey : key intent' = id := hid.trans (Table.key_of_find hfind)
  have hsum := Table.sum_put (intentCount riskRuntime.sha256 limits subject)
    (t := intents) (r := intent') (x := intent) (hkey ▸ hfind)
  omega

/-- The events of a step count what its intent counts. -/
theorem counts_move (riskRuntime : RiskRuntime) (payments gateway : EventStamp) (subject : String)
    (hsafe : limits.maxTransferMinor ≤ Json.maxSafeInteger) (hcall : AllowedCall limits call)
    (h : Payments.IntentMove runtime limits s call x s' call') :
    (s'.intents.rows.map (intentCount riskRuntime.sha256 limits subject)).sum =
      (s.intents.rows.map (intentCount riskRuntime.sha256 limits subject)).sum +
        ((emits limits payments gateway call call').map (eventCount riskRuntime subject)).sum := by
  cases h with
  | @intended request preview e intents hinsert =>
    obtain ⟨hmin, hmax⟩ := hcall
    have hpos : 0 < request.amountMinor := lt_of_lt_of_le limits.min_pos hmin
    have hamount : request.amountMinor ≤ Json.maxSafeInteger := hmax.trans hsafe
    have hevents : ((emits limits payments gateway (.inserting request preview)
        (.intended e.token)).map (eventCount riskRuntime subject)).sum =
          intentCount riskRuntime.sha256 limits subject
            (Payments.newIntent runtime limits request preview e) := by
      have hnew : intentCount riskRuntime.sha256 limits subject
          (Payments.newIntent runtime limits request preview e) =
        if riskRuntime.sha256 request.senderCustomerId = riskRuntime.sha256 subject then
          previewCount limits request.amountMinor else 0 := rfl
      show eventCount riskRuntime subject (paymentsPreviewEvent limits request payments) +
        (eventCount riskRuntime subject (gatewayPreviewEvent request gateway) + 0) = _
      rw [hnew, eventCount_payments hpos hamount, eventCount_gateway hpos hamount]
      unfold previewCount
      by_cases hsender : riskRuntime.sha256 request.senderCustomerId = riskRuntime.sha256 subject
      · rw [if_pos hsender, if_pos hsender, add_zero, if_congr (and_iff_right hsender) rfl rfl]
      · rw [if_neg hsender, if_neg hsender, if_neg fun h => hsender h.1]
    rw [hevents]
    unfold Payments.insertIntent at hinsert
    split_ifs at hinsert
    exact Table.sum_insert _ hinsert
  | granted hfind | created hcreate hfind =>
    rw [emits_count (by simp), add_zero]
    exact counts_put hfind rfl
  | repeated | aborted =>
    rw [emits_count (by simp), add_zero]
    rfl
  | _ => rw [emits_count (by simp), add_zero]

end Moves

/-! ## Runs -/

/-- What has been counted, or is on its way, is what the previews count, and the counter of the
    subject is what has been counted. -/
structure OutgoingInv (runtime : Payments.Runtime) (limits : PaymentsLimits)
    (riskRuntime : RiskRuntime) (start : ℕ) (subject : String) (s : OutgoingState) : Prop where
  payments : (intentService runtime limits).machine.Reachable Machine.always s.payments
  windowed : Windowed riskRuntime.sha256 start s.risk (outgoingKey riskRuntime.sha256 subject)
  counted : keyTotal riskRuntime.sha256 (outgoingKey riskRuntime.sha256 subject)
      (s.risk.applied.map Prod.snd) + (s.emitted.map (eventCount riskRuntime subject)).sum =
    (s.payments.shared.intents.rows.map (intentCount riskRuntime.sha256 limits subject)).sum

section Runs

variable {runtime : Payments.Runtime} {limits : PaymentsLimits} {riskRuntime : RiskRuntime}
  {sourceTokens : RiskSource → String} {start : ℕ} {subject : String} {s : OutgoingState}

/-- A step of Payments emits what its intent counts. -/
theorem counts_payments {p q : IntentState} {action : IntentAction}
    (riskRuntime : RiskRuntime) (payments gateway : EventStamp) (subject : String)
    (hsafe : limits.maxTransferMinor ≤ Json.maxSafeInteger)
    (hp : (intentService runtime limits).machine.Reachable Machine.always p)
    (h : (intentService runtime limits).machine.step p action = some q) :
    (q.shared.intents.rows.map (intentCount riskRuntime.sha256 limits subject)).sum =
      (p.shared.intents.rows.map (intentCount riskRuntime.sha256 limits subject)).sum +
        ((emittedBy limits payments gateway p q action).map
          (eventCount riskRuntime subject)).sum := by
  cases action with
  | start i =>
    cases Pool.step_start h
    rfl
  | env x => exact x.elim
  | next n x =>
    obtain ⟨call, s', call', hcall, hnext, rfl⟩ := Pool.step_next h
    have hmove := Payments.intentMove_of_next hnext
    have hallowed := (allowed_reachable hp).2 call (Pool.mem_of_getElem? hcall)
    have hget : (p.calls.set n call')[n]? = some call' :=
      List.getElem?_set_self (List.getElem?_eq_some_iff.mp hcall).1
    have hafter : (p.shared.after x).intents = p.shared.intents := by cases x <;> rfl
    have hcounts := counts_move riskRuntime payments gateway subject hsafe hallowed hmove
    rw [hafter] at hcounts
    unfold emittedBy
    simp only [hcall, hget]
    exact hcounts

/-- What has been counted, or is on its way, is the amounts of the previews. -/
theorem counted_reachable (hsafe : limits.maxTransferMinor ≤ Json.maxSafeInteger)
    (h : (outgoingSystem runtime limits riskRuntime sourceTokens).Reachable
      (deliveredFrom start) s) :
    OutgoingInv runtime limits riskRuntime start subject s := by
  refine Machine.invariant ?_ ?_ h
  · rintro s ⟨hpayments, hemitted, hrisk⟩
    refine ⟨.init hpayments, ?_, ?_⟩
    · rw [hrisk]
      exact .inl ⟨rfl, rfl⟩
    · rw [hrisk, hemitted, hpayments.1]
      rfl
  · rintro s a t ⟨hpayments, hwindowed, hcounted⟩ hC hstep
    cases a with
    | payments action payments gateway =>
      obtain ⟨p, hp, rfl⟩ := Option.map_eq_some_iff.mp hstep
      refine ⟨hpayments.step trivial hp, hwindowed, ?_⟩
      have hcounts := counts_payments riskRuntime payments gateway subject hsafe hpayments hp
      rw [List.map_append, List.sum_append, ← Nat.add_assoc, hcounted, hcounts]
    | ingest n statements =>
      have hingest : (match s.emitted[n]? with
        | none => none
        | some event =>
          (accepted riskRuntime sourceTokens s.risk event statements).map fun store =>
            { s with emitted := s.emitted.eraseIdx n, risk := store }) = some t := hstep
      split at hingest
      · cases hingest
      next event hevent =>
        obtain ⟨store, hstore, rfl⟩ := Option.map_eq_some_iff.mp hingest
        obtain ⟨happlied, hend⟩ := accepted_counts hstore hC hwindowed
        refine ⟨hpayments, hend, ?_⟩
        obtain ⟨hn, rfl⟩ := List.getElem?_eq_some_iff.mp hevent
        have hperm := ((List.getElem_cons_eraseIdx_perm hn).map
          (eventCount riskRuntime subject)).sum_eq
        rw [List.map_cons, List.sum_cons] at hperm
        rw [happlied, keyTotal_append, ← hcounted, ← hperm, Nat.add_assoc]
        rfl
    | lose n => exact hC.elim

end Runs

/-! ## The counter and the transfers -/

instance (s : IntentShared) (intent : TransferIntentRow) : Decidable (IsPaid s intent) :=
  inferInstanceAs (Decidable (∃ row ∈ s.transfers.rows, row.intentId = intent.id ∧
    row.status = .COMPLETED))

section Sums

variable {α : Type*} {l : List α} {f g : α → ℤ}

/-- Sums of ordered terms are equal only if the terms are. -/
theorem sum_eq_sum_iff (h : ∀ x ∈ l, f x ≤ g x) :
    (l.map g).sum = (l.map f).sum ↔ ∀ x ∈ l, g x = f x := by
  induction l with
  | nil => simp
  | cons x l ih =>
    have hx := h x List.mem_cons_self
    have hl : (l.map f).sum ≤ (l.map g).sum :=
      List.sum_le_sum fun y hy => h y (List.mem_cons_of_mem _ hy)
    have hrest := ih fun y hy => h y (List.mem_cons_of_mem _ hy)
    rw [List.map_cons, List.map_cons, List.sum_cons, List.sum_cons, List.forall_mem_cons, ← hrest]
    omega

end Sums

section Totals

variable {runtime : Payments.Runtime} {limits : PaymentsLimits} {riskRuntime : RiskRuntime}
  {start now : ℕ} {subject : String} {s : OutgoingState} {p : IntentShared}

/-- The counter, as the previews of the subject. -/
theorem read_eq (hinv : OutgoingInv runtime limits riskRuntime start subject s)
    (hempty : s.emitted = []) (hkey : KeyFree riskRuntime s.payments.shared subject)
    (hnow : now ≤ start + windowMs) :
    s.risk.read riskRuntime.sha256 now (outgoingIncrement subject 0) =
      (s.payments.shared.intents.rows.map fun intent =>
        if intent.senderCustomerId = subject then previewCount limits intent.amountMinor
        else 0).sum := by
  have hread : s.risk.read riskRuntime.sha256 now (outgoingIncrement subject 0) =
      keyTotal riskRuntime.sha256 (outgoingKey riskRuntime.sha256 subject)
        (s.risk.applied.map Prod.snd) := by
    show (Cell.get now (s.risk.cells (outgoingKey riskRuntime.sha256 subject))).getD 0 = _
    rcases hinv.windowed with ⟨hcell, hzero⟩ | ⟨last, hcell, hlast⟩
    · rw [hcell, hzero]
      rfl
    · have hlive : ∀ value : ℕ, Entry.live now ⟨value, some last⟩ = true :=
        fun _ => decide_eq_true (hnow.trans hlast)
      unfold Cell.get
      rw [hcell, Cell.find_of_live (hlive _), Option.map_some, Option.getD_some]
  have hcounted := hinv.counted
  rw [hempty, List.map_nil, List.sum_nil, add_zero] at hcounted
  rw [hread, hcounted]
  refine congrArg List.sum (List.map_congr_left fun intent hintent => ?_)
  exact if_congr ⟨hkey intent hintent, fun h => congrArg riskRuntime.sha256 h⟩ rfl rfl

/-- The completed transfers of the subject are those of its paid intents. -/
theorem confirmedTotal_eq (h : Payments.Linked p) :
    confirmedTotal p.transfers subject =
      (p.intents.rows.map fun intent =>
        if intent.senderCustomerId = subject ∧ IsPaid p intent then intent.amountMinor
        else 0).sum := by
  let amountOf : String → ℤ := fun id =>
    ((p.intents.find id).map TransferIntentRow.amountMinor).getD 0
  let rows := p.transfers.rows.filter fun row => decide (row.senderCustomerId = subject) &&
    decide (row.status = .COMPLETED)
  let intents := p.intents.rows.filter fun intent =>
    decide (intent.senderCustomerId = subject ∧ IsPaid p intent)
  have hperm : (rows.map TransferRow.intentId).Perm (intents.map TransferIntentRow.id) := by
    have hnodup : rows.Nodup := (List.Nodup.of_map _ p.transfers.nodup_keys).filter _
    have hids : (rows.map TransferRow.intentId).Nodup := hnodup.map_on fun row hrow row' hrow' =>
      h.once row (List.mem_of_mem_filter hrow) row' (List.mem_of_mem_filter hrow')
    have hids' : (intents.map TransferIntentRow.id).Nodup :=
      p.intents.nodup_keys.sublist (List.filter_sublist.map _)
    refine (List.perm_ext_iff_of_nodup hids hids').mpr fun id => ?_
    simp only [rows, intents, List.mem_map, List.mem_filter, Bool.and_eq_true, decide_eq_true_eq]
    constructor
    · rintro ⟨row, ⟨hrow, hsender, hstatus⟩, rfl⟩
      obtain ⟨intent, hintent, hid, hcopies⟩ := h.copies row hrow
      exact ⟨intent, ⟨hintent, hcopies.sender ▸ hsender, row, hrow, hid.symm, hstatus⟩, hid⟩
    · rintro ⟨intent, ⟨hintent, hsender, row, hrow, hid, hstatus⟩, rfl⟩
      obtain ⟨intent', hintent', hid', hcopies⟩ := h.copies row hrow
      cases Table.eq_of_key hintent' hintent (hid'.trans hid)
      exact ⟨row, ⟨hrow, hcopies.sender.trans hsender, hstatus⟩, hid⟩
  have hrows : ∀ row ∈ rows, row.amountMinor = amountOf row.intentId := by
    intro row hrow
    obtain ⟨intent, hintent, hid, hcopies⟩ := h.copies row (List.mem_of_mem_filter hrow)
    have hfind : p.intents.find row.intentId = some intent := hid ▸ Table.find_of_mem hintent
    show _ = ((p.intents.find row.intentId).map TransferIntentRow.amountMinor).getD 0
    rw [hfind, hcopies.amount]
    rfl
  have hintents : ∀ intent ∈ intents, amountOf intent.id = intent.amountMinor := by
    intro intent hintent
    have hfind : p.intents.find intent.id = some intent :=
      Table.find_of_mem (List.mem_of_mem_filter hintent)
    show ((p.intents.find intent.id).map TransferIntentRow.amountMinor).getD 0 = _
    rw [hfind]
    rfl
  calc (rows.map TransferRow.amountMinor).sum
      = (rows.map fun row => amountOf row.intentId).sum :=
        congrArg List.sum (List.map_congr_left hrows)
    _ = ((rows.map TransferRow.intentId).map amountOf).sum := by rw [List.map_map]; rfl
    _ = ((intents.map TransferIntentRow.id).map amountOf).sum := (hperm.map amountOf).sum_eq
    _ = (intents.map fun intent => amountOf intent.id).sum := by rw [List.map_map]; rfl
    _ = (intents.map TransferIntentRow.amountMinor).sum :=
        congrArg List.sum (List.map_congr_left hintents)
    _ = _ := by
      rw [List.sum_map_ite]
      simp [intents]

variable {amountMinor : ℤ} {paid : Prop}

/-- Between the events of a preview and its completed transfer there is no difference only for a
    maximal amount. -/
theorem previewCount_eq_iff [Decidable paid] (h : Allowed limits amountMinor) :
    (previewCount limits amountMinor : ℤ) = (if paid then amountMinor else 0) ↔
      amountMinor = limits.maxTransferMinor ∧ paid := by
  obtain ⟨hmin, hmax⟩ := h
  have hpos : 0 < amountMinor := lt_of_lt_of_le limits.min_pos hmin
  unfold previewCount
  by_cases hpaid : paid
  · rw [if_pos hpaid, and_iff_left hpaid]
    split_ifs with hlt
    · push_cast
      omega
    · push_cast
      omega
  · rw [if_neg hpaid]
    push_cast
    constructor
    · intro hzero
      split_ifs at hzero
      · omega
      · omega
    · exact fun hboth => absurd hboth.2 hpaid

/-- The events of a preview count its amount at least once. -/
theorem le_previewCount [Decidable paid] :
    (if paid then amountMinor else 0) ≤ (previewCount limits amountMinor : ℤ) := by
  have hself := Int.self_le_toNat amountMinor
  unfold previewCount
  push_cast
  split_ifs <;> omega

/-- When every event has arrived in the window, the counter is what the completed transfers come
    to if and only if every preview of the subject was for the maximal amount and its transfer is
    completed. -/
theorem outgoing_iff {sourceTokens : RiskSource → String}
    (hsafe : limits.maxTransferMinor ≤ Json.maxSafeInteger)
    (h : (outgoingSystem runtime limits riskRuntime sourceTokens).Reachable
      (deliveredFrom start) s)
    (hempty : s.emitted = []) (hkey : KeyFree riskRuntime s.payments.shared subject)
    (hnow : now ≤ start + windowMs) :
    CountsConfirmed riskRuntime s subject now ↔
      OnlyMaximalPaid limits s.payments.shared subject := by
  have hinv : OutgoingInv runtime limits riskRuntime start subject s := counted_reachable hsafe h
  have hlinked := Payments.linked_of_oneInv (Payments.oneInv_reachable hinv.payments).1
  have hallowed := (allowed_reachable hinv.payments).1
  have hiff : ∀ intent ∈ s.payments.shared.intents.rows,
      (((if intent.senderCustomerId = subject then previewCount limits intent.amountMinor else 0 : ℕ) :
          ℤ) =
        if intent.senderCustomerId = subject ∧ IsPaid s.payments.shared intent then
          intent.amountMinor else 0) ↔
      (intent.senderCustomerId = subject →
        intent.amountMinor = limits.maxTransferMinor ∧ IsPaid s.payments.shared intent) := by
    intro intent hintent
    by_cases hsender : intent.senderCustomerId = subject
    · rw [if_pos hsender, if_congr (and_iff_right hsender) rfl rfl, forall_prop_of_true hsender]
      exact previewCount_eq_iff (hallowed _ _ (Table.find_of_mem hintent))
    · rw [if_neg hsender, if_neg fun h => hsender h.1]
      exact iff_of_true rfl fun h => absurd h hsender
  have hle : ∀ intent ∈ s.payments.shared.intents.rows,
      (if intent.senderCustomerId = subject ∧ IsPaid s.payments.shared intent then
        intent.amountMinor else 0) ≤
      ((if intent.senderCustomerId = subject then previewCount limits intent.amountMinor else 0 : ℕ) :
        ℤ) := by
    intro intent _
    by_cases hsender : intent.senderCustomerId = subject
    · rw [if_pos hsender, if_congr (and_iff_right hsender) rfl rfl]
      exact le_previewCount
    · rw [if_neg hsender, if_neg fun h => hsender h.1]
      rfl
  unfold CountsConfirmed OnlyMaximalPaid
  rw [read_eq hinv hempty hkey hnow, confirmedTotal_eq hlinked, Nat.cast_list_sum, List.map_map]
  exact (sum_eq_sum_iff hle).trans (forall₂_congr hiff)

end Totals

/-! ## One transfer -/

instance (limits : PaymentsLimits) (s : IntentShared) (subject : String) :
    Decidable (OnlyMaximalPaid limits s subject) :=
  inferInstanceAs (Decidable (∀ intent ∈ s.intents.rows, intent.senderCustomerId = subject →
    intent.amountMinor = limits.maxTransferMinor ∧ IsPaid s intent))

instance (riskRuntime : RiskRuntime) (s : IntentShared) (subject : String) :
    Decidable (KeyFree riskRuntime s subject) :=
  inferInstanceAs (Decidable (∀ intent ∈ s.intents.rows,
    riskRuntime.sha256 intent.senderCustomerId = riskRuntime.sha256 subject →
      intent.senderCustomerId = subject))

instance (riskRuntime : RiskRuntime) (s : OutgoingState) (subject : String) (now : ℕ) :
    Decidable (CountsConfirmed riskRuntime s subject now) :=
  inferInstanceAs (Decidable (_ = _))

/-- The step is in the window that begins at 0. -/
def inFirstWindow (_ : OutgoingState) : OutgoingAction → Bool
  | .payments _ _ _ => true
  | .ingest _ statements => statements.all fun e => decide (e.now ≤ 0 + windowMs)
  | .lose _ => false

theorem delivered_of_inFirstWindow (s : OutgoingState) (a : OutgoingAction)
    (h : inFirstWindow s a = true) : deliveredFrom 0 s a := by
  cases a with
  | payments action payments gateway => trivial
  | ingest n statements =>
    exact fun e he => ⟨Nat.zero_le _, of_decide_eq_true (List.all_eq_true.mp h e he)⟩
  | lose n => cases h

/-- No hashing, and `Number` reads every text as decimal digits. -/
def decimalRiskRuntime : RiskRuntime where
  sha256 := id
  number text := some (Nat.ofDigitChars 10 text.toList 0 : ℕ)
  number_toString n _ := by
    rw [Nat.toString_eq_ofList_toDigits, String.toList_ofList, Nat.ofDigitChars_ten_toDigits]

/-- No intents, no events and empty stores. -/
def noOutgoing : OutgoingState where
  payments := Payments.noIntents
  emitted := []
  risk := EventStore.migrated

theorem noOutgoing_init : (outgoingSystem Payments.plainRuntime Payments.defaultLimits
    decimalRiskRuntime fun _ => "source-token").init noOutgoing :=
  ⟨Payments.noIntents_init _ _, rfl, rfl⟩

/-- A preview of the amount and its confirm, which the Ledger posts. -/
def paidIntent (amountMinor : ℤ) : List IntentAction :=
  Payments.intentOf 0 0 "s" "i-1" "t-1" amountMinor ++ Payments.confirmOf 2 0 "s" "t-1" "k-1" ++
    Payments.statements 2 6 (Payments.plainInput 0 "p-1" "" 1) ++
    [.next 2 (.reply (.result ⟨"j-1", "p-1", "p-2", 0, amountMinor⟩)),
      .next 2 (Payments.plainInput 0 "" "" 0)]

/-- The steps of Payments, each with its own identifiers. -/
def stamped (actions : List IntentAction) : List OutgoingAction :=
  actions.zipIdx.map fun entry => .payments entry.1
    ⟨"payments-" ++ toString entry.2, toString entry.2, 0⟩
    ⟨"gateway-" ++ toString entry.2, toString entry.2, 0⟩

/-- The first event arrives, which takes some statements. -/
def arrives (count : ℕ) : OutgoingAction := .ingest 0 (.replicate count ⟨0, true⟩)

/-- All events have arrived, and no other customer has the key. -/
def delivered (s : OutgoingState) : Bool :=
  s.emitted.isEmpty && decide (KeyFree decimalRiskRuntime s.payments.shared "s")

/-- One transfer of 500 that is completed counts 1000. -/
theorem preview_counted_twice : ¬ ∀ (runtime : Payments.Runtime) (limits : PaymentsLimits)
    (riskRuntime : RiskRuntime) (sourceTokens : RiskSource → String) (start now : ℕ)
    (subject : String) (s : OutgoingState), limits.maxTransferMinor ≤ Json.maxSafeInteger →
    (outgoingSystem runtime limits riskRuntime sourceTokens).Reachable (deliveredFrom start) s →
    s.emitted = [] → KeyFree riskRuntime s.payments.shared subject → now ≤ start + windowMs →
    CountsConfirmed riskRuntime s subject now := by
  intro h
  obtain ⟨s, hs, hp⟩ := Machine.reachable_of_runUnder
    (stamped (paidIntent 500) ++ [arrives 5, arrives 5, arrives 4]) inFirstWindow
    (fun s => delivered s && !decide (CountsConfirmed decimalRiskRuntime s "s" 0))
    delivered_of_inFirstWindow noOutgoing_init (by decide +kernel)
  simp only [delivered, Bool.and_eq_true, List.isEmpty_iff, decide_eq_true_eq,
    Bool.not_eq_true', decide_eq_false_iff_not] at hp
  exact hp.2 (h _ _ _ _ 0 0 "s" s (by decide) hs hp.1.1 hp.1.2 (Nat.zero_le _))

/-- One maximal transfer that is completed is counted once. -/
theorem outgoing_maximal : ∃ s : OutgoingState,
    OnlyMaximalPaid Payments.defaultLimits s.payments.shared "s" ∧
      confirmedTotal s.payments.shared.transfers "s" = 5000000 ∧
        CountsConfirmed decimalRiskRuntime s "s" 0 := by
  obtain ⟨s, hs, hp⟩ := Machine.reachable_of_runUnder
    (stamped (paidIntent 5000000) ++ [arrives 3, arrives 5, arrives 4]) inFirstWindow
    (fun s => delivered s &&
      decide (OnlyMaximalPaid Payments.defaultLimits s.payments.shared "s") &&
        decide (confirmedTotal s.payments.shared.transfers "s" = 5000000))
    delivered_of_inFirstWindow noOutgoing_init (by decide +kernel)
  simp only [delivered, Bool.and_eq_true, List.isEmpty_iff, decide_eq_true_eq] at hp
  obtain ⟨⟨⟨hempty, hkey⟩, hpaid⟩, htotal⟩ := hp
  exact ⟨s, hpaid, htotal, (outgoing_iff (by decide) hs hempty hkey (Nat.zero_le _)).mpr hpaid⟩

end AegisShield.Risk
