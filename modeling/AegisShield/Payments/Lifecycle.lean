import AegisShield.Payments.Worker

/-!
# The lifecycle of a transfer

The statuses that a transfer goes through and the events written about them, over
every interleaving of its confirm and of recovery workers.

Results:
* `lifecycle`: in every run in which each settlement write finds the transfer PROCESSING, COMPLETED
  and FAILED are final, every event records the status that the transfer had before the change, and
  one COMPLETED or FAILED event is written at most.
* `completed_then_failed`: `settle` writes without looking at the status, and can
  turn a COMPLETED transfer FAILED.
-/

namespace AegisShield.Payments

open Common

/-- The event records the change from the status of `row` to that of `row'`, or no
    change of status at all. -/
def TransferEvent.records (e : TransferEvent) (row row' : TransferRow) : Prop :=
  (e.previousStatus = some row.status ∧ e.nextStatus = some row'.status) ∨
    (e.previousStatus = none ∧ e.nextStatus = none)

/-- The state machine of a transfer, for the runs whose steps meet `C`. -/
structure Lifecycle (config : PaymentsConfig) (C : State → Action → Prop) : Prop where
  /-- A COMPLETED or FAILED transfer keeps its status. -/
  terminal : ∀ (s t : State) id status, (payments config).machine.Reachable C s →
    statusOf s id = some status → status.isTerminal = true →
    (payments config).machine.Path C s t → statusOf t id = some status
  /-- The events written about a transfer in a step record the status it had before
      and the one it has after the step. -/
  previous : ∀ (s : State) a (t : State) id row row', (payments config).machine.Reachable C s → C s a →
    (payments config).machine.step s a = some t → s.find id = some row → t.find id = some row' →
    ∃ events, row'.events = row.events ++ events ∧ ∀ e ∈ events, e.records row row'
  /-- A transfer has at most one COMPLETED or FAILED event. -/
  once : ∀ (s : State) id row, (payments config).machine.Reachable C s → s.find id = some row →
    row.events.countP TransferEvent.isTerminal ≤ 1

/-- A settlement write finds the transfer PROCESSING. -/
def settlesProcessing (s : State) (a : Action) : Bool :=
  (settles s a).all fun id => statusOf s id = some .PROCESSING

variable {config : PaymentsConfig} {s t : State} {a : Action} {id : String}
  {row row' : TransferRow} {C : State → Action → Prop}

/-! ## One step -/

/-- What a step does to a transfer when settlement writes find it PROCESSING: nothing,
    or a change from PROCESSING. -/
theorem step_processing (hlocks : Locks s.shared s.calls) (hC : settlesProcessing s a = true)
    (hstep : (payments config).machine.step s a = some t) (hs : s.find id = some row)
    (ht : t.find id = some row') : row' = row ∨ row.status = .PROCESSING := by
  have hrow := step_row hlocks hstep id
  have hsettled : settles s a = some id → row.status = .PROCESSING := by
    intro hsettles
    have hprocessing : statusOf s id = some .PROCESSING := by
      simpa [settlesProcessing, hsettles] using hC
    simpa [statusOf, hs] using hprocessing
  rw [hs, ht] at hrow
  cases hrow with
  | kept => exact .inl rfl
  | claimed _ now hin hstatus => exact .inr hstatus
  | completed _ result now hnot hsettles => exact .inr (hsettled hsettles)
  | failed _ code now hnot hsettles => exact .inr (hsettled hsettles)

/-- A transfer stays in the table. -/
theorem find_step (hlocks : Locks s.shared s.calls)
    (hstep : (payments config).machine.step s a = some t) (hs : s.find id = some row) :
    ∃ row', t.find id = some row' := by
  have hrow := step_row hlocks hstep id
  rw [hs] at hrow
  generalize t.find id = new at hrow
  cases hrow <;> exact ⟨_, rfl⟩

/-- The events that a step writes about a transfer, when it leaves it alone or finds
    it PROCESSING. -/
theorem step_events (hlocks : Locks s.shared s.calls)
    (hstep : (payments config).machine.step s a = some t) (hs : s.find id = some row)
    (ht : t.find id = some row') (hfrom : row' = row ∨ row.status = .PROCESSING) :
    ∃ events, row'.events = row.events ++ events ∧ (∀ e ∈ events, e.records row row') ∧
      events.countP TransferEvent.isTerminal + row.status.isTerminal.toNat =
        row'.status.isTerminal.toNat := by
  rcases hfrom with rfl | hstatus
  · exact ⟨[], (List.append_nil _).symm, by simp, by simp⟩
  have hrow := step_row hlocks hstep id
  rw [hs, ht] at hrow
  cases hrow with
  | kept => exact ⟨[], (List.append_nil _).symm, by simp, by simp⟩
  | claimed _ now hin _ =>
    unfold TransferRow.claim
    split_ifs
    · refine ⟨_, rfl, ?_, ?_⟩
      · simp [TransferEvent.records, TransferRow.requireReview, hstatus]
      · simp [TransferRow.requireReview, hstatus, TransferEvent.isTerminal,
          TransferStatus.isTerminal]
    · refine ⟨_, rfl, ?_, ?_⟩
      · simp [TransferEvent.records]
      · simp [TransferRow.retry, TransferEvent.isTerminal]
  | completed _ result now _ _ =>
    refine ⟨_, rfl, ?_, ?_⟩
    · simp [TransferEvent.records, TransferRow.complete, hstatus]
    · simp [TransferRow.complete, hstatus, TransferEvent.isTerminal, TransferStatus.isTerminal]
  | failed _ code now _ _ =>
    refine ⟨_, rfl, ?_, ?_⟩
    · simp [TransferEvent.records, TransferRow.fail, hstatus]
    · simp [TransferRow.fail, hstatus, TransferEvent.isTerminal, TransferStatus.isTerminal]

/-! ## Runs -/

/-- A transfer has a COMPLETED or FAILED event if its status is terminal, and then one. -/
theorem terminal_events
    (h : (payments config).machine.Reachable (fun s a => settlesProcessing s a = true) s) :
    ∀ id row, s.find id = some row →
      row.events.countP TransferEvent.isTerminal = row.status.isTerminal.toNat := by
  refine Machine.invariant_of_reachable (I := fun s => ∀ id row, State.find s id = some row →
    row.events.countP TransferEvent.isTerminal = row.status.isTerminal.toNat) ?_ ?_ h
  · rintro s ⟨⟨hrows, -, -⟩, -⟩ id row hrow
    simp [State.find, Table.find, hrows] at hrow
  · intro s a t hr hs hC hstep id row' ht
    have hlocks := locks_reachable hr
    cases hold : s.find id with
    | none =>
      have hrow := step_row hlocks hstep id
      rw [hold, ht] at hrow
      cases hrow
      rfl
    | some row =>
      have hfrom := step_processing hlocks hC hstep hold ht
      obtain ⟨events, hevents, -, hcount⟩ := step_events hlocks hstep hold ht hfrom
      rw [hevents, List.countP_append, hs id row hold]
      omega

/-- In every run in which settlement writes find the transfer PROCESSING, the lifecycle of each
    transfer is that of the state machine. -/
theorem lifecycle (config : PaymentsConfig) :
    Lifecycle config (fun s a => settlesProcessing s a = true) where
  terminal s t id status hs hstatus hterminal hpath := by
    refine Machine.Path.stable (P := fun u => statusOf u id = some status) hs ?_ hpath hstatus
    intro u a v hu hC hstep hsame
    obtain ⟨row, hrow, rfl⟩ := Option.map_eq_some_iff.mp hsame
    have hlocks := locks_reachable hu
    obtain ⟨row', hrow'⟩ := find_step hlocks hstep hrow
    rcases step_processing hlocks hC hstep hrow hrow' with rfl | hprocessing
    · rw [statusOf, hrow']
      rfl
    · rw [hprocessing] at hterminal
      cases hterminal
  previous s a t id row row' hs hC hstep hrow hrow' := by
    have hlocks := locks_reachable hs
    have hfrom := step_processing hlocks hC hstep hrow hrow'
    obtain ⟨events, hevents, hrecords, -⟩ := step_events hlocks hstep hrow hrow' hfrom
    exact ⟨events, hevents, hrecords⟩
  once s id row hs hrow := by
    rw [terminal_events hs id row hrow]
    exact Bool.toNat_le _

/-! ## A settlement write on a settled transfer -/

/-- The Ledger posted the transfer. -/
def fivePosted : InternalLedgerTransferResult where
  journalId := "j-1"
  senderPostingId := "p-1"
  recipientPostingId := "p-2"
  senderBalanceAfter := 0
  recipientBalanceAfter := 500

/-- While the confirm waits for the Ledger, a recovery worker claims the transfer and
    sends the command again. The Ledger answers the worker with a result and the confirm
    with the error that the command is in progress, and the worker writes first. -/
def overlappingSettles : List Action := [
  .start (.confirm fiveRupees), .next 0 (.run 0 0), .next 0 (.run 0 0),
  .start .recover, .next 1 (.run 30001 30001), .next 1 (.commit fun _ => 30001),
  .next 1 (.run 30002 30002),
  .next 1 (.reply (.result fivePosted)),
  .next 0 (.reply (.callError 409 (some "IDEMPOTENCY_IN_PROGRESS"))),
  .next 1 (.run 30003 30003)]

/-- The confirm then marks the COMPLETED transfer FAILED. -/
theorem completed_then_failed : ¬ ∀ config, Lifecycle config Machine.always := by
  intro h
  have hrun : ((payments defaultConfig).machine.run noTransfers overlappingSettles).any
      (fun s => decide (statusOf s "t-1" = some .COMPLETED) &&
        ((payments defaultConfig).machine.step s (.next 0 (.run 30004 30004))).any fun t =>
          decide (statusOf t "t-1" = some .FAILED)) = true := by decide
  obtain ⟨s, hs, hp⟩ :=
    Machine.reachable_of_run overlappingSettles _ (noTransfers_init defaultConfig) hrun
  simp only [Bool.and_eq_true, decide_eq_true_eq] at hp
  obtain ⟨hcompleted, hfails⟩ := hp
  obtain ⟨t, hst, ht⟩ := (Option.any_eq_true _ _).mp hfails
  have hkept := (h defaultConfig).terminal s t "t-1" .COMPLETED hs hcompleted rfl
    (Machine.Path.refl.tail trivial hst)
  rw [of_decide_eq_true ht] at hkept
  cases hkept

/-- Without the confirm's late write the transfer stays COMPLETED, with one terminal event. -/
theorem lifecycle_completed : ∃ s : State, ∃ row, s.find "t-1" = some row ∧
    row.status = .COMPLETED ∧ row.events.length = 5 ∧
    row.events.countP TransferEvent.isTerminal ≤ 1 := by
  have hrun : ((payments defaultConfig).machine.runUnder settlesProcessing noTransfers
      overlappingSettles).any (fun s => (State.find s "t-1").any fun row =>
        decide (row.status = .COMPLETED) && decide (row.events.length = 5)) = true := by decide
  obtain ⟨s, hs, hp⟩ := Machine.reachable_of_runUnder _ _ _ (fun _ _ h => h)
    (noTransfers_init defaultConfig) hrun
  obtain ⟨row, hrow, hrowp⟩ := (Option.any_eq_true _ _).mp hp
  simp only [Bool.and_eq_true, decide_eq_true_eq] at hrowp
  exact ⟨s, row, hrow, hrowp.1, hrowp.2, (lifecycle defaultConfig).once s "t-1" row hs hrow⟩

end AegisShield.Payments
