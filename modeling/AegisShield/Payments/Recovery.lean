import AegisShield.Payments.Worker

/-!
# The bound on recovery

How often the Ledger is asked to carry out one transfer, over every interleaving
of its confirm and of recovery workers.

Results:
* `recovery_bounded`: at most `maxProcessingAttempts` commands are sent for a
  transfer, each claim takes the next attempt number, and the claim that reaches
  the bound is the one that moves the transfer to REQUIRES_REVIEW. If no worker
  has a command for the transfer left to send at that claim, none is sent after it.
* `command_after_review`: a worker that claimed the transfer earlier can send its
  command after the transfer was moved to REQUIRES_REVIEW.
-/

namespace AegisShield.Payments

open Common

/-! ## Commands sent and yet to be sent -/

/-- The number of commands that the Ledger was sent for a transfer. -/
def commandsFor (s : State) (id : String) : ℕ :=
  s.shared.commands.countP fun command => command.transferId = id

/-- The number of commands that workers are yet to send for a transfer. -/
def pendingFor (s : State) (id : String) : ℕ := (s.calls.map (Worker.pending id)).sum

/-- The rows among `claims s a` that the claim sends on to `settle`. -/
def retries (config : PaymentsConfig) (s : State) (a : Action) (id : String) : Bool :=
  decide (id ∈ claims s a) && !(s.find id).any (·.exhausted config)

/-- A claim reaches the bound only for transfers for which no worker has a command left to send. -/
def quietReviews (config : PaymentsConfig) (s : State) (a : Action) : Bool :=
  (claims s a).all fun id =>
    !(s.find id).any (·.exhausted config) || decide (pendingFor s id = 0)

/-- What the bound on recovery means for the runs whose steps meet `C`. -/
structure RecoveryBounded (config : PaymentsConfig) (C : State → Action → Prop) : Prop where
  /-- At most `maxProcessingAttempts` commands are sent for a transfer. -/
  commands : ∀ s id, (payments config).machine.Reachable C s →
    commandsFor s id ≤ config.maxProcessingAttempts
  /-- A claim adds one to the attempt count, other steps leave it alone. -/
  attempts : ∀ s a t id, (payments config).machine.Reachable C s → C s a →
    (payments config).machine.step s a = some t →
    attemptOf t id = attemptOf s id + if id ∈ claims s a then 1 else 0
  /-- Two claims of one transfer see different attempt counts. -/
  distinct : ∀ s a t u b v id, (payments config).machine.Reachable C s → C s a →
    (payments config).machine.step s a = some t → (payments config).machine.Path C t u → C u b →
    (payments config).machine.step u b = some v → id ∈ claims s a → id ∈ claims u b →
    attemptOf s id ≠ attemptOf u id
  /-- The claim that reaches the bound moves the transfer to REQUIRES_REVIEW, no other step does. -/
  review : ∀ s a t id, (payments config).machine.Reachable C s → C s a →
    (payments config).machine.step s a = some t →
    (id ∈ claims s a →
      (statusOf t id = some .REQUIRES_REVIEW ↔ attemptOf t id = config.maxProcessingAttempts)) ∧
    (id ∉ claims s a → statusOf t id = some .REQUIRES_REVIEW →
      statusOf s id = some .REQUIRES_REVIEW)
  /-- No command is sent for a transfer after the claim that moved it to REQUIRES_REVIEW. -/
  final : ∀ s a t u id, (payments config).machine.Reachable C s → C s a →
    (payments config).machine.step s a = some t → id ∈ claims s a →
    statusOf t id = some .REQUIRES_REVIEW → (payments config).machine.Path C t u →
    commandsFor u id = commandsFor t id

variable {config : PaymentsConfig} {s t u v : State} {a b : Action} {id : String} {n : ℕ}
  {worker worker' : Worker} {row row' : TransferRow} {C : State → Action → Prop}

theorem pendingFor_set (id : String) (shared : Shared) (worker' : Worker)
    (hn : s.calls[n]? = some worker) :
    pendingFor { shared := shared, calls := s.calls.set n worker' } id + worker.pending id =
      pendingFor s id + worker'.pending id :=
  Pool.sum_next worker' hn

theorem pending_afterFailedWrite (id : String) (outcome : LedgerOutcome) (rest : List TransferRow) :
    (afterFailedWrite outcome rest).pending id ≤ rest.countP fun row => row.id = id := by
  cases outcome <;> simp [afterFailedWrite, Worker.pending, Worker.unsent]

/-- A claim hands on each claimed row below the bound once. -/
theorem countP_retry (id : String) {retry : List TransferRow} {ids : List String} (hids : ids.Nodup)
    {p : String → Bool} (hmap : retry.map TransferRow.id = ids.filter p) :
    (retry.countP fun row => row.id = id) = (decide (id ∈ ids) && p id).toNat := by
  have hcount : (retry.countP fun row => row.id = id) = (retry.map TransferRow.id).count id := by
    rw [List.count, List.countP_map]
    refine List.countP_congr fun row _ => ?_
    simp
  rw [hcount, hmap, (hids.filter p).count]
  by_cases hid : id ∈ ids <;> cases hp : p id <;> simp [hid, hp]

/-- A step of a worker sends a command that it had pending. What becomes pending is
    the command of a new row, or of a row claimed below the bound. -/
theorem worker_effort (hlocks : Locks s.shared s.calls) {input : Input} {shared' : Shared}
    (hn : s.calls[n]? = some worker)
    (hnext : workerNext config s.shared worker input = some (shared', worker')) (id : String) :
    ∃ sent, (shared'.commands.countP fun command => command.transferId = id) =
        commandsFor s id + sent ∧
      sent + worker'.pending id ≤ worker.pending id +
        (decide (s.find id = none ∧ shared'.transfers.find id ≠ none)).toNat +
        (retries config s (.next n input) id).toNat := by
  unfold workerNext at hnext
  split at hnext
  next new now dbNow =>
    split at hnext <;> cases hnext
    · exact ⟨0, rfl, by simp [Worker.pending, Worker.unsent]⟩
    next transfers hcreate =>
      obtain ⟨hnone, hfind⟩ := createTransfer_some hcreate
      refine ⟨0, rfl, ?_⟩
      by_cases hid : new.id = id
      · subst hid
        have hcreated : s.find new.id = none ∧ transfers.find new.id ≠ none :=
          ⟨hnone, by simp [hfind]⟩
        simp [Worker.pending, Worker.unsent, TransferRow.create, hcreated]
      · simp [Worker.pending, Worker.unsent, TransferRow.create, hid]
  · cases hnext
    exact ⟨0, rfl, by simp [Worker.pending, Worker.unsent]⟩
  next ids clock =>
    split at hnext <;> cases hnext
    · exact ⟨0, rfl, by simp [Worker.pending, Worker.unsent]⟩
    next transfers retry hclaim =>
      have hmem := Pool.mem_of_getElem? hn
      have hfound : ∀ id ∈ ids, (s.shared.transfers.find id).isSome := by
        intro id hid
        obtain ⟨row, hrow, -⟩ := hlocks.processing ids hmem id hid
        rw [hrow]
        rfl
      obtain ⟨transfers', retry', hclaim', -, -, hmap⟩ :=
        claimRows_spec config clock (hlocks.nodup ids hmem) hfound
      obtain ⟨rfl, rfl⟩ : transfers = transfers' ∧ retry = retry' := by
        simpa [hclaim] using hclaim'
      have hretry := countP_retry id (hlocks.nodup ids hmem) hmap
      refine ⟨0, rfl, ?_⟩
      show 0 + (retry.countP fun row => row.id = id) ≤ _
      rw [hretry]
      simp [retries, claims, hn, State.find]
  · cases hnext
    exact ⟨0, rfl, by simp [Worker.pending, Worker.unsent]⟩
  next row rest now dbNow =>
    -- the command is sent
    cases hnext
    refine ⟨(decide (row.id = id)).toNat, ?_, ?_⟩
    · show ((s.shared.commands ++ [settleCommand row]).countP _) = _
      rw [List.countP_append, List.countP_singleton]
      by_cases hid : row.id = id <;> simp [settleCommand, hid, commandsFor]
    · show _ + (rest.countP fun row => row.id = id) ≤
        ((row :: rest).countP fun row => row.id = id) + _ + _
      rw [List.countP_cons]
      by_cases hid : row.id = id <;> simp [hid] <;> omega
  next row rest outcome =>
    cases hnext
    refine ⟨0, rfl, ?_⟩
    split_ifs <;> simp [Worker.pending, Worker.unsent] <;> omega
  next row outcome rest now dbNow =>
    have hfailed := pending_afterFailedWrite id outcome rest
    split_ifs at hnext
    split at hnext <;> cases hnext <;> refine ⟨0, rfl, ?_⟩
    · simp only [Worker.pending, Worker.unsent] at hfailed ⊢
      omega
    · simp only [Worker.pending, Worker.unsent]
      omega
  next row outcome rest =>
    have hfailed := pending_afterFailedWrite id outcome rest
    cases hnext
    refine ⟨0, rfl, ?_⟩
    simp only [Worker.pending, Worker.unsent] at hfailed ⊢
    omega
  · cases hnext
    exact ⟨0, rfl, by simp [Worker.pending, Worker.unsent]⟩
  · cases hnext
  · cases hnext
    exact ⟨0, rfl, by simp [Worker.pending, Worker.unsent]⟩
  · cases hnext

/-- How one step of any interleaving changes the commands sent and pending for the transfer `id`. -/
theorem step_effort (hlocks : Locks s.shared s.calls)
    (hstep : (payments config).machine.step s a = some t) (id : String) :
    commandsFor s id ≤ commandsFor t id ∧
      commandsFor t id + pendingFor t id ≤ commandsFor s id + pendingFor s id +
        (decide (s.find id = none ∧ t.find id ≠ none)).toNat + (retries config s a id).toNat := by
  cases a with
  | start call =>
    have hnew : ((payments config).start s.shared call).pending id = 0 := by
      cases call <;> rfl
    have hsent : commandsFor t id = commandsFor s id := by
      rw [Pool.step_start hstep]
      rfl
    have hpending : pendingFor t id = pendingFor s id := by
      rw [Pool.step_start hstep]
      unfold pendingFor
      rw [List.map_append, List.sum_append, List.map_singleton, List.sum_singleton, hnew]
      rfl
    omega
  | env x => exact x.elim
  | next n input =>
    obtain ⟨worker, shared', worker', hn, hnext, rfl⟩ := Pool.step_next hstep
    have hset := pendingFor_set id shared' worker' hn
    obtain ⟨sent, hsent, heffort⟩ := worker_effort hlocks hn hnext id
    change commandsFor { shared := shared', calls := s.calls.set n worker' } id = _ at hsent
    change _ ≤ _ + (decide (s.find id = none ∧
      State.find { shared := shared', calls := s.calls.set n worker' } id ≠ none)).toNat + _
      at heffort
    omega

/-! ## The bound -/

/-- The number of commands that may be sent for a transfer, by its row. -/
def allowance (config : PaymentsConfig) : Option TransferRow → ℕ
  | none => 0
  | some row => 1 + min row.attemptCount (config.maxProcessingAttempts - 1)

/-- The commands sent and pending for a transfer are within its allowance. The
    attempt count is within the bound, and below it while the row is PROCESSING. -/
structure Bounded (config : PaymentsConfig) (s : State) : Prop where
  effort : ∀ id, commandsFor s id + pendingFor s id ≤ allowance config (s.find id)
  attempts : ∀ id row, s.find id = some row →
    row.attemptCount ≤ config.maxProcessingAttempts ∧
      (row.status = .PROCESSING → row.attemptCount < config.maxProcessingAttempts)

/-- What a claim does to a row below the bound. -/
theorem claim_spec (hlt : row.attemptCount < config.maxProcessingAttempts)
    (hstatus : row.status = .PROCESSING) (now : ℕ) :
    (row.claim config now).attemptCount = row.attemptCount + 1 ∧
      (row.exhausted config = true ↔
        (row.claim config now).attemptCount = config.maxProcessingAttempts) ∧
      (row.claim config now).status =
        if row.exhausted config then .REQUIRES_REVIEW else .PROCESSING := by
  have hcount : (row.claim config now).attemptCount = row.attemptCount + 1 := claim_attemptCount
  refine ⟨hcount, ?_, ?_⟩
  · rw [hcount, exhausted_iff]
    omega
  · unfold TransferRow.claim
    split_ifs
    · rfl
    · exact hstatus

theorem bounded_step (h : Bounded config s) (hlocks : Locks s.shared s.calls)
    (hstep : (payments config).machine.step s a = some t) : Bounded config t := by
  have hpos := config.maxProcessingAttempts_pos
  constructor
  · intro id
    have hrow := step_row hlocks hstep id
    have heffort := (step_effort hlocks hstep id).2
    have hold := h.effort id
    have hattempts := h.attempts id
    unfold retries at heffort
    generalize s.find id = old at hrow heffort hold hattempts
    generalize t.find id = new at hrow heffort
    cases hrow with
    | absent hnot => simpa [hnot] using heffort.trans (Nat.add_le_add_right hold _)
    | created new now hnot =>
      simp only [hnot, allowance] at heffort hold ⊢
      simp at heffort
      omega
    | kept row hnot | completed row result now hnot | failed row code now hnot =>
      simp only [hnot, decide_false, Bool.false_and, Bool.toNat_false] at heffort
      simp at heffort
      exact heffort.trans hold
    | claimed row now hin hstatus =>
      obtain ⟨-, hlt⟩ := hattempts row rfl
      obtain ⟨hcount, hexhausted, -⟩ := claim_spec (hlt hstatus) hstatus now
      have hlt := hlt hstatus
      rw [hcount] at hexhausted
      simp only [hin, decide_true, Bool.true_and, Option.any_some] at heffort
      simp only [allowance, hcount] at hold ⊢
      cases hex : row.exhausted config with
      | true =>
        have hlast := hexhausted.mp hex
        simp [hex] at heffort
        omega
      | false =>
        have hbelow : row.attemptCount + 1 ≠ config.maxProcessingAttempts := by
          intro heq
          rw [hexhausted.mpr heq] at hex
          cases hex
        simp [hex] at heffort
        omega
  · intro id row' hrow'
    have hrow := step_row hlocks hstep id
    have hattempts := h.attempts id
    rw [hrow'] at hrow
    generalize s.find id = old at hrow hattempts
    cases hrow with
    | created new now hnot => exact ⟨Nat.zero_le _, fun _ => hpos⟩
    | kept row hnot => exact hattempts _ rfl
    | completed row result now hnot | failed row code now hnot =>
      exact ⟨(hattempts row rfl).1, by simp [TransferRow.complete, TransferRow.fail]⟩
    | claimed row now hin hstatus =>
      obtain ⟨-, hlt⟩ := hattempts row rfl
      obtain ⟨hcount, hexhausted, hnext⟩ := claim_spec (hlt hstatus) hstatus now
      have hlt := hlt hstatus
      refine ⟨by omega, fun hprocessing => ?_⟩
      rw [hnext] at hprocessing
      split_ifs at hprocessing with hex
      rw [hexhausted] at hex
      omega

theorem bounded_reachable (h : (payments config).machine.Reachable C s) : Bounded config s := by
  refine Machine.invariant_of_reachable (I := Bounded config) ?_
    (fun _ _ _ hr hs _ hstep => bounded_step hs (locks_reachable hr) hstep) h
  rintro s ⟨⟨hrows, -, hcommands⟩, hcalls⟩
  have hfind : ∀ id, s.find id = none := by
    intro id
    simp [State.find, Table.find, hrows]
  refine ⟨fun id => ?_, fun id row hrow => ?_⟩
  · rw [hfind]
    simp [commandsFor, pendingFor, hcommands, hcalls, allowance]
  · rw [hfind] at hrow
    cases hrow

theorem allowance_le (h : Bounded config s) (id : String) :
    commandsFor s id ≤ config.maxProcessingAttempts := by
  have heffort := h.effort id
  have hpos := config.maxProcessingAttempts_pos
  unfold allowance at heffort
  split at heffort <;> omega

/-! ## Attempt numbers -/

/-- A claim adds one to the attempt count and other steps leave it alone; below the bound a claim
    leaves the transfer PROCESSING, and other steps move none to REQUIRES_REVIEW. -/
theorem step_attempt (h : Bounded config s) (hlocks : Locks s.shared s.calls)
    (hstep : (payments config).machine.step s a = some t) (id : String) :
    attemptOf t id = attemptOf s id + (if id ∈ claims s a then 1 else 0) ∧
      (id ∈ claims s a → statusOf s id = some .PROCESSING ∧
        (statusOf t id = some .REQUIRES_REVIEW ↔
          attemptOf t id = config.maxProcessingAttempts)) ∧
      (id ∉ claims s a → statusOf t id = some .REQUIRES_REVIEW →
        statusOf s id = some .REQUIRES_REVIEW) := by
  have hrow := step_row hlocks hstep id
  have hattempts := h.attempts id
  unfold attemptOf statusOf
  generalize s.find id = old at hrow hattempts
  generalize t.find id = new at hrow
  cases hrow with
  | absent hnot | kept row hnot => simp [hnot]
  | created new now hnot => simp [hnot, TransferRow.create]
  | completed row result now hnot => simp [hnot, TransferRow.complete]
  | failed row code now hnot => simp [hnot, TransferRow.fail]
  | claimed row now hin hstatus =>
    obtain ⟨-, hlt⟩ := hattempts row rfl
    obtain ⟨hcount, hexhausted, hnext⟩ := claim_spec (hlt hstatus) hstatus now
    refine ⟨by simp [hin], fun _ => ⟨by simp [hstatus], ?_⟩, fun hnot => (hnot hin).elim⟩
    rw [Option.map_some, Option.map_some, Option.getD_some, ← hexhausted, hnext]
    cases row.exhausted config <;> simp

theorem attemptOf_lt (h : Bounded config s) (hstatus : statusOf s id = some .PROCESSING) :
    attemptOf s id < config.maxProcessingAttempts := by
  obtain ⟨row, hrow, hprocessing⟩ := Option.map_eq_some_iff.mp hstatus
  simpa [attemptOf, hrow] using (h.attempts id row hrow).2 hprocessing

/-- The attempt count never goes down. -/
theorem attemptOf_mono (hs : (payments config).machine.Reachable C s)
    (h : (payments config).machine.Path C s t) (id : String) : attemptOf s id ≤ attemptOf t id := by
  refine Machine.Path.stable (P := fun u => attemptOf s id ≤ attemptOf u id) hs ?_ h le_rfl
  intro u b v hu _ hstep hle
  have hattempt := (step_attempt (bounded_reachable hu) (locks_reachable hu) hstep id).1
  omega

/-! ## After the bound is reached -/

/-- Once the bound is reached and nothing is pending, no command is sent. -/
theorem commandsFor_stable (hs : (payments config).machine.Reachable C s)
    (hbound : attemptOf s id = config.maxProcessingAttempts) (hpending : pendingFor s id = 0)
    (h : (payments config).machine.Path C s t) : commandsFor t id = commandsFor s id := by
  refine (Machine.Path.stable (P := fun u => attemptOf u id = config.maxProcessingAttempts ∧
    pendingFor u id = 0 ∧ commandsFor u id = commandsFor s id) hs ?_ h
    ⟨hbound, hpending, rfl⟩).2.2
  rintro u b v hu - hstep ⟨hattempt, hnone, hsame⟩
  have hpos := config.maxProcessingAttempts_pos
  have hlocks := locks_reachable hu
  have hbounded := bounded_reachable hu
  obtain ⟨hnext, hclaim, -⟩ := step_attempt hbounded hlocks hstep id
  obtain ⟨hmono, heffort⟩ := step_effort hlocks hstep id
  have hnot : id ∉ claims u b := by
    intro hin
    have hlt := attemptOf_lt hbounded (hclaim hin).1
    omega
  have hfound : u.find id ≠ none := by
    intro hnone
    rw [attemptOf, hnone, Option.map_none, Option.getD_none] at hattempt
    omega
  simp only [retries, hnot, hfound, decide_false, false_and, Bool.false_and,
    Bool.toNat_false] at heffort
  rw [if_neg hnot] at hnext
  omega

/-- A quiet claim that reaches the bound leaves nothing pending. -/
theorem pendingFor_review (hbounded : Bounded config s) (hlocks : Locks s.shared s.calls)
    (hquiet : quietReviews config s a = true)
    (hstep : (payments config).machine.step s a = some t) (hin : id ∈ claims s a)
    (hbound : attemptOf t id = config.maxProcessingAttempts) : pendingFor t id = 0 := by
  obtain ⟨hattempt, hclaim, -⟩ := step_attempt hbounded hlocks hstep id
  obtain ⟨hmono, heffort⟩ := step_effort hlocks hstep id
  obtain ⟨row, hrow, -⟩ := Option.map_eq_some_iff.mp (hclaim hin).1
  have hexhausted : row.exhausted config = true := by
    rw [exhausted_iff]
    simp only [attemptOf, hrow, hin, Option.map_some, Option.getD_some, if_true] at hattempt
    unfold attemptOf at hbound
    omega
  have hpending : pendingFor s id = 0 := by
    simpa [hrow, hexhausted] using List.all_eq_true.mp hquiet id hin
  simp [retries, hin, hrow, hexhausted] at heffort
  omega

/-! ## Main results -/

/-- In every run in which each claim that reaches the bound finds no command for the transfer left
    to send, the effort spent on a transfer is bounded. -/
theorem recovery_bounded (config : PaymentsConfig) :
    RecoveryBounded config (fun s a => quietReviews config s a = true) where
  commands s id hs := allowance_le (bounded_reachable hs) id
  attempts s a t id hs _ hstep :=
    (step_attempt (bounded_reachable hs) (locks_reachable hs) hstep id).1
  distinct s a t u b v id hs ha hstep hpath _ _ hin _ := by
    have hfirst := (step_attempt (bounded_reachable hs) (locks_reachable hs) hstep id).1
    have hmono := attemptOf_mono (.step hs ha hstep) hpath id
    rw [if_pos hin] at hfirst
    omega
  review s a t id hs _ hstep := by
    obtain ⟨-, hclaim, hother⟩ :=
      step_attempt (bounded_reachable hs) (locks_reachable hs) hstep id
    exact ⟨fun hin => (hclaim hin).2, hother⟩
  final s a t u id hs ha hstep hin hreview hpath := by
    have hbounded := bounded_reachable hs
    have hlocks := locks_reachable hs
    have hbound : attemptOf t id = config.maxProcessingAttempts :=
      ((step_attempt hbounded hlocks hstep id).2.1 hin).2.mp hreview
    have hpending := pendingFor_review hbounded hlocks ha hstep hin hbound
    exact commandsFor_stable (.step hs ha hstep) hbound hpending hpath

/-! ## A command after the review -/

/-- Two attempts, 30 seconds apart. -/
def twoAttempts : PaymentsConfig where
  recoveryStaleSeconds := 30
  maxProcessingAttempts := 2
  recoveryStaleSeconds_pos := defaultConfig.recoveryStaleSeconds_pos
  maxProcessingAttempts_pos := by decide

/-- The confirm gets no answer. One recovery worker claims the transfer; 30 seconds
    later, before it has sent its command, another one selects it again. -/
def lateWorker : List Action := [
  .start (.confirm fiveRupees), .next 0 (.run 0 0), .next 0 (.run 0 0),
  .next 0 (.reply .unavailable),
  .start .recover, .next 1 (.run 30001 30001), .next 1 (.commit fun _ => 30001),
  .start .recover, .next 2 (.run 60002 60002)]

/-- The first worker sends its command after the second one's claim has moved the
    transfer to REQUIRES_REVIEW. -/
theorem command_after_review : ¬ ∀ config, RecoveryBounded config Machine.always := by
  intro h
  have hrun : ((payments twoAttempts).machine.run noTransfers lateWorker).any (fun s =>
      ((payments twoAttempts).machine.step s (.next 2 (.commit fun _ => 60002))).any fun t =>
        decide ("t-1" ∈ claims s (.next 2 (.commit fun _ => 60002))) &&
        decide (statusOf t "t-1" = some .REQUIRES_REVIEW) &&
        ((payments twoAttempts).machine.step t (.next 1 (.run 60003 60003))).any fun u =>
          decide (commandsFor u "t-1" ≠ commandsFor t "t-1")) = true := by decide
  obtain ⟨s, hs, hp⟩ :=
    Machine.reachable_of_run lateWorker _ (noTransfers_init twoAttempts) hrun
  obtain ⟨t, hst, ht⟩ := (Option.any_eq_true _ _).mp hp
  simp only [Bool.and_eq_true, decide_eq_true_eq] at ht
  obtain ⟨⟨hclaims, hreview⟩, hsends⟩ := ht
  obtain ⟨u, htu, hu⟩ := (Option.any_eq_true _ _).mp hsends
  exact of_decide_eq_true hu ((h twoAttempts).final s _ t u "t-1" hs trivial hst hclaims hreview
    (Machine.Path.refl.tail trivial htu))

/-- With the first worker's command sent before the second claim, two commands are sent in all. -/
theorem recovery_bounded_two : ∃ s : State, statusOf s "t-1" = some .REQUIRES_REVIEW ∧
    commandsFor s "t-1" = 2 ∧ commandsFor s "t-1" ≤ twoAttempts.maxProcessingAttempts := by
  have hrun : ((payments twoAttempts).machine.runUnder (quietReviews twoAttempts) noTransfers
      (lateWorker ++ [.next 1 (.run 30002 30002), .next 2 (.commit fun _ => 60002)])).any
      (fun s => decide (statusOf s "t-1" = some .REQUIRES_REVIEW) &&
        decide (commandsFor s "t-1" = 2)) = true := by decide
  obtain ⟨s, hs, hp⟩ := Machine.reachable_of_runUnder _ _ _ (fun _ _ h => h)
    (noTransfers_init twoAttempts) hrun
  simp only [Bool.and_eq_true, decide_eq_true_eq] at hp
  exact ⟨s, hp.1, hp.2, (recovery_bounded twoAttempts).commands s "t-1" hs⟩

end AegisShield.Payments
