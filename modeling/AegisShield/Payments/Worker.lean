import AegisShield.Common.Pool
import AegisShield.Payments.Transfer

/-!
# Confirm and recovery calls against the transfers table

Any number of `confirm` and `recover` calls (`transfers.service.ts`). The insert of
`confirm`, the SELECT and the commit of the claim transaction of `recover`, the
sending of each Ledger command, its answer and the settlement write are steps of
their own. A call may die before any of them. Every reading of a clock is supplied
by the step that makes it, so the clocks of the services and of the database may
show anything.

The checks of `confirm` before its insert only decide whether a row is created;
here any row that the constraints of the table permit may be created at any
moment.

Results:
* `step_row`: what one step does to a row of the table.
* `step_effort`: how one step changes the number of commands sent and about to be
  sent for a transfer.
-/

namespace AegisShield.Payments

open Common

/-! ## Model -/

/-- Where a `confirm` or `recover` call stands. -/
inductive Worker where
  /-- `confirm` before the transaction that creates the row. -/
  | creating (new : NewTransfer)
  /-- `recover` before its SELECT. -/
  | selecting
  /-- `recover` with the selected rows locked, before its commit. -/
  | claiming (ids : List String)
  /-- Before `settle` of the first of the rows. -/
  | settling (rows : List TransferRow)
  /-- The command for `row` is sent. -/
  | awaiting (row : TransferRow) (rest : List TransferRow)
  /-- Before the settlement write for `row`. -/
  | answered (row : TransferRow) (outcome : LedgerOutcome) (rest : List TransferRow)
  | finished
  deriving DecidableEq

/-- A call starts. -/
inductive Call where
  | confirm (new : NewTransfer)
  | recover

/-- What a step gets from outside. -/
inductive Input where
  /-- `Date.now()` and `CURRENT_TIMESTAMP` for the next statement. -/
  | run (now dbNow : ℕ)
  /-- The commit of a claim, with `Date.now()` for each claimed row. -/
  | commit (clock : String → ℕ)
  /-- How the call to the Ledger ends. -/
  | reply (outcome : LedgerOutcome)
  /-- The database refuses the settlement write. -/
  | fail
  /-- The process dies. -/
  | crash

/-- The transfers table, the rows that claims in progress hold locked, and the
    commands that the Ledger was sent. -/
structure Shared where
  transfers : Table TransferRow
  locked : List String
  commands : List InternalLedgerTransferCommand

/-- The end of a claim transaction releases its row locks. -/
def release (locked ids : List String) : List String :=
  locked.filter fun id => decide (id ∉ ids)

/-- A failed COMPLETED write is caught and the row returned; a failed FAILED write
    escapes from `settle` and ends the call. -/
def afterFailedWrite (outcome : LedgerOutcome) (rest : List TransferRow) : Worker :=
  match outcome with
  | .result _ => .settling rest
  | _ => .finished

/-- One step of a call. -/
def workerNext (config : PaymentsConfig) (s : Shared) (worker : Worker) (input : Input) :
    Option (Shared × Worker) :=
  match worker, input with
  | .creating new, .run now _ =>
    match createTransfer s.transfers new now with
    | none => some (s, .finished)
    | some transfers =>
      some ({ s with transfers := transfers }, .settling [TransferRow.create new now])
  | .selecting, .run now dbNow =>
    let ids := selectDue config s.transfers s.locked now dbNow
    some ({ s with locked := ids ++ s.locked }, .claiming ids)
  | .claiming ids, .commit clock =>
    match claimRows config clock s.transfers ids with
    | none => some ({ s with locked := release s.locked ids }, .finished)
    | some (transfers, retry) =>
      some ({ s with transfers := transfers, locked := release s.locked ids }, .settling retry)
  | .settling [], .run _ _ => some (s, .finished)
  | .settling (row :: rest), .run _ _ =>
    some ({ s with commands := s.commands ++ [settleCommand row] }, .awaiting row rest)
  | .awaiting row rest, .reply outcome =>
    some (s, if outcome.writes then .answered row outcome rest else .settling rest)
  | .answered row outcome rest, .run now _ =>
    -- the write waits for a claim that holds the row
    if row.id ∈ s.locked then none
    else
      match settleWrite s.transfers row.id outcome now with
      | none => some (s, afterFailedWrite outcome rest)
      | some transfers => some ({ s with transfers := transfers }, .settling rest)
  | .answered _ outcome rest, .fail => some (s, afterFailedWrite outcome rest)
  | .claiming ids, .crash => some ({ s with locked := release s.locked ids }, .finished)
  | .finished, .crash => none
  | _, .crash => some (s, .finished)
  | _, _ => none

/-- All interleavings of confirm and recovery calls, from an empty table. -/
def payments (config : PaymentsConfig) : Pool Shared Worker Call Input Empty where
  init s := s.transfers.rows = [] ∧ s.locked = [] ∧ s.commands = []
  start _ call :=
    match call with
    | .confirm new => .creating new
    | .recover => .selecting
  next := workerNext config
  env _ x := x.elim

abbrev State := Pool.State Shared Worker
abbrev Action := Pool.Action Call Input Empty

/-- No transfer, and no call. -/
def noTransfers : State where
  shared := { transfers := .empty, locked := [], commands := [] }
  calls := []

theorem noTransfers_init (config : PaymentsConfig) : (payments config).machine.init noTransfers :=
  ⟨⟨rfl, rfl, rfl⟩, rfl⟩

/-- The transfer `id`. -/
def State.find (s : State) (id : String) : Option TransferRow := s.shared.transfers.find id

/-- The attempt number that the last claim of a transfer took. -/
def attemptOf (s : State) (id : String) : ℕ := ((s.find id).map TransferRow.attemptCount).getD 0

/-- The status of a transfer. -/
def statusOf (s : State) (id : String) : Option TransferStatus :=
  (s.find id).map TransferRow.status

/-- The transfers that a step claims: a recovery worker commits its claim. -/
def claims (s : State) : Action → List String
  | .next n (.commit _) =>
    match s.calls[n]? with
    | some (.claiming ids) => ids
    | _ => []
  | _ => []

/-- The transfer that a step settles: a worker writes the outcome it was given. -/
def settles (s : State) : Action → Option String
  | .next n (.run now _) =>
    match s.calls[n]? with
    | some (.answered row outcome _) =>
      (settleWrite s.shared.transfers row.id outcome now).map fun _ => row.id
    | _ => none
  | _ => none

/-! ## Locks -/

namespace Worker

/-- The worker holds the row locked. -/
def holds (id : String) : Worker → Bool
  | .claiming ids => decide (id ∈ ids)
  | _ => false

/-- The rows whose command the worker is yet to send. -/
def unsent : Worker → List TransferRow
  | .settling rows => rows
  | .awaiting _ rest | .answered _ _ rest => rest
  | _ => []

/-- The number of commands the worker is yet to send for a transfer. -/
def pending (id : String) (worker : Worker) : ℕ := worker.unsent.countP fun row => row.id = id

end Worker

variable {config : PaymentsConfig} {s t : State} {a : Action} {id : String} {n : ℕ}
  {worker worker' : Worker} {shared shared' : Shared} {input : Input} {calls : List Worker}
  {row : TransferRow} {ids : List String}

/-- Each locked row is held by one worker, and a worker that holds rows for a claim
    finds them PROCESSING. -/
structure Locks (shared : Shared) (calls : List Worker) : Prop where
  held : ∀ id, calls.countP (Worker.holds id) = if id ∈ shared.locked then 1 else 0
  nodup : ∀ ids, .claiming ids ∈ calls → ids.Nodup
  processing : ∀ ids, .claiming ids ∈ calls → ∀ id ∈ ids,
    ∃ row, shared.transfers.find id = some row ∧ row.status = .PROCESSING

theorem mem_release {locked : List String} : id ∈ release locked ids ↔ id ∈ locked ∧ id ∉ ids := by
  simp [release]

/-- A row that a worker holds is locked. -/
theorem Locks.locked (h : Locks shared calls) (hmem : .claiming ids ∈ calls) (hid : id ∈ ids) :
    id ∈ shared.locked := by
  have hpos : 0 < calls.countP (Worker.holds id) :=
    List.countP_pos_iff.mpr ⟨_, hmem, by simp [Worker.holds, hid]⟩
  rw [h.held id] at hpos
  by_contra hnot
  simp [hnot] at hpos

/-- No two workers hold one row. -/
theorem Locks.apart (h : Locks shared calls) {m : ℕ} {ids' : List String} (hmn : m ≠ n)
    (hn : calls[n]? = some (.claiming ids)) (hm : calls[m]? = some (.claiming ids'))
    (hid : id ∈ ids) : id ∉ ids' := by
  intro hid'
  have htwo := Pool.two_le_countP (f := Worker.holds id) hmn hn hm
    (by simp [Worker.holds, hid]) (by simp [Worker.holds, hid'])
  rw [h.held id] at htwo
  split_ifs at htwo <;> omega

/-- A step that takes and releases no lock, and leaves locked rows alone. -/
theorem Locks.frame (h : Locks shared calls) (hn : calls[n]? = some worker)
    (hw : ∀ ids, worker ≠ .claiming ids) (hw' : ∀ ids, worker' ≠ .claiming ids)
    (hlocked : shared'.locked = shared.locked)
    (hfind : ∀ id ∈ shared.locked, shared'.transfers.find id = shared.transfers.find id) :
    Locks shared' (calls.set n worker') := by
  have hold : ∀ (w : Worker) (id : String), (∀ ids, w ≠ .claiming ids) → w.holds id = false := by
    intro w id hne
    cases w <;> first | rfl | exact (hne _ rfl).elim
  have hmem : ∀ ids, .claiming ids ∈ calls.set n worker' → .claiming ids ∈ calls := by
    intro ids hids
    rcases List.mem_or_eq_of_mem_set hids with hids | heq
    · exact hids
    · exact (hw' ids heq.symm).elim
  refine ⟨fun id => ?_, fun ids hids => h.nodup ids (hmem ids hids), fun ids hids id hid => ?_⟩
  · have hcount := Pool.countP_next (f := Worker.holds id) worker' hn
    rw [hold worker id hw, hold worker' id hw', h.held id] at hcount
    rw [hlocked]
    exact hcount
  · rw [hfind id (h.locked (hmem ids hids) hid)]
    exact h.processing ids (hmem ids hids) id hid

/-- The SELECT locks rows that no worker holds. -/
theorem Locks.select (h : Locks shared calls) (hn : calls[n]? = some .selecting) {now dbNow : ℕ}
    (hids : ids = selectDue config shared.transfers shared.locked now dbNow) :
    Locks { shared with locked := ids ++ shared.locked } (calls.set n (.claiming ids)) := by
  refine ⟨fun id => ?_, fun ids' hmem => ?_, fun ids' hmem id hid => ?_⟩
  · have hcount := Pool.countP_next (f := Worker.holds id) (.claiming ids) hn
    rw [h.held id] at hcount
    simp only [Worker.holds, Bool.toNat_false, Nat.add_zero] at hcount
    rw [hcount]
    by_cases hid : id ∈ ids
    · obtain ⟨-, -, -, hfree⟩ := mem_selectDue (hids ▸ hid)
      simp [hid, hfree]
    · simp [hid]
  · rcases List.mem_or_eq_of_mem_set hmem with hmem | heq
    · exact h.nodup ids' hmem
    · obtain rfl : ids' = ids := Worker.claiming.inj heq
      exact hids ▸ nodup_selectDue
  · rcases List.mem_or_eq_of_mem_set hmem with hmem | heq
    · exact h.processing ids' hmem id hid
    · obtain rfl : ids' = ids := Worker.claiming.inj heq
      exact mem_selectDue_processing (hids ▸ hid)

/-- The end of a claim releases its rows and leaves the rows of other claims alone. -/
theorem Locks.finish (h : Locks shared calls) (hn : calls[n]? = some (.claiming ids))
    (hw' : ∀ ids, worker' ≠ .claiming ids)
    (hlocked : shared'.locked = release shared.locked ids)
    (hfind : ∀ id, id ∉ ids → shared'.transfers.find id = shared.transfers.find id) :
    Locks shared' (calls.set n worker') := by
  have hmem : ∀ ids', .claiming ids' ∈ calls.set n worker' →
      .claiming ids' ∈ calls ∧ ∀ id ∈ ids', id ∉ ids := by
    intro ids' hids'
    obtain ⟨m, hm⟩ := List.mem_iff_getElem?.mp hids'
    rw [List.getElem?_set] at hm
    split_ifs at hm with hnm hlt
    · exact (hw' ids' (Option.some.inj hm)).elim
    · exact ⟨Pool.mem_of_getElem? hm, fun id hid hid' => h.apart (Ne.symm hnm) hn hm hid' hid⟩
  refine ⟨fun id => ?_, fun ids' hids' => h.nodup ids' (hmem ids' hids').1,
    fun ids' hids' id hid => ?_⟩
  · have hcount := Pool.countP_next (f := Worker.holds id) worker' hn
    have hfree : worker'.holds id = false := by
      cases worker' <;> first | rfl | exact (hw' _ rfl).elim
    rw [h.held id, hfree] at hcount
    simp only [Worker.holds, Bool.toNat_false, Nat.add_zero] at hcount
    rw [hlocked]
    by_cases hid : id ∈ ids
    · have hin := h.locked (Pool.mem_of_getElem? hn) hid
      simp only [hid, hin, mem_release, decide_true, Bool.toNat_true, if_true, not_true_eq_false,
        and_false, if_false] at hcount ⊢
      omega
    · simp only [hid, mem_release, decide_false, Bool.toNat_false, not_false_eq_true,
        and_true] at hcount ⊢
      exact hcount
  · obtain ⟨hold, hapart⟩ := hmem ids' hids'
    rw [hfind id (hapart id hid)]
    exact h.processing ids' hold id hid

/-- A locked row is in the table and PROCESSING. -/
theorem Locks.found (h : Locks shared calls) (hid : id ∈ shared.locked) :
    ∃ row, shared.transfers.find id = some row ∧ row.status = .PROCESSING := by
  have hpos : 0 < calls.countP (Worker.holds id) := by
    rw [h.held id, if_pos hid]
    omega
  obtain ⟨worker, hmem, hholds⟩ := List.countP_pos_iff.mp hpos
  cases worker with
  | claiming ids => exact h.processing ids hmem id (by simpa [Worker.holds] using hholds)
  | _ => simp [Worker.holds] at hholds

theorem locks_next (h : Locks shared calls) (hn : calls[n]? = some worker)
    (hnext : workerNext config shared worker input = some (shared', worker')) :
    Locks shared' (calls.set n worker') := by
  unfold workerNext at hnext
  split at hnext
  · -- the insert of a new row: a locked row is there already
    split at hnext <;> cases hnext
    · exact h.frame hn (by simp) (by simp) rfl fun _ _ => rfl
    next new now dbNow transfers hcreate =>
      obtain ⟨hnone, hfind⟩ := createTransfer_some hcreate
      refine h.frame hn (by simp) (by simp) rfl fun id hid => ?_
      obtain ⟨row, hrow, -⟩ := h.found hid
      rw [hfind, if_neg]
      rintro rfl
      rw [hnone] at hrow
      cases hrow
  · cases hnext
    exact h.select hn rfl
  next ids clock =>
    split at hnext <;> cases hnext
    · exact h.finish hn (by simp) rfl fun _ _ => rfl
    next transfers retry hclaim =>
      have hmem := Pool.mem_of_getElem? hn
      have hfound : ∀ id ∈ ids, (shared.transfers.find id).isSome := by
        intro id hid
        obtain ⟨row, hrow, -⟩ := h.processing ids hmem id hid
        rw [hrow]
        rfl
      obtain ⟨transfers', retry', hclaim', hfind, -⟩ :=
        claimRows_spec config clock (h.nodup ids hmem) hfound
      obtain ⟨rfl, rfl⟩ : transfers = transfers' ∧ retry = retry' := by
        simpa [hclaim] using hclaim'
      refine h.finish hn (by simp) rfl fun id hid => ?_
      rw [hfind, if_neg hid]
  · cases hnext
    exact h.frame hn (by simp) (by simp) rfl fun _ _ => rfl
  · cases hnext
    exact h.frame hn (by simp) (by simp) rfl fun _ _ => rfl
  next row rest outcome =>
    cases hnext
    refine h.frame hn (by simp) (fun ids => ?_) rfl fun _ _ => rfl
    split_ifs <;> simp
  next row outcome rest now dbNow =>
    -- the settlement write waits for the locks of claims
    split_ifs at hnext with hfree
    split at hnext <;> cases hnext
    · refine h.frame hn (by simp) (fun ids => ?_) rfl fun _ _ => rfl
      cases outcome <;> simp [afterFailedWrite]
    next transfers hwrite =>
      obtain ⟨_, _, _, hfind, _⟩ := settleWrite_some hwrite
      refine h.frame hn (by simp) (by simp) rfl fun id hid => ?_
      rw [hfind, if_neg]
      rintro rfl
      exact hfree hid
  next row outcome rest =>
    cases hnext
    refine h.frame hn (by simp) (fun ids => ?_) rfl fun _ _ => rfl
    cases outcome <;> simp [afterFailedWrite]
  · cases hnext
    exact h.finish hn (by simp) rfl fun _ _ => rfl
  · cases hnext
  next hclaiming hfinished =>
    cases hnext
    exact h.frame hn (fun ids heq => hclaiming ids heq) (by simp) rfl fun _ _ => rfl
  · cases hnext

variable {C : State → Action → Prop}

theorem locks_step (h : Locks s.shared s.calls)
    (hstep : (payments config).machine.step s a = some t) : Locks t.shared t.calls := by
  cases a with
  | start call =>
    rw [Pool.step_start hstep]
    have hnew : ∀ ids, (payments config).start s.shared call ≠ .claiming ids := by
      intro ids
      cases call <;> simp [payments]
    refine ⟨fun id => ?_, fun ids hids => ?_, fun ids hids => ?_⟩
    · have hfree : ((payments config).start s.shared call).holds id = false := by
        cases call <;> rfl
      rw [List.countP_append, List.countP_singleton, hfree, ← h.held id]
      rfl
    · rcases List.mem_append.mp hids with hids | hids
      · exact h.nodup ids hids
      · exact (hnew ids (List.mem_singleton.mp hids).symm).elim
    · rcases List.mem_append.mp hids with hids | hids
      · exact h.processing ids hids
      · exact (hnew ids (List.mem_singleton.mp hids).symm).elim
  | next n input =>
    obtain ⟨worker, shared', worker', hn, hnext, rfl⟩ := Pool.step_next hstep
    exact locks_next h hn hnext
  | env x => exact x.elim

theorem locks_reachable (h : (payments config).machine.Reachable C s) :
    Locks s.shared s.calls := by
  refine Machine.invariant (I := fun s => Locks s.shared s.calls) ?_
    (fun _ _ _ hs _ hstep => locks_step hs hstep) h
  rintro s ⟨⟨-, hlocked, -⟩, hcalls⟩
  rw [hcalls]
  exact ⟨by simp [hlocked], by simp, by simp⟩

/-! ## What a step does to a row -/

/-- A step leaves a transfer alone, creates it, claims it for recovery or settles it. -/
inductive RowStep (config : PaymentsConfig) (s : State) (a : Action) (id : String) :
    Option TransferRow → Option TransferRow → Prop
  | absent : id ∉ claims s a → RowStep config s a id none none
  | created (new : NewTransfer) (now : ℕ) : id ∉ claims s a →
      RowStep config s a id none (some (TransferRow.create new now))
  | kept (row : TransferRow) : id ∉ claims s a → RowStep config s a id (some row) (some row)
  | claimed (row : TransferRow) (now : ℕ) : id ∈ claims s a → row.status = .PROCESSING →
      RowStep config s a id (some row) (some (row.claim config now))
  | completed (row : TransferRow) (result : InternalLedgerTransferResult) (now : ℕ) :
      id ∉ claims s a → settles s a = some id →
      RowStep config s a id (some row) (some (row.complete result now))
  | failed (row : TransferRow) (code : Option String) (now : ℕ) :
      id ∉ claims s a → settles s a = some id →
      RowStep config s a id (some row) (some (row.fail code now))

theorem RowStep.same (h : id ∉ claims s a) {row? : Option TransferRow} :
    RowStep config s a id row? row? := by
  cases row? with
  | none => exact .absent h
  | some row => exact .kept row h

/-- What one step of any interleaving does to the transfer `id`. -/
theorem step_row (hlocks : Locks s.shared s.calls)
    (hstep : (payments config).machine.step s a = some t) (id : String) :
    RowStep config s a id (s.find id) (t.find id) := by
  cases a with
  | start call =>
    rw [Pool.step_start hstep]
    exact .same (by simp [claims])
  | env x => exact x.elim
  | next n input =>
    obtain ⟨worker, shared', worker', hn, hnext, rfl⟩ := Pool.step_next hstep
    change workerNext config s.shared worker input = some (shared', worker') at hnext
    unfold workerNext at hnext
    split at hnext
    next new now dbNow =>
      have hnot : id ∉ claims s (.next n (.run now dbNow)) := by simp [claims]
      split at hnext <;> cases hnext
      · exact .same hnot
      next transfers hcreate =>
        obtain ⟨hnone, hfind⟩ := createTransfer_some hcreate
        show RowStep _ _ _ _ (s.shared.transfers.find id) (transfers.find id)
        rw [hfind]
        by_cases hid : new.id = id
        · rw [if_pos hid, ← hid, hnone]
          exact .created new now (hid ▸ hnot)
        · rw [if_neg hid]
          exact .same hnot
    · cases hnext
      exact .same (by simp [claims])
    next ids clock =>
      have hclaims : claims s (.next n (.commit clock)) = ids := by simp [claims, hn]
      have hmem := Pool.mem_of_getElem? hn
      have hprocessing := hlocks.processing ids hmem
      have hfound : ∀ id ∈ ids, (s.shared.transfers.find id).isSome := by
        intro id hid
        obtain ⟨row, hrow, -⟩ := hprocessing id hid
        rw [hrow]
        rfl
      obtain ⟨transfers, retry, hclaim, hfind, -⟩ :=
        claimRows_spec config clock (hlocks.nodup ids hmem) hfound
      rw [hclaim] at hnext
      cases hnext
      show RowStep _ _ _ _ (s.shared.transfers.find id) (transfers.find id)
      rw [hfind]
      by_cases hid : id ∈ ids
      · obtain ⟨row, hrow, hstatus⟩ := hprocessing id hid
        rw [if_pos hid, hrow]
        exact .claimed row (clock id) (hclaims ▸ hid) hstatus
      · rw [if_neg hid]
        exact .same (hclaims ▸ hid)
    iterate 3
      · cases hnext
        exact .same (by simp [claims])
    next row outcome rest now dbNow =>
      have hnot : id ∉ claims s (.next n (.run now dbNow)) := by simp [claims]
      split_ifs at hnext
      split at hnext <;> cases hnext
      · exact .same hnot
      next transfers hwrite =>
        have hsettles : settles s (.next n (.run now dbNow)) = some row.id := by
          simp [settles, hn, hwrite]
        obtain ⟨old, old', hold, hfind, hwritten⟩ := settleWrite_some hwrite
        show RowStep _ _ _ _ (s.shared.transfers.find id) (transfers.find id)
        rw [hfind]
        by_cases hid : row.id = id
        · subst hid
          rw [if_pos rfl, hold]
          rcases hwritten with ⟨result, -, rfl⟩ | ⟨status, code, -, -, rfl⟩
          · exact .completed old result now hnot hsettles
          · exact .failed old code now hnot hsettles
        · rw [if_neg hid]
          exact .same hnot
    · cases hnext
      exact .same (by simp [claims])
    · cases hnext
      exact .same (by simp [claims])
    · cases hnext
    · cases hnext
      exact .same (by simp [claims])
    · cases hnext

end AegisShield.Payments
