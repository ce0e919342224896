import AegisShield.Common.Pool
import AegisShield.Risk.Store

/-!
# The lifecycle of a control

Concurrent calls of `ControlService` (`control.service.ts`, lines 12-146). Each statement is one
step; a statement may fail, or take effect although its answer is lost. `release` checks that the
control is ACTIVE (line 136) and `expire` selects ACTIVE controls (line 14), each in a statement
before the update.

Results:
* `control_lifecycle`: in every run in which no call ends a control that another has found ACTIVE
  and is still to end, a control that has ended keeps its status and has exactly one terminal
  event, of the type of its status. From a step that does so, the run can go on to break this.
* `control_ended_twice`: an expiry that overlaps a release ends a control twice.
-/

namespace AegisShield.Risk

open Common

/-! ## The calls -/

inductive RiskError where
  /-- `findUniqueOrThrow` found nothing. -/
  | notFound
  /-- A statement failed. -/
  | store
  /-- `IDENTITY_CONTROL_UNAVAILABLE`. -/
  | identity
  /-- `A resolution reason is required.` -/
  | resolution
  /-- The id is not a UUID. -/
  | invalid
  deriving DecidableEq

/-- `applyControlRequestSchema`. -/
structure ApplyControlInput where
  idempotencyKey : String
  type : ControlType
  scopeType : ControlScope
  scopeId : String
  reasonCode : String
  expiresAt : ℕ
  incidentId : Option String

abbrev Scope := ControlScope × String

inductive RiskDecision where
  | ALLOW
  | REQUIRE_STEP_UP
  | HOLD_FOR_REVIEW
  | BLOCK
  | QUARANTINE
  deriving DecidableEq

/-- What `check` returns. -/
structure ControlCheck where
  allowed : Bool
  decision : RiskDecision
  reasonCodes : List String
  requiresStepUp : Bool
  expiresAt : Option ℕ
  deriving DecidableEq

inductive ControlResponse where
  | expired (count : ℕ)
  | checked (result : ControlCheck)
  | control (row : ControlActionRow)
  deriving DecidableEq

/-- What a statement gets from outside: the clocks, a generated id, which of the due rows
    `findMany` returns, and whether the answer arrives. -/
structure ControlEnv where
  now : ℕ
  uuid : String
  due : List String
  answered : Bool

/-- A call, by the statement that it is about to run. -/
inductive ControlCall where
  /-- Lines 13-17; then a `check` of the scopes goes on. -/
  | expiring (after : Option (List Scope))
  /-- Lines 19-31. -/
  | ending (after : Option (List Scope)) (count : ℕ) (id : String) (ids : List String)
  /-- Lines 36-46. -/
  | checking (scopes : List Scope)
  /-- Lines 93-95. -/
  | looking (input : ApplyControlInput) (operatorId : String)
  /-- Lines 105-123. -/
  | creating (input : ApplyControlInput) (operatorId : String)
  /-- Lines 97-102 and 124-129. -/
  | revoking (row : ControlActionRow)
  /-- Lines 133-135. -/
  | reading (id reason operatorId : String)
  /-- Lines 137-145. -/
  | releasing (id reason operatorId : String)
  | done (result : Except RiskError ControlResponse)

/-- A call of `expire`, `check`, `apply` or `release`. -/
inductive ControlRequest where
  | expire
  | check (scopes : List Scope)
  | apply (input : ApplyControlInput) (operatorId : String)
  | release (id reason operatorId : String)

def expiryJob : String := "automated:expiry-job"

def expiryReason : String := "Configured control expiry reached."

/-- The `take` of `expire`. -/
def expiryTake : ℕ := 500

namespace RiskDb

/-- The rows that `expire` is to end. -/
def dueControls (db : RiskDb) (now : ℕ) : List ControlActionRow :=
  db.controls.rows.filter fun row => row.status = .ACTIVE && decide (row.expiresAt ≤ now)

/-- `findMany` without an order returns any `expiryTake` of the rows that match. -/
def isDueSelection (db : RiskDb) (now : ℕ) (ids : List String) : Bool :=
  decide ids.Nodup && decide (∀ id ∈ ids, id ∈ (db.dueControls now).map ControlActionRow.id) &&
    decide (ids.length = min expiryTake (db.dueControls now).length)

/-- Lines 36-46. -/
def controlsInForce (db : RiskDb) (now : ℕ) (scopes : List Scope) : List ControlActionRow :=
  (db.controls.rows.filter fun row => row.status = .ACTIVE && decide (now < row.expiresAt) &&
    decide ((row.scopeType, row.scopeId) ∈ scopes)).insertionSort
      fun a b => a.createdAt ≤ b.createdAt

end RiskDb

/-- Lines 47-78. -/
def checkResponse (rows : List ControlActionRow) : ControlCheck :=
  let types := rows.map ControlActionRow.type
  let quarantine := decide (ControlType.QUARANTINE ∈ types)
  let blocked := quarantine || types.any fun type =>
    decide (type ∈ [ControlType.TEMPORARY_BLOCK, .ACCOUNT_RESTRICT, .RECIPIENT_BLOCK])
  let held := types.any fun type => decide (type ∈ [ControlType.TRANSFER_HOLD, .MANUAL_REVIEW])
  let stepUp := decide (ControlType.REQUIRE_STEP_UP ∈ types)
  { allowed := !blocked && !held
    decision :=
      if quarantine then .QUARANTINE
      else if blocked then .BLOCK
      else if held then .HOLD_FOR_REVIEW
      else if stepUp then .REQUIRE_STEP_UP
      else .ALLOW
    reasonCodes := (rows.map ControlActionRow.reasonCode).eraseDups
    requiresStepUp := stepUp
    expiresAt := (rows.map ControlActionRow.expiresAt).min? }

/-- The row that `apply` creates. -/
def controlRow (sha256 : String → String) (input : ApplyControlInput) (operatorId : String)
    (e : ControlEnv) : ControlActionRow where
  id := e.uuid
  idempotencyKeyHash := sha256 input.idempotencyKey
  type := input.type
  scopeType := input.scopeType
  scopeId := input.scopeId
  reasonCode := input.reasonCode
  status := .ACTIVE
  incidentId := input.incidentId
  createdBy := operatorId
  expiresAt := input.expiresAt
  createdAt := e.now

namespace ControlCall

/-- The first statement of a call. -/
def start : ControlRequest → ControlCall
  | .expire => .expiring none
  | .check scopes => .expiring (some scopes)
  | .apply input operatorId => .looking input operatorId
  | .release id reason operatorId => .reading id reason operatorId

/-- The rows are ended one by one; then `expire` returns, or `check` goes on. -/
def afterExpired (after : Option (List Scope)) (count : ℕ) : List String → ControlCall
  | id :: ids => .ending after count id ids
  | [] =>
    match after with
    | none => .done (.ok (.expired count))
    | some scopes => .checking scopes

/-- A session control is carried out by the Identity service before `apply` returns. -/
def afterApplied (row : ControlActionRow) : ControlCall :=
  if row.type = .SESSION_REVOKE then .revoking row else .done (.ok (.control row))

/-- The call goes on if the answer arrives. -/
def answer (e : ControlEnv) (call : ControlCall) : ControlCall :=
  if e.answered then call else .done (.error .store)

/-- The call after an update: with the row, or the error of a row that is not there. -/
def ended (db : RiskDb) (e : ControlEnv) (next : ControlActionRow → ControlCall) :
    Option (RiskDb × ControlActionRow) → RiskDb × ControlCall
  | none => (db, .done (.error .store))
  | some (db', row) => (db', (next row).answer e)

/-- The next statement of a call; `e` is `none` when it fails. -/
def next (sha256 : String → String) (db : RiskDb) (call : ControlCall) (e : Option ControlEnv) :
    Option (RiskDb × ControlCall) :=
  match call, e with
  | .done _, _ => none
  | .revoking _, none => some (db, .done (.error .identity))
  | _, none => some (db, .done (.error .store))
  | .expiring after, some e =>
    if db.isDueSelection e.now e.due then some (db, afterExpired after e.due.length e.due)
    else none
  | .ending after count id ids, some e =>
    some (ended db e (fun _ => afterExpired after count ids)
      (db.updateControl .EXPIRED ⟨id, .EXPIRED, expiryJob, expiryReason⟩))
  | .checking scopes, some e =>
    some (db, .done (.ok (.checked (checkResponse (db.controlsInForce e.now scopes)))))
  | .looking input operatorId, some _ =>
    match db.findControlByKey (sha256 input.idempotencyKey) with
    | some existing => some (db, afterApplied existing)
    | none => some (db, .creating input operatorId)
  | .creating input operatorId, some e =>
    match db.createControl (controlRow sha256 input operatorId e) input.reasonCode with
    | none => some (db, .done (.error .store))
    | some db' => some (db', (afterApplied (controlRow sha256 input operatorId e)).answer e)
  | .revoking row, some _ => some (db, .done (.ok (.control row)))
  | .reading id reason operatorId, some _ =>
    match db.controls.find id with
    | none => some (db, .done (.error .notFound))
    | some current =>
      if current.status ≠ .ACTIVE then some (db, .done (.ok (.control current)))
      else some (db, .releasing id reason operatorId)
  | .releasing id reason operatorId, some e =>
    some (ended db e (fun row => .done (.ok (.control row)))
      (db.updateControl .RELEASED ⟨id, .RELEASED, operatorId, reason⟩))

end ControlCall

/-! ## The property -/

/-- The event that ends a control with a status. -/
def ControlStatus.endedBy : ControlStatus → Option ControlEventType
  | .RELEASED => some .RELEASED
  | .EXPIRED => some .EXPIRED
  | .ACTIVE => none
  | .OVERRIDDEN => none

/-- `RELEASED` or `EXPIRED`. -/
def ControlStatus.hasEnded (status : ControlStatus) : Bool := status.endedBy.isSome

/-- The event ends a control. -/
def ControlEventType.ends : ControlEventType → Bool
  | .CREATED => false
  | .RELEASED => true
  | .EXPIRED => true

/-- The terminal events of a control. -/
def RiskDb.terminalEvents (db : RiskDb) (id : String) : List ControlEventType :=
  ((db.controlEvents.filter fun event => event.controlId = id).map
    ControlEventRow.eventType).filter ControlEventType.ends

/-- A control that has ended has exactly one terminal event, of the type of its status; one that
    has not has none. -/
def RiskDb.EndedOnce (db : RiskDb) : Prop :=
  ∀ row ∈ db.controls.rows, db.terminalEvents row.id = row.status.endedBy.toList

/-- The foreign key of `control_events`. -/
def RiskDb.EventsOfControls (db : RiskDb) : Prop :=
  ∀ event ∈ db.controlEvents, (db.controls.find event.controlId).isSome

/-- Concurrent calls of `ControlService`, with assessments in between. -/
def controlPool (sha256 : String → String) :
    Pool RiskDb ControlCall ControlRequest (Option ControlEnv) Assessment where
  init db := db.EventsOfControls ∧ db.EndedOnce
  start _ request := ControlCall.start request
  next := ControlCall.next sha256
  env := RiskDb.assess

/-- There is a control with the id, and it has not ended. -/
def RiskDb.isOpen (db : RiskDb) (id : String) : Bool :=
  (db.controls.find id).any fun row => !row.status.hasEnded

/-- The control that the next statement of a call ends. -/
def ControlCall.target : ControlCall → Option String
  | .ending _ _ id _ => some id
  | .releasing id _ _ => some id
  | _ => none

/-- The control that a statement ends, if it is not refused. -/
def ControlCall.ends (db : RiskDb) (call : ControlCall) (e : Option ControlEnv) : Option String :=
  if e.isSome then call.target.filter fun id => (db.controls.find id).isSome else none

abbrev ControlState := Pool.State RiskDb ControlCall

abbrev ControlAction := Pool.Action ControlRequest (Option ControlEnv) Assessment

/-- The control that a step ends. -/
def stepEnds (s : ControlState) : ControlAction → Option String
  | .next n e => s.calls[n]?.bind fun call => call.ends s.shared e
  | _ => none

/-- The controls that a call has found ACTIVE and is still to end: the rest of those that
    `expire` selected (lines 13-17), or the one that `release` read (lines 133-136). -/
def ControlCall.pending : ControlCall → List String
  | .ending _ _ id ids => id :: ids
  | .releasing id _ _ => [id]
  | _ => []

/-- The condition on the steps of a run: when a call ends a control, no other call is between its
    read of that control and its update. -/
def endsApart (s : ControlState) : ControlAction → Bool
  | .next n e => (stepEnds s (.next n e)).all fun id =>
      (s.calls.eraseIdx n).all fun call => decide (id ∉ call.pending)
  | _ => true

/-! ## What a step does -/

/-- A step of the tables that ends the given control, or none. -/
inductive ControlStep (db db' : RiskDb) : Option String → Prop
  | quiet (hcontrols : db'.controls = db.controls)
      (hevents : db'.controlEvents = db.controlEvents) : ControlStep db db' none
  | create {row actorId reason}
      (hcontrols : db.controls.insert row = some db'.controls) (hactive : row.status = .ACTIVE)
      (hevents : db'.controlEvents = db.controlEvents ++ [⟨row.id, .CREATED, actorId, reason⟩]) :
      ControlStep db db' none
  | ends {row status event} (hrow : db.controls.find event.controlId = some row)
      (hstatus : status.endedBy = some event.eventType)
      (hcontrols : db'.controls = db.controls.put { row with status := status })
      (hevents : db'.controlEvents = db.controlEvents ++ [event]) :
      ControlStep db db' (some event.controlId)

section Steps

variable {sha256 : String → String} {db db' : RiskDb} {call call' : ControlCall}

theorem controlStep_of_ended {next : ControlActionRow → ControlCall} {e : ControlEnv}
    {status : ControlStatus} {event : ControlEventRow} (htarget : call.target = some event.controlId)
    (hstatus : status.endedBy = some event.eventType)
    (h : ControlCall.ended db e next (db.updateControl status event) = (db', call')) :
    ControlStep db db' (call.ends db (some e)) := by
  have hends : call.ends db (some e) =
      if (db.controls.find event.controlId).isSome then some event.controlId else none := by
    rw [ControlCall.ends, htarget]
    rfl
  rw [hends]
  cases hupdate : db.updateControl status event with
  | none =>
    rw [hupdate] at h
    cases h
    rw [Option.map_eq_none_iff.mp hupdate]
    exact .quiet rfl rfl
  | some r =>
    obtain ⟨db₁, row'⟩ := r
    obtain ⟨row, hrow, -, rfl⟩ := RiskDb.updateControl_some hupdate
    rw [hupdate] at h
    cases h
    rw [hrow]
    exact .ends hrow hstatus rfl rfl

/-- A statement ends the control that it is to end, creates an active one, or changes nothing. -/
theorem controlStep_of_next {e : Option ControlEnv}
    (h : ControlCall.next sha256 db call e = some (db', call')) :
    ControlStep db db' (call.ends db e) := by
  cases e with
  | none => cases call <;> cases h <;> exact .quiet rfl rfl
  | some e =>
    cases call with
    | expiring after =>
      simp only [ControlCall.next] at h
      split_ifs at h
      cases h
      exact .quiet rfl rfl
    | ending | releasing => exact controlStep_of_ended rfl rfl (Option.some.inj h)
    | checking | revoking =>
      cases h
      exact .quiet rfl rfl
    | looking input operatorId =>
      simp only [ControlCall.next] at h
      split at h <;> cases h <;> exact .quiet rfl rfl
    | creating input operatorId =>
      simp only [ControlCall.next] at h
      split at h
      · cases h
        exact .quiet rfl rfl
      next hcreate =>
        obtain ⟨controls, hinsert, -, rfl⟩ := RiskDb.createControl_some hcreate
        cases h
        exact .create hinsert rfl rfl
    | reading id reason operatorId =>
      simp only [ControlCall.next] at h
      split at h
      · cases h
        exact .quiet rfl rfl
      · split_ifs at h <;> cases h <;> exact .quiet rfl rfl
    | done result => cases h

theorem controlStep_of_assess {assessment : Assessment} (h : db.assess assessment = some db') :
    ControlStep db db' none := by
  obtain ⟨-, -, ⟨hcontrols, hevents⟩ | ⟨row, reason, hactive, hinsert, hevents⟩⟩ :=
    RiskDb.assess_some h
  · exact .quiet hcontrols hevents
  · exact .create hinsert hactive hevents

theorem controlStep_of_step {s t : ControlState} {a : ControlAction}
    (h : (controlPool sha256).machine.step s a = some t) :
    ControlStep s.shared t.shared (stepEnds s a) := by
  cases a with
  | start request =>
    cases Pool.step_start h
    exact .quiet rfl rfl
  | next n e =>
    obtain ⟨call, db', call', hcall, hnext, rfl⟩ := Pool.step_next h
    rw [stepEnds, hcall]
    exact controlStep_of_next hnext
  | env assessment =>
    obtain ⟨db', hassess, rfl⟩ := Pool.step_env h
    exact controlStep_of_assess hassess

end Steps

/-! ## Terminal events -/

section Events

variable {db db' : RiskDb} {row : ControlActionRow} {status : ControlStatus}
  {event : ControlEventRow} {id : String} {target : Option String}

theorem ends_of_endedBy {eventType : ControlEventType} (h : status.endedBy = some eventType) :
    eventType.ends = true := by
  cases status <;> cases h <;> rfl

theorem endedBy_of_open (h : status.hasEnded = false) : status.endedBy = none :=
  Option.not_isSome_iff_eq_none.mp (Bool.eq_false_iff.mp h)

theorem terminalEvents_concat (h : db'.controlEvents = db.controlEvents ++ [event]) :
    db'.terminalEvents id = db.terminalEvents id ++
      if event.controlId = id ∧ event.eventType.ends = true then [event.eventType] else [] := by
  unfold RiskDb.terminalEvents
  rw [h, List.filter_append, List.map_append, List.filter_append]
  congr 1
  by_cases hid : event.controlId = id
  · by_cases hends : event.eventType.ends = true
    · simp [hid, hends]
    · simp [hid, hends]
  · simp [hid]

theorem terminalEvents_ends (hevents : db'.controlEvents = db.controlEvents ++ [event])
    (hstatus : status.endedBy = some event.eventType) :
    db'.terminalEvents event.controlId = db.terminalEvents event.controlId ++ [event.eventType] := by
  rw [terminalEvents_concat hevents, if_pos ⟨rfl, ends_of_endedBy hstatus⟩]

theorem terminalEvents_other (hevents : db'.controlEvents = db.controlEvents ++ [event])
    (hid : event.controlId ≠ id) : db'.terminalEvents id = db.terminalEvents id := by
  rw [terminalEvents_concat hevents, if_neg fun h => hid h.1, List.append_nil]

theorem terminalEvents_absent (h : db.EventsOfControls) (hid : db.controls.find id = none) :
    db.terminalEvents id = [] := by
  unfold RiskDb.terminalEvents
  have hnone : (db.controlEvents.filter fun event => event.controlId = id) = [] := by
    refine List.filter_eq_nil_iff.mpr fun event hevent heq => ?_
    have hsome := h event hevent
    rw [of_decide_eq_true heq, hid] at hsome
    cases hsome
  rw [hnone]
  rfl

/-- The events refer to controls after a step as before. -/
theorem eventsOfControls_step (h : db.EventsOfControls) (hstep : ControlStep db db' target) :
    db'.EventsOfControls := by
  cases hstep with
  | quiet hcontrols hevents =>
    unfold RiskDb.EventsOfControls
    rw [hcontrols, hevents]
    exact h
  | @create row actorId reason hcontrols hactive hevents =>
    intro event hmem
    rw [Table.find_insert hcontrols]
    split_ifs with hkey
    · rfl
    · rw [hevents] at hmem
      rcases List.mem_append.mp hmem with hmem | hmem
      · exact h event hmem
      · rw [List.mem_singleton.mp hmem] at hkey
        exact absurd rfl hkey
  | @ends row status event hrow hstatus hcontrols hevents =>
    intro other hmem
    have hfind : (db.controls.find other.controlId).isSome := by
      rw [hevents] at hmem
      rcases List.mem_append.mp hmem with hmem | hmem
      · exact h other hmem
      · rw [List.mem_singleton.mp hmem, hrow]
        rfl
    rw [Option.isSome_iff_ne_none] at hfind ⊢
    rw [hcontrols]
    exact fun hnone => hfind (Table.find_put_eq_none.mp hnone)

/-- A step that ends no control again keeps the property. -/
theorem endedOnce_step (hfk : db.EventsOfControls) (h : db.EndedOnce)
    (hopen : target.all db.isOpen = true) (hstep : ControlStep db db' target) : db'.EndedOnce := by
  cases hstep with
  | quiet hcontrols hevents =>
    unfold RiskDb.EndedOnce RiskDb.terminalEvents
    rw [hcontrols, hevents]
    exact h
  | @create row actorId reason hcontrols hactive hevents =>
    obtain ⟨hnone, hrows⟩ := Table.insert_some hcontrols
    intro other hother
    rw [hrows] at hother
    rw [terminalEvents_concat hevents, if_neg fun h => Bool.noConfusion h.2, List.append_nil]
    rcases List.mem_append.mp hother with hother | hother
    · exact h other hother
    · rw [List.mem_singleton.mp hother, hactive]
      exact terminalEvents_absent hfk hnone
  | @ends row status event hrow hstatus hcontrols hevents =>
    have hid : row.id = event.controlId := Table.key_of_find hrow
    intro other hother
    rw [hcontrols] at hother
    rcases Table.mem_put hother with ⟨hother, hne⟩ | rfl
    · have hne : event.controlId ≠ other.id := fun heq => hne (heq.symm.trans hid.symm)
      rw [terminalEvents_other hevents hne]
      exact h other hother
    · have hended : row.status.hasEnded = false := by
        simpa [RiskDb.isOpen, hrow] using hopen
      have hnone : db.terminalEvents event.controlId = [] := by
        rw [← hid, h row (Table.find_some hrow).1, endedBy_of_open hended]
        rfl
      show db'.terminalEvents row.id = status.endedBy.toList
      rw [hid, terminalEvents_ends hevents hstatus, hnone, hstatus]
      rfl

/-- A control that has ended keeps its status. -/
theorem status_step (hopen : target.all db.isOpen = true) (hstep : ControlStep db db' target)
    (hrow : db.controls.find id = some row) (hended : row.status.hasEnded = true) :
    ∃ row', db'.controls.find id = some row' ∧ row'.status = row.status := by
  cases hstep with
  | quiet hcontrols hevents =>
    rw [hcontrols]
    exact ⟨row, hrow, rfl⟩
  | create hcontrols hactive hevents =>
    rw [Table.find_insert hcontrols]
    split_ifs with hkey
    · rw [← hkey, (Table.insert_some hcontrols).1] at hrow
      cases hrow
    · exact ⟨row, hrow, rfl⟩
  | @ends other status event hother hstatus hcontrols hevents =>
    have hne : event.controlId ≠ id := by
      rintro rfl
      cases hother.symm.trans hrow
      simp [RiskDb.isOpen, hrow, hended] at hopen
    have hkey : key { other with status := status } ≠ id := fun heq =>
      hne ((Table.key_of_find hother).symm.trans heq)
    rw [hcontrols, Table.find_put_ne hkey]
    exact ⟨row, hrow, rfl⟩

end Events

/-! ## What a call is to end -/

section Pending

variable {sha256 : String → String} {db db' : RiskDb} {call call' : ControlCall} {id : String}
  {e : Option ControlEnv} {target : Option String}

theorem pending_afterExpired (after : Option (List Scope)) (count : ℕ) (ids : List String) :
    (ControlCall.afterExpired after count ids).pending = ids := by
  cases ids with
  | cons id ids => rfl
  | nil => cases after <;> rfl

theorem pending_afterApplied (row : ControlActionRow) :
    (ControlCall.afterApplied row).pending = [] := by
  unfold ControlCall.afterApplied
  split_ifs <;> rfl

theorem pending_answer (e : ControlEnv) (call : ControlCall) :
    (call.answer e).pending = if e.answered then call.pending else [] := by
  unfold ControlCall.answer
  split_ifs <;> rfl

theorem mem_pending_of_ends (h : call.ends db e = some id) : id ∈ call.pending := by
  unfold ControlCall.ends at h
  split_ifs at h
  obtain ⟨htarget, -⟩ := Option.filter_eq_some_iff.mp h
  cases call with
  | ending after count id' ids =>
    cases htarget
    exact List.mem_cons_self
  | releasing id' reason operatorId =>
    cases htarget
    exact List.mem_singleton_self _
  | _ => cases htarget

/-- The rows that `expire` selects are ACTIVE. -/
theorem isOpen_of_due {now : ℕ} {ids : List String} (h : db.isDueSelection now ids = true)
    (hid : id ∈ ids) : db.isOpen id = true := by
  simp only [RiskDb.isDueSelection, Bool.and_eq_true, decide_eq_true_eq] at h
  obtain ⟨row, hrow, rfl⟩ := List.mem_map.mp (h.1.2 id hid)
  obtain ⟨hmem, hdue⟩ := List.mem_filter.mp hrow
  have hactive : row.status = .ACTIVE := of_decide_eq_true (Bool.and_eq_true_iff.mp hdue).1
  have hfind : db.controls.find row.id = some row := Table.find_of_mem hmem
  rw [RiskDb.isOpen, hfind, Option.any_some, hactive]
  rfl

/-- What a call is to end after a statement is nothing, what the statement has found ACTIVE, or
    the rest of an expiry. -/
theorem pending_next (h : ControlCall.next sha256 db call e = some (db', call')) :
    call'.pending = [] ∨
      (db' = db ∧ call'.pending.Nodup ∧ ∀ id ∈ call'.pending, db.isOpen id = true) ∨
      ∃ after count id ids, call = .ending after count id ids ∧ call'.pending = ids := by
  cases e with
  | none => cases call <;> cases h <;> exact .inl rfl
  | some e =>
    cases call with
    | expiring after =>
      simp only [ControlCall.next] at h
      split_ifs at h with hdue
      cases h
      rw [pending_afterExpired]
      have hnodup : e.due.Nodup := by
        simp only [RiskDb.isDueSelection, Bool.and_eq_true, decide_eq_true_eq] at hdue
        exact hdue.1.1
      exact .inr (.inl ⟨rfl, hnodup, fun id hid => isOpen_of_due hdue hid⟩)
    | ending after count id ids =>
      simp only [ControlCall.next, Option.some.injEq] at h
      cases hupdate : db.updateControl .EXPIRED ⟨id, .EXPIRED, expiryJob, expiryReason⟩ with
      | none =>
        rw [hupdate] at h
        cases h
        exact .inl rfl
      | some r =>
        rw [hupdate] at h
        cases h
        rw [pending_answer, pending_afterExpired]
        split_ifs
        · exact .inr (.inr ⟨after, count, id, ids, rfl, rfl⟩)
        · exact .inl rfl
    | checking | revoking =>
      cases h
      exact .inl rfl
    | looking input operatorId =>
      simp only [ControlCall.next] at h
      split at h
      · cases h
        exact .inl (pending_afterApplied _)
      · cases h
        exact .inl rfl
    | creating input operatorId =>
      simp only [ControlCall.next] at h
      split at h
      · cases h
        exact .inl rfl
      · cases h
        rw [pending_answer, pending_afterApplied, ite_self]
        exact .inl rfl
    | reading id reason operatorId =>
      simp only [ControlCall.next] at h
      cases hfind : db.controls.find id with
      | none =>
        rw [hfind] at h
        cases h
        exact .inl rfl
      | some current =>
        rw [hfind] at h
        dsimp only at h
        split_ifs at h with hstatus
        · cases h
          exact .inl rfl
        · cases h
          refine .inr (.inl ⟨rfl, List.nodup_singleton _, fun id' hid' => ?_⟩)
          rw [List.mem_singleton.mp hid', RiskDb.isOpen, hfind, Option.any_some,
            not_not.mp hstatus]
          rfl
    | releasing id reason operatorId =>
      simp only [ControlCall.next, Option.some.injEq] at h
      cases hupdate : db.updateControl .RELEASED ⟨id, .RELEASED, operatorId, reason⟩ with
      | none =>
        rw [hupdate] at h
        cases h
        exact .inl rfl
      | some r =>
        rw [hupdate] at h
        cases h
        rw [pending_answer]
        split_ifs <;> exact .inl rfl
    | done result => cases h

/-- A control that a step does not end stays open. -/
theorem isOpen_step (hstep : ControlStep db db' target) (hne : target ≠ some id)
    (h : db.isOpen id = true) : db'.isOpen id = true := by
  cases hstep with
  | quiet hcontrols hevents =>
    unfold RiskDb.isOpen
    rw [hcontrols]
    exact h
  | @create row actorId reason hcontrols hactive hevents =>
    unfold RiskDb.isOpen
    rw [Table.find_insert hcontrols]
    split_ifs with hkey
    · rw [Option.any_some, hactive]
      rfl
    · exact h
  | @ends row status event hrow hstatus hcontrols hevents =>
    have hkey : key { row with status := status } ≠ id := fun heq =>
      hne (congrArg some ((Table.key_of_find hrow).symm.trans heq))
    unfold RiskDb.isOpen
    rw [hcontrols, Table.find_put_ne hkey]
    exact h

/-- A call is to end controls that are open, each of them once. -/
def ControlCall.Ready (db : RiskDb) (call : ControlCall) : Prop :=
  call.pending.Nodup ∧ ∀ id ∈ call.pending, db.isOpen id = true

theorem found_of_isOpen (h : db.isOpen id = true) : (db.controls.find id).isSome = true := by
  obtain ⟨row, hrow, -⟩ := (Option.any_eq_true _ _).mp h
  rw [hrow]
  rfl

theorem ready_of_pending_nil (h : call.pending = []) : call.Ready db := by
  unfold ControlCall.Ready
  rw [h]
  exact ⟨List.nodup_nil, fun _ hid => absurd hid List.not_mem_nil⟩

/-- A call's own statement. -/
theorem ready_next (hready : call.Ready db)
    (h : ControlCall.next sha256 db call e = some (db', call')) : call'.Ready db' := by
  rcases pending_next h with hnone | ⟨rfl, hfound⟩ | ⟨after, count, id, ids, rfl, hrest⟩
  · exact ready_of_pending_nil hnone
  · exact hfound
  · obtain ⟨hnodup, hopen⟩ := hready
    obtain ⟨hid, hids⟩ := List.nodup_cons.mp hnodup
    unfold ControlCall.Ready
    rw [hrest]
    refine ⟨hids, fun id' hid' => isOpen_step (controlStep_of_next h) ?_
      (hopen id' (List.mem_cons_of_mem _ hid'))⟩
    unfold ControlCall.ends
    split_ifs
    · intro htarget
      cases (Option.filter_eq_some_iff.mp htarget).1
      exact hid hid'
    · exact Option.some_ne_none _ |>.symm

/-- A statement of another call that ends none of the controls. -/
theorem ready_step (hready : call.Ready db) (hstep : ControlStep db db' target)
    (hapart : ∀ id ∈ target, id ∉ call.pending) : call.Ready db' :=
  ⟨hready.1, fun id hid => isOpen_step hstep (fun htarget => hapart id htarget hid)
    (hready.2 id hid)⟩

end Pending

theorem stepEnds_open {s : ControlState} {a : ControlAction}
    (hready : ∀ call ∈ s.calls, call.Ready s.shared) :
    (stepEnds s a).all s.shared.isOpen = true := by
  cases hends : stepEnds s a with
  | none => rfl
  | some id =>
    cases a with
    | next n e =>
      obtain ⟨call, hcall, hends⟩ := Option.bind_eq_some_iff.mp hends
      exact (hready call (Pool.mem_of_getElem? hcall)).2 id (mem_pending_of_ends hends)
    | start | env => cases hends

theorem overlap_of_not_apart {s : ControlState} {a : ControlAction} (h : endsApart s a = false) :
    ∃ n e id m call, a = .next n e ∧ stepEnds s a = some id ∧ m ≠ n ∧
      s.calls[m]? = some call ∧ id ∈ call.pending := by
  cases a with
  | start | env => cases h
  | next n e =>
    have hall : (stepEnds s (.next n e)).all (fun id =>
        (s.calls.eraseIdx n).all fun call => decide (id ∉ call.pending)) = false := h
    obtain ⟨id, hends, hothers⟩ := (Option.all_eq_false _ _).mp hall
    obtain ⟨call, hcall, hid⟩ := List.all_eq_false.mp hothers
    obtain ⟨m, hm, hcall⟩ := List.mem_eraseIdx_iff_getElem?.mp hcall
    exact ⟨n, e, id, m, call, rfl, hends, hm, hcall, by simpa using hid⟩

/-- What holds in every run whose steps are apart. -/
theorem kept_reachable {sha256 : String → String} {s : ControlState}
    (h : (controlPool sha256).machine.Reachable (fun s a => endsApart s a = true) s) :
    (s.shared.EventsOfControls ∧ s.shared.EndedOnce) ∧ ∀ call ∈ s.calls, call.Ready s.shared := by
  refine Pool.invariant (G := fun db => db.EventsOfControls ∧ db.EndedOnce)
    (A := fun db call => call.Ready db) ?_ ?_ ?_ ?_ h
  · exact fun db hdb => hdb
  · intro db request _
    refine ready_of_pending_nil ?_
    cases request <;> rfl
  · rintro s n e call db' call' ⟨hfk, honce⟩ hready hapart hcall hnext
    have hstep := controlStep_of_next hnext
    have hown := hready call (Pool.mem_of_getElem? hcall)
    have hopen : (call.ends s.shared e).all s.shared.isOpen = true := by
      cases hends : call.ends s.shared e with
      | none => rfl
      | some id => exact hown.2 id (mem_pending_of_ends hends)
    refine ⟨⟨eventsOfControls_step hfk hstep, endedOnce_step hfk honce hopen hstep⟩,
      ready_next hown hnext, fun m other hm hother => ?_⟩
    refine ready_step (hready other (Pool.mem_of_getElem? hother)) hstep fun id hid => ?_
    have hends : stepEnds s (.next n e) = some id := by
      rw [stepEnds, hcall]
      exact hid
    have hothers : (stepEnds s (.next n e)).all (fun id =>
        (s.calls.eraseIdx n).all fun call => decide (id ∉ call.pending)) = true := hapart
    rw [hends, Option.all_some] at hothers
    exact of_decide_eq_true (List.all_eq_true.mp hothers other
      (List.mem_eraseIdx_iff_getElem?.mpr ⟨m, hm, hother⟩))
  · rintro s assessment db' ⟨hfk, honce⟩ - hassess
    have hstep := controlStep_of_assess hassess
    exact ⟨⟨eventsOfControls_step hfk hstep, endedOnce_step hfk honce rfl hstep⟩,
      fun call hready => ready_step hready hstep fun id hid => absurd hid (Option.not_mem_none id)⟩

/-! ## A control that is ended again -/

section Again

variable (sha256 : String → String) {t : ControlState} {m : ℕ} {id : String}

/-- A statement whose answer arrives. -/
def answeredEnv : ControlEnv where
  now := 0
  uuid := ""
  due := []
  answered := true

theorem target_of_pending {call : ControlCall} {ids : List String}
    (h : call.pending = id :: ids) : call.target = some id := by
  cases call with
  | ending | releasing =>
    cases h
    rfl
  | _ => cases h

/-- The update of a control that is there succeeds. -/
theorem next_again {call : ControlCall} {db : RiskDb} (htarget : call.target = some id)
    (hfound : (db.controls.find id).isSome = true) :
    ∃ db' call', ControlCall.next sha256 db call (some answeredEnv) = some (db', call') ∧
      ControlStep db db' (some id) ∧ call'.pending = call.pending.tail := by
  have hends : call.ends db (some answeredEnv) = some id := by
    rw [ControlCall.ends, htarget, Option.filter_some, hfound]
    rfl
  have hnext : ∃ db' call', ControlCall.next sha256 db call (some answeredEnv) =
      some (db', call') ∧ call'.pending = call.pending.tail := by
    obtain ⟨row, hrow⟩ := Option.isSome_iff_exists.mp hfound
    cases call with
    | ending after count first ids =>
      cases htarget
      refine ⟨_, _, rfl, ?_⟩
      rw [RiskDb.updateControl, hrow]
      show ((ControlCall.afterExpired after count ids).answer answeredEnv).pending = ids
      rw [pending_answer, pending_afterExpired]
      rfl
    | releasing first reason operatorId =>
      cases htarget
      refine ⟨_, _, rfl, ?_⟩
      rw [RiskDb.updateControl, hrow]
      rfl
    | _ => cases htarget
  obtain ⟨db', call', hnext, hrest⟩ := hnext
  have hstep := controlStep_of_next hnext
  rw [hends] at hstep
  exact ⟨db', call', hnext, hstep, hrest⟩

/-- A step that ends a control adds one terminal event. -/
theorem length_terminalEvents {db db' : RiskDb} (hstep : ControlStep db db' (some id)) :
    (db'.terminalEvents id).length = (db.terminalEvents id).length + 1 := by
  cases hstep with
  | ends hrow hstatus hcontrols hevents =>
    rw [terminalEvents_ends hevents hstatus, List.length_append]
    rfl

/-- A step adds none to the other controls. -/
theorem terminalEvents_step {db db' : RiskDb} {target : Option String}
    (hstep : ControlStep db db' target) (hne : target ≠ some id) :
    db'.terminalEvents id = db.terminalEvents id := by
  cases hstep with
  | quiet hcontrols hevents =>
    unfold RiskDb.terminalEvents
    rw [hevents]
  | create hcontrols hactive hevents =>
    rw [terminalEvents_concat hevents, if_neg fun h => Bool.noConfusion h.2, List.append_nil]
  | ends hrow hstatus hcontrols hevents =>
    exact terminalEvents_other hevents fun heq => hne (congrArg some heq)

theorem found_step {db db' : RiskDb} {target : Option String} (hstep : ControlStep db db' target)
    (h : (db.controls.find id).isSome = true) : (db'.controls.find id).isSome = true := by
  cases hstep with
  | quiet hcontrols hevents => rwa [hcontrols]
  | create hcontrols hactive hevents =>
    rw [Table.find_insert hcontrols]
    split_ifs
    · rfl
    · exact h
  | ends hrow hstatus hcontrols hevents =>
    rw [Option.isSome_iff_ne_none] at h ⊢
    rw [hcontrols]
    exact fun hnone => h (Table.find_put_eq_none.mp hnone)

/-- A call goes on to end the controls that it has found, whatever has happened to them. -/
theorem pending_again (ids : List String) : ∀ {t : ControlState} {call : ControlCall},
    t.calls[m]? = some call → call.pending = ids → id ∈ ids →
    (∀ i ∈ ids, (t.shared.controls.find i).isSome = true) →
    ∃ u, (controlPool sha256).machine.Path Machine.always t u ∧
      (t.shared.terminalEvents id).length < (u.shared.terminalEvents id).length := by
  induction ids with
  | nil => exact fun _ _ hid => absurd hid List.not_mem_nil
  | cons first ids ih =>
    intro t call hcall hpending hid hfound
    obtain ⟨db', call', hnext, hstep, hrest⟩ := next_again sha256
      (target_of_pending hpending) (hfound first List.mem_cons_self)
    have hmove : (controlPool sha256).machine.step t (.next m (some answeredEnv)) =
        some { shared := db', calls := t.calls.set m call' } := by
      simp only [Pool.machine, hcall]
      exact congrArg (Option.map _) hnext
    have hpath : (controlPool sha256).machine.Path Machine.always t
        { shared := db', calls := t.calls.set m call' } := .tail .refl trivial hmove
    by_cases hfirst : first = id
    · subst hfirst
      refine ⟨_, hpath, ?_⟩
      rw [length_terminalEvents hstep]
      exact Nat.lt_succ_self _
    · obtain ⟨u, hu, hlength⟩ := ih
        (t := { shared := db', calls := t.calls.set m call' })
        (List.getElem?_set_self (List.getElem?_eq_some_iff.mp hcall).1)
        (hrest.trans (by rw [hpending]; rfl))
        (List.mem_of_ne_of_mem (Ne.symm hfirst) hid)
        fun i hi => found_step hstep (hfound i (List.mem_cons_of_mem _ hi))
      have hsame : db'.terminalEvents id = t.shared.terminalEvents id :=
        terminalEvents_step hstep fun heq => hfirst (Option.some.inj heq)
      refine ⟨u, hpath.trans hu, ?_⟩
      rw [← hsame]
      exact hlength

/-- A control with two terminal events. -/
theorem not_endedOnce_of_two {db : RiskDb} (id : String) (hfk : db.EventsOfControls)
    (htwo : 2 ≤ (db.terminalEvents id).length) : ¬ db.EndedOnce := by
  intro honce
  cases hfind : db.controls.find id with
  | none =>
    rw [terminalEvents_absent hfk hfind] at htwo
    exact absurd htwo (by decide)
  | some row =>
    have hlast := honce row (Table.find_some hfind).1
    rw [show row.id = id from Table.key_of_find hfind] at hlast
    rw [hlast] at htwo
    exact absurd (Option.length_toList_le (o := row.status.endedBy)) (by omega)

variable {sha256} in
theorem eventsOfControls_path {db : RiskDb} {calls : List ControlCall}
    (hfk : db.EventsOfControls)
    (hpath : (controlPool sha256).machine.Path Machine.always ⟨db, calls⟩ t) :
    t.shared.EventsOfControls := by
  induction hpath with
  | refl => exact hfk
  | tail _ _ hstep ih => exact eventsOfControls_step ih (controlStep_of_step hstep)

end Again

/-! ## Main results -/

/-- In a run in which no call ends a control that another call has found ACTIVE and is still to
    end, a control that has ended has exactly one terminal event, of the type of its status, and
    keeps the status in the rest of the run. After a step that does so the other call can end the
    control again. -/
theorem control_lifecycle (sha256 : String → String) (s : ControlState)
    (h : (controlPool sha256).machine.Reachable (fun s a => endsApart s a = true) s) :
    s.shared.EndedOnce ∧
      (∀ t, (controlPool sha256).machine.Path (fun s a => endsApart s a = true) s t →
        ∀ id row, s.shared.controls.find id = some row → row.status.hasEnded = true →
          ∃ row', t.shared.controls.find id = some row' ∧ row'.status = row.status) ∧
      ∀ a t, (controlPool sha256).machine.step s a = some t → endsApart s a = false →
        ∃ u, (controlPool sha256).machine.Path Machine.always t u ∧ ¬ u.shared.EndedOnce := by
  obtain ⟨⟨hfk, honce⟩, hready⟩ := kept_reachable h
  refine ⟨honce, fun t hpath id row hrow hended => ?_, fun a t hstep hc => ?_⟩
  · refine Machine.Path.stable (P := fun t : ControlState =>
      ∃ row', t.shared.controls.find id = some row' ∧ row'.status = row.status) h ?_ hpath
      ⟨row, hrow, rfl⟩
    rintro u a v hu - hstep ⟨row₁, hrow₁, hstatus⟩
    obtain ⟨row₂, hrow₂, hstatus₂⟩ := status_step
      (stepEnds_open (kept_reachable hu).2) (controlStep_of_step hstep) hrow₁ (hstatus ▸ hended)
    exact ⟨row₂, hrow₂, hstatus₂.trans hstatus⟩
  · obtain ⟨n, e, id, m, call, rfl, hends, hm, hcall, hid⟩ := overlap_of_not_apart hc
    have hmove := controlStep_of_step hstep
    rw [hends] at hmove
    -- the other call is where it was
    have hkept : t.calls[m]? = some call := by
      obtain ⟨_, _, _, _, _, rfl⟩ := Pool.step_next hstep
      exact (List.getElem?_set_ne (Ne.symm hm)).trans hcall
    have hopen := (hready call (Pool.mem_of_getElem? hcall)).2
    obtain ⟨u, hu, hlength⟩ := pending_again sha256 call.pending hkept rfl hid
      fun i hi => found_step hmove (found_of_isOpen (hopen i hi))
    have hone := length_terminalEvents hmove
    exact ⟨u, hu, not_endedOnce_of_two id
      (eventsOfControls_path (eventsOfControls_step hfk hmove) hu) (by omega)⟩

/-! ## A control that ends twice -/

/-- No controls, and no calls. -/
def noControls : ControlState where
  shared := RiskDb.migrated
  calls := []

theorem noControls_init : (controlPool id).machine.init noControls :=
  ⟨⟨fun _ hmem => absurd hmem List.not_mem_nil, fun _ hmem => absurd hmem List.not_mem_nil⟩, rfl⟩

/-- A block of a customer until 1000 ms. -/
def customerBlock : ApplyControlInput where
  idempotencyKey := "operator-block-0001"
  type := .TEMPORARY_BLOCK
  scopeType := .CUSTOMER
  scopeId := "customer-1"
  reasonCode := "SUSPICIOUS_ACTIVITY"
  expiresAt := 1000
  incidentId := none

/-- Call `n` runs a statement at the given time, which finds the control when it is due. -/
def runsAt (n now : ℕ) : ControlAction :=
  .next n (some {
    now := now
    uuid := "control-1"
    due := if customerBlock.expiresAt ≤ now then ["control-1"] else []
    answered := true })

/-- The block is applied, and a release reads it. -/
def blockRead : List ControlAction :=
  [.start (.apply customerBlock "operator:1"), runsAt 0 0, runsAt 0 0,
    .start (.release "control-1" "Cleared by review." "operator:1"), runsAt 1 10]

/-- The control has the status, and these terminal events. -/
def hasStatus (status : ControlStatus) (events : List ControlEventType) (s : ControlState) :
    Bool :=
  (s.shared.controls.find "control-1").any (fun row => decide (row.status = status)) &&
    decide (s.shared.terminalEvents "control-1" = events)

/-- An expiry between the read and the update of a release ends the control twice. -/
theorem control_ended_twice : ¬ ∀ (sha256 : String → String) (s : ControlState),
    (controlPool sha256).machine.Reachable Machine.always s →
    s.shared.EndedOnce ∧
      ∀ t, (controlPool sha256).machine.Path Machine.always s t →
        ∀ id row, s.shared.controls.find id = some row → row.status.hasEnded = true →
          ∃ row', t.shared.controls.find id = some row' ∧ row'.status = row.status := by
  intro h
  obtain ⟨s, hs, hp⟩ := Machine.reachable_of_run
    (blockRead ++ [.start .expire, runsAt 2 1000, runsAt 2 1000, runsAt 1 1000])
    (hasStatus .RELEASED [.EXPIRED, .RELEASED]) noControls_init (by decide)
  obtain ⟨hstatus, hevents⟩ := Bool.and_eq_true_iff.mp hp
  obtain ⟨row, hrow, hstatus⟩ := (Option.any_eq_true _ _).mp hstatus
  have honce := (h id s hs).1 row (Table.find_some hrow).1
  rw [show row.id = "control-1" from Table.key_of_find hrow, of_decide_eq_true hevents,
    of_decide_eq_true hstatus] at honce
  cases honce

/-- A release that nothing overlaps. -/
theorem control_lifecycle_released : ∃ s : ControlState,
    hasStatus .RELEASED [.RELEASED] s = true ∧ s.shared.EndedOnce := by
  obtain ⟨s, hs, hp⟩ := Machine.reachable_of_runUnder
    (blockRead ++ [runsAt 1 20, .start .expire, runsAt 2 30]) endsApart
    (hasStatus .RELEASED [.RELEASED]) (fun _ _ hc => hc) noControls_init (by decide)
  exact ⟨s, hp, (control_lifecycle id s hs).1⟩

end AegisShield.Risk
