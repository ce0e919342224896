import AegisShield.Risk.Controls

/-!
# Audited operator actions

The mutations of `OperatorController` (`operator.controller.ts`, lines 213-307) with
`ControlService.apply`, `ControlService.release` and `IncidentService.update`
(`incident.service.ts`, lines 34-81), beside the calls of services and the automated assessments.
The change and its audit row are separate statements.

Results:
* `operator_audit_exact`: in every run in which no operator repeats an action that is done
  already, no request is cut off after its change and no audit reason is longer than its column,
  the changes of operators and the audit rows correspond exactly when no request stands between
  its change and its audit row.
* `audit_without_change`: a repeated `apply` is audited again.
* `change_without_audit`: a request whose audit row fails leaves a change that is not audited.
-/

namespace AegisShield.Risk

open Common

/-! ## `IncidentService.update` -/

/-- `incidentUpdateSchema`. -/
structure IncidentUpdate where
  status : Option IncidentStatus
  assignedTo : Option String
  note : Option String
  resolutionReason : Option String

/-- `a || b` for an optional text `a`. -/
def orText (a : Option String) (b : Option String) : Option String :=
  (a.filter fun text => text ≠ "").or b

/-- `IncidentStatus` as a text. -/
def IncidentStatus.text : IncidentStatus → String
  | .OPEN => "OPEN"
  | .INVESTIGATING => "INVESTIGATING"
  | .CONTAINED => "CONTAINED"
  | .RESOLVED => "RESOLVED"
  | .FALSE_POSITIVE => "FALSE_POSITIVE"

/-- The statuses of an incident that is settled. -/
def IncidentStatus.resolved (status : IncidentStatus) : Bool :=
  decide (status ∈ [IncidentStatus.RESOLVED, .FALSE_POSITIVE])

namespace IncidentUpdate

variable (input : IncidentUpdate)

/-- Lines 48-50. -/
def resolved : Bool := input.status.any IncidentStatus.resolved

/-- Lines 55-63: what is not given stays as it is. -/
def data (now : ℕ) (row : IncidentRow) : IncidentRow where
  id := row.id
  status := input.status.getD row.status
  assignedTo := input.assignedTo.or row.assignedTo
  resolutionReason := input.resolutionReason.or row.resolutionReason
  resolvedAt :=
    if input.resolved then some now
    else if input.status = some .OPEN then none
    else row.resolvedAt

/-- Lines 66-74. -/
def eventType (current : IncidentRow) : IncidentEventType :=
  if input.status = some .OPEN ∧ current.status.resolved = true then .REOPENED
  else if input.status.isSome then .STATUS_CHANGED
  else if input.assignedTo.isSome then .ASSIGNED
  else .NOTE_ADDED

/-- Lines 65-77. -/
def event (current : IncidentRow) (operatorId : String) : IncidentEventRow where
  incidentId := current.id
  eventType := input.eventType current
  actorId := operatorId
  note := orText input.note (orText input.resolutionReason input.assignedTo)

/-- `input.note || input.resolutionReason || input.status || 'assignment'`. -/
def auditReason : String :=
  (orText input.note (orText input.resolutionReason
    (input.status.map IncidentStatus.text))).getD "assignment"

end IncidentUpdate

/-! ## Operators -/

/-- The actor of `ControlController`. -/
def trustedService : String := "trusted:internal-service"

/-- The actors that are not operators. -/
def serviceActors : List String := [riskEngine, expiryJob, trustedService]

/-- What `OperatorService.validate` returns; no operator has the name of a service. -/
structure Operator where
  id : String
  not_service : id ∉ serviceActors

theorem developmentOperator_not_service :
    "operator:development-security" ∉ serviceActors := by decide

/-- The operator of `bootstrap` (`operator.service.ts`, line 33). -/
def developmentOperator : Operator :=
  ⟨"operator:development-security", developmentOperator_not_service⟩

inductive OperatorRequest where
  | apply (input : ApplyControlInput)
  | release (id reason : String)
  | updateIncident (id : String) (input : IncidentUpdate)

namespace OperatorRequest

def action : OperatorRequest → OperatorAction
  | .apply _ => .CONTROL_APPLY
  | .release _ _ => .CONTROL_RELEASE
  | .updateIncident _ _ => .INCIDENT_UPDATE

def targetType : OperatorRequest → TargetType
  | .apply _ => .CONTROL
  | .release _ _ => .CONTROL
  | .updateIncident _ _ => .INCIDENT

/-- The reason of the audit row. -/
def reason : OperatorRequest → String
  | .apply input => input.reasonCode
  | .release _ reason => reason
  | .updateIncident _ input => input.auditReason

/-- The reason fits `operator_audits.reason`, a `VARCHAR(500)`; `incidentUpdateSchema` lets a note
    of 1000 characters pass. -/
def auditable (request : OperatorRequest) : Bool := decide (request.reason.length ≤ 500)

end OperatorRequest

inductive OperatorResponse where
  | control (row : ControlActionRow)
  | incident (row : IncidentRow)

/-- A request, by the statement that it is about to run. -/
inductive OperatorStage where
  /-- A statement of `ControlService`. -/
  | control (call : ControlCall)
  /-- Lines 45-47 of `incident.service.ts`. -/
  | reading (id : String) (input : IncidentUpdate)
  /-- Lines 53-80. -/
  | updating (input : IncidentUpdate) (current : IncidentRow)
  /-- Lines 295-306 of `operator.controller.ts`. -/
  | auditing (targetId : String) (response : OperatorResponse)
  | done (result : Except RiskError OperatorResponse)

/-- A request of an operator after `validate`; `correlationId` is the header. -/
structure OperatorCall where
  operator : Operator
  correlationId : String
  request : OperatorRequest
  stage : OperatorStage

namespace OperatorCall

/-- The first statement of a request. -/
def start (isUuid : String → Bool) (operator : Operator) : OperatorRequest → OperatorStage
  | .apply input => .control (.looking input operator.id)
  | .release id reason =>
    if isUuid id then .control (.reading id reason operator.id) else .done (.error .invalid)
  | .updateIncident id input => if isUuid id then .reading id input else .done (.error .invalid)

/-- The request after a statement of `ControlService`. -/
def afterControl : ControlCall → OperatorStage
  | .done (.ok (.control row)) => .auditing row.id (.control row)
  | .done (.error error) => .done (.error error)
  | call => .control call

/-- The audit row of a request; `uuid` stands in for a header that is not a UUID. -/
def audit (isUuid : String → Bool) (p : OperatorCall) (targetId uuid : String) :
    OperatorAuditRow where
  operatorId := p.operator.id
  action := p.request.action
  targetType := p.request.targetType
  targetId := targetId
  reason := p.request.reason
  correlationId := if isUuid p.correlationId then p.correlationId else uuid

/-- The stage after an `incident.update`: the audit row, if the answer arrives. -/
def afterUpdate (e : ControlEnv) (row : IncidentRow) : OperatorStage :=
  if e.answered then .auditing row.id (.incident row) else .done (.error .store)

/-- The next statement of a request; `e` is `none` when it fails. -/
def next (sha256 : String → String) (isUuid : String → Bool) (db : RiskDb) (p : OperatorCall)
    (e : Option ControlEnv) : Option (RiskDb × OperatorCall) :=
  match p.stage, e with
  | .done _, _ => none
  | .control call, e =>
    (ControlCall.next sha256 db call e).map fun r =>
      (r.1, { p with stage := afterControl r.2 })
  | _, none => some (db, { p with stage := .done (.error .store) })
  | .reading id input, some _ =>
    match db.incidents.find id with
    | none => some (db, { p with stage := .done (.error .notFound) })
    | some current =>
      if input.resolved = true ∧ (orText input.resolutionReason none).isNone then
        some (db, { p with stage := .done (.error .resolution) })
      else some (db, { p with stage := .updating input current })
  | .updating input current, some e =>
    match db.updateIncident (input.data e.now) (input.event current p.operator.id) with
    | none => some (db, { p with stage := .done (.error .store) })
    | some (db', row) => some (db', { p with stage := afterUpdate e row })
  | .auditing targetId response, some e =>
    if p.request.auditable then
      some (db.createAudit (p.audit isUuid targetId e.uuid),
        { p with stage := if e.answered then .done (.ok response) else .done (.error .store) })
    else some (db, { p with stage := .done (.error .store) })

end OperatorCall

/-! ## The calls of the service -/

/-- A call of `ControlController` or of the expiry job. -/
inductive ServiceRequest where
  | expire
  | check (scopes : List Scope)
  | apply (input : ApplyControlInput)
  | release (id reason : String)

/-- The first statement of a service's call. -/
def ServiceRequest.start : ServiceRequest → ControlCall
  | .expire => ControlCall.start .expire
  | .check scopes => ControlCall.start (.check scopes)
  | .apply input => ControlCall.start (.apply input trustedService)
  | .release id reason => ControlCall.start (.release id reason trustedService)

inductive RiskCall where
  | service (call : ControlCall)
  | operator (call : OperatorCall)

inductive RiskRequest where
  | service (request : ServiceRequest)
  | operator (operator : Operator) (correlationId : String) (request : OperatorRequest)

def RiskCall.next (sha256 : String → String) (isUuid : String → Bool) (db : RiskDb) :
    RiskCall → Option ControlEnv → Option (RiskDb × RiskCall)
  | .service call, e => (ControlCall.next sha256 db call e).map fun r => (r.1, .service r.2)
  | .operator call, e =>
    (OperatorCall.next sha256 isUuid db call e).map fun r => (r.1, .operator r.2)

/-! ## The property -/

/-- A change that an operator made, or that an audit row names. -/
structure Mutation where
  operatorId : String
  action : OperatorAction
  targetType : TargetType
  targetId : String
  deriving DecidableEq

/-- The change of which an event is the record; a control is not expired by an operator. -/
def ControlEventRow.mutation (event : ControlEventRow) : Option Mutation :=
  match event.eventType with
  | .CREATED => some ⟨event.actorId, .CONTROL_APPLY, .CONTROL, event.controlId⟩
  | .RELEASED => some ⟨event.actorId, .CONTROL_RELEASE, .CONTROL, event.controlId⟩
  | .EXPIRED => none

/-- An incident is not created by an operator. -/
def IncidentEventRow.mutation (event : IncidentEventRow) : Option Mutation :=
  match event.eventType with
  | .CREATED => none
  | _ => some ⟨event.actorId, .INCIDENT_UPDATE, .INCIDENT, event.incidentId⟩

def OperatorAuditRow.mutation (audit : OperatorAuditRow) : Mutation :=
  ⟨audit.operatorId, audit.action, audit.targetType, audit.targetId⟩

namespace RiskDb

/-- The changes of controls and incidents. -/
def mutations (db : RiskDb) : List Mutation :=
  db.controlEvents.filterMap ControlEventRow.mutation ++
    db.incidentEvents.filterMap IncidentEventRow.mutation

/-- The changes that audit rows name. -/
def audited (db : RiskDb) : List Mutation := db.operatorAudits.map OperatorAuditRow.mutation

/-- Each change of an operator has an audit row of its own, and each audit row a change. -/
def AuditedExactly (db : RiskDb) : Prop :=
  ∀ m : Mutation, m.operatorId ∉ serviceActors → db.mutations.count m = db.audited.count m

end RiskDb

/-- Requests of operators, calls of services and assessments. -/
def operatorPool (sha256 : String → String) (isUuid : String → Bool) :
    Pool RiskDb RiskCall RiskRequest (Option ControlEnv) Assessment where
  init db := db.AuditedExactly
  start
    | _, .service request => .service request.start
    | _, .operator operator correlationId request =>
      .operator ⟨operator, correlationId, request, OperatorCall.start isUuid operator request⟩
  next := RiskCall.next sha256 isUuid
  env := RiskDb.assess

abbrev RiskState := Pool.State RiskDb RiskCall

abbrev RiskAction := Pool.Action RiskRequest (Option ControlEnv) Assessment

/-- The change that a call of `ControlService` has made for a request. -/
def ControlCall.made (operatorId : String) (action : OperatorAction) : ControlCall → Option Mutation
  | .revoking row => some ⟨operatorId, action, .CONTROL, row.id⟩
  | .done (.ok (.control row)) => some ⟨operatorId, action, .CONTROL, row.id⟩
  | _ => none

/-- The change that a request has made and not yet audited. -/
def OperatorCall.unaudited (p : OperatorCall) : Option Mutation :=
  match p.stage with
  | .control call => call.made p.operator.id p.request.action
  | .auditing targetId _ =>
    some ⟨p.operator.id, p.request.action, p.request.targetType, targetId⟩
  | _ => none

def RiskCall.unaudited : RiskCall → Option Mutation
  | .service _ => none
  | .operator call => call.unaudited

/-! ## When the audit is exact -/

/-- The next statement of `apply` or `release` (`control.service.ts`, lines 80-146) does not find
    its work done already, and is not cut off once the change is made. -/
def ControlCall.inPace (sha256 : String → String) (db : RiskDb) (e : Option ControlEnv) :
    ControlCall → Bool
  | .looking input _ =>
    e.isNone || (db.findControlByKey (sha256 input.idempotencyKey)).isNone
  | .reading id _ _ => e.isNone || (db.controls.find id).all fun row => row.status = .ACTIVE
  | .creating _ _ => e.all ControlEnv.answered
  | .releasing _ _ _ => e.all ControlEnv.answered
  | .revoking _ => e.isSome
  | _ => true

/-- The next statement of a request is not cut off once the change is made, and its audit row is
    one that the table takes. -/
def OperatorCall.inPace (sha256 : String → String) (db : RiskDb) (e : Option ControlEnv)
    (p : OperatorCall) : Bool :=
  match p.stage with
  | .control call => call.inPace sha256 db e
  | .updating _ _ => e.all ControlEnv.answered
  | .auditing _ _ => e.isSome && p.request.auditable
  | _ => true

/-- The condition on the steps of a run. -/
def auditsKeepPace (sha256 : String → String) (s : RiskState) : RiskAction → Bool
  | .next n e =>
    match s.calls[n]? with
    | some (.operator call) => call.inPace sha256 s.shared e
    | _ => true
  | _ => true

/-! ## What a step does -/

section Counts

variable {db db' : RiskDb} {m : Mutation}

/-- One more change, or none that an operator made. -/
def counted (change : Option Mutation) (m : Mutation) : ℕ := (decide (change = some m)).toNat

theorem count_filterMap_concat {ρ : Type} (f : ρ → Option Mutation) (rows : List ρ) (row : ρ) :
    ((rows ++ [row]).filterMap f).count m = (rows.filterMap f).count m + counted (f row) m := by
  rw [List.filterMap_append, List.count_append, counted]
  cases hrow : f row with
  | none => simp [hrow]
  | some change =>
    by_cases heq : change = m
    · simp [hrow, heq]
    · simp [hrow, heq]

theorem count_controlEvent (event : ControlEventRow)
    (hcontrols : db'.controlEvents = db.controlEvents ++ [event])
    (hincidents : db'.incidentEvents = db.incidentEvents) :
    db'.mutations.count m = db.mutations.count m + counted event.mutation m := by
  unfold RiskDb.mutations
  rw [hcontrols, hincidents, List.count_append, List.count_append, count_filterMap_concat]
  omega

theorem count_incidentEvent (event : IncidentEventRow)
    (hcontrols : db'.controlEvents = db.controlEvents)
    (hincidents : db'.incidentEvents = db.incidentEvents ++ [event]) :
    db'.mutations.count m = db.mutations.count m + counted event.mutation m := by
  unfold RiskDb.mutations
  rw [hcontrols, hincidents, List.count_append, List.count_append, count_filterMap_concat]
  omega

theorem count_audit (audit : OperatorAuditRow) :
    (db.createAudit audit).audited.count m = db.audited.count m + counted (some audit.mutation) m := by
  have haudited : (db.createAudit audit).audited = db.audited ++ [audit.mutation] := List.map_append
  rw [haudited, List.count_append, counted]
  by_cases heq : audit.mutation = m
  · simp [heq]
  · simp [heq]

end Counts

/-- A call of `ControlService` for an action of an operator. -/
def ControlCall.Of (operatorId : String) (action : OperatorAction) : ControlCall → Prop
  | .looking _ id => id = operatorId ∧ action = .CONTROL_APPLY
  | .creating _ id => id = operatorId ∧ action = .CONTROL_APPLY
  | .revoking _ => True
  | .reading _ _ id => id = operatorId ∧ action = .CONTROL_RELEASE
  | .releasing _ _ id => id = operatorId ∧ action = .CONTROL_RELEASE
  | .done _ => True
  | _ => False

/-- A request of an operator runs the calls that belong to it. -/
def OperatorCall.Consistent (p : OperatorCall) : Prop :=
  match p.stage with
  | .control call =>
    call.Of p.operator.id p.request.action ∧ p.request.targetType = .CONTROL
  | .reading _ _ => p.request.action = .INCIDENT_UPDATE ∧ p.request.targetType = .INCIDENT
  | .updating _ _ => p.request.action = .INCIDENT_UPDATE ∧ p.request.targetType = .INCIDENT
  | _ => True

section Steps

variable {sha256 : String → String} {isUuid : String → Bool} {db db' : RiskDb}
  {e : Option ControlEnv} {m : Mutation} {operatorId : String} {action : OperatorAction}

theorem made_afterApplied (row : ControlActionRow) :
    (ControlCall.afterApplied row).Of operatorId action ∧
      (ControlCall.afterApplied row).made operatorId action =
        some ⟨operatorId, action, .CONTROL, row.id⟩ := by
  unfold ControlCall.afterApplied
  split_ifs
  · exact ⟨trivial, rfl⟩
  · exact ⟨trivial, rfl⟩

/-- A statement of `apply` or `release` that keeps pace: what it changes, it has made. -/
theorem made_next {call call' : ControlCall} (hof : call.Of operatorId action)
    (hpace : call.inPace sha256 db e = true)
    (h : ControlCall.next sha256 db call e = some (db', call')) :
    call'.Of operatorId action ∧ db'.operatorAudits = db.operatorAudits ∧
      ∀ m, db'.mutations.count m + counted (call.made operatorId action) m =
        db.mutations.count m + counted (call'.made operatorId action) m := by
  cases e with
  | none =>
    cases call with
    | expiring | ending | checking => exact hof.elim
    | revoking => cases hpace
    | looking | creating | reading | releasing =>
      cases h
      exact ⟨trivial, rfl, fun m => rfl⟩
    | done => cases h
  | some e =>
    cases call with
    | expiring | ending | checking => exact hof.elim
    | looking input id =>
      have hfree : db.findControlByKey (sha256 input.idempotencyKey) = none :=
        Option.isNone_iff_eq_none.mp hpace
      simp only [ControlCall.next, hfree] at h
      cases h
      exact ⟨hof, rfl, fun m => rfl⟩
    | creating input id =>
      obtain ⟨rfl, rfl⟩ := hof
      have hanswered : e.answered = true := hpace
      simp only [ControlCall.next, ControlCall.answer, hanswered, if_true] at h
      split at h
      · cases h
        exact ⟨trivial, rfl, fun m => rfl⟩
      next hcreate =>
        cases h
        obtain ⟨controls, -, -, rfl⟩ := RiskDb.createControl_some hcreate
        obtain ⟨hof', hmade⟩ :=
          @made_afterApplied id .CONTROL_APPLY (controlRow sha256 input id e)
        refine ⟨hof', rfl, fun m => ?_⟩
        rw [hmade]
        refine (Nat.add_zero _).trans ?_
        exact count_controlEvent ⟨e.uuid, .CREATED, id, input.reasonCode⟩ (by rfl) (by rfl)
    | revoking row =>
      cases h
      exact ⟨trivial, rfl, fun m => rfl⟩
    | reading id reason operator =>
      simp only [ControlCall.next] at h
      split at h
      · cases h
        exact ⟨trivial, rfl, fun m => rfl⟩
      next current hcurrent =>
        have hactive : current.status = .ACTIVE := by
          simpa [ControlCall.inPace, hcurrent] using hpace
        rw [if_neg (not_not.mpr hactive)] at h
        cases h
        exact ⟨hof, rfl, fun m => rfl⟩
    | releasing id reason operator =>
      obtain ⟨rfl, rfl⟩ := hof
      have hanswered : e.answered = true := hpace
      simp only [ControlCall.next] at h
      cases hupdate : db.updateControl .RELEASED ⟨id, .RELEASED, operator, reason⟩ with
      | none =>
        rw [hupdate] at h
        cases h
        exact ⟨trivial, rfl, fun m => rfl⟩
      | some r =>
        obtain ⟨db₁, row'⟩ := r
        obtain ⟨row, hrow, hrow', rfl⟩ := RiskDb.updateControl_some hupdate
        rw [hupdate, ControlCall.ended, ControlCall.answer, hanswered, if_pos rfl] at h
        cases h
        have hid : row'.id = id := by
          rw [hrow']
          exact Table.key_of_find hrow
        refine ⟨trivial, rfl, fun m => ?_⟩
        rw [ControlCall.made, hid]
        refine (Nat.add_zero _).trans ?_
        exact count_controlEvent ⟨id, .RELEASED, operator, reason⟩ (by rfl) (by rfl)
    | done => cases h

theorem consistent_afterControl {p : OperatorCall} {call : ControlCall}
    (hof : call.Of p.operator.id p.request.action) (htype : p.request.targetType = .CONTROL) :
    OperatorCall.Consistent { p with stage := OperatorCall.afterControl call } ∧
      OperatorCall.unaudited { p with stage := OperatorCall.afterControl call } =
        call.made p.operator.id p.request.action := by
  unfold OperatorCall.afterControl
  split
  · refine ⟨trivial, ?_⟩
    show some (Mutation.mk _ _ p.request.targetType _) = _
    rw [htype]
    rfl
  · exact ⟨trivial, rfl⟩
  · exact ⟨⟨hof, htype⟩, rfl⟩

theorem mutation_event (input : IncidentUpdate) (current : IncidentRow) :
    (input.event current operatorId).mutation =
      some ⟨operatorId, .INCIDENT_UPDATE, .INCIDENT, current.id⟩ := by
  have hne : input.eventType current ≠ .CREATED := by
    unfold IncidentUpdate.eventType
    split_ifs <;> exact fun h => nomatch h
  unfold IncidentEventRow.mutation
  split
  next hcreated =>
    exact absurd hcreated hne
  · rfl

/-- A statement of a request that keeps pace: what it changes or audits, it has made. -/
theorem operator_next {p p' : OperatorCall} (hp : p.Consistent)
    (hpace : p.inPace sha256 db e = true)
    (h : OperatorCall.next sha256 isUuid db p e = some (db', p')) :
    p'.Consistent ∧ ∀ m,
      db'.mutations.count m + db.audited.count m + counted p.unaudited m =
        db.mutations.count m + db'.audited.count m + counted p'.unaudited m := by
  obtain ⟨operator, correlationId, request, stage⟩ := p
  cases stage with
  | control call =>
    obtain ⟨hof, htype⟩ := hp
    obtain ⟨⟨db₁, call'⟩, hnext, heq⟩ := Option.map_eq_some_iff.mp h
    cases heq
    obtain ⟨hof', haudits, hcount⟩ := made_next hof hpace hnext
    obtain ⟨hconsistent, hunaudited⟩ :=
      @consistent_afterControl ⟨operator, correlationId, request, .control call⟩ call' hof' htype
    refine ⟨hconsistent, fun m => ?_⟩
    have haudited : db₁.audited = db.audited := by
      unfold RiskDb.audited
      rw [haudits]
    have hcount : db₁.mutations.count m + counted (call.made operator.id request.action) m =
        db.mutations.count m + counted (call'.made operator.id request.action) m := hcount m
    rw [hunaudited, haudited]
    show db₁.mutations.count m + db.audited.count m +
        counted (call.made operator.id request.action) m =
      db.mutations.count m + db.audited.count m + counted (call'.made operator.id request.action) m
    omega
  | reading id input =>
    cases e with
    | none =>
      cases h
      exact ⟨trivial, fun m => rfl⟩
    | some e =>
      simp only [OperatorCall.next] at h
      split at h
      · cases h
        exact ⟨trivial, fun m => rfl⟩
      · split_ifs at h
        · cases h
          exact ⟨trivial, fun m => rfl⟩
        · cases h
          exact ⟨hp, fun m => rfl⟩
  | updating input current =>
    cases e with
    | none =>
      cases h
      exact ⟨trivial, fun m => rfl⟩
    | some e =>
      obtain ⟨haction, htype⟩ := hp
      have hanswered : e.answered = true := hpace
      simp only [OperatorCall.next] at h
      cases hupdate : db.updateIncident (input.data e.now) (input.event current operator.id) with
      | none =>
        rw [hupdate] at h
        cases h
        exact ⟨trivial, fun m => rfl⟩
      | some r =>
        obtain ⟨db₁, row'⟩ := r
        obtain ⟨row, -, hid, hdb⟩ := RiskDb.updateIncident_some hupdate
        rw [hupdate] at h
        cases h
        have hunaudited : OperatorCall.unaudited
            ⟨operator, correlationId, request, OperatorCall.afterUpdate e row'⟩ =
              (input.event current operator.id).mutation := by
          rw [OperatorCall.afterUpdate, if_pos hanswered, mutation_event]
          show some (Mutation.mk operator.id request.action request.targetType row'.id) = _
          rw [haction, htype, hid]
          rfl
        refine ⟨?_, fun m => ?_⟩
        · rw [OperatorCall.afterUpdate, if_pos hanswered]
          trivial
        · have hcount : db'.mutations.count m =
              db.mutations.count m + counted (input.event current operator.id).mutation m :=
            count_incidentEvent _ (by rw [hdb]) (by rw [hdb])
          have haudited : db'.audited = db.audited := by
            rw [hdb]
            rfl
          rw [hunaudited, hcount, haudited]
          show _ + 0 = _
          omega
  | auditing targetId response =>
    obtain ⟨hsome, hauditable⟩ := Bool.and_eq_true_iff.mp hpace
    obtain ⟨e, rfl⟩ := Option.isSome_iff_exists.mp hsome
    have hauditable : request.auditable = true := hauditable
    simp only [OperatorCall.next, hauditable, if_true] at h
    cases h
    refine ⟨?_, fun m => ?_⟩
    · split_ifs <;> trivial
    · rw [count_audit]
      have hdone : OperatorCall.unaudited ⟨operator, correlationId, request,
          if e.answered then .done (.ok response) else .done (.error .store)⟩ = none := by
        split_ifs <;> rfl
      rw [hdone]
      exact Nat.add_assoc _ _ _
  | done result => cases e <;> cases h

/-! ## The calls of services -/

/-- A call of a service. -/
def ControlCall.ActsFor (actorId : String) : ControlCall → Prop
  | .looking _ id => id = actorId
  | .creating _ id => id = actorId
  | .reading _ _ id => id = actorId
  | .releasing _ _ id => id = actorId
  | _ => True

/-- The actors of the events that a step adds are not operators, and nothing is audited. -/
structure ByServices (db db' : RiskDb) : Prop where
  audits : db'.operatorAudits = db.operatorAudits
  controls : ∃ events, db'.controlEvents = db.controlEvents ++ events ∧
    ∀ event ∈ events, event.actorId ∈ serviceActors
  incidents : ∃ events, db'.incidentEvents = db.incidentEvents ++ events ∧
    ∀ event ∈ events, event.actorId ∈ serviceActors

theorem ByServices.refl (db : RiskDb) : ByServices db db :=
  ⟨rfl, ⟨[], (List.append_nil _).symm, fun _ h => absurd h List.not_mem_nil⟩,
    ⟨[], (List.append_nil _).symm, fun _ h => absurd h List.not_mem_nil⟩⟩

theorem ByServices.controlEvent {event : ControlEventRow}
    (haudits : db'.operatorAudits = db.operatorAudits)
    (hcontrols : db'.controlEvents = db.controlEvents ++ [event])
    (hincidents : db'.incidentEvents = db.incidentEvents)
    (hactor : event.actorId ∈ serviceActors) : ByServices db db' := by
  refine ⟨haudits, ⟨[event], hcontrols, fun other hother => ?_⟩,
    ⟨[], by rw [hincidents, List.append_nil], fun _ h => absurd h List.not_mem_nil⟩⟩
  rw [List.mem_singleton.mp hother]
  exact hactor

theorem riskEngine_mem : riskEngine ∈ serviceActors := List.mem_cons_self

theorem expiryJob_mem : expiryJob ∈ serviceActors := List.mem_cons_of_mem _ List.mem_cons_self

theorem trustedService_mem : trustedService ∈ serviceActors :=
  List.mem_cons_of_mem _ (List.mem_cons_of_mem _ List.mem_cons_self)

theorem actsFor_afterExpired (after : Option (List Scope)) (count : ℕ) (ids : List String) :
    (ControlCall.afterExpired after count ids).ActsFor operatorId := by
  rcases ids with _ | ⟨id, ids⟩
  · rcases after with _ | scopes <;> trivial
  · trivial

theorem actsFor_answer {call : ControlCall} (e : ControlEnv) (h : call.ActsFor operatorId) :
    (call.answer e).ActsFor operatorId := by
  unfold ControlCall.answer
  split_ifs
  · exact h
  · trivial

theorem actsFor_afterApplied (row : ControlActionRow) :
    (ControlCall.afterApplied row).ActsFor operatorId := by
  unfold ControlCall.afterApplied
  split_ifs <;> trivial

/-- What a statement of a call that acts for an actor does to the controls. -/
inductive ControlStatement (actorId : String) (db : RiskDb) : RiskDb → Prop
  | quiet : ControlStatement actorId db db
  | createControl {db' row reason} (h : db.createControl row reason = some db')
      (hactor : row.createdBy = actorId) : ControlStatement actorId db db'
  | updateControl {db' status event row} (h : db.updateControl status event = some (db', row))
      (hactor : event.actorId = expiryJob ∨ event.actorId = actorId) :
      ControlStatement actorId db db'

theorem controlStatement_of_ended {actorId : String} {next : ControlActionRow → ControlCall}
    {e : ControlEnv} {status : ControlStatus} {event : ControlEventRow} {call' : ControlCall}
    (hactor : event.actorId = expiryJob ∨ event.actorId = actorId)
    (hnext : ∀ row, (next row).ActsFor actorId)
    (h : ControlCall.ended db e next (db.updateControl status event) = (db', call')) :
    ControlStatement actorId db db' ∧ call'.ActsFor actorId := by
  cases hupdate : db.updateControl status event with
  | none =>
    rw [hupdate] at h
    cases h
    exact ⟨.quiet, trivial⟩
  | some r =>
    rw [hupdate] at h
    cases h
    exact ⟨.updateControl hupdate hactor, actsFor_answer e (hnext r.2)⟩

theorem controlStatement_of_next {actorId : String} {call call' : ControlCall}
    (hcall : call.ActsFor actorId) (h : ControlCall.next sha256 db call e = some (db', call')) :
    ControlStatement actorId db db' ∧ call'.ActsFor actorId := by
  cases e with
  | none => cases call <;> cases h <;> exact ⟨.quiet, trivial⟩
  | some e =>
    cases call with
    | expiring after =>
      simp only [ControlCall.next] at h
      split_ifs at h
      cases h
      exact ⟨.quiet, actsFor_afterExpired _ _ _⟩
    | ending after count id ids =>
      exact controlStatement_of_ended (.inl rfl) (fun _ => actsFor_afterExpired _ _ _)
        (Option.some.inj h)
    | checking | revoking =>
      cases h
      exact ⟨.quiet, trivial⟩
    | looking input operatorId =>
      simp only [ControlCall.next] at h
      split at h
      · cases h
        exact ⟨.quiet, actsFor_afterApplied _⟩
      · cases h
        exact ⟨.quiet, hcall⟩
    | creating input operatorId =>
      simp only [ControlCall.next] at h
      split at h
      · cases h
        exact ⟨.quiet, trivial⟩
      next hcreate =>
        cases h
        exact ⟨.createControl hcreate hcall, actsFor_answer e (actsFor_afterApplied _)⟩
    | reading id reason operatorId =>
      simp only [ControlCall.next] at h
      split at h
      · cases h
        exact ⟨.quiet, trivial⟩
      · split_ifs at h
        · cases h
          exact ⟨.quiet, trivial⟩
        · cases h
          exact ⟨.quiet, hcall⟩
    | releasing id reason operatorId =>
      refine controlStatement_of_ended ?_ ?_ (Option.some.inj h)
      · exact .inr hcall
      · exact fun _ => trivial
    | done result => cases h

/-- The statements of a service's call. -/
theorem byServices_next {call call' : ControlCall} (hcall : call.ActsFor trustedService)
    (h : ControlCall.next sha256 db call e = some (db', call')) :
    ByServices db db' ∧ call'.ActsFor trustedService := by
  obtain ⟨hstatement, hcall'⟩ := controlStatement_of_next hcall h
  refine ⟨?_, hcall'⟩
  cases hstatement with
  | quiet => exact .refl db
  | createControl hcreate hactor =>
    obtain ⟨controls, -, -, rfl⟩ := RiskDb.createControl_some hcreate
    exact .controlEvent rfl rfl rfl (hactor ▸ trustedService_mem)
  | updateControl hupdate hactor =>
    obtain ⟨row, -, -, rfl⟩ := RiskDb.updateControl_some hupdate
    refine .controlEvent rfl rfl rfl ?_
    rcases hactor with hactor | hactor
    · exact hactor ▸ expiryJob_mem
    · exact hactor ▸ trustedService_mem

/-- An automated assessment. -/
theorem byServices_assess {assessment : Assessment} (h : db.assess assessment = some db') :
    ByServices db db' := by
  obtain ⟨haudits, ⟨events, hincidents, hengine⟩, hcontrols⟩ := RiskDb.assess_some h
  refine ⟨haudits, ?_, ⟨events, hincidents, fun event hevent => ?_⟩⟩
  · rcases hcontrols with ⟨-, hevents⟩ | ⟨row, reason, -, -, hevents⟩
    · exact ⟨[], by rw [hevents, List.append_nil], fun _ h => absurd h List.not_mem_nil⟩
    · refine ⟨_, hevents, fun event hevent => ?_⟩
      rw [List.mem_singleton.mp hevent]
      exact riskEngine_mem
  · rw [hengine event hevent]
    exact riskEngine_mem

theorem mutation_controlEvent {event : ControlEventRow} {m : Mutation}
    (h : event.mutation = some m) : m.operatorId = event.actorId := by
  unfold ControlEventRow.mutation at h
  split at h <;> cases h <;> rfl

theorem mutation_incidentEvent {event : IncidentEventRow} {m : Mutation}
    (h : event.mutation = some m) : m.operatorId = event.actorId := by
  unfold IncidentEventRow.mutation at h
  split at h <;> cases h
  rfl

/-- What services do is no change of an operator. -/
theorem ByServices.counts (h : ByServices db db') (hm : m.operatorId ∉ serviceActors) :
    db'.mutations.count m = db.mutations.count m ∧ db'.audited.count m = db.audited.count m := by
  obtain ⟨haudits, ⟨controls, hcontrols, hcontrolActors⟩, ⟨incidents, hincidents, hincidentActors⟩⟩ := h
  constructor
  · have hnoControl : (controls.filterMap ControlEventRow.mutation).count m = 0 := by
      refine List.count_eq_zero.mpr fun hmem => ?_
      obtain ⟨event, hevent, hmutation⟩ := List.mem_filterMap.mp hmem
      exact hm (mutation_controlEvent hmutation ▸ hcontrolActors event hevent)
    have hnoIncident : (incidents.filterMap IncidentEventRow.mutation).count m = 0 := by
      refine List.count_eq_zero.mpr fun hmem => ?_
      obtain ⟨event, hevent, hmutation⟩ := List.mem_filterMap.mp hmem
      exact hm (mutation_incidentEvent hmutation ▸ hincidentActors event hevent)
    unfold RiskDb.mutations
    rw [hcontrols, hincidents, List.filterMap_append, List.filterMap_append, List.count_append,
      List.count_append, List.count_append, List.count_append, hnoControl, hnoIncident]
    omega
  · unfold RiskDb.audited
    rw [haudits]

end Steps

/-! ## Runs -/

/-- What is known of a call. -/
def RiskCall.Consistent : RiskCall → Prop
  | .service call => call.ActsFor trustedService
  | .operator call => call.Consistent

/-- The calls have made the changes that are not audited yet, and no others. -/
structure Accounted (s : RiskState) : Prop where
  calls : ∀ call ∈ s.calls, call.Consistent
  counts : ∀ m : Mutation, m.operatorId ∉ serviceActors →
    s.shared.mutations.count m = s.shared.audited.count m +
      s.calls.countP fun call => decide (call.unaudited = some m)

section Runs

variable {sha256 : String → String} {isUuid : String → Bool} {db db' : RiskDb}
  {call call' : RiskCall} {e : Option ControlEnv} {s t : RiskState} {a : RiskAction}

theorem call_next (hcall : call.Consistent)
    (hpace : ∀ p, call = .operator p → p.inPace sha256 db e = true)
    (h : call.next sha256 isUuid db e = some (db', call')) :
    call'.Consistent ∧ ∀ m : Mutation, m.operatorId ∉ serviceActors →
      db'.mutations.count m + db.audited.count m + counted call.unaudited m =
        db.mutations.count m + db'.audited.count m + counted call'.unaudited m := by
  cases call with
  | service call =>
    obtain ⟨⟨db₁, call₁⟩, hnext, heq⟩ := Option.map_eq_some_iff.mp h
    cases heq
    obtain ⟨hservices, hconsistent⟩ := byServices_next hcall hnext
    refine ⟨hconsistent, fun m hm => ?_⟩
    obtain ⟨hmutations, haudited⟩ := hservices.counts hm
    rw [hmutations, haudited]
    rfl
  | operator p =>
    obtain ⟨⟨db₁, p₁⟩, hnext, heq⟩ := Option.map_eq_some_iff.mp h
    cases heq
    obtain ⟨hconsistent, hcount⟩ := operator_next hcall (hpace p rfl) hnext
    exact ⟨hconsistent, fun m _ => hcount m⟩

theorem consistent_start (operator : Operator) (correlationId : String)
    (request : OperatorRequest) :
    OperatorCall.Consistent
        ⟨operator, correlationId, request, OperatorCall.start isUuid operator request⟩ ∧
      OperatorCall.unaudited
        ⟨operator, correlationId, request, OperatorCall.start isUuid operator request⟩ = none := by
  cases request with
  | apply input => exact ⟨⟨⟨rfl, rfl⟩, rfl⟩, rfl⟩
  | release id reason =>
    unfold OperatorCall.start
    dsimp only
    split_ifs
    · exact ⟨⟨⟨rfl, rfl⟩, rfl⟩, rfl⟩
    · exact ⟨trivial, rfl⟩
  | updateIncident id input =>
    unfold OperatorCall.start
    dsimp only
    split_ifs
    · exact ⟨⟨rfl, rfl⟩, rfl⟩
    · exact ⟨trivial, rfl⟩

theorem call_start (sha256 : String → String) (isUuid : String → Bool) (db : RiskDb)
    (request : RiskRequest) :
    ((operatorPool sha256 isUuid).start db request).Consistent ∧
      ((operatorPool sha256 isUuid).start db request).unaudited = none := by
  cases request with
  | service request =>
    refine ⟨?_, rfl⟩
    cases request with
    | expire | check => trivial
    | apply | release => rfl
  | operator operator correlationId request => exact consistent_start operator correlationId request

/-- A step that keeps pace. -/
theorem accounted_step (h : Accounted s) (hc : auditsKeepPace sha256 s a = true)
    (hstep : (operatorPool sha256 isUuid).machine.step s a = some t) : Accounted t := by
  cases a with
  | start request =>
    cases Pool.step_start hstep
    obtain ⟨hconsistent, hnone⟩ := call_start sha256 isUuid s.shared request
    constructor
    · intro call hcall
      rcases List.mem_append.mp hcall with hcall | hcall
      · exact h.calls call hcall
      · rw [List.mem_singleton.mp hcall]
        exact hconsistent
    · intro m hm
      have hnew : decide (((operatorPool sha256 isUuid).start s.shared request).unaudited = some m)
          = false := by
        rw [hnone]
        rfl
      rw [List.countP_append, List.countP_singleton, hnew]
      exact h.counts m hm
  | next n e =>
    obtain ⟨call, db', call', hcall, hnext, rfl⟩ := Pool.step_next hstep
    have hmem := Pool.mem_of_getElem? hcall
    have hpace : ∀ p, call = .operator p → p.inPace sha256 s.shared e = true := by
      rintro p rfl
      simpa [auditsKeepPace, hcall] using hc
    obtain ⟨hconsistent, hcount⟩ := call_next (h.calls call hmem) hpace hnext
    refine ⟨Pool.forall_set (fun m q _ hq => h.calls q (Pool.mem_of_getElem? hq)) hconsistent,
      fun m hm => ?_⟩
    have hcalls := Pool.countP_next (f := fun call => decide (call.unaudited = some m)) call' hcall
    have hbefore := h.counts m hm
    have hafter := hcount m hm
    unfold counted at hafter
    dsimp only at hcalls ⊢
    omega
  | env assessment =>
    obtain ⟨db', hassess, rfl⟩ := Pool.step_env hstep
    refine ⟨h.calls, fun m hm => ?_⟩
    obtain ⟨hmutations, haudited⟩ := (byServices_assess hassess).counts hm
    rw [hmutations, haudited]
    exact h.counts m hm

theorem accounted_reachable
    (h : (operatorPool sha256 isUuid).machine.Reachable
      (fun s a => auditsKeepPace sha256 s a = true) s) : Accounted s := by
  refine Machine.invariant (I := Accounted) ?_ (fun _ _ _ hs hc hstep => accounted_step hs hc hstep) h
  rintro s ⟨hinit, hcalls⟩
  constructor
  · rw [hcalls]
    exact fun _ hmem => absurd hmem List.not_mem_nil
  · intro m hm
    rw [hcalls]
    exact hinit m hm

/-- A change that awaits its audit row is one of an operator. -/
theorem unaudited_operator {m : Mutation} (h : call.unaudited = some m) :
    m.operatorId ∉ serviceActors := by
  cases call with
  | service call => cases h
  | operator p =>
    have hoperator : m.operatorId = p.operator.id := by
      obtain ⟨operator, correlationId, request, stage⟩ := p
      cases stage with
      | control call =>
        have hmade : call.made operator.id request.action = some m := h
        unfold ControlCall.made at hmade
        split at hmade <;> cases hmade <;> rfl
      | auditing targetId response =>
        cases h
        rfl
      | _ => cases h
    rw [hoperator]
    exact p.operator.not_service

end Runs

/-! ## Main results -/

/-- In a run in which no operator repeats an action that is done already, no request is cut off
    after its change and no audit reason is longer than its column, the changes of operators and
    the audit rows correspond exactly in the states in which no request stands between its change
    and its audit row. -/
theorem operator_audit_exact (sha256 : String → String) (isUuid : String → Bool) (s : RiskState)
    (h : (operatorPool sha256 isUuid).machine.Reachable
      (fun s a => auditsKeepPace sha256 s a = true) s) :
    s.shared.AuditedExactly ↔ ∀ call ∈ s.calls, call.unaudited = none := by
  have haccounted := accounted_reachable h
  constructor
  · intro hexact call hcall
    cases hcase : call.unaudited with
    | none => rfl
    | some m =>
      have hm := unaudited_operator hcase
      have hpos : 0 < s.calls.countP fun call => decide (call.unaudited = some m) :=
        List.countP_pos_iff.mpr ⟨call, hcall, decide_eq_true hcase⟩
      have hcounts := haccounted.counts m hm
      have hequal := hexact m hm
      omega
  · intro hnone m hm
    rw [haccounted.counts m hm, List.countP_eq_zero.mpr, Nat.add_zero]
    intro call hcall
    rw [hnone call hcall]
    exact fun h => nomatch of_decide_eq_true h

/-! ## Runs in which the audit is not exact -/

/-- No controls and no audit rows, and no calls. -/
def nothingAudited : RiskState where
  shared := RiskDb.migrated
  calls := []

theorem nothingAudited_init : (operatorPool id fun _ => true).machine.init nothingAudited :=
  ⟨fun _ _ => rfl, rfl⟩

/-- The operator applies the block of a customer. -/
def operatorApply : RiskAction :=
  .start (.operator developmentOperator "correlation-1" (.apply customerBlock))

/-- Call `n` runs a statement. -/
def runs (n : ℕ) : RiskAction :=
  .next n (some { now := 0, uuid := "control-1", due := [], answered := true })

/-- The change of `operatorApply`. -/
def blockApplied : Mutation where
  operatorId := developmentOperator.id
  action := .CONTROL_APPLY
  targetType := .CONTROL
  targetId := "control-1"

/-- The change was made and audited so many times, and every request is answered. -/
def madeAndAudited (made audited : ℕ) (s : RiskState) : Bool :=
  decide (s.shared.mutations.count blockApplied = made) &&
    decide (s.shared.audited.count blockApplied = audited) &&
    s.calls.all fun call => decide (call.unaudited = none)

/-- The claim, for states in which no request stands between its change and its audit row. -/
def AuditExact (sha256 : String → String) (isUuid : String → Bool) : Prop :=
  ∀ s : RiskState, (operatorPool sha256 isUuid).machine.Reachable Machine.always s →
    (∀ call ∈ s.calls, call.unaudited = none) → s.shared.AuditedExactly

theorem not_auditExact (as : List RiskAction) {made audited : ℕ} (hne : made ≠ audited)
    (h : ((operatorPool id fun _ => true).machine.run nothingAudited as).any
      (madeAndAudited made audited) = true) : ¬ AuditExact id fun _ => true := by
  intro hexact
  obtain ⟨s, hs, hp⟩ := Machine.reachable_of_run as (madeAndAudited made audited)
    nothingAudited_init h
  simp only [madeAndAudited, Bool.and_eq_true, decide_eq_true_eq, List.all_eq_true] at hp
  obtain ⟨⟨hmade, haudited⟩, hanswered⟩ := hp
  have hequal := hexact s hs hanswered blockApplied developmentOperator.not_service
  exact hne (hmade.symm.trans (hequal.trans haudited))

/-- A repeated `apply` finds its control, changes nothing, and is audited again. -/
theorem audit_without_change : ¬ AuditExact id fun _ => true :=
  not_auditExact [operatorApply, runs 0, runs 0, runs 0, operatorApply, runs 1, runs 1]
    (Nat.succ_ne_self 1).symm (by decide)

/-- The audit row of a request fails after its control was created. -/
theorem change_without_audit : ¬ AuditExact id fun _ => true :=
  not_auditExact [operatorApply, runs 0, runs 0, .next 0 none] Nat.one_ne_zero (by decide)

/-- One request that runs to its end. -/
theorem operator_audit_exact_one : ∃ s : RiskState, madeAndAudited 1 1 s = true ∧
    (s.shared.AuditedExactly ↔ ∀ call ∈ s.calls, call.unaudited = none) := by
  obtain ⟨s, hs, hp⟩ := Machine.reachable_of_runUnder [operatorApply, runs 0, runs 0, runs 0]
    (auditsKeepPace id) (madeAndAudited 1 1) (fun _ _ hc => hc) nothingAudited_init (by decide)
  exact ⟨s, hp, operator_audit_exact id (fun _ => true) s hs⟩

end AegisShield.Risk
