import AegisShield.Common.Table

/-!
# The tables of the Risk service

The controls, the incidents and the audit rows of `services/risk/prisma/schema.prisma`, and the
statements that write them. A nested `create` is part of the statement, so a row and the event
that goes with it are written together or not at all.

Results:
* `RiskDb.createControl_some`, `RiskDb.updateControl_some`, `RiskDb.updateIncident_some`: what
  a statement that is not refused writes.
* `RiskDb.assess_some`: what an automated assessment adds.
-/

namespace AegisShield.Risk

open Common

/-! ## Rows -/

inductive ControlType where
  | REQUIRE_STEP_UP
  | TEMPORARY_BLOCK
  | TRANSFER_HOLD
  | RECIPIENT_BLOCK
  | SESSION_REVOKE
  | ACCOUNT_RESTRICT
  | MANUAL_REVIEW
  | QUARANTINE
  deriving DecidableEq

inductive ControlScope where
  | CUSTOMER
  | SESSION
  | DEVICE
  | ACCOUNT
  | RECIPIENT
  | OPERATION
  | SERVICE
  deriving DecidableEq

inductive ControlStatus where
  | ACTIVE
  | RELEASED
  | EXPIRED
  | OVERRIDDEN
  deriving DecidableEq

inductive ControlEventType where
  | CREATED
  | RELEASED
  | EXPIRED
  deriving DecidableEq

/-- A row of `control_actions` (lines 125-147); times are in milliseconds. -/
structure ControlActionRow where
  id : String
  idempotencyKeyHash : String
  type : ControlType
  scopeType : ControlScope
  scopeId : String
  reasonCode : String
  status : ControlStatus
  incidentId : Option String
  createdBy : String
  expiresAt : ℕ
  createdAt : ℕ
  deriving DecidableEq

instance : Keyed ControlActionRow String := ⟨ControlActionRow.id⟩

/-- A row of `control_events` (lines 149-160). -/
structure ControlEventRow where
  controlId : String
  eventType : ControlEventType
  actorId : String
  reason : String
  deriving DecidableEq

inductive IncidentStatus where
  | OPEN
  | INVESTIGATING
  | CONTAINED
  | RESOLVED
  | FALSE_POSITIVE
  deriving DecidableEq

inductive IncidentEventType where
  | CREATED
  | REOPENED
  | STATUS_CHANGED
  | ASSIGNED
  | NOTE_ADDED
  deriving DecidableEq

/-- A row of `incidents` (lines 162-179). -/
structure IncidentRow where
  id : String
  status : IncidentStatus
  assignedTo : Option String
  resolutionReason : Option String
  resolvedAt : Option ℕ
  deriving DecidableEq

instance : Keyed IncidentRow String := ⟨IncidentRow.id⟩

/-- A row of `incident_events` (lines 181-193). -/
structure IncidentEventRow where
  incidentId : String
  eventType : IncidentEventType
  actorId : String
  note : Option String
  deriving DecidableEq

inductive OperatorAction where
  | CONTROL_APPLY
  | CONTROL_RELEASE
  | INCIDENT_UPDATE
  deriving DecidableEq

inductive TargetType where
  | CONTROL
  | INCIDENT
  deriving DecidableEq

/-- A row of `operator_audits` (lines 206-218). -/
structure OperatorAuditRow where
  operatorId : String
  action : OperatorAction
  targetType : TargetType
  targetId : String
  reason : String
  correlationId : String
  deriving DecidableEq

/-- The tables; events and audit rows are append-only. -/
structure RiskDb where
  controls : Table ControlActionRow
  controlEvents : List ControlEventRow
  incidents : Table IncidentRow
  incidentEvents : List IncidentEventRow
  operatorAudits : List OperatorAuditRow

/-! ## Statements -/

/-- The actor of what `AssessmentService.evaluate` creates. -/
def riskEngine : String := "automated:risk-engine"

namespace RiskDb

/-- The tables after the migration. -/
def migrated : RiskDb where
  controls := Table.empty
  controlEvents := []
  incidents := Table.empty
  incidentEvents := []
  operatorAudits := []

/-- `controlAction.findUnique({ where: { idempotencyKeyHash } })`. -/
def findControlByKey (db : RiskDb) (idempotencyKeyHash : String) : Option ControlActionRow :=
  db.controls.rows.find? fun row => row.idempotencyKeyHash = idempotencyKeyHash

/-- `controlAction.create` with its `CREATED` event: refused when the id or the key is taken, when
    the incident does not exist, and by `control_actions_expiry_after_creation`. -/
def createControl (db : RiskDb) (row : ControlActionRow) (reason : String) : Option RiskDb :=
  if (db.findControlByKey row.idempotencyKeyHash).isSome ||
      (row.incidentId.any fun id => (db.incidents.find id).isNone) ||
      decide (row.expiresAt ≤ row.createdAt) then none
  else
    (db.controls.insert row).map fun controls =>
      { db with
        controls := controls
        controlEvents := db.controlEvents ++ [{
          controlId := row.id
          eventType := .CREATED
          actorId := row.createdBy
          reason := reason }] }

/-- `controlAction.update({ where: { id } })` of the status, with its event, and the row after
    it. -/
def updateControl (db : RiskDb) (status : ControlStatus) (event : ControlEventRow) :
    Option (RiskDb × ControlActionRow) :=
  (db.controls.find event.controlId).map fun row =>
    ({ db with
       controls := db.controls.put { row with status := status }
       controlEvents := db.controlEvents ++ [event] }, { row with status := status })

/-- `incident.update({ where: { id } })` with its event, and the row after it. -/
def updateIncident (db : RiskDb) (data : IncidentRow → IncidentRow) (event : IncidentEventRow) :
    Option (RiskDb × IncidentRow) :=
  (db.incidents.find event.incidentId).map fun row =>
    ({ db with
       incidents := db.incidents.put { data row with id := row.id }
       incidentEvents := db.incidentEvents ++ [event] }, { data row with id := row.id })

/-- `operatorAudit.create`. -/
def createAudit (db : RiskDb) (audit : OperatorAuditRow) : RiskDb :=
  { db with operatorAudits := db.operatorAudits ++ [audit] }

/-- `incident.create` with its `CREATED` event. -/
def createIncident (db : RiskDb) (row : IncidentRow) (note : String) : Option RiskDb :=
  (db.incidents.insert row).map fun incidents =>
    { db with
      incidents := incidents
      incidentEvents := db.incidentEvents ++ [{
        incidentId := row.id
        eventType := .CREATED
        actorId := riskEngine
        note := some note }] }

end RiskDb

/-- What the transaction of `AssessmentService.evaluate` creates beside the assessment. -/
structure Assessment where
  incident : Option (IncidentRow × String)
  control : Option (ControlActionRow × String)

namespace RiskDb

/-- The incident of an assessment is new and open. -/
def openIncident (db : RiskDb) : Option (IncidentRow × String) → Option RiskDb
  | none => some db
  | some (row, note) => db.createIncident { row with status := .OPEN } note

/-- The control of an assessment is new and active. -/
def imposeControl (db : RiskDb) : Option (ControlActionRow × String) → Option RiskDb
  | none => some db
  | some (row, reason) =>
    db.createControl { row with status := .ACTIVE, createdBy := riskEngine } reason

/-- The transaction of `AssessmentService.evaluate`. -/
def assess (db : RiskDb) (assessment : Assessment) : Option RiskDb :=
  (db.openIncident assessment.incident).bind fun db => db.imposeControl assessment.control

/-! ## What the statements write -/

variable {db db' : RiskDb}

theorem createControl_some {row : ControlActionRow} {reason : String}
    (h : db.createControl row reason = some db') :
    ∃ controls, db.controls.insert row = some controls ∧
      db.findControlByKey row.idempotencyKeyHash = none ∧
      db' = { db with
        controls := controls
        controlEvents := db.controlEvents ++ [⟨row.id, .CREATED, row.createdBy, reason⟩] } := by
  unfold createControl at h
  split_ifs at h with hrefused
  obtain ⟨controls, hinsert, rfl⟩ := Option.map_eq_some_iff.mp h
  simp only [Bool.or_eq_true, not_or, Bool.not_eq_true, Option.isSome_eq_false_iff,
    Option.isNone_iff_eq_none] at hrefused
  exact ⟨controls, hinsert, hrefused.1.1, rfl⟩

theorem updateControl_some {status : ControlStatus} {event : ControlEventRow}
    {row' : ControlActionRow} (h : db.updateControl status event = some (db', row')) :
    ∃ row, db.controls.find event.controlId = some row ∧ row' = { row with status := status } ∧
      db' = { db with
        controls := db.controls.put { row with status := status }
        controlEvents := db.controlEvents ++ [event] } := by
  obtain ⟨row, hrow, heq⟩ := Option.map_eq_some_iff.mp h
  cases heq
  exact ⟨row, hrow, rfl, rfl⟩

theorem updateIncident_some {data : IncidentRow → IncidentRow} {event : IncidentEventRow}
    {row' : IncidentRow} (h : db.updateIncident data event = some (db', row')) :
    ∃ row, db.incidents.find event.incidentId = some row ∧ row'.id = event.incidentId ∧
      db' = { db with
        incidents := db.incidents.put row'
        incidentEvents := db.incidentEvents ++ [event] } := by
  obtain ⟨row, hrow, heq⟩ := Option.map_eq_some_iff.mp h
  cases heq
  exact ⟨row, hrow, Table.key_of_find hrow, rfl⟩

theorem openIncident_some {incident : Option (IncidentRow × String)}
    (h : db.openIncident incident = some db') :
    db'.controls = db.controls ∧ db'.controlEvents = db.controlEvents ∧
      db'.operatorAudits = db.operatorAudits ∧ ∃ events,
        db'.incidentEvents = db.incidentEvents ++ events ∧
          ∀ event ∈ events, event.actorId = riskEngine := by
  rcases incident with _ | ⟨row, note⟩
  · cases h
    exact ⟨rfl, rfl, rfl, [], (List.append_nil _).symm, by simp⟩
  · obtain ⟨incidents, -, rfl⟩ := Option.map_eq_some_iff.mp h
    refine ⟨rfl, rfl, rfl, _, rfl, fun event hevent => ?_⟩
    rw [List.mem_singleton.mp hevent]

/-- An assessment adds nothing to the controls, or an active one. -/
theorem assess_some {assessment : Assessment} (h : db.assess assessment = some db') :
    db'.operatorAudits = db.operatorAudits ∧
      (∃ events, db'.incidentEvents = db.incidentEvents ++ events ∧
        ∀ event ∈ events, event.actorId = riskEngine) ∧
      ((db'.controls = db.controls ∧ db'.controlEvents = db.controlEvents) ∨
        ∃ row reason, row.status = .ACTIVE ∧ db.controls.insert row = some db'.controls ∧
          db'.controlEvents = db.controlEvents ++ [⟨row.id, .CREATED, riskEngine, reason⟩]) := by
  obtain ⟨db₁, hopen, himpose⟩ := Option.bind_eq_some_iff.mp h
  obtain ⟨hcontrols, hevents, haudits, hincidents⟩ := openIncident_some hopen
  rcases hcontrol : assessment.control with _ | ⟨row, reason⟩
  · rw [hcontrol] at himpose
    cases himpose
    exact ⟨haudits, hincidents, .inl ⟨hcontrols, hevents⟩⟩
  · rw [hcontrol] at himpose
    obtain ⟨controls, hinsert, -, rfl⟩ := createControl_some himpose
    refine ⟨haudits, hincidents,
      .inr ⟨{ row with status := .ACTIVE, createdBy := riskEngine }, reason, rfl, ?_, ?_⟩⟩
    · rw [← hcontrols]
      exact hinsert
    · rw [← hevents]

end RiskDb

end AegisShield.Risk
