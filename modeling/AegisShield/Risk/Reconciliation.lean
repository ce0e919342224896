import AegisShield.Risk.Events
import AegisShield.Risk.Incidents

/-!
# Reconciliation of the risk records

`ReconciliationService.run` of the Risk service (`reconciliation/reconciliation.service.ts`,
lines 10-53) counts rows that refer to nothing. Evaluations, requests of operators and calls of
services write those rows, and each count is a statement of its own between theirs.

Results:
* `risk_reconciled`: in every run, however its statements interleave, fail or lose their answers,
  all counts but that of the stale sources are zero, so the status is `PASS` exactly when every
  source was heard of in the last fifteen minutes.
-/

namespace AegisShield.Risk

open Common

/-! ## Model of `reconciliation.service.ts` -/

inductive ReconciliationStatus where
  | PASS
  | FAIL
  deriving DecidableEq

/-- `issues` (lines 39-45). -/
structure ReconciliationIssues where
  orphanControls : ℕ
  orphanControlEvents : ℕ
  orphanIncidentEvents : ℕ
  unhandledHigh : ℕ
  staleSources : ℕ
  deriving DecidableEq

/-- `Object.values(issues)`. -/
def ReconciliationIssues.values (issues : ReconciliationIssues) : List ℕ :=
  [issues.orphanControls, issues.orphanControlEvents, issues.orphanIncidentEvents,
    issues.unhandledHigh, issues.staleSources]

/-- What `run` returns. -/
structure RiskReconciliation where
  status : ReconciliationStatus
  expiredControls : ℕ
  issues : ReconciliationIssues
  deriving DecidableEq

namespace AssessmentDb

/-- Lines 19-25: automated controls without an assessment and without an incident. -/
def orphanControls (db : AssessmentDb) : ℕ :=
  db.controls.rows.countP fun row =>
    decide (row.id ∉ db.controlAssessments.map Prod.fst) && row.incidentId.isNone &&
      decide (row.createdBy = riskEngine)

/-- Lines 26-28. -/
def orphanControlEvents (db : AssessmentDb) : ℕ :=
  db.controlEvents.countP fun event => (db.controls.find event.controlId).isNone

/-- Lines 29-31. -/
def orphanIncidentEvents (db : AssessmentDb) : ℕ :=
  db.incidentEvents.countP fun event => (db.incidents.find event.incidentId).isNone

/-- Lines 32-34: `HIGH` and `CRITICAL` assessments without an incident. -/
def unhandledHigh (db : AssessmentDb) : ℕ :=
  db.assessments.rows.countP fun row =>
    decide (row.band = .HIGH ∨ row.band = .CRITICAL) &&
      decide (row.id ∉ db.incidentAssessments.map Prod.snd)

end AssessmentDb

/-- Lines 35-37. -/
def staleSources (health : Table SourceHealthRow) (now : ℕ) : ℕ :=
  health.rows.countP fun row => decide (row.lastReceivedAt + 900000 < now)

/-- The tables in which the statements of `run` count. -/
structure ReconciliationReads where
  controls : AssessmentDb
  controlEvents : AssessmentDb
  incidentEvents : AssessmentDb
  assessments : AssessmentDb
  health : Table SourceHealthRow
  now : ℕ

/-- `run` (lines 10-53), after `expire` has ended `expired` controls. -/
def ReconciliationReads.run (reads : ReconciliationReads) (expired : ℕ) : RiskReconciliation :=
  let issues : ReconciliationIssues := {
    orphanControls := reads.controls.orphanControls
    orphanControlEvents := reads.controlEvents.orphanControlEvents
    orphanIncidentEvents := reads.incidentEvents.orphanIncidentEvents
    unhandledHigh := reads.assessments.unhandledHigh
    staleSources := staleSources reads.health reads.now }
  { status := if issues.values.all fun value => value = 0 then .PASS else .FAIL
    expiredControls := expired
    issues := issues }

/-! ## The calls of the service -/

/-- A call, of `AssessmentService.evaluate` or of an operator or a service. -/
inductive RiskProcess where
  | evaluation (call : EvaluateCall)
  | request (call : RiskCall)

inductive RiskInput where
  | evaluation (input : RiskEvaluationRequest)
  | request (request : RiskRequest)

/-- What a statement gets from outside; `none` when it fails. -/
inductive RiskOutside where
  | evaluation (e : Option EvaluateEnv)
  | request (e : Option ControlEnv)

/-- The next statement of a call. -/
def RiskProcess.next (runtime : AssessmentRuntime) (isUuid : String → Bool) (db : AssessmentDb) :
    RiskProcess → RiskOutside → Option (AssessmentDb × RiskProcess)
  | .evaluation call, .evaluation e =>
    (call.next runtime db e).map fun r => (r.1, .evaluation r.2)
  | .request call, .request e =>
    (RiskCall.next runtime.sha256 isUuid db.toRiskDb call e).map fun r =>
      ({ db with toRiskDb := r.1 }, .request r.2)
  | _, _ => none

/-- The first statement of a request. -/
def RiskRequest.start (isUuid : String → Bool) : RiskRequest → RiskCall
  | .service request => .service request.start
  | .operator actor correlationId request =>
    .operator ⟨actor, correlationId, request, OperatorCall.start isUuid actor request⟩

/-- Evaluations, requests of operators and calls of services, from the tables after the
    migration. -/
def riskPool (runtime : AssessmentRuntime) (isUuid : String → Bool) :
    Pool AssessmentDb RiskProcess RiskInput RiskOutside Empty where
  init db := db = noAssessments
  start
    | _, .evaluation input => .evaluation (.looking input)
    | _, .request request => .request (request.start isUuid)
  next := RiskProcess.next runtime isUuid
  env _ x := x.elim

/-! ## What the statements write -/

/-- A statement of a call that acts for `actorId`. -/
inductive RiskStatement (actorId : String) (db : RiskDb) : RiskDb → Prop
  | quiet : RiskStatement actorId db db
  | createControl {db' row reason}
      (h : db.createControl row reason = some db') (hactor : row.createdBy = actorId) :
      RiskStatement actorId db db'
  | updateControl {db' status event row} (h : db.updateControl status event = some (db', row)) :
      RiskStatement actorId db db'
  | updateIncident {db' data event row} (h : db.updateIncident data event = some (db', row)) :
      RiskStatement actorId db db'
  | createAudit (audit : OperatorAuditRow) : RiskStatement actorId db (db.createAudit audit)

/-- The calls of `ControlService` that a request runs are its own. -/
def OperatorCall.Acts (p : OperatorCall) : Prop :=
  match p.stage with
  | .control call => call.ActsFor p.operator.id
  | _ => True

section Statements

variable {runtime : AssessmentRuntime} {sha256 : String → String} {isUuid : String → Bool}
  {actorId : String} {db db' : RiskDb} {e : Option ControlEnv}

variable {call call' : ControlCall} {p : OperatorCall}

/-- The statements of `ControlService`. -/
theorem statement_of_control (hcall : call.ActsFor actorId)
    (h : ControlCall.next sha256 db call e = some (db', call')) :
    RiskStatement actorId db db' ∧ call'.ActsFor actorId := by
  obtain ⟨hstatement, hcall'⟩ := controlStatement_of_next hcall h
  refine ⟨?_, hcall'⟩
  cases hstatement with
  | quiet => exact .quiet
  | createControl hcreate hactor => exact .createControl hcreate hactor
  | updateControl hupdate => exact .updateControl hupdate

theorem acts_afterControl (hcall : call.ActsFor p.operator.id) :
    OperatorCall.Acts { p with stage := OperatorCall.afterControl call } := by
  unfold OperatorCall.afterControl
  split
  · trivial
  · trivial
  · exact hcall

/-- The statements of an operator's request. -/
theorem statement_of_operator {p' : OperatorCall} (hp : p.Acts)
    (h : OperatorCall.next sha256 isUuid db p e = some (db', p')) :
    RiskStatement p.operator.id db db' ∧ p'.Acts := by
  obtain ⟨operator, correlationId, request, stage⟩ := p
  cases stage with
  | control call =>
    obtain ⟨⟨db₁, call'⟩, hnext, heq⟩ := Option.map_eq_some_iff.mp h
    cases heq
    obtain ⟨hstatement, hcall⟩ := statement_of_control hp hnext
    exact ⟨hstatement,
      @acts_afterControl call' ⟨operator, correlationId, request, .control call⟩ hcall⟩
  | reading id input =>
    cases e with
    | none =>
      cases h
      exact ⟨.quiet, trivial⟩
    | some e =>
      simp only [OperatorCall.next] at h
      split at h
      · cases h
        exact ⟨.quiet, trivial⟩
      · split_ifs at h <;> cases h <;> exact ⟨.quiet, trivial⟩
  | updating input current =>
    cases e with
    | none =>
      cases h
      exact ⟨.quiet, trivial⟩
    | some e =>
      simp only [OperatorCall.next] at h
      split at h
      · cases h
        exact ⟨.quiet, trivial⟩
      next hupdate =>
        cases h
        refine ⟨.updateIncident hupdate, ?_⟩
        unfold OperatorCall.Acts OperatorCall.afterUpdate
        dsimp only
        split_ifs <;> trivial
  | auditing targetId response =>
    cases e with
    | none =>
      cases h
      exact ⟨.quiet, trivial⟩
    | some e =>
      simp only [OperatorCall.next] at h
      split at h
      · cases h
        refine ⟨.createAudit _, ?_⟩
        unfold OperatorCall.Acts
        dsimp only
        split_ifs <;> trivial
      · cases h
        exact ⟨.quiet, trivial⟩
  | done result => cases e <;> cases h

end Statements

/-! ## What every statement keeps -/

/-- Events refer to rows, and the automated controls are those of assessments. -/
structure RiskDb.Anchored (db : RiskDb) (assessed : List String) : Prop where
  controlEvents : db.EventsOfControls
  incidentEvents : ∀ event ∈ db.incidentEvents, (db.incidents.find event.incidentId).isSome
  automated : ∀ row ∈ db.controls.rows, row.createdBy = riskEngine → row.id ∈ assessed

/-- The tables are anchored, and `HIGH` and `CRITICAL` assessments have their incidents. -/
structure AssessmentDb.Anchored (db : AssessmentDb) : Prop where
  risk : db.toRiskDb.Anchored (db.controlAssessments.map Prod.fst)
  handled : ∀ row ∈ db.assessments.rows, row.band = .HIGH ∨ row.band = .CRITICAL →
    row.id ∈ db.incidentAssessments.map Prod.snd

section Anchors

variable {runtime : AssessmentRuntime} {actorId : String} {db db' : RiskDb}
  {assessed : List String}

variable {ρ : Type} {id : String} {assessment : Assessment}

/-- Events that refer to rows still do after an insertion, and a new one refers to the new row. -/
theorem isSome_insert [Keyed ρ String] {t u : Table ρ} {row : ρ}
    (hinsert : t.insert row = some u) (h : (t.find id).isSome ∨ id = key row) :
    (u.find id).isSome := by
  rw [Table.find_insert hinsert]
  split_ifs with hkey
  · rfl
  · exact h.resolve_right fun heq => hkey heq.symm

theorem isSome_put [Keyed ρ String] {t : Table ρ} {row : ρ}
    (h : (t.find id).isSome) : ((t.put row).find id).isSome := by
  rw [Option.isSome_iff_ne_none] at h ⊢
  exact fun hnone => h (Table.find_put_eq_none.mp hnone)

theorem RiskDb.Anchored.createControl {row : ControlActionRow} {reason : String}
    (h : db.Anchored assessed) (hcreate : db.createControl row reason = some db')
    (hrow : row.createdBy = riskEngine → row.id ∈ assessed) : db'.Anchored assessed := by
  obtain ⟨controls, hinsert, -, rfl⟩ := RiskDb.createControl_some hcreate
  refine ⟨fun event hevent => isSome_insert hinsert ?_, h.incidentEvents, fun other hother => ?_⟩
  · rcases List.mem_append.mp hevent with hevent | hevent
    · exact .inl (h.controlEvents event hevent)
    · rw [List.mem_singleton.mp hevent]
      exact .inr rfl
  · replace hother : other ∈ controls.rows := hother
    rw [(Table.insert_some hinsert).2, List.mem_append, List.mem_singleton] at hother
    rcases hother with hother | rfl
    · exact h.automated other hother
    · exact hrow

theorem RiskDb.Anchored.updateControl {status : ControlStatus} {event : ControlEventRow}
    {row : ControlActionRow} (h : db.Anchored assessed)
    (hupdate : db.updateControl status event = some (db', row)) : db'.Anchored assessed := by
  obtain ⟨stored, hstored, -, rfl⟩ := RiskDb.updateControl_some hupdate
  refine ⟨fun other hother => isSome_put ?_, h.incidentEvents, fun other hother => ?_⟩
  · rcases List.mem_append.mp hother with hother | hother
    · exact h.controlEvents other hother
    · rw [List.mem_singleton.mp hother, hstored]
      rfl
  · -- the creator of a control stays
    rcases Table.mem_put hother with ⟨hother, -⟩ | rfl
    · exact h.automated other hother
    · exact h.automated stored (Table.find_some hstored).1

theorem RiskDb.Anchored.updateIncident {data : IncidentRow → IncidentRow}
    {event : IncidentEventRow} {row : IncidentRow} (h : db.Anchored assessed)
    (hupdate : db.updateIncident data event = some (db', row)) : db'.Anchored assessed := by
  obtain ⟨stored, hstored, -, rfl⟩ := RiskDb.updateIncident_some hupdate
  refine ⟨h.controlEvents, fun other hother => isSome_put ?_, h.automated⟩
  rcases List.mem_append.mp hother with hother | hother
  · exact h.incidentEvents other hother
  · rw [List.mem_singleton.mp hother, hstored]
    rfl

/-- A statement of a call that does not act for the engine. -/
theorem RiskDb.Anchored.statement (h : db.Anchored assessed) (hactor : actorId ≠ riskEngine)
    (hstatement : RiskStatement actorId db db') : db'.Anchored assessed := by
  cases hstatement with
  | quiet => exact h
  | createControl hcreate hcreator =>
    exact h.createControl hcreate fun hengine => absurd (hcreator.symm.trans hengine) hactor
  | updateControl hupdate => exact h.updateControl hupdate
  | updateIncident hupdate => exact h.updateIncident hupdate
  | createAudit audit => exact ⟨h.controlEvents, h.incidentEvents, h.automated⟩

theorem RiskDb.Anchored.openIncident {incident : Option (IncidentRow × String)}
    (h : db.Anchored assessed) (hopen : db.openIncident incident = some db') :
    db'.Anchored assessed := by
  rcases incident with _ | ⟨row, note⟩
  · cases hopen
    exact h
  · obtain ⟨incidents, hinsert, rfl⟩ := Option.map_eq_some_iff.mp hopen
    refine ⟨h.controlEvents, fun event hevent => isSome_insert hinsert ?_, h.automated⟩
    rcases List.mem_append.mp hevent with hevent | hevent
    · exact .inl (h.incidentEvents event hevent)
    · rw [List.mem_singleton.mp hevent]
      exact .inr rfl

/-- The control of an assessment is the only automated one that it adds. -/
theorem RiskDb.Anchored.assess (h : db.Anchored assessed)
    (hassess : db.assess assessment = some db') :
    db'.Anchored (assessed ++ (assessment.control.map fun control => control.1.id).toList) := by
  obtain ⟨db₁, hopen, himpose⟩ := Option.bind_eq_some_iff.mp hassess
  have hopened := h.openIncident hopen
  rcases hcontrol : assessment.control with _ | ⟨row, reason⟩
  · rw [hcontrol] at himpose
    cases himpose
    rw [Option.map_none, Option.toList_none, List.append_nil]
    exact hopened
  · rw [hcontrol] at himpose
    rw [Option.map_some, Option.toList_some]
    have hwider : db₁.Anchored (assessed ++ [row.id]) :=
      ⟨hopened.controlEvents, hopened.incidentEvents, fun other hother hengine =>
        List.mem_append_left _ (hopened.automated other hother hengine)⟩
    exact hwider.createControl himpose fun _ => List.mem_append_right _ List.mem_cons_self

/-- An evaluation writes nothing, or all its rows in one transaction. -/
theorem evaluation_writes {db db' : AssessmentDb} {call call' : EvaluateCall}
    {e : Option EvaluateEnv} (h : call.next runtime db e = some (db', call')) :
    db' = db ∨ ∃ input result expiresAt e',
      db.evaluateTx (assessmentRow input result expiresAt e')
        { incident := incidentOf result e', control := controlOf runtime input result e' } =
        some db' := by
  unfold EvaluateCall.next at h
  split at h
  · cases h
  iterate 3
    · cases h
      exact .inl rfl
  · split at h <;> cases h <;> exact .inl rfl
  · cases h
    exact .inl rfl
  next input result scoredAt e' =>
    split at h
    · cases h
      exact .inl rfl
    next stored hstored =>
      cases h
      exact .inr ⟨input, result, runtime.expiresAt scoredAt, e', hstored⟩

theorem assess_of_evaluateTx {db db' : AssessmentDb} {row : RiskAssessmentRow}
    (h : db.evaluateTx row assessment = some db') :
    db.toRiskDb.assess assessment = some db'.toRiskDb := by
  obtain ⟨db₁, hcreate, hassess⟩ := Option.bind_eq_some_iff.mp h
  obtain ⟨risk, hrisk, rfl⟩ := Option.map_eq_some_iff.mp hassess
  unfold AssessmentDb.createAssessment at hcreate
  split_ifs at hcreate
  obtain ⟨assessments, -, rfl⟩ := Option.map_eq_some_iff.mp hcreate
  exact hrisk

/-- The transaction of an evaluation writes the incident of a `HIGH` or `CRITICAL` assessment and
    the assessment of its control. -/
theorem AssessmentDb.Anchored.evaluateTx {db db' : AssessmentDb} {input : RiskEvaluationRequest}
    {result : EngineResult} {expiresAt : ℕ} {e : EvaluateEnv} (h : db.Anchored)
    (hstored : db.evaluateTx (assessmentRow input result expiresAt e)
      { incident := incidentOf result e, control := controlOf runtime input result e } =
      some db') : db'.Anchored := by
  obtain ⟨-, hinsert, hincidents, hcontrols⟩ := evaluateTx_some hstored
  constructor
  · have hassessed := h.risk.assess (assess_of_evaluateTx hstored)
    rw [hcontrols, List.map_append]
    rw [show ((controlOf runtime input result e).map fun control => control.1.id).toList =
      (((controlOf runtime input result e).map fun control =>
        (control.1.id, (assessmentRow input result expiresAt e).id)).toList).map Prod.fst by
          cases controlOf runtime input result e <;> rfl] at hassessed
    exact hassessed
  · intro row hrow hband
    rw [hincidents, List.map_append]
    rw [(Table.insert_some hinsert).2, List.mem_append, List.mem_singleton] at hrow
    rcases hrow with hrow | rfl
    · exact List.mem_append_left _ (h.handled row hrow hband)
    · have hopened : incidentOf result e = some _ := if_pos hband
      rw [hopened]
      exact List.mem_append_right _ List.mem_cons_self

end Anchors

/-! ## Runs -/

section Runs

variable {runtime : AssessmentRuntime} {isUuid : String → Bool} {db db' : AssessmentDb}
  {s : Pool.State AssessmentDb RiskProcess}

/-- No call of a service or of an operator acts for the engine. -/
def RiskProcess.Acts : RiskProcess → Prop
  | .evaluation _ => True
  | .request (.service call) => call.ActsFor trustedService
  | .request (.operator call) => call.Acts

theorem trustedService_ne : trustedService ≠ riskEngine := by decide

theorem operator_ne (operator : Operator) : operator.id ≠ riskEngine :=
  fun heq => operator.not_service (heq ▸ riskEngine_mem)

theorem acts_start (request : RiskRequest) : (RiskProcess.request (request.start isUuid)).Acts := by
  cases request with
  | service request => cases request <;> first | rfl | trivial
  | operator operator correlationId request =>
    cases request with
    | apply input => rfl
    | release id reason =>
      show OperatorCall.Acts _
      unfold OperatorCall.Acts OperatorCall.start
      dsimp only
      split_ifs
      · rfl
      · trivial
    | updateIncident id input =>
      show OperatorCall.Acts _
      unfold OperatorCall.Acts OperatorCall.start
      dsimp only
      split_ifs <;> trivial

/-- A statement of any call keeps the tables anchored. -/
theorem anchored_next {p p' : RiskProcess} {e : RiskOutside} (h : db.Anchored) (hp : p.Acts)
    (hnext : p.next runtime isUuid db e = some (db', p')) : db'.Anchored ∧ p'.Acts := by
  cases p with
  | evaluation call =>
    cases e with
    | evaluation e =>
      obtain ⟨⟨db₁, call'⟩, hcall, heq⟩ := Option.map_eq_some_iff.mp hnext
      cases heq
      refine ⟨?_, trivial⟩
      obtain rfl | ⟨input, result, expiresAt, e', hstored⟩ := evaluation_writes hcall
      · exact h
      · exact h.evaluateTx hstored
    | request e => cases hnext
  | request call =>
    cases e with
    | evaluation e => cases hnext
    | request e =>
      obtain ⟨⟨risk, call'⟩, hcall, heq⟩ := Option.map_eq_some_iff.mp hnext
      cases heq
      cases call with
      | service call =>
        obtain ⟨⟨risk', control⟩, hcontrol, heq⟩ := Option.map_eq_some_iff.mp hcall
        cases heq
        obtain ⟨hstatement, hacts⟩ := statement_of_control hp hcontrol
        exact ⟨⟨h.risk.statement trustedService_ne hstatement, h.handled⟩, hacts⟩
      | operator call =>
        obtain ⟨⟨risk', operator⟩, hoperator, heq⟩ := Option.map_eq_some_iff.mp hcall
        cases heq
        obtain ⟨hstatement, hacts⟩ := statement_of_operator hp hoperator
        exact ⟨⟨h.risk.statement (operator_ne _) hstatement, h.handled⟩, hacts⟩

theorem noAssessments_anchored : noAssessments.Anchored :=
  ⟨⟨fun _ h => absurd h List.not_mem_nil, fun _ h => absurd h List.not_mem_nil,
    fun _ h => absurd h List.not_mem_nil⟩, fun _ h => absurd h List.not_mem_nil⟩

theorem anchored_of_reachable (h : (riskPool runtime isUuid).machine.Reachable Machine.always s) :
    s.shared.Anchored := by
  refine (Pool.invariant (L := riskPool runtime isUuid) (A := fun _ p => p.Acts) ?_ ?_ ?_
    (fun _ x => x.elim) h).1
  · rintro db rfl
    exact noAssessments_anchored
  · rintro db (input | request) -
    · trivial
    · exact acts_start request
  · intro s n e p db' p' hdb hcalls _ hp hnext
    obtain ⟨hdb', hp'⟩ := anchored_next hdb (hcalls p (Pool.mem_of_getElem? hp)) hnext
    exact ⟨hdb', hp', fun m q _ hq => hcalls q (Pool.mem_of_getElem? hq)⟩

/-- Nothing is counted in anchored tables. -/
theorem counts_anchored (h : db.Anchored) : db.orphanControls = 0 ∧ db.orphanControlEvents = 0 ∧
    db.orphanIncidentEvents = 0 ∧ db.unhandledHigh = 0 := by
  refine ⟨List.countP_eq_zero.mpr fun row hrow hcount => ?_,
    List.countP_eq_zero.mpr fun event hevent hnone => ?_,
    List.countP_eq_zero.mpr fun event hevent hnone => ?_,
    List.countP_eq_zero.mpr fun row hrow hcount => ?_⟩
  · simp only [Bool.and_eq_true, decide_eq_true_eq] at hcount
    exact hcount.1.1 (h.risk.automated row hrow hcount.2)
  · rw [Option.isNone_iff_eq_none] at hnone
    exact absurd hnone (Option.isSome_iff_ne_none.mp (h.risk.controlEvents event hevent))
  · rw [Option.isNone_iff_eq_none] at hnone
    exact absurd hnone (Option.isSome_iff_ne_none.mp (h.risk.incidentEvents event hevent))
  · simp only [Bool.and_eq_true, decide_eq_true_eq] at hcount
    exact hcount.2 (h.handled row hrow hcount.1)

end Runs

/-- The tables of a state of some run. -/
def Served (runtime : AssessmentRuntime) (isUuid : String → Bool) (db : AssessmentDb) : Prop :=
  ∃ s, (riskPool runtime isUuid).machine.Reachable Machine.always s ∧ s.shared = db

/-- A reconciliation whose counts are made at any moments of the run of the service finds nothing
    but stale sources, and passes exactly when there are none. -/
theorem risk_reconciled (runtime : AssessmentRuntime) (isUuid : String → Bool)
    (reads : ReconciliationReads) (expired : ℕ)
    (hreads : ∀ db ∈ [reads.controls, reads.controlEvents, reads.incidentEvents,
      reads.assessments], Served runtime isUuid db) :
    (reads.run expired).issues = ⟨0, 0, 0, 0, staleSources reads.health reads.now⟩ ∧
      ((reads.run expired).status = .PASS ↔
        ∀ row ∈ reads.health.rows, reads.now ≤ row.lastReceivedAt + 900000) := by
  have hcounts : ∀ db ∈ [reads.controls, reads.controlEvents, reads.incidentEvents,
      reads.assessments], db.orphanControls = 0 ∧ db.orphanControlEvents = 0 ∧
        db.orphanIncidentEvents = 0 ∧ db.unhandledHigh = 0 := by
    intro db hdb
    obtain ⟨s, hs, rfl⟩ := hreads db hdb
    exact counts_anchored (anchored_of_reachable hs)
  have hissues : (reads.run expired).issues =
      ⟨0, 0, 0, 0, staleSources reads.health reads.now⟩ := by
    simp only [List.forall_mem_cons] at hcounts
    obtain ⟨hcontrols, hcontrolEvents, hincidentEvents, hassessments, -⟩ := hcounts
    unfold ReconciliationReads.run
    dsimp only
    rw [hcontrols.1, hcontrolEvents.2.1, hincidentEvents.2.2.1, hassessments.2.2.2]
  refine ⟨hissues, ?_⟩
  have hstatus : (reads.run expired).status = .PASS ↔ staleSources reads.health reads.now = 0 := by
    show (if (reads.run expired).issues.values.all (fun value => value = 0) then
      ReconciliationStatus.PASS else .FAIL) = .PASS ↔ _
    rw [hissues]
    simp [ReconciliationIssues.values]
  rw [hstatus, staleSources, List.countP_eq_zero]
  simp

/-- A statement of evaluation `n`, with the ids that it may generate. -/
def evaluates (n : ℕ) : Pool.Action RiskInput RiskOutside Empty :=
  .next n (.evaluation (some {
    now := 1, facts := newRecipientFacts, assessmentId := "assessment-1",
    incidentId := "incident-1", controlId := "control-1", createdAt := 1, controlNow := 1,
    answered := true }))

/-- The statements of a transfer that is held for review. -/
def heldTransfer : List (Pool.Action RiskInput RiskOutside Empty) :=
  [.start (.evaluation (highValueTransfer "customer-1")), evaluates 0, evaluates 0, evaluates 0]

/-- The tables hold an assessment, its incident and its control, and the reconciliation passes. -/
theorem risk_reconciled_held : ∃ db : AssessmentDb, db.assessments.rows.length = 1 ∧
    db.incidentEvents.length = 1 ∧ db.controlEvents.length = 1 ∧
    ((⟨db, db, db, db, Table.empty, 1⟩ : ReconciliationReads).run 0).status = .PASS := by
  obtain ⟨s, hs, hp⟩ := Machine.reachable_of_run
    (M := (riskPool exampleRuntime fun _ => true).machine) heldTransfer
    (fun s => decide (s.shared.assessments.rows.length = 1) &&
      decide (s.shared.incidentEvents.length = 1) && decide (s.shared.controlEvents.length = 1))
    (s := ⟨noAssessments, []⟩) ⟨rfl, rfl⟩ (by decide +kernel)
  simp only [Bool.and_eq_true, decide_eq_true_eq] at hp
  obtain ⟨⟨hassessments, hincidents⟩, hcontrols⟩ := hp
  refine ⟨s.shared, hassessments, hincidents, hcontrols, ?_⟩
  refine (risk_reconciled exampleRuntime (fun _ => true) _ 0 fun db hdb => ?_).2.mpr
    fun _ h => absurd h List.not_mem_nil
  have hserved : db = s.shared := by simpa using hdb
  exact ⟨s, hs, hserved.symm⟩

end AegisShield.Risk
