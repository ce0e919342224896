import AegisShield.Risk.Engine

/-!
# Assessments

Concurrent calls of `AssessmentService.evaluate` (`assessment.service.ts`, lines 133-252). The
look-up, the facts and the transaction are one step each; the facts (lines 20-132) and the clocks
are given to a call from outside, and a step may fail or its answer may be lost.

Results:
* `stored_once`: in every run an evaluation id has at most one assessment, and an assessment at
  most one incident and one control.
* `replay_bound`: in every run in which a call finds only an unexpired assessment of its own
  subject and operation and returns what it stores in time, each call returns an unexpired
  assessment of its own request, and calls with one evaluation id return the same one.
* `assessment_of_another`: an evaluation id that was used for one subject returns that assessment
  for another.
-/

namespace AegisShield.Risk

open Common

/-! ## The tables -/

/-- The column `input_facts` (lines 165-173). -/
structure InputFacts where
  operation : RiskOperation
  hasSession : Bool
  hasDevice : Bool
  hasAccount : Bool
  hasRecipient : Bool
  amountMinor : Option ℕ
  stepUpVerified : Bool
  deriving DecidableEq

/-- A row of `risk_assessments`; times are in milliseconds. -/
structure RiskAssessmentRow extends EngineResult where
  id : String
  evaluationId : String
  subjectId : String
  operation : RiskOperation
  inputFacts : InputFacts
  ruleSetVersion : String
  expiresAt : ℕ
  createdAt : ℕ
  deriving DecidableEq

instance : Keyed RiskAssessmentRow String := ⟨RiskAssessmentRow.id⟩

/-- The tables with the assessments, and the columns `assessment_id` of the incidents and of the
    controls: the ids of the rows in which they are set, each with the assessment. -/
structure AssessmentDb extends RiskDb where
  assessments : Table RiskAssessmentRow
  incidentAssessments : List (String × String)
  controlAssessments : List (String × String)

/-- What `evaluate` takes from its configuration and from libraries. -/
structure AssessmentRuntime where
  sha256 : String → String
  /-- `z.uuid()`. -/
  isUuid : String → Bool
  assessmentTtlSeconds : ℕ
  cumulativeValueMinor : ℤ
  highValueMinor : ℤ

/-- `RiskAssessment` (`contracts/risk/v1.ts`, line 197). -/
structure RiskAssessment extends EngineResult where
  assessmentId : String
  expiresAt : ℕ
  ruleSetVersion : String
  deriving DecidableEq

/-- The response of a row. -/
def RiskAssessmentRow.assessment (row : RiskAssessmentRow) : RiskAssessment where
  toEngineResult := row.toEngineResult
  assessmentId := row.id
  expiresAt := row.expiresAt
  ruleSetVersion := row.ruleSetVersion

/-- The text of a type. -/
def ControlType.text : ControlType → String
  | .REQUIRE_STEP_UP => "REQUIRE_STEP_UP"
  | .TEMPORARY_BLOCK => "TEMPORARY_BLOCK"
  | .TRANSFER_HOLD => "TRANSFER_HOLD"
  | .RECIPIENT_BLOCK => "RECIPIENT_BLOCK"
  | .SESSION_REVOKE => "SESSION_REVOKE"
  | .ACCOUNT_RESTRICT => "ACCOUNT_RESTRICT"
  | .MANUAL_REVIEW => "MANUAL_REVIEW"
  | .QUARANTINE => "QUARANTINE"

/-- `a || b` of texts. -/
def textOr (a b : String) : String := if a = "" then b else a

/-! ## The calls -/

/-- What a step gets from outside: the clock, at which the call goes on or returns; the facts; the
    generated ids; the clock of the database and the clock of line 213 within the transaction; and
    whether the answer of the transaction arrives. -/
structure EvaluateEnv where
  now : ℕ
  facts : RiskFacts
  assessmentId : String
  incidentId : String
  controlId : String
  createdAt : ℕ
  controlNow : ℕ
  answered : Bool

/-- A call, by the step that it is about to take. -/
inductive EvaluateCall where
  /-- Lines 134-137. -/
  | looking (input : RiskEvaluationRequest)
  /-- Lines 138-151. -/
  | scoring (input : RiskEvaluationRequest)
  /-- Lines 152-226, with the time that was read on line 150. -/
  | creating (input : RiskEvaluationRequest) (result : EngineResult) (scoredAt : ℕ)
  /-- The response, with the time at which it is returned. -/
  | done (input : RiskEvaluationRequest) (result : Except RiskError (RiskAssessment × ℕ))

section Calls

variable (runtime : AssessmentRuntime)

/-- The thresholds of `evaluate` (lines 138-148). -/
def AssessmentRuntime.thresholds : RiskThresholds where
  authFailures := 5
  requestVelocity := 60
  transferVelocity := 5
  cumulativeOutgoingMinor := runtime.cumulativeValueMinor
  highValueMinor := runtime.highValueMinor
  insufficientFunds := 3
  idempotencyConflicts := 2
  linkedSubjectsPerDevice := 3
  csrfMalformed := 5

/-- `expiresAt` (lines 149-151) of an assessment that was scored at a time. -/
def AssessmentRuntime.expiresAt (scoredAt : ℕ) : ℕ :=
  scoredAt + runtime.assessmentTtlSeconds * 1000

/-- `response` (lines 228-252). -/
def response (row : RiskAssessmentRow) : Except RiskError RiskAssessment :=
  if runtime.isUuid row.id && assessmentSchema row.toEngineResult row.ruleSetVersion then
    .ok row.assessment
  else .error .invalid

/-- `riskAssessment.findUnique({ where: { evaluationId } })`. -/
def AssessmentDb.findAssessment (db : AssessmentDb) (evaluationId : String) :
    Option RiskAssessmentRow :=
  db.assessments.rows.find? fun row => row.evaluationId = evaluationId

/-- `riskAssessment.create`: refused when the id or the evaluation id is taken, and by
    `risk_assessments_score_range` and `risk_assessments_expiry_after_creation`. -/
def AssessmentDb.createAssessment (db : AssessmentDb) (row : RiskAssessmentRow) :
    Option AssessmentDb :=
  if (db.findAssessment row.evaluationId).isSome || decide (100 < row.score) ||
      decide (row.expiresAt ≤ row.createdAt) then none
  else (db.assessments.insert row).map fun assessments => { db with assessments := assessments }

/-- The row of lines 154-178. -/
def assessmentRow (input : RiskEvaluationRequest) (result : EngineResult) (expiresAt : ℕ)
    (e : EvaluateEnv) : RiskAssessmentRow where
  toEngineResult := result
  id := e.assessmentId
  evaluationId := input.evaluationId
  subjectId := input.subjectId
  operation := input.operation
  inputFacts := {
    operation := input.operation
    hasSession := (input.sessionId.getD "") ≠ ""
    hasDevice := (input.deviceId.getD "") ≠ ""
    hasAccount := (input.accountId.getD "") ≠ ""
    hasRecipient := (input.recipientId.getD "") ≠ ""
    amountMinor := input.amountMinor
    stepUpVerified := input.stepUpVerified }
  ruleSetVersion := RULE_SET_VERSION
  expiresAt := expiresAt
  createdAt := e.createdAt

/-- The incident of lines 180-195, with its note. -/
def incidentOf (result : EngineResult) (e : EvaluateEnv) : Option (IncidentRow × String) :=
  if result.band = .HIGH ∨ result.band = .CRITICAL then
    some ({
      id := e.incidentId
      status := .OPEN
      assignedTo := none
      resolutionReason := none
      resolvedAt := none },
      textOr (", ".intercalate result.reasonCodes) "High aggregate risk")
  else none

/-- The seconds of a control (lines 198-199). -/
def controlDuration : RiskBand → ℕ
  | .CRITICAL => 900
  | .HIGH => 600
  | _ => 300

/-- The control of lines 197-222, with the reason of its event. -/
def controlOf (input : RiskEvaluationRequest) (result : EngineResult) (e : EvaluateEnv) :
    Option (ControlActionRow × String) :=
  result.controlRecommendation.map fun type => ({
    id := e.controlId
    idempotencyKeyHash := runtime.sha256 ("assessment:" ++ e.assessmentId ++ ":" ++ type.text)
    type := type
    scopeType := .CUSTOMER
    scopeId := input.subjectId
    reasonCode := textOr (result.reasonCodes.headD "") "RISK_SCORE_THRESHOLD"
    status := .ACTIVE
    incidentId := (incidentOf result e).map fun incident => incident.1.id
    createdBy := riskEngine
    expiresAt := e.controlNow + controlDuration result.band * 1000
    createdAt := e.createdAt },
    "Deterministic assessment " ++ e.assessmentId)

/-- The transaction of lines 152-225. -/
def AssessmentDb.evaluateTx (db : AssessmentDb) (row : RiskAssessmentRow)
    (assessment : Assessment) : Option AssessmentDb :=
  (db.createAssessment row).bind fun db =>
    (db.toRiskDb.assess assessment).map fun risk => {
      toRiskDb := risk
      assessments := db.assessments
      incidentAssessments := db.incidentAssessments ++
        (assessment.incident.map fun incident => (incident.1.id, row.id)).toList
      controlAssessments := db.controlAssessments ++
        (assessment.control.map fun control => (control.1.id, row.id)).toList }

/-- A call returns a row. -/
def EvaluateCall.returns (input : RiskEvaluationRequest) (row : RiskAssessmentRow) (now : ℕ) :
    EvaluateCall :=
  .done input ((response runtime row).map fun assessment => (assessment, now))

/-- The next step of a call; `e` is `none` when it fails. -/
def EvaluateCall.next (db : AssessmentDb) (call : EvaluateCall) (e : Option EvaluateEnv) :
    Option (AssessmentDb × EvaluateCall) :=
  match call, e with
  | .done _ _, _ => none
  | .looking input, none => some (db, .done input (.error .store))
  | .scoring input, none => some (db, .done input (.error .store))
  | .creating input _ _, none => some (db, .done input (.error .store))
  | .looking input, some e =>
    match db.findAssessment input.evaluationId with
    | some existing => some (db, .returns runtime input existing e.now)
    | none => some (db, .scoring input)
  | .scoring input, some e =>
    some (db, .creating input (evaluateRisk input e.facts runtime.thresholds) e.now)
  | .creating input result scoredAt, some e =>
    match db.evaluateTx (assessmentRow input result (runtime.expiresAt scoredAt) e)
      { incident := incidentOf result e, control := controlOf runtime input result e } with
    | none => some (db, .done input (.error .store))
    | some db' => some (db', if e.answered then
        .returns runtime input (assessmentRow input result (runtime.expiresAt scoredAt) e) e.now
      else .done input (.error .store))

end Calls

/-! ## The property -/

/-- The tables that evaluations leave: the unique index, the foreign keys, and at most one incident
    and one control of an assessment. -/
structure AssessmentDb.Consistent (db : AssessmentDb) : Prop where
  evaluations : (db.assessments.rows.map RiskAssessmentRow.evaluationId).Nodup
  incidents : (db.incidentAssessments.map Prod.snd).Nodup
  controls : (db.controlAssessments.map Prod.snd).Nodup
  incidentOf : ∀ p ∈ db.incidentAssessments, (db.assessments.find p.2).isSome
  controlOf : ∀ p ∈ db.controlAssessments, (db.assessments.find p.2).isSome

/-- Concurrent calls of `evaluate`. -/
def assessmentPool (runtime : AssessmentRuntime) :
    Pool AssessmentDb EvaluateCall RiskEvaluationRequest (Option EvaluateEnv) Empty where
  init := AssessmentDb.Consistent
  start _ input := .looking input
  next := EvaluateCall.next runtime
  env _ x := x.elim

abbrev EvaluateState := Pool.State AssessmentDb EvaluateCall

abbrev EvaluateAction := Pool.Action RiskEvaluationRequest (Option EvaluateEnv) Empty

/-- The assessment is the one that is stored for the evaluation, of the subject and the operation
    of the request, and has not expired at a time. -/
def IsBound (db : AssessmentDb) (input : RiskEvaluationRequest) (assessment : RiskAssessment)
    (now : ℕ) : Prop :=
  ∃ row ∈ db.assessments.rows, assessment = row.assessment ∧
    row.evaluationId = input.evaluationId ∧ row.subjectId = input.subjectId ∧
    row.operation = input.operation ∧ now < row.expiresAt

/-- Every assessment that is returned is that of its request; an evaluation id has one assessment,
    with at most one incident and one control, and all calls with the id return it. -/
structure ReplayBound (s : EvaluateState) : Prop where
  returned : ∀ input assessment now, .done input (.ok (assessment, now)) ∈ s.calls →
    IsBound s.shared input assessment now
  evaluations : ∀ row ∈ s.shared.assessments.rows, ∀ row' ∈ s.shared.assessments.rows,
    row.evaluationId = row'.evaluationId → row = row'
  incidents : ∀ id, (s.shared.incidentAssessments.filter fun p => p.2 = id).length ≤ 1
  controls : ∀ id, (s.shared.controlAssessments.filter fun p => p.2 = id).length ≤ 1
  same : ∀ input input' assessment assessment' now now',
    .done input (.ok (assessment, now)) ∈ s.calls →
    .done input' (.ok (assessment', now')) ∈ s.calls →
    input.evaluationId = input'.evaluationId → assessment = assessment'

/-- A call that finds an assessment finds one of its own subject and operation that has not
    expired, and a call that stores one returns within `assessmentTtlSeconds` of the time at which
    it read the clock for the expiry. -/
def bindsReplay (runtime : AssessmentRuntime) (s : EvaluateState) : EvaluateAction → Bool
  | .next n (some e) =>
    match s.calls[n]? with
    | some (.looking input) => (s.shared.findAssessment input.evaluationId).all fun row =>
        row.subjectId = input.subjectId && row.operation = input.operation &&
          decide (e.now < row.expiresAt)
    | some (.creating _ _ scoredAt) =>
      decide (e.now < scoredAt + runtime.assessmentTtlSeconds * 1000)
    | _ => true
  | _ => true

/-! ## What a step stores -/

section Stores

variable {runtime : AssessmentRuntime} {db db' : AssessmentDb} {row : RiskAssessmentRow}
  {assessment : Assessment} {input : RiskEvaluationRequest} {call call' : EvaluateCall}
  {e : Option EvaluateEnv}

/-- What the transaction stores. -/
theorem evaluateTx_some (h : db.evaluateTx row assessment = some db') :
    db.findAssessment row.evaluationId = none ∧
      db.assessments.insert row = some db'.assessments ∧
      db'.incidentAssessments = db.incidentAssessments ++
        (assessment.incident.map fun incident => (incident.1.id, row.id)).toList ∧
      db'.controlAssessments = db.controlAssessments ++
        (assessment.control.map fun control => (control.1.id, row.id)).toList := by
  obtain ⟨db₁, hcreate, hassess⟩ := Option.bind_eq_some_iff.mp h
  obtain ⟨risk, -, rfl⟩ := Option.map_eq_some_iff.mp hassess
  unfold AssessmentDb.createAssessment at hcreate
  split_ifs at hcreate with hrefused
  obtain ⟨assessments, hinsert, rfl⟩ := Option.map_eq_some_iff.mp hcreate
  simp only [Bool.or_eq_true, not_or, Bool.not_eq_true, Option.isSome_eq_false_iff,
    Option.isNone_iff_eq_none] at hrefused
  exact ⟨hrefused.1.1, hinsert, rfl, rfl⟩

theorem returns_ok {now : ℕ} {input' : RiskEvaluationRequest} {result : RiskAssessment × ℕ}
    (h : EvaluateCall.returns runtime input row now = .done input' (.ok result)) :
    input' = input ∧ result = (row.assessment, now) := by
  unfold EvaluateCall.returns response at h
  split_ifs at h
  · cases h
    exact ⟨rfl, rfl⟩
  · cases h

/-- A step that stores nothing and may return the assessment that it finds. -/
def Finds (db : AssessmentDb) (call call' : EvaluateCall) (e : Option EvaluateEnv) : Prop :=
  ∀ input result, call' = .done input (.ok result) → ∃ row e', e = some e' ∧
    call = .looking input ∧ db.findAssessment input.evaluationId = some row ∧
    result = (row.assessment, e'.now)

/-- A step that stores one assessment and may return it. -/
def Creates (runtime : AssessmentRuntime) (db db' : AssessmentDb) (call call' : EvaluateCall)
    (e : Option EvaluateEnv) : Prop :=
  ∃ input result scoredAt e' assessment, e = some e' ∧ call = .creating input result scoredAt ∧
    db.evaluateTx (assessmentRow input result (runtime.expiresAt scoredAt) e') assessment =
      some db' ∧
    ∀ input' response, call' = .done input' (.ok response) → input' = input ∧
      response =
        ((assessmentRow input result (runtime.expiresAt scoredAt) e').assessment, e'.now)

/-- What a step can do. -/
theorem next_cases (h : call.next runtime db e = some (db', call')) :
    (db' = db ∧ Finds db call call' e) ∨ Creates runtime db db' call call' e := by
  unfold EvaluateCall.next at h
  split at h
  · cases h
  iterate 3
    · cases h
      exact .inl ⟨rfl, fun input result hdone => by cases hdone⟩
  next input e' =>
    split at h
    next existing hfind =>
      cases h
      refine .inl ⟨rfl, fun input' result hdone => ?_⟩
      obtain ⟨rfl, rfl⟩ := returns_ok hdone
      exact ⟨existing, e', rfl, rfl, hfind, rfl⟩
    · cases h
      exact .inl ⟨rfl, fun input result hdone => by cases hdone⟩
  · cases h
    exact .inl ⟨rfl, fun input result hdone => by cases hdone⟩
  next input result scoredAt e' =>
    split at h
    · cases h
      exact .inl ⟨rfl, fun input result hdone => by cases hdone⟩
    next stored hstored =>
      cases h
      refine .inr ⟨input, result, scoredAt, e', _, rfl, rfl, hstored, fun input' response hdone => ?_⟩
      split_ifs at hdone
      · exact returns_ok hdone
      · cases hdone

/-- The column of a new assessment refers to it once. -/
theorem nodup_links {links : List (String × String)} (created : Option String)
    (hinsert : db.assessments.insert row = some db'.assessments)
    (hnodup : (links.map Prod.snd).Nodup)
    (hof : ∀ p ∈ links, (db.assessments.find p.2).isSome) :
    ((links ++ (created.map fun id => (id, row.id)).toList).map Prod.snd).Nodup ∧
      ∀ p ∈ links ++ (created.map fun id => (id, row.id)).toList,
        (db'.assessments.find p.2).isSome := by
  have hnew : db.assessments.find row.id = none := (Table.insert_some hinsert).1
  have hfind : ∀ id, db'.assessments.find id =
      if row.id = id then some row else db.assessments.find id := fun id => Table.find_insert hinsert
  have hfound : ∀ id, (db.assessments.find id).isSome → (db'.assessments.find id).isSome := by
    intro id hid
    rw [hfind]
    split_ifs
    · rfl
    · exact hid
  cases created with
  | none =>
    rw [Option.map_none, Option.toList_none, List.append_nil]
    exact ⟨hnodup, fun p hp => hfound _ (hof p hp)⟩
  | some id =>
    rw [Option.map_some, Option.toList_some, List.map_append, List.map_singleton]
    constructor
    · refine List.nodup_append.mpr ⟨hnodup, List.nodup_singleton _, fun x hx y hy hxy => ?_⟩
      obtain ⟨p, hp, rfl⟩ := List.mem_map.mp hx
      have hsome := hof p hp
      rw [hxy, List.mem_singleton.mp hy, hnew] at hsome
      cases hsome
    · intro p hp
      rcases List.mem_append.mp hp with hp | hp
      · exact hfound _ (hof p hp)
      · rw [List.mem_singleton.mp hp, hfind, if_pos rfl]
        rfl

/-- The transaction keeps the tables consistent. -/
theorem AssessmentDb.Consistent.evaluateTx (hdb : db.Consistent)
    (h : db.evaluateTx row assessment = some db') : db'.Consistent := by
  obtain ⟨hfree, hinsert, hincidents, hcontrols⟩ := evaluateTx_some h
  have hmap : ∀ {T : Type} (o : Option T) (f : T → String),
      (o.map fun x => (f x, row.id)) = (o.map f).map fun id => (id, row.id) :=
    fun o f => by rw [Option.map_map]; rfl
  have hincident := nodup_links (assessment.incident.map fun x => x.1.id) hinsert
    hdb.incidents hdb.incidentOf
  have hcontrol := nodup_links (assessment.control.map fun x => x.1.id) hinsert
    hdb.controls hdb.controlOf
  rw [← hmap, ← hincidents] at hincident
  rw [← hmap, ← hcontrols] at hcontrol
  refine ⟨?_, hincident.1, hcontrol.1, hincident.2, hcontrol.2⟩
  rw [(Table.insert_some hinsert).2, List.map_append, List.map_singleton]
  refine List.nodup_append.mpr ⟨hdb.evaluations, List.nodup_singleton _, fun x hx y hy hxy => ?_⟩
  obtain ⟨other, hother, rfl⟩ := List.mem_map.mp hx
  have hnone := List.find?_eq_none.mp hfree other hother
  exact hnone (decide_eq_true (hxy.trans (List.mem_singleton.mp hy)))

/-- Stored assessments stay as they are. -/
theorem mem_evaluateTx (h : db.evaluateTx row assessment = some db') :
    row ∈ db'.assessments.rows ∧ ∀ other ∈ db.assessments.rows, other ∈ db'.assessments.rows := by
  obtain ⟨-, hinsert, -⟩ := evaluateTx_some h
  rw [(Table.insert_some hinsert).2]
  exact ⟨List.mem_append_right _ List.mem_cons_self, fun other hother => List.mem_append_left _ hother⟩

end Stores

/-! ## Runs -/

section Runs

variable {runtime : AssessmentRuntime} {s : EvaluateState} {C : EvaluateState → EvaluateAction → Prop}

/-- In every run an evaluation id has at most one assessment, and an assessment at most one
    incident and one control. -/
theorem stored_once (h : (assessmentPool runtime).machine.Reachable C s) : s.shared.Consistent := by
  refine (Pool.invariant (L := assessmentPool runtime) (A := fun _ _ => True) (fun _ hdb => hdb)
    (fun _ _ _ => trivial) ?_ (fun _ x => x.elim) h).1
  intro s n e call db' call' hdb _ _ _ hnext
  refine ⟨?_, trivial, fun _ _ _ _ => trivial⟩
  obtain ⟨rfl, -⟩ | ⟨input, result, scoredAt, e', assessment, -, -, hstored, -⟩ := next_cases hnext
  · exact hdb
  · exact hdb.evaluateTx hstored

/-- What a call has returned is bound to its request. -/
def CallBound (db : AssessmentDb) : EvaluateCall → Prop
  | .done input (.ok (assessment, now)) => IsBound db input assessment now
  | _ => True

/-- A call is bound if it is when it has returned an assessment. -/
theorem callBound_of {db : AssessmentDb} {call : EvaluateCall}
    (h : ∀ input assessment now, call = .done input (.ok (assessment, now)) →
      IsBound db input assessment now) : CallBound db call := by
  unfold CallBound
  split
  · exact h _ _ _ rfl
  · trivial

theorem CallBound.mono {db db' : AssessmentDb} {call : EvaluateCall} (h : CallBound db call)
    (hrows : ∀ row ∈ db.assessments.rows, row ∈ db'.assessments.rows) : CallBound db' call := by
  refine callBound_of ?_
  rintro input assessment now rfl
  obtain ⟨row, hrow, hbound⟩ := h
  exact ⟨row, hrows row hrow, hbound⟩

/-- In every run under the condition, what is returned is bound to its request. -/
theorem returned_bound
    (h : (assessmentPool runtime).machine.Reachable (fun s a => bindsReplay runtime s a = true) s) :
    ∀ call ∈ s.calls, CallBound s.shared call := by
  refine (Pool.invariant (L := assessmentPool runtime) (G := fun _ => True) (fun _ _ => trivial)
    (fun _ _ _ => trivial) ?_ (fun _ x => x.elim) h).2
  intro s n e call db' call' _ hcalls hcond hcall hnext
  refine ⟨trivial, ?_⟩
  obtain ⟨rfl, hfinds⟩ | ⟨input, result, scoredAt, e', assessment, rfl, rfl, hstored, hdone⟩ :=
    next_cases hnext
  · refine ⟨callBound_of ?_, fun m q _ hq => hcalls q (List.mem_of_getElem? hq)⟩
    intro input assessment now hresult
    obtain ⟨row, e', rfl, rfl, hfind, heq⟩ := hfinds input (assessment, now) hresult
    cases heq
    have hid := List.find?_some hfind
    simp only [bindsReplay, hcall, hfind, Option.all_some, Bool.and_eq_true, decide_eq_true_eq]
      at hcond
    exact ⟨row, List.mem_of_find?_eq_some hfind, rfl, of_decide_eq_true hid, hcond.1.1, hcond.1.2,
      hcond.2⟩
  · obtain ⟨hrow, hrows⟩ := mem_evaluateTx hstored
    refine ⟨callBound_of ?_, fun m q _ hq => (hcalls q (List.mem_of_getElem? hq)).mono hrows⟩
    intro input' response now hresult
    obtain ⟨rfl, heq⟩ := hdone input' (response, now) hresult
    cases heq
    simp only [bindsReplay, hcall, decide_eq_true_eq] at hcond
    exact ⟨_, hrow, rfl, rfl, rfl, rfl, hcond⟩

/-- Of pairs with different second members at most one has a given one. -/
theorem length_filter_snd {links : List (String × String)} (h : (links.map Prod.snd).Nodup)
    (id : String) : (links.filter fun p => p.2 = id).length ≤ 1 := by
  have hcount := List.nodup_iff_count_le_one.mp h id
  rw [List.count, List.countP_map, List.countP_eq_length_filter] at hcount
  exact hcount

/-- In every run in which a call finds only an unexpired assessment of its own subject and
    operation, and returns what it stores before that expires, replay is bound to the request. -/
theorem replay_bound (runtime : AssessmentRuntime) (s : EvaluateState)
    (h : (assessmentPool runtime).machine.Reachable (fun s a => bindsReplay runtime s a = true) s) :
    ReplayBound s := by
  have hdb := stored_once h
  have hbound := returned_bound h
  have hevaluations : ∀ row ∈ s.shared.assessments.rows, ∀ row' ∈ s.shared.assessments.rows,
      row.evaluationId = row'.evaluationId → row = row' :=
    fun row hrow row' hrow' heq => List.inj_on_of_nodup_map hdb.evaluations hrow hrow' heq
  refine ⟨fun input assessment now hmem => hbound _ hmem, hevaluations,
    length_filter_snd hdb.incidents, length_filter_snd hdb.controls, ?_⟩
  intro input input' assessment assessment' now now' hmem hmem' hid
  obtain ⟨row, hrow, rfl, hrowid, -⟩ := hbound _ hmem
  obtain ⟨row', hrow', rfl, hrowid', -⟩ := hbound _ hmem'
  rw [hevaluations row hrow row' hrow' (hrowid.trans (hid.trans hrowid'.symm))]

end Runs

/-! ## Two runs -/

/-- A configuration. -/
def exampleRuntime : AssessmentRuntime where
  sha256 := id
  isUuid := fun _ => true
  assessmentTtlSeconds := 300
  cumulativeValueMinor := 25000000
  highValueMinor := 10000000

/-- A transfer of 200,000.00 LKR. -/
def highValueTransfer (subjectId : String) : RiskEvaluationRequest where
  evaluationId := "evaluation-1"
  operation := .TRANSFER_CONFIRMATION
  subjectId := subjectId
  sessionId := some "session-1"
  deviceId := none
  accountId := some "account-1"
  recipientId := some "recipient-1"
  amountMinor := some 20000000
  stepUpVerified := false

/-- Nothing is known but that the recipient is new. -/
def newRecipientFacts : RiskFacts where
  authFailures := 0
  requestVelocity := 0
  transferVelocity := 0
  cumulativeOutgoingMinor := 0
  newRecipient := true
  insufficientFunds := 0
  idempotencyConflicts := 0
  linkedSubjectsForDevice := 0
  rapidRegionChange := false
  integrityAnomaly := false
  internalAuthFailures := 0
  csrfMalformedFailures := 0
  blockedScope := false
  activeIncident := false
  activeControl := false

/-- A step at a time, with the ids that it may generate. -/
def stepAt (n now : ℕ) (suffix : String) : EvaluateAction := .next n (some {
  now := now
  facts := newRecipientFacts
  assessmentId := "assessment-" ++ suffix
  incidentId := "incident-" ++ suffix
  controlId := "control-" ++ suffix
  createdAt := now
  controlNow := now
  answered := true })

/-- The tables before any call. -/
def noAssessments : AssessmentDb where
  toRiskDb := RiskDb.migrated
  assessments := Table.empty
  incidentAssessments := []
  controlAssessments := []

theorem noAssessments_consistent : noAssessments.Consistent :=
  ⟨List.nodup_nil, List.nodup_nil, List.nodup_nil, fun p hp => (by cases hp),
    fun p hp => (by cases hp)⟩

/-- The first and the last of three calls have returned one assessment. -/
def returnedTwice (s : EvaluateState) : Bool :=
  match s.calls with
  | [.done _ (.ok first), .done _ (.error _), .done _ (.ok last)] => first.1 = last.1
  | _ => false

/-- Two calls with one request overlap, and a third one follows. -/
theorem replay_bound_three : ∃ s, ReplayBound s ∧ returnedTwice s = true ∧
    s.shared.incidentAssessments = [("incident-1", "assessment-1")] ∧
    s.shared.controlAssessments = [("control-1", "assessment-1")] := by
  obtain ⟨s, hs, hend⟩ := Machine.reachable_of_runUnder (M := (assessmentPool exampleRuntime).machine)
    (C := fun s a => bindsReplay exampleRuntime s a = true)
    [.start (highValueTransfer "customer-1"), .start (highValueTransfer "customer-1"),
      stepAt 0 1 "-", stepAt 1 2 "-", stepAt 0 3 "-", stepAt 1 4 "-", stepAt 0 5 "1",
      stepAt 1 6 "2", .start (highValueTransfer "customer-1"), stepAt 2 7 "-"]
    (bindsReplay exampleRuntime)
    (fun s => returnedTwice s &&
      decide (s.shared.incidentAssessments = [("incident-1", "assessment-1")] ∧
        s.shared.controlAssessments = [("control-1", "assessment-1")]))
    (fun _ _ h => h) (s := ⟨noAssessments, []⟩) ⟨noAssessments_consistent, rfl⟩ (by decide +kernel)
  rw [Bool.and_eq_true, decide_eq_true_eq] at hend
  exact ⟨s, replay_bound exampleRuntime s hs, hend⟩

/-- The assessments are of the first subject, and a call for the second one has returned. -/
def returnedToOther (s : EvaluateState) : Bool :=
  (s.shared.assessments.rows.all fun row => decide (row.subjectId = "customer-1")) &&
    s.calls.any fun
      | .done input (.ok _) => decide (input.subjectId = "customer-2")
      | _ => false

/-- An evaluation id that was used for one subject returns that assessment for another. -/
theorem assessment_of_another : ¬ ∀ (runtime : AssessmentRuntime) (s : EvaluateState),
    (assessmentPool runtime).machine.Reachable Machine.always s → ReplayBound s := by
  intro h
  obtain ⟨s, hs, hend⟩ := Machine.reachable_of_run (M := (assessmentPool exampleRuntime).machine)
    [.start (highValueTransfer "customer-1"), stepAt 0 1 "-", stepAt 0 2 "-", stepAt 0 3 "1",
      .start (highValueTransfer "customer-2"), stepAt 1 4 "-"]
    returnedToOther (s := ⟨noAssessments, []⟩) ⟨noAssessments_consistent, rfl⟩ (by decide +kernel)
  unfold returnedToOther at hend
  rw [Bool.and_eq_true, List.all_eq_true, List.any_eq_true] at hend
  obtain ⟨hsubjects, call, hcall, hreturned⟩ := hend
  split at hreturned
  next input result =>
    obtain ⟨row, hrow, -, -, hsubject, -⟩ := (h exampleRuntime s hs).returned input result.1 result.2
      hcall
    have hother := of_decide_eq_true hreturned
    rw [← hsubject, of_decide_eq_true (hsubjects row hrow)] at hother
    exact absurd hother (by decide)
  · cases hreturned

end AegisShield.Risk
