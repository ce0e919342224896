import AegisShield.Risk.Assessment

/-!
# The two gates of a payment

`PaymentsRiskClient.enforce` (`payments/transfers/risk.client.ts`, lines 49-88) asks the Risk
service twice: `check` (`control.service.ts`) considers every control in force, `evaluate`
(`assessment.service.ts`, lines 20-132) at most twenty of those of the customer.

Results:
* `gates_agree_iff`: the gates agree exactly when the page shows what the check sees, or when the
  other facts alone stop the operation.
* `gates_contradict`: twenty step-up controls hide a block from a verified request.
-/

namespace AegisShield.Risk

open Common

/-! ## What `evaluate` loads -/

/-- What `facts` reads beside the controls (lines 36-92): counters, and numbers of rows. -/
structure FactReads where
  authFailures : ℤ
  requestVelocity : ℤ
  transferVelocity : ℤ
  cumulative : ℤ
  insufficient : ℤ
  idempotency : ℤ
  invalid : ℤ
  deviceSubjects : ℕ
  integrity : ℕ
  internalAuth : ℕ
  newRecipient : ℕ
  activeIncident : ℕ

/-- A control of the type blocks its subject (lines 104-111). -/
def ControlType.blocks (type : ControlType) : Bool :=
  decide (type ∈ [ControlType.TEMPORARY_BLOCK, .QUARANTINE, .ACCOUNT_RESTRICT, .RECIPIENT_BLOCK])

/-- A control of the type counts for a request (lines 112-114). -/
def ControlType.relevant (stepUpVerified : Bool) (type : ControlType) : Bool :=
  decide (type ≠ .REQUIRE_STEP_UP) || !stepUpVerified

/-- `facts` (lines 115-131), from what it read and the types of the controls that it loaded. -/
def loadedFacts (reads : FactReads) (stepUpVerified : Bool) (activeControls : List ControlType) :
    RiskFacts where
  authFailures := reads.authFailures
  requestVelocity := reads.requestVelocity
  transferVelocity := reads.transferVelocity
  cumulativeOutgoingMinor := reads.cumulative
  newRecipient := decide (0 < reads.newRecipient)
  insufficientFunds := reads.insufficient
  idempotencyConflicts := reads.idempotency
  linkedSubjectsForDevice := reads.deviceSubjects
  rapidRegionChange := false
  integrityAnomaly := decide (0 < reads.integrity)
  internalAuthFailures := reads.internalAuth
  csrfMalformedFailures := reads.invalid
  blockedScope := activeControls.any ControlType.blocks
  activeIncident := decide (0 < reads.activeIncident)
  activeControl := activeControls.any (ControlType.relevant stepUpVerified)

/-- The `take` of the controls. -/
def controlTake : ℕ := 20

namespace RiskDb

/-- The controls in force on a customer. -/
def customerControls (db : RiskDb) (now : ℕ) (subjectId : String) : List ControlActionRow :=
  db.controls.rows.filter fun row => row.status = .ACTIVE && decide (now < row.expiresAt) &&
    decide ((row.scopeType, row.scopeId) = (ControlScope.CUSTOMER, subjectId))

/-- `findMany` without an order returns any `controlTake` of the rows that match (lines 93-102). -/
def IsControlPage (db : RiskDb) (now : ℕ) (subjectId : String) (page : List ControlActionRow) :
    Prop :=
  ∃ rows : List ControlActionRow, rows.Perm (db.customerControls now subjectId) ∧
    page = rows.take controlTake

end RiskDb

/-! ## The gates -/

/-- The scopes that `enforce` has checked (lines 52-60). -/
def enforceScopes (input : RiskEvaluationRequest) : List Scope :=
  (.CUSTOMER, input.subjectId) ::
    (((input.accountId.filter fun id => id ≠ "").map fun id => (ControlScope.ACCOUNT, id)).toList ++
      ((input.recipientId.filter fun id => id ≠ "").map fun id =>
        (ControlScope.RECIPIENT, id)).toList)

/-- `enforce` lets an operation through with the decision (line 81). -/
def EngineDecision.passes (decision : EngineDecision) : Bool :=
  decide (decision ∈ [EngineDecision.ALLOW, .ALLOW_WITH_MONITORING])

/-- A control of the type makes `check` disallow. -/
def ControlType.stops (type : ControlType) : Bool :=
  type.blocks || decide (type ∈ [ControlType.TRANSFER_HOLD, .MANUAL_REVIEW])

section Gates

variable (runtime : AssessmentRuntime) (db : RiskDb) (now : ℕ) (input : RiskEvaluationRequest)
  (reads : FactReads)

/-- What a new evaluation decides from a page of the controls. -/
def evaluated (page : List ControlActionRow) : EngineResult :=
  evaluateRisk input
    (loadedFacts reads input.stepUpVerified (page.map ControlActionRow.type)) runtime.thresholds

/-- The gates do not contradict each other: if the check disallows an operation, the evaluation
    does not let it through, whichever page it loads. -/
def GatesAgree : Prop :=
  (checkResponse (db.controlsInForce now (enforceScopes input))).allowed = false →
    ∀ page, db.IsControlPage now input.subjectId page →
      (evaluated runtime input reads page).decision.passes = false

/-- The page shows what the check sees: a request without verification is stopped by any control,
    and fewer step-up controls than fill a page hide no other. -/
def PageShows : Prop :=
  input.stepUpVerified = false ∨
    ((db.customerControls now input.subjectId).countP fun row => row.type = .REQUIRE_STEP_UP) <
      controlTake ∨
    ∀ row ∈ db.customerControls now input.subjectId, row.type.stops = false

/-- The facts apart from the controls stop the operation. -/
def OthersStop : Prop :=
  50 ≤ riskScore input (loadedFacts reads input.stepUpVerified []) runtime.thresholds

end Gates

/-! ## What each gate decides -/

/-- `check` disallows just what a stopping control is in force on. -/
theorem allowed_checkResponse (rows : List ControlActionRow) :
    (checkResponse rows).allowed = false ↔ ∃ row ∈ rows, row.type.stops = true := by
  have hstops (type : ControlType) : type.stops = true ↔ type = .QUARANTINE ∨
      type ∈ [ControlType.TEMPORARY_BLOCK, .ACCOUNT_RESTRICT, .RECIPIENT_BLOCK] ∨
      type ∈ [ControlType.TRANSFER_HOLD, .MANUAL_REVIEW] := by
    cases type <;> decide
  simp only [checkResponse, Bool.and_eq_false_iff, Bool.not_eq_false', Bool.or_eq_true,
    decide_eq_true_eq, List.any_eq_true, List.mem_map, hstops]
  constructor
  · rintro ((⟨row, hrow, htype⟩ | ⟨_, ⟨row, hrow, rfl⟩, htype⟩) | ⟨_, ⟨row, hrow, rfl⟩, htype⟩)
    · exact ⟨row, hrow, .inl htype⟩
    · exact ⟨row, hrow, .inr (.inl htype)⟩
    · exact ⟨row, hrow, .inr (.inr htype)⟩
  · rintro ⟨row, hrow, htype | htype | htype⟩
    · exact .inl (.inl ⟨row, hrow, htype⟩)
    · exact .inl (.inr ⟨_, ⟨row, hrow, rfl⟩, htype⟩)
    · exact .inr ⟨_, ⟨row, hrow, rfl⟩, htype⟩

variable {facts : RiskFacts}

/-- What the engine lets through. -/
theorem passes_evaluateRisk {input : RiskEvaluationRequest} {thresholds : RiskThresholds} :
    (evaluateRisk input facts thresholds).decision.passes = true ↔
      facts.blockedScope = false ∧ riskScore input facts thresholds < 50 ∧
        (riskScore input facts thresholds < 25 ∨ input.stepUpVerified = true) := by
  show (engineDecision facts.blockedScope (riskBand (riskScore input facts thresholds))
    input.stepUpVerified _).1.passes = true ↔ _
  generalize riskScore input facts thresholds = score
  unfold engineDecision riskBand
  split_ifs <;> simp_all [EngineDecision.passes]; omega

/-- A control that counts is worth a hold. -/
theorem le_riskScore_of_activeControl {input : RiskEvaluationRequest}
    (thresholds : RiskThresholds) (h : facts.activeControl = true) :
    50 ≤ riskScore input facts thresholds := by
  have hrule : (⟨"EXISTING_RISK_STATE", "ACTIVE_INCIDENT_OR_CONTROL", 50⟩ : TriggeredRule) ∈
      triggeredRiskRules input facts thresholds := by
    refine List.mem_map.mpr ⟨(facts.activeIncident || facts.activeControl, _),
      List.mem_filter.mpr ⟨?_, ?_⟩, rfl⟩
    · simp [riskRules]
    · simp [h]
  have hsum : 50 ≤ ((triggeredRiskRules input facts thresholds).map TriggeredRule.weight).sum :=
    List.single_le_sum (fun _ _ => Nat.zero_le _) _ (List.mem_map_of_mem hrule)
  unfold riskScore
  omega

/-! ## The page -/

section Page

variable {runtime : AssessmentRuntime} {db : RiskDb} {now : ℕ} {input : RiskEvaluationRequest}
  {reads : FactReads} {page : List ControlActionRow}

/-- Controls that do not count leave the facts as they are without any. -/
theorem loadedFacts_of_irrelevant {stepUpVerified : Bool} {types : List ControlType}
    (h : ∀ type ∈ types, type.relevant stepUpVerified = false) :
    loadedFacts reads stepUpVerified types = loadedFacts reads stepUpVerified [] := by
  have hrelevant : types.any (ControlType.relevant stepUpVerified) = false :=
    List.any_eq_false.mpr fun type htype => by simp [h type htype]
  have hblocks : types.any ControlType.blocks = false := by
    refine List.any_eq_false.mpr fun type htype hblocks => ?_
    have hstep := h type htype
    unfold ControlType.relevant at hstep
    cases type <;> simp_all [ControlType.blocks]
  unfold loadedFacts
  rw [hrelevant, hblocks]
  rfl

/-- A page with a control that counts stops the operation. -/
theorem passes_of_page (h : (evaluated runtime input reads page).decision.passes = true) :
    (∀ row ∈ page, row.type.relevant input.stepUpVerified = false) ∧
      ¬ OthersStop runtime input reads := by
  obtain ⟨-, hscore, -⟩ := passes_evaluateRisk.mp h
  have hirrelevant : ∀ row ∈ page, row.type.relevant input.stepUpVerified = false := by
    intro row hrow
    by_contra hrelevant
    rw [Bool.not_eq_false] at hrelevant
    have hcontrol : (loadedFacts reads input.stepUpVerified
        (page.map ControlActionRow.type)).activeControl = true :=
      List.any_eq_true.mpr ⟨row.type, List.mem_map_of_mem hrow, hrelevant⟩
    have hle : 50 ≤ riskScore input (loadedFacts reads input.stepUpVerified
        (page.map ControlActionRow.type)) runtime.thresholds :=
      le_riskScore_of_activeControl runtime.thresholds hcontrol
    omega
  refine ⟨hirrelevant, ?_⟩
  rw [loadedFacts_of_irrelevant (by simpa using hirrelevant)] at hscore
  unfold OthersStop
  omega

/-- A verified request passes a page of step-up controls, unless the other facts stop it. -/
theorem passes_of_stepUp (hstep : input.stepUpVerified = true)
    (hpage : ∀ row ∈ page, row.type = .REQUIRE_STEP_UP)
    (hothers : ¬ OthersStop runtime input reads) :
    (evaluated runtime input reads page).decision.passes = true := by
  have hirrelevant : ∀ type ∈ page.map ControlActionRow.type,
      type.relevant input.stepUpVerified = false := by
    intro type htype
    obtain ⟨row, hrow, rfl⟩ := List.mem_map.mp htype
    rw [hpage row hrow, hstep]
    rfl
  refine passes_evaluateRisk.mpr ⟨?_, ?_, .inr hstep⟩
  · rw [loadedFacts_of_irrelevant hirrelevant]
    rfl
  · rw [loadedFacts_of_irrelevant hirrelevant]
    exact not_le.mp hothers

/-- A page of step-up controls that leaves a control out is full. -/
theorem RiskDb.IsControlPage.full (h : db.IsControlPage now input.subjectId page)
    (hpage : ∀ row ∈ page, row.type = .REQUIRE_STEP_UP) {row : ControlActionRow}
    (hrow : row ∈ db.customerControls now input.subjectId) (htype : row.type ≠ .REQUIRE_STEP_UP) :
    controlTake ≤ (db.customerControls now input.subjectId).countP fun row =>
      row.type = .REQUIRE_STEP_UP := by
  obtain ⟨rows, hperm, rfl⟩ := h
  have hlength : controlTake < rows.length := by
    by_contra hshort
    rw [List.take_of_length_le (not_lt.mp hshort)] at hpage
    exact htype (hpage row (hperm.mem_iff.mpr hrow))
  have hcount : (rows.take controlTake).countP (fun row => row.type = .REQUIRE_STEP_UP) =
      controlTake := by
    rw [List.countP_eq_length.mpr fun row hrow => decide_eq_true (hpage row hrow),
      List.length_take]
    omega
  calc controlTake
      = (rows.take controlTake).countP (fun row => row.type = .REQUIRE_STEP_UP) := hcount.symm
    _ ≤ rows.countP fun row => row.type = .REQUIRE_STEP_UP :=
      (List.take_sublist _ _).countP_le
    _ = _ := hperm.countP_eq _

/-- Enough step-up controls fill a page. -/
theorem exists_stepUpPage (h : controlTake ≤
    (db.customerControls now input.subjectId).countP fun row => row.type = .REQUIRE_STEP_UP) :
    ∃ page, db.IsControlPage now input.subjectId page ∧
      ∀ row ∈ page, row.type = .REQUIRE_STEP_UP := by
  have hsplit := List.filter_append_perm (fun row : ControlActionRow =>
    decide (row.type = .REQUIRE_STEP_UP)) (db.customerControls now input.subjectId)
  refine ⟨_, ⟨_, hsplit, rfl⟩, fun row hrow => ?_⟩
  rw [List.countP_eq_length_filter] at h
  rw [List.take_append_of_le_length h] at hrow
  exact of_decide_eq_true (List.mem_filter.mp (List.mem_of_mem_take hrow)).2

end Page

/-! ## Main results -/

section Agreement

variable {runtime : AssessmentRuntime} {db : RiskDb} {now : ℕ} {input : RiskEvaluationRequest}
  {reads : FactReads}

variable {row : ControlActionRow}

theorem mem_controlsInForce {scopes : List Scope} :
    row ∈ db.controlsInForce now scopes ↔ row ∈ db.controls.rows ∧ row.status = .ACTIVE ∧
      now < row.expiresAt ∧ (row.scopeType, row.scopeId) ∈ scopes := by
  unfold RiskDb.controlsInForce
  rw [List.mem_insertionSort, List.mem_filter]
  simp [and_assoc]

/-- The controls of the customer are those that the check sees, if no others are in force. -/
theorem mem_customerControls
    (hcustomer : ∀ row ∈ db.controlsInForce now (enforceScopes input), row.scopeType = .CUSTOMER) :
    row ∈ db.customerControls now input.subjectId ↔
      row ∈ db.controlsInForce now (enforceScopes input) := by
  have hmem : row ∈ db.customerControls now input.subjectId ↔ row ∈ db.controls.rows ∧
      row.status = .ACTIVE ∧ now < row.expiresAt ∧
        (row.scopeType, row.scopeId) = (ControlScope.CUSTOMER, input.subjectId) := by
    unfold RiskDb.customerControls
    rw [List.mem_filter]
    simp [and_assoc]
  rw [hmem, mem_controlsInForce]
  constructor
  · rintro ⟨hrow, hactive, hexpires, hscope⟩
    exact ⟨hrow, hactive, hexpires, hscope ▸ List.mem_cons_self⟩
  · rintro ⟨hrow, hactive, hexpires, hscope⟩
    have htype := hcustomer row (mem_controlsInForce.mpr ⟨hrow, hactive, hexpires, hscope⟩)
    refine ⟨hrow, hactive, hexpires, ?_⟩
    simp only [enforceScopes, List.mem_cons, List.mem_append, Option.mem_toList,
      Option.map_eq_some_iff, Prod.mk.injEq, htype] at hscope
    simpa [htype] using hscope

/-- Otherwise a page hides what the check sees. -/
theorem contradiction_of_hidden (hshows : ¬ PageShows db now input)
    (hothers : ¬ OthersStop runtime input reads) :
    (∃ row ∈ db.customerControls now input.subjectId, row.type.stops = true) ∧
      ∃ page, db.IsControlPage now input.subjectId page ∧
        (evaluated runtime input reads page).decision.passes = true := by
  unfold PageShows at hshows
  push Not at hshows
  obtain ⟨hstep, hfull, row, hrow, hstops⟩ := hshows
  replace hstep := eq_true_of_ne_false hstep
  obtain ⟨page, hpage, htypes⟩ := exists_stepUpPage hfull
  exact ⟨⟨row, hrow, by simpa using hstops⟩, page, hpage, passes_of_stepUp hstep htypes hothers⟩

/-- On the controls of a customer the gates agree exactly when the page shows what the check sees
    or the other facts stop the operation. -/
theorem gates_agree_iff
    (hcustomer : ∀ row ∈ db.controlsInForce now (enforceScopes input), row.scopeType = .CUSTOMER) :
    GatesAgree runtime db now input reads ↔
      PageShows db now input ∨ OthersStop runtime input reads := by
  unfold GatesAgree
  rw [allowed_checkResponse]
  constructor
  · intro hagree
    by_contra hneither
    rw [not_or] at hneither
    obtain ⟨⟨row, hrow, hstops⟩, page, hpage, hpasses⟩ :=
      contradiction_of_hidden hneither.1 hneither.2
    have hfails := hagree ⟨row, (mem_customerControls hcustomer).mp hrow, hstops⟩ page hpage
    rw [hpasses] at hfails
    cases hfails
  · rintro hshows ⟨row, hrow, hstops⟩ page hpage
    rw [← mem_customerControls hcustomer] at hrow
    by_contra hpasses
    rw [Bool.not_eq_false] at hpasses
    obtain ⟨hirrelevant, hothers⟩ := passes_of_page hpasses
    have hnot : row.type ≠ .REQUIRE_STEP_UP := by
      intro htype
      rw [htype] at hstops
      cases hstops
    have htypes : ∀ row ∈ page, row.type = .REQUIRE_STEP_UP := by
      intro row hrow
      have htype := hirrelevant row hrow
      unfold ControlType.relevant at htype
      simp only [Bool.or_eq_false_iff, decide_eq_false_iff_not, not_not] at htype
      exact htype.1
    have hfull := hpage.full htypes hrow hnot
    rcases hshows with (hstep | hfew | hnone) | hstop
    · obtain ⟨rows, hperm, rfl⟩ := hpage
      have hmem : row ∈ rows := hperm.mem_iff.mpr hrow
      have hlength := List.length_pos_of_mem hmem
      obtain ⟨first, hfirst⟩ := List.exists_mem_of_length_pos (l := rows.take controlTake) (by
        rw [List.length_take]
        exact lt_min (by decide) hlength)
      have hrelevant := hirrelevant first hfirst
      rw [hstep] at hrelevant
      simp [ControlType.relevant] at hrelevant
    · omega
    · rw [hnone row hrow] at hstops
      cases hstops
    · exact hothers hstop

end Agreement

/-! ## Twenty step-up controls and a block -/

/-- A control of the customer until 300000 ms. -/
def customerControl (n : ℕ) (type : ControlType) : ControlActionRow where
  id := "control-" ++ toString n
  idempotencyKeyHash := "key-" ++ toString n
  type := type
  scopeType := .CUSTOMER
  scopeId := "customer-1"
  reasonCode := "SUSPICIOUS_ACTIVITY"
  status := .ACTIVE
  incidentId := none
  createdBy := "operator:1"
  expiresAt := 300000
  createdAt := n

/-- A block and `n` step-up controls. -/
def blockAndStepUps (n : ℕ) : List ControlActionRow :=
  customerControl 0 .TEMPORARY_BLOCK ::
    (List.range n).map fun k => customerControl (k + 1) .REQUIRE_STEP_UP

/-- The tables with twenty step-up controls and a block. -/
def hiddenBlock : RiskDb :=
  { RiskDb.migrated with controls := ⟨blockAndStepUps 20, by decide +kernel⟩ }

/-- The tables with two step-up controls and a block. -/
def shownBlock : RiskDb :=
  { RiskDb.migrated with controls := ⟨blockAndStepUps 2, by decide +kernel⟩ }

/-- A verified transfer of the customer. -/
def verifiedTransfer : RiskEvaluationRequest where
  evaluationId := "evaluation-1"
  operation := .TRANSFER_CONFIRMATION
  subjectId := "customer-1"
  sessionId := none
  deviceId := none
  accountId := some "account-1"
  recipientId := some "account-2"
  amountMinor := some 5000
  stepUpVerified := true

/-- Nothing was read beside the controls. -/
def quietReads : FactReads := ⟨0, 0, 0, 0, 0, 0, 0, 0, 0, 0, 0, 0⟩

theorem customer_blockAndStepUps (n : ℕ) :
    ∀ row ∈ blockAndStepUps n, row.scopeType = .CUSTOMER := by
  intro row hrow
  rcases List.mem_cons.mp hrow with rfl | hrow
  · rfl
  · obtain ⟨k, -, rfl⟩ := List.mem_map.mp hrow
    rfl

/-- A page of step-up controls hides a block, and a verified transfer passes the evaluation. -/
theorem gates_contradict : ¬ ∀ (runtime : AssessmentRuntime) (db : RiskDb) (now : ℕ)
    (input : RiskEvaluationRequest) (reads : FactReads),
    (∀ row ∈ db.controlsInForce now (enforceScopes input), row.scopeType = .CUSTOMER) →
    GatesAgree runtime db now input reads := by
  intro h
  have hcustomer : ∀ row ∈ hiddenBlock.controlsInForce 0 (enforceScopes verifiedTransfer),
      row.scopeType = .CUSTOMER := fun row hrow =>
    customer_blockAndStepUps 20 row (mem_controlsInForce.mp hrow).1
  have hshows : ¬ PageShows hiddenBlock 0 verifiedTransfer := by
    unfold PageShows
    rintro (hstep | hfew | hnone)
    · cases hstep
    · revert hfew
      decide +kernel
    · have hblock := hnone (customerControl 0 .TEMPORARY_BLOCK) (by decide +kernel)
      cases hblock
  have hothers : ¬ OthersStop exampleRuntime verifiedTransfer quietReads := by
    unfold OthersStop
    decide +kernel
  obtain ⟨⟨row, hrow, hstops⟩, page, hpage, hpasses⟩ := contradiction_of_hidden hshows hothers
  have hdisallowed := allowed_checkResponse _ |>.mpr
    ⟨row, (mem_customerControls hcustomer).mp hrow, hstops⟩
  have hfails := h exampleRuntime hiddenBlock 0 verifiedTransfer quietReads hcustomer hdisallowed
    page hpage
  rw [hpasses] at hfails
  cases hfails

/-- Among two step-up controls the block is seen. -/
theorem gates_agree_shown : GatesAgree exampleRuntime shownBlock 0 verifiedTransfer quietReads := by
  refine (gates_agree_iff fun row hrow => ?_).mpr (.inl (.inr (.inl ?_)))
  · exact customer_blockAndStepUps 2 row (mem_controlsInForce.mp hrow).1
  · decide +kernel

end AegisShield.Risk
