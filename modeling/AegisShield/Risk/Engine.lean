import AegisShield.Common.Json
import AegisShield.Risk.Controls

/-!
# The risk engine

`risk-engine.ts`: the rules that an operation triggers, the score, and the decision. Counts,
amounts and thresholds are integers; the amount of a request is the number that its digits are.

Results:
* `score_le`: a score is at most 100.
-/

namespace AegisShield.Risk

open Common

/-! ## Requests and facts -/

/-- The operations of `riskEvaluationRequestSchema`. -/
inductive RiskOperation where
  | AUTHENTICATION
  | TRANSFER_PREVIEW
  | TRANSFER_CONFIRMATION
  | SESSION_USE
  deriving DecidableEq

/-- `RiskEvaluationRequest` (`contracts/risk/v1.ts`, line 181), without the currency, the time and
    the correlation id. -/
structure RiskEvaluationRequest where
  evaluationId : String
  operation : RiskOperation
  subjectId : String
  sessionId : Option String
  deviceId : Option String
  accountId : Option String
  recipientId : Option String
  amountMinor : Option ℕ
  stepUpVerified : Bool
  deriving DecidableEq

/-- `RiskThresholds` (lines 8-18). -/
structure RiskThresholds where
  authFailures : ℤ
  requestVelocity : ℤ
  transferVelocity : ℤ
  cumulativeOutgoingMinor : ℤ
  highValueMinor : ℤ
  insufficientFunds : ℤ
  idempotencyConflicts : ℤ
  linkedSubjectsPerDevice : ℤ
  csrfMalformed : ℤ

/-- `RiskFacts` (lines 30-46). -/
structure RiskFacts where
  authFailures : ℤ
  requestVelocity : ℤ
  transferVelocity : ℤ
  cumulativeOutgoingMinor : ℤ
  newRecipient : Bool
  insufficientFunds : ℤ
  idempotencyConflicts : ℤ
  linkedSubjectsForDevice : ℤ
  rapidRegionChange : Bool
  integrityAnomaly : Bool
  internalAuthFailures : ℤ
  csrfMalformedFailures : ℤ
  blockedScope : Bool
  activeIncident : Bool
  activeControl : Bool

/-- `TriggeredRule` (lines 47-51). -/
structure TriggeredRule where
  code : String
  reasonCode : String
  weight : ℕ
  deriving DecidableEq

inductive RiskBand where
  | LOW
  | MEDIUM
  | HIGH
  | CRITICAL
  deriving DecidableEq

/-- `riskDecisionSchema`; `RiskDecision` has the values that a check of the controls returns. -/
inductive EngineDecision where
  | ALLOW
  | ALLOW_WITH_MONITORING
  | REQUIRE_STEP_UP
  | HOLD_FOR_REVIEW
  | BLOCK
  | QUARANTINE
  deriving DecidableEq

/-- `EngineResult` (lines 52-60). -/
structure EngineResult where
  score : ℕ
  band : RiskBand
  decision : EngineDecision
  triggeredRules : List String
  reasonCodes : List String
  controlRecommendation : Option ControlType
  publicExplanation : String
  deriving DecidableEq

/-! ## The evaluation -/

section Evaluation

variable (input : RiskEvaluationRequest) (facts : RiskFacts) (thresholds : RiskThresholds)

/-- The rules (lines 68-181), each with whether it matches. -/
def riskRules : List (Bool × TriggeredRule) :=
  let amount : ℤ := input.amountMinor.getD 0
  [ (thresholds.authFailures ≤ facts.authFailures,
      ⟨"AUTH_FAILURE_BURST", "REPEATED_AUTH_FAILURES", 25⟩),
    (thresholds.requestVelocity ≤ facts.requestVelocity,
      ⟨"REQUEST_VELOCITY", "SUSPICIOUS_REQUEST_VELOCITY", 20⟩),
    (thresholds.transferVelocity ≤ facts.transferVelocity,
      ⟨"TRANSFER_VELOCITY", "HIGH_TRANSFER_VELOCITY", 25⟩),
    (thresholds.cumulativeOutgoingMinor ≤ facts.cumulativeOutgoingMinor,
      ⟨"CUMULATIVE_OUTGOING", "HIGH_CUMULATIVE_VALUE", 25⟩),
    (thresholds.highValueMinor ≤ amount, ⟨"HIGH_VALUE", "HIGH_VALUE_TRANSFER", 20⟩),
    (thresholds.highValueMinor ≤ amount && facts.newRecipient,
      ⟨"NEW_RECIPIENT_HIGH_VALUE", "NEW_RECIPIENT_HIGH_VALUE", 30⟩),
    (thresholds.insufficientFunds ≤ facts.insufficientFunds,
      ⟨"INSUFFICIENT_FUNDS_BURST", "REPEATED_INSUFFICIENT_FUNDS", 15⟩),
    (thresholds.idempotencyConflicts ≤ facts.idempotencyConflicts,
      ⟨"REPLAY_PATTERN", "REPLAY_LIKE_BEHAVIOUR", 35⟩),
    (thresholds.linkedSubjectsPerDevice ≤ facts.linkedSubjectsForDevice,
      ⟨"SHARED_DEVICE_CLUSTER", "SUSPICIOUS_DEVICE_CLUSTER", 25⟩),
    (facts.rapidRegionChange, ⟨"RAPID_REGION_CHANGE", "RAPID_REGION_CHANGE", 15⟩),
    (facts.integrityAnomaly, ⟨"INTEGRITY_ANOMALY", "INTEGRITY_ANOMALY", 60⟩),
    (0 < facts.internalAuthFailures,
      ⟨"INTERNAL_AUTH_FAILURE", "INTERNAL_AUTHENTICATION_FAILURE", 50⟩),
    (thresholds.csrfMalformed ≤ facts.csrfMalformedFailures,
      ⟨"SENSITIVE_REQUEST_FAILURES", "REPEATED_INVALID_REQUESTS", 20⟩),
    (facts.blockedScope, ⟨"KNOWN_BLOCKED_SCOPE", "ACTIVE_BLOCK", 100⟩),
    (facts.activeIncident || facts.activeControl,
      ⟨"EXISTING_RISK_STATE", "ACTIVE_INCIDENT_OR_CONTROL", 50⟩) ]

/-- `triggeredRiskRules` (lines 62-183). -/
def triggeredRiskRules : List TriggeredRule :=
  ((riskRules input facts thresholds).filter Prod.fst).map Prod.snd

/-- `riskBand` (lines 185-190). -/
def riskBand (score : ℕ) : RiskBand :=
  if 75 ≤ score then .CRITICAL
  else if 50 ≤ score then .HIGH
  else if 25 ≤ score then .MEDIUM
  else .LOW

/-- The decision and the recommended control (lines 202-217). -/
def engineDecision (blockedScope : Bool) (band : RiskBand) (stepUpVerified triggered : Bool) :
    EngineDecision × Option ControlType :=
  if blockedScope then (.BLOCK, some .TEMPORARY_BLOCK)
  else if band = .CRITICAL then (.QUARANTINE, some .QUARANTINE)
  else if band = .HIGH then (.HOLD_FOR_REVIEW, some .TRANSFER_HOLD)
  else if band = .MEDIUM && !stepUpVerified then (.REQUIRE_STEP_UP, some .REQUIRE_STEP_UP)
  else if band = .MEDIUM || triggered then (.ALLOW_WITH_MONITORING, none)
  else (.ALLOW, none)

/-- The explanation of a decision (lines 225-232). -/
def publicExplanation : EngineDecision → String
  | .ALLOW => "No additional verification is required."
  | .ALLOW_WITH_MONITORING => "The operation may continue with security monitoring."
  | .REQUIRE_STEP_UP => "Additional identity verification is required."
  | _ => "The operation cannot continue while a security review is active."

/-- The score (lines 197-200). -/
def riskScore : ℕ := min 100 ((triggeredRiskRules input facts thresholds).map TriggeredRule.weight).sum

/-- `evaluateRisk` (lines 191-234). -/
def evaluateRisk : EngineResult :=
  let rules := triggeredRiskRules input facts thresholds
  let score := riskScore input facts thresholds
  let decision := engineDecision facts.blockedScope (riskBand score) input.stepUpVerified
    (decide (0 < rules.length))
  { score := score
    band := riskBand score
    decision := decision.1
    triggeredRules := rules.map TriggeredRule.code
    reasonCodes := rules.map TriggeredRule.reasonCode
    controlRecommendation := decision.2
    publicExplanation := publicExplanation decision.1 }

end Evaluation

/-- `RULE_SET_VERSION` (line 7). -/
def RULE_SET_VERSION : String := "risk-rules-2026-08-v1"

/-! ## The schema of assessments -/

/-- A text of 1 to `max` code units. -/
def boundedText (max : ℕ) (text : String) : Bool :=
  decide (1 ≤ utf16Length text) && decide (utf16Length text ≤ max)

/-- The checks of `riskAssessmentSchema` (`contracts/risk/v1.ts`) of what an evaluation finds; the
    id and the time are checked apart. -/
def assessmentSchema (result : EngineResult) (ruleSetVersion : String) : Bool :=
  decide (result.score ≤ 100) &&
    decide (result.triggeredRules.length ≤ 32) && result.triggeredRules.all (boundedText 64) &&
    decide (result.reasonCodes.length ≤ 32) && result.reasonCodes.all (boundedText 64) &&
    boundedText 32 ruleSetVersion && boundedText 256 result.publicExplanation

section Results

variable (input : RiskEvaluationRequest) (facts : RiskFacts) (thresholds : RiskThresholds)

theorem score_le : (evaluateRisk input facts thresholds).score ≤ 100 := Nat.min_le_left _ _

end Results

end AegisShield.Risk
