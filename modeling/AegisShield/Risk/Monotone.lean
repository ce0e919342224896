import AegisShield.Risk.Engine

/-!
# More risk, a stricter decision

The engine of `risk-engine.ts` on two requests: a request with a higher amount, higher facts and
no more verification than another one is scored no lower, and decided no more leniently.

Results:
* `riskRules_raised`: each rule that matches the first request matches the second one.
* `triggered_sublist`: the rules that the first request triggers are among those of the second.
* `evaluateRisk_mono`: the score, the band and the decision are monotone.
-/

namespace AegisShield.Risk

/-! ## The orders -/

/-- No fact is lower, and no flag is dropped. -/
structure RiskFacts.Le (facts facts' : RiskFacts) : Prop where
  authFailures : facts.authFailures ≤ facts'.authFailures
  requestVelocity : facts.requestVelocity ≤ facts'.requestVelocity
  transferVelocity : facts.transferVelocity ≤ facts'.transferVelocity
  cumulativeOutgoingMinor : facts.cumulativeOutgoingMinor ≤ facts'.cumulativeOutgoingMinor
  newRecipient : facts.newRecipient = true → facts'.newRecipient = true
  insufficientFunds : facts.insufficientFunds ≤ facts'.insufficientFunds
  idempotencyConflicts : facts.idempotencyConflicts ≤ facts'.idempotencyConflicts
  linkedSubjectsForDevice : facts.linkedSubjectsForDevice ≤ facts'.linkedSubjectsForDevice
  rapidRegionChange : facts.rapidRegionChange = true → facts'.rapidRegionChange = true
  integrityAnomaly : facts.integrityAnomaly = true → facts'.integrityAnomaly = true
  internalAuthFailures : facts.internalAuthFailures ≤ facts'.internalAuthFailures
  csrfMalformedFailures : facts.csrfMalformedFailures ≤ facts'.csrfMalformedFailures
  blockedScope : facts.blockedScope = true → facts'.blockedScope = true
  activeIncident : facts.activeIncident = true → facts'.activeIncident = true
  activeControl : facts.activeControl = true → facts'.activeControl = true

instance : LE RiskFacts := ⟨RiskFacts.Le⟩

/-- The bands from the lowest to the highest. -/
def RiskBand.rank : RiskBand → ℕ
  | .LOW => 0
  | .MEDIUM => 1
  | .HIGH => 2
  | .CRITICAL => 3

/-- The decisions from the most permissive to the strictest; a block and a quarantine are
    equally strict. -/
def EngineDecision.strictness : EngineDecision → ℕ
  | .ALLOW => 0
  | .ALLOW_WITH_MONITORING => 1
  | .REQUIRE_STEP_UP => 2
  | .HOLD_FOR_REVIEW => 3
  | .BLOCK => 4
  | .QUARANTINE => 4

/-! ## The rules -/

/-- The same rule, and it matches if it did. -/
def Raised (entry entry' : Bool × TriggeredRule) : Prop :=
  entry.2 = entry'.2 ∧ (entry.1 = true → entry'.1 = true)

theorem raised_le {threshold fact fact' : ℤ} (rule : TriggeredRule) (h : fact ≤ fact') :
    Raised (decide (threshold ≤ fact), rule) (decide (threshold ≤ fact'), rule) := by
  refine ⟨rfl, fun hmatch => ?_⟩
  rw [decide_eq_true_iff] at hmatch ⊢
  omega

theorem raised_and {a b a' b' : Bool} (rule : TriggeredRule) (ha : Raised (a, rule) (a', rule))
    (hb : b = true → b' = true) : Raised (a && b, rule) (a' && b', rule) := by
  refine ⟨rfl, fun hmatch => ?_⟩
  rw [Bool.and_eq_true] at hmatch ⊢
  exact ⟨ha.2 hmatch.1, hb hmatch.2⟩

theorem raised_or {a b a' b' : Bool} (rule : TriggeredRule) (ha : a = true → a' = true)
    (hb : b = true → b' = true) : Raised (a || b, rule) (a' || b', rule) := by
  refine ⟨rfl, fun hmatch => ?_⟩
  rw [Bool.or_eq_true] at hmatch ⊢
  exact hmatch.imp ha hb

/-- What matches of the rules is contained in what matches of the raised rules, in order. -/
theorem filter_raised {rules rules' : List (Bool × TriggeredRule)}
    (h : List.Forall₂ Raised rules rules') :
    ((rules.filter Prod.fst).map Prod.snd).Sublist ((rules'.filter Prod.fst).map Prod.snd) := by
  induction h with
  | nil => exact List.Sublist.refl _
  | @cons entry entry' _ _ hentry _ ih =>
    by_cases hmatch : entry.1 = true
    · rw [List.filter_cons_of_pos hmatch, List.filter_cons_of_pos (hentry.2 hmatch), List.map_cons,
        List.map_cons, hentry.1]
      exact ih.cons_cons _
    · rw [List.filter_cons_of_neg hmatch]
      by_cases hmatch' : entry'.1 = true
      · rw [List.filter_cons_of_pos hmatch', List.map_cons]
        exact ih.cons _
      · rw [List.filter_cons_of_neg hmatch']
        exact ih

section Rules

variable {input input' : RiskEvaluationRequest} {facts facts' : RiskFacts}
  (thresholds : RiskThresholds)
  (hamount : input.amountMinor.getD 0 ≤ input'.amountMinor.getD 0) (hfacts : facts ≤ facts')
include hamount hfacts

/-- Rule by rule: a higher amount and higher facts match at least the same rules. -/
theorem riskRules_raised :
    List.Forall₂ Raised (riskRules input facts thresholds)
      (riskRules input' facts' thresholds) := by
  have hhigh (rule : TriggeredRule) :
      Raised (decide (thresholds.highValueMinor ≤ (input.amountMinor.getD 0 : ℕ)), rule)
        (decide (thresholds.highValueMinor ≤ (input'.amountMinor.getD 0 : ℕ)), rule) :=
    raised_le rule (by exact_mod_cast hamount)
  refine .cons (raised_le _ hfacts.authFailures) (.cons (raised_le _ hfacts.requestVelocity)
    (.cons (raised_le _ hfacts.transferVelocity)
    (.cons (raised_le _ hfacts.cumulativeOutgoingMinor) (.cons (hhigh _)
    (.cons (raised_and _ (hhigh _) hfacts.newRecipient)
    (.cons (raised_le _ hfacts.insufficientFunds) (.cons (raised_le _ hfacts.idempotencyConflicts)
    (.cons (raised_le _ hfacts.linkedSubjectsForDevice) (.cons ⟨rfl, hfacts.rapidRegionChange⟩
    (.cons ⟨rfl, hfacts.integrityAnomaly⟩ (.cons ?_
    (.cons (raised_le _ hfacts.csrfMalformedFailures) (.cons ⟨rfl, hfacts.blockedScope⟩
    (.cons (raised_or _ hfacts.activeIncident hfacts.activeControl) .nil))))))))))))))
  refine ⟨rfl, fun hmatch => ?_⟩
  rw [decide_eq_true_iff] at hmatch ⊢
  exact lt_of_lt_of_le hmatch hfacts.internalAuthFailures

/-- The rules that a request triggers are triggered by a riskier one, in the same order. -/
theorem triggered_sublist : (triggeredRiskRules input facts thresholds).Sublist
    (triggeredRiskRules input' facts' thresholds) :=
  filter_raised (riskRules_raised thresholds hamount hfacts)

theorem riskScore_mono : riskScore input facts thresholds ≤ riskScore input' facts' thresholds := by
  have hsum := ((triggered_sublist thresholds hamount hfacts).map TriggeredRule.weight).sum_le_sum
    fun _ _ => Nat.zero_le _
  unfold riskScore
  omega

end Rules

/-! ## The decision -/

theorem rank_riskBand_mono {score score' : ℕ} (h : score ≤ score') :
    (riskBand score).rank ≤ (riskBand score').rank := by
  unfold riskBand
  split_ifs <;> first | omega | simp [RiskBand.rank]

/-- A block is at least as strict as any decision. -/
theorem strictness_le (decision : EngineDecision) : decision.strictness ≤ 4 := by
  cases decision <;> simp [EngineDecision.strictness]

/-- The decision by the band, when no scope is blocked. -/
theorem strictness_engineDecision (band : RiskBand) (stepUpVerified triggered : Bool) :
    (engineDecision false band stepUpVerified triggered).1.strictness =
      if 2 ≤ band.rank then band.rank + 1
      else if band.rank = 1 then (if stepUpVerified then 1 else 2)
      else if triggered then 1 else 0 := by
  cases band <;> cases stepUpVerified <;> cases triggered <;> rfl

theorem strictness_mono {blockedScope blockedScope' : Bool} {band band' : RiskBand}
    {stepUpVerified stepUpVerified' triggered triggered' : Bool}
    (hblocked : blockedScope = true → blockedScope' = true) (hband : band.rank ≤ band'.rank)
    (hstep : stepUpVerified' = true → stepUpVerified = true)
    (htriggered : triggered = true → triggered' = true) :
    (engineDecision blockedScope band stepUpVerified triggered).1.strictness ≤
      (engineDecision blockedScope' band' stepUpVerified' triggered').1.strictness := by
  by_cases hblocked' : blockedScope' = true
  · rw [hblocked']
    exact strictness_le _
  · have hfree : blockedScope = false := by
      rw [Bool.eq_false_iff]
      exact fun h => hblocked' (hblocked h)
    rw [Bool.not_eq_true] at hblocked'
    rw [hfree, hblocked', strictness_engineDecision, strictness_engineDecision]
    split_ifs <;> first | omega | simp_all

/-- **Risk is monotone**: a higher amount, higher facts and no more verification never lower the
    score or its band and never make the decision more permissive; a score is at most 100. -/
theorem evaluateRisk_mono (thresholds : RiskThresholds) {input input' : RiskEvaluationRequest}
    {facts facts' : RiskFacts}
    (hamount : input.amountMinor.getD 0 ≤ input'.amountMinor.getD 0) (hfacts : facts ≤ facts')
    (hstep : input'.stepUpVerified = true → input.stepUpVerified = true) :
    (evaluateRisk input facts thresholds).score ≤ (evaluateRisk input' facts' thresholds).score ∧
    (evaluateRisk input facts thresholds).band.rank ≤
      (evaluateRisk input' facts' thresholds).band.rank ∧
    (evaluateRisk input facts thresholds).decision.strictness ≤
      (evaluateRisk input' facts' thresholds).decision.strictness ∧
    (evaluateRisk input' facts' thresholds).score ≤ 100 := by
  have hscore := riskScore_mono thresholds hamount hfacts
  have hband := rank_riskBand_mono hscore
  refine ⟨hscore, hband, ?_, score_le input' facts' thresholds⟩
  refine strictness_mono hfacts.blockedScope hband hstep fun htriggered => ?_
  rw [decide_eq_true_iff] at htriggered ⊢
  exact lt_of_lt_of_le htriggered (triggered_sublist thresholds hamount hfacts).length_le

/-- `DEFAULT_THRESHOLDS` (lines 19-29). -/
def DEFAULT_THRESHOLDS : RiskThresholds where
  authFailures := 5
  requestVelocity := 60
  transferVelocity := 5
  cumulativeOutgoingMinor := 25000000
  highValueMinor := 10000000
  insufficientFunds := 3
  idempotencyConflicts := 2
  linkedSubjectsPerDevice := 3
  csrfMalformed := 5

/-- The facts of a subject without a history. -/
def quietFacts : RiskFacts where
  authFailures := 0
  requestVelocity := 0
  transferVelocity := 0
  cumulativeOutgoingMinor := 0
  newRecipient := false
  insufficientFunds := 0
  idempotencyConflicts := 0
  linkedSubjectsForDevice := 0
  rapidRegionChange := false
  integrityAnomaly := false
  internalAuthFailures := 0
  csrfMalformedFailures := 0
  blockedScope := false
  activeIncident := false
  activeControl := false

/-- A transfer of an amount. -/
def transferEvaluation (amountMinor : ℕ) (stepUpVerified : Bool) : RiskEvaluationRequest where
  evaluationId := "evaluation-1"
  operation := .TRANSFER_CONFIRMATION
  subjectId := "customer-1"
  sessionId := none
  deviceId := none
  accountId := none
  recipientId := none
  amountMinor := some amountMinor
  stepUpVerified := stepUpVerified

/-- A small verified transfer, and a large one to a new recipient without verification. -/
theorem evaluateRisk_mono_transfer :
    (evaluateRisk (transferEvaluation 500 true) quietFacts DEFAULT_THRESHOLDS).score ≤
      (evaluateRisk (transferEvaluation 20000000 false) { quietFacts with newRecipient := true }
        DEFAULT_THRESHOLDS).score := by
  refine (evaluateRisk_mono DEFAULT_THRESHOLDS ?_ ?_ ?_).1
  · decide
  · constructor <;> decide
  · decide

end AegisShield.Risk
