import AegisShield.Payments.Intent
import AegisShield.Payments.Qr

/-!
# The issues of a reconciliation

`PaymentsReconciliationService.run` (`payments-reconciliation.service.ts`, lines 13-102): six
counts of findings become a list of at most fifty issues, filled by the loop of `add`. The loop
compares its round with the room that is left at that round, so it stops at half of the room
that was left before it.

Results:
* `issues_counted`: the list has every issue that there is room for, and the status is `FAIL`
  exactly when an error was found, if and only if no category has more findings than half of
  the room left before it.
* `status_report`: the status is right for all counts.
* `issue_dropped`: of 26 findings, 25 are listed.
-/

namespace AegisShield.Payments

/-! ## The service -/

/-- The severity of an issue. -/
inductive IssueSeverity where
  | ERROR
  | WARNING
  deriving DecidableEq

/-- An entry of `issues`. -/
structure PaymentsIssue where
  code : String
  severity : IssueSeverity
  deriving DecidableEq

/-- `status` of a run. -/
inductive ReconciliationStatus where
  | PASS
  | FAIL
  deriving DecidableEq

/-- `PaymentsReconciliationResult` (lines 3-9). -/
structure PaymentsReconciliationResult where
  status : ReconciliationStatus
  checkedTransfers : ℕ
  checkedIntents : ℕ
  issueCount : ℕ
  issues : List PaymentsIssue
  deriving DecidableEq

/-- The tables that a run reads. -/
structure ReconciledTables where
  transfers : List TransferRow
  intents : List TransferIntentRow
  redemptions : List QrRedemptionRow
  operations : List AgentCashOperationRow

/-- What the statements of a run return (lines 24-70). -/
structure FindingCounts where
  checkedTransfers : ℕ
  checkedIntents : ℕ
  missing : ℕ
  orphan : ℕ
  bad : ℕ
  stale : ℕ
  qrMissingLedger : ℕ
  agentMissingLedger : ℕ

/-- The statements of a run (lines 24-70). -/
def findingCounts (tables : ReconciledTables) (now : ℕ) : FindingCounts where
  checkedTransfers := tables.transfers.length
  checkedIntents := tables.intents.length
  missing := tables.transfers.countP fun row => row.status = .COMPLETED ∧
    (row.ledgerJournalId = none ∨ row.senderPostingId = none ∨ row.recipientPostingId = none)
  orphan := tables.intents.countP fun row => row.consumedAt.isSome &&
    tables.transfers.all fun transfer => transfer.intentId ≠ row.id
  bad := tables.transfers.countP fun row => row.status = .COMPLETED ∧ row.failureCode ≠ none
  stale := tables.transfers.countP fun row =>
    row.status = .PROCESSING ∧ row.updatedAt + 30000 < now
  qrMissingLedger := tables.redemptions.countP fun row =>
    row.status = .COMPLETED ∧ row.ledgerJournalId = none
  agentMissingLedger := tables.operations.countP fun row =>
    row.status = .COMPLETED ∧ row.ledgerJournalId = none

/-- The loop of `add` (lines 21-22) from round `i`. -/
def addLoop (issue : PaymentsIssue) (count i : ℕ) (issues : List PaymentsIssue) :
    List PaymentsIssue :=
  if i < min count (50 - issues.length) then
    addLoop issue count (i + 1) (issues ++ [issue])
  else issues
termination_by count - i

/-- `add` (lines 16-23). -/
def add (issues : List PaymentsIssue) (finding : PaymentsIssue × ℕ) : List PaymentsIssue :=
  addLoop finding.1 finding.2 0 issues

variable (counts : FindingCounts)

/-- The categories in the order of lines 72-77. -/
def FindingCounts.findings : List (PaymentsIssue × ℕ) :=
  [(⟨"COMPLETED_TRANSFER_LEDGER_DATA_MISSING", .ERROR⟩, counts.missing),
    (⟨"CONSUMED_INTENT_WITHOUT_TRANSFER", .ERROR⟩, counts.orphan),
    (⟨"COMPLETED_TRANSFER_HAS_FAILURE", .ERROR⟩, counts.bad),
    (⟨"STALE_PROCESSING_TRANSFER", .WARNING⟩, counts.stale),
    (⟨"COMPLETED_QR_MISSING_LEDGER_DATA", .ERROR⟩, counts.qrMissingLedger),
    (⟨"COMPLETED_AGENT_MISSING_LEDGER_DATA", .ERROR⟩, counts.agentMissingLedger)]

/-- What a run makes of its counts (lines 79-101). -/
def report : PaymentsReconciliationResult :=
  let issues := counts.findings.foldl add []
  { status := if issues.any fun issue => issue.severity = .ERROR then .FAIL else .PASS
    checkedTransfers := counts.checkedTransfers
    checkedIntents := counts.checkedIntents
    issueCount := issues.length
    issues := issues }

/-- `run` (lines 13-102). -/
def run (tables : ReconciledTables) (now : ℕ) : PaymentsReconciliationResult :=
  report (findingCounts tables now)

/-! ## The property -/

/-- Every category in order, each with its findings as far as there is room. -/
def filled : ℕ → List (PaymentsIssue × ℕ) → List PaymentsIssue
  | _, [] => []
  | room, (issue, count) :: findings =>
    List.replicate (min count room) issue ++ filled (room - min count room) findings

/-- Every finding that there is room for is listed, and the status says whether there are errors. -/
structure IssuesCounted (counts : FindingCounts) : Prop where
  issues : (report counts).issues = filled 50 counts.findings
  length : (report counts).issueCount = min 50 (counts.findings.map Prod.snd).sum
  status : (report counts).status = .FAIL ↔
    ∃ finding ∈ counts.findings, finding.1.severity = .ERROR ∧ 0 < finding.2

/-- No count is more than half of the room left before it, rounded up; where the room is at most
    one, any count is. -/
def withinHalf : ℕ → List ℕ → Prop
  | _, [] => True
  | room, count :: counts =>
    (count ≤ (room + 1) / 2 ∨ room ≤ 1) ∧ withinHalf (room - count) counts

/-! ## The loop -/

/-- Every category in order, each up to half of the room. -/
def halved : ℕ → List (PaymentsIssue × ℕ) → List PaymentsIssue
  | _, [] => []
  | room, (issue, count) :: findings =>
    List.replicate (min count ((room + 1) / 2)) issue ++
      halved (room - min count ((room + 1) / 2)) findings

section Loop

variable {issue : PaymentsIssue} {findings : List (PaymentsIssue × ℕ)} {room : ℕ}

/-- From round `i` the loop runs until the round reaches the room: half of what is left. -/
theorem addLoop_eq (count i : ℕ) (issues : List PaymentsIssue) :
    addLoop issue count i issues =
      issues ++ List.replicate (min (count - i) ((51 - issues.length - i) / 2)) issue := by
  induction i, issues using addLoop.induct issue count with
  | case1 i issues h ih =>
    rw [addLoop, if_pos h, ih, List.append_assoc, List.length_append, List.length_singleton]
    have hrounds : min (count - i) ((51 - issues.length - i) / 2) =
        min (count - (i + 1)) ((51 - (issues.length + 1) - (i + 1)) / 2) + 1 := by omega
    rw [hrounds, List.replicate_succ]
    rfl
  | case2 i issues h =>
    rw [addLoop, if_neg h]
    have hrounds : min (count - i) ((51 - issues.length - i) / 2) = 0 := by omega
    rw [hrounds, List.replicate_zero, List.append_nil]

theorem foldl_add (issues : List PaymentsIssue) (h : issues.length ≤ 50) :
    findings.foldl add issues = issues ++ halved (50 - issues.length) findings := by
  induction findings generalizing issues with
  | nil => simp [halved]
  | cons finding findings ih =>
    obtain ⟨issue, count⟩ := finding
    have hadd : add issues (issue, count) =
        issues ++ List.replicate (min count ((50 - issues.length + 1) / 2)) issue := by
      show addLoop issue count 0 issues = _
      rw [addLoop_eq]
      congr 2
      omega
    rw [List.foldl_cons, hadd, ih _ (by simp; omega), halved, List.append_assoc]
    congr 3
    simp
    omega

/-- The list of a run. -/
theorem report_issues (counts : FindingCounts) :
    (report counts).issues = halved 50 counts.findings := by
  show counts.findings.foldl add [] = _
  rw [foldl_add [] (by simp)]
  rfl

theorem length_filled : (filled room findings).length = min room (findings.map Prod.snd).sum := by
  induction findings generalizing room with
  | nil => simp [filled]
  | cons finding findings ih =>
    obtain ⟨issue, count⟩ := finding
    simp only [filled, List.length_append, List.length_replicate, ih, List.map_cons, List.sum_cons]
    omega

/-- Only the categories are listed. -/
theorem mem_halved (h : issue ∈ halved room findings) : issue ∈ findings.map Prod.fst := by
  induction findings generalizing room with
  | nil => simp [halved] at h
  | cons finding findings ih =>
    rw [halved, List.mem_append] at h
    rcases h with h | h
    · simp [List.eq_of_mem_replicate h]
    · exact List.mem_cons_of_mem _ (ih h)

theorem mem_filled (h : issue ∈ filled room findings) : issue ∈ findings.map Prod.fst := by
  induction findings generalizing room with
  | nil => simp [filled] at h
  | cons finding findings ih =>
    rw [filled, List.mem_append] at h
    rcases h with h | h
    · simp [List.eq_of_mem_replicate h]
    · exact List.mem_cons_of_mem _ (ih h)

/-- Two lists that start with copies of an issue and go on without it agree exactly when the
    copies and the rests do. -/
theorem replicate_append_inj {m n : ℕ} {is js : List PaymentsIssue} (hi : issue ∉ is)
    (hj : issue ∉ js) :
    List.replicate m issue ++ is = List.replicate n issue ++ js ↔ m = n ∧ is = js := by
  constructor
  · intro h
    have hcount := congrArg (List.count issue) h
    simp only [List.count_append, List.count_replicate_self, List.count_eq_zero_of_not_mem hi,
      List.count_eq_zero_of_not_mem hj, Nat.add_zero] at hcount
    subst hcount
    exact ⟨rfl, List.append_cancel_left h⟩
  · rintro ⟨rfl, rfl⟩
    rfl

/-- The loop fills the room exactly when no category has more than half of it. -/
theorem halved_eq_filled_iff (hnodup : (findings.map Prod.fst).Nodup) :
    halved room findings = filled room findings ↔ withinHalf room (findings.map Prod.snd) := by
  induction findings generalizing room with
  | nil => simp [halved, filled, withinHalf]
  | cons finding findings ih =>
    obtain ⟨issue, count⟩ := finding
    obtain ⟨hfresh, hrest⟩ := List.nodup_cons.mp hnodup
    rw [halved, filled, replicate_append_inj (fun h => hfresh (mem_halved h))
      fun h => hfresh (mem_filled h)]
    show _ ↔ (count ≤ (room + 1) / 2 ∨ room ≤ 1) ∧ withinHalf (room - count) _
    by_cases hhalf : count ≤ (room + 1) / 2 ∨ room ≤ 1
    · have hmin : min count ((room + 1) / 2) = min count room := by omega
      have hroom : room - min count room = room - count := by omega
      rw [hmin, hroom, ih hrest]
      simp [hhalf]
    · have hmin : min count ((room + 1) / 2) ≠ min count room := by omega
      simp [hmin, hhalf]

/-- As long as the room outlasts the categories, every category with findings is listed. -/
theorem mem_halved_iff (hroom : findings ≠ [] → 2 ^ (findings.length - 1) ≤ room) :
    issue ∈ halved room findings ↔ ∃ finding ∈ findings, finding.1 = issue ∧ 0 < finding.2 := by
  induction findings generalizing room with
  | nil => simp [halved]
  | cons finding findings ih =>
    obtain ⟨head, count⟩ := finding
    have hpos : 2 ^ findings.length ≤ room := hroom (List.cons_ne_nil _ _)
    have hone : 1 ≤ 2 ^ findings.length := Nat.one_le_two_pow
    have hrest : findings ≠ [] →
        2 ^ (findings.length - 1) ≤ room - min count ((room + 1) / 2) := by
      intro hne
      obtain ⟨n, hn⟩ := Nat.exists_eq_succ_of_ne_zero (mt List.eq_nil_of_length_eq_zero hne)
      rw [hn, Nat.pow_succ] at hpos
      rw [hn, Nat.succ_sub_one]
      omega
    rw [halved, List.mem_append, ih hrest, List.mem_replicate, List.exists_mem_cons_iff]
    have hcopies : min count ((room + 1) / 2) ≠ 0 ↔ 0 < count := by omega
    rw [hcopies, and_comm, eq_comm]

end Loop

/-! ## Counting -/

/-- The codes differ. -/
theorem nodup_findings : (counts.findings.map Prod.fst).Nodup := by
  simp [FindingCounts.findings]

/-- The room outlasts the six categories, so that the status is right. -/
theorem status_report : (report counts).status = .FAIL ↔
    ∃ finding ∈ counts.findings, finding.1.severity = .ERROR ∧ 0 < finding.2 := by
  have hany : (report counts).status = .FAIL ↔
      ∃ issue ∈ (report counts).issues, issue.severity = .ERROR := by
    show (if (report counts).issues.any _ then _ else _) = _ ↔ _
    split_ifs with h
    · simpa using h
    · simpa using h
  have hroom : counts.findings ≠ [] → 2 ^ (counts.findings.length - 1) ≤ 50 := by
    intro _
    show 2 ^ 5 ≤ 50
    omega
  rw [hany, report_issues]
  constructor
  · rintro ⟨issue, hissue, herror⟩
    obtain ⟨finding, hfinding, rfl, hcount⟩ := (mem_halved_iff hroom).mp hissue
    exact ⟨finding, hfinding, herror, hcount⟩
  · rintro ⟨finding, hfinding, herror, hcount⟩
    exact ⟨finding.1, (mem_halved_iff hroom).mpr ⟨finding, hfinding, rfl, hcount⟩, herror⟩

/-- Every finding that there is room for is listed exactly when no category has more findings
    than half of the room left before it. -/
theorem issues_counted : IssuesCounted counts ↔ withinHalf 50 (counts.findings.map Prod.snd) := by
  rw [← halved_eq_filled_iff (nodup_findings counts), ← report_issues]
  constructor
  · intro h
    exact h.issues
  · intro h
    refine ⟨h, ?_, status_report counts⟩
    show (report counts).issues.length = _
    rw [h, length_filled]

/-- Of 26 transfers without ledger data, 25 are listed. -/
theorem issue_dropped : ¬ ∀ counts, IssuesCounted counts := by
  intro h
  have hlength := (h ⟨26, 0, 26, 0, 0, 0, 0, 0⟩).length
  have hlisted : (report ⟨26, 0, 26, 0, 0, 0, 0, 0⟩).issueCount =
      (halved 50 (FindingCounts.findings ⟨26, 0, 26, 0, 0, 0, 0, 0⟩)).length := by
    rw [← report_issues]
    rfl
  rw [hlisted] at hlength
  exact absurd hlength (by decide)

end AegisShield.Payments
