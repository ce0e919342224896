import AegisShield.Resilience.History

/-!
# Reconciliation of the drill evidence

`ReconciliationService.reconcile` of the Resilience service
(`reconciliation/reconciliation.service.ts`, lines 25-116) counts the drills whose rows and
records do not agree. Its statements run beside the calls of `advance`: the drills are read
first, then their events and their reconciliations, and calls may write in between.

Results:
* `reconciliation_tells`: after every run in which the calls of `advance` do not disturb each
  other (`apart`), a drill without its history or its restore evidence has an event that a call
  in progress is about to write; otherwise the status is `PASS` exactly when every passed drill
  that was read has a backup set and a passed reconciliation.
-/

namespace AegisShield.Resilience

open Common

/-! ## Model of `reconciliation.service.ts` -/

/-- The severity of an issue. -/
inductive IssueSeverity where
  | WARNING
  | CRITICAL
  deriving DecidableEq

/-- An entry of `issues`. -/
structure ResilienceIssue where
  code : String
  severity : IssueSeverity
  count : ℕ
  deriving DecidableEq

/-- `ResilienceReconciliationResult` (lines 13-19). -/
structure ResilienceReconciliationResult where
  status : ReconciliationStatus
  checkedDrills : ℕ
  checkedBackupSets : ℕ
  issueCount : ℕ
  issues : List ResilienceIssue
  deriving DecidableEq

/-- A drill with the relations that `include` adds (line 37). -/
structure IncludedDrill where
  row : RecoveryDrillRow
  events : List DrillEvent
  reconciliations : List DrillReconciliation

/-- A backup set with its `verified` column. -/
structure VerifiedBackupSet extends BackupSetRow where
  verified : Bool

/-- The drills that the first statement may answer (lines 36-40): the 500 newest ones, those of
    one time in any order. -/
def ResilienceDb.Newest (db : ResilienceDb) (rows : List RecoveryDrillRow) : Prop :=
  ∃ listed : List RecoveryDrillRow, listed.Perm db.drills.rows ∧
    listed.Pairwise (fun a b => b.startedAt ≤ a.startedAt) ∧ rows = listed.take 500

/-- A drill with its events in `events` and its reconciliations in `recs`. -/
def RecoveryDrillRow.included (row : RecoveryDrillRow) (events recs : ResilienceDb) :
    IncludedDrill where
  row := row
  events := events.events.filter fun event => event.drillRowId = row.id
  reconciliations := recs.reconciliationsOf row.id

namespace IncludedDrill

/-- `DRILL_WITHOUT_HISTORY` (line 49). -/
def withoutHistory (drill : IncludedDrill) : Bool :=
  drill.events.isEmpty

/-- `PASSED_WITHOUT_RESTORE_EVIDENCE` (lines 57-59). -/
def withoutRestoreEvidence (drill : IncludedDrill) : Bool :=
  decide (drill.row.state = .PASSED) &&
    !drill.events.any fun event => event.state = .RESTORE_VERIFIED

/-- `PASSED_WITHOUT_RECONCILIATION` (lines 66-68). -/
def withoutReconciliation (drill : IncludedDrill) : Bool :=
  decide (drill.row.state = .PASSED) &&
    drill.reconciliations.all fun item => item.status ≠ .PASS

/-- `PASSED_WITHOUT_BACKUP_SET` (line 76). -/
def withoutBackupSet (drill : IncludedDrill) : Bool :=
  decide (drill.row.state = .PASSED) && decide (drill.row.backupSetId.getD "" = "")

/-- `UNACKNOWLEDGED_FAILED_DRILL` (line 86). -/
def unacknowledged (drill : IncludedDrill) : Bool :=
  decide (drill.row.state = .FAILED) && drill.row.acknowledgedAt.isNone

/-- `DRILL_STUCK_IN_PROGRESS` (lines 94-96). -/
def stuck (drill : IncludedDrill) : Bool :=
  decide (drill.row.state ∈
    [RecoveryDrillState.RUNNING, .BACKUP_CREATED, .RESTORE_VERIFIED])

end IncludedDrill

/-- The checks of `reconcile` (lines 44-104), in their order. -/
def resilienceIssues (drills : List IncludedDrill) (backupSets : List VerifiedBackupSet) :
    List ResilienceIssue :=
  [⟨"DRILL_WITHOUT_HISTORY", .CRITICAL, drills.countP IncludedDrill.withoutHistory⟩,
    ⟨"PASSED_WITHOUT_RESTORE_EVIDENCE", .CRITICAL,
      drills.countP IncludedDrill.withoutRestoreEvidence⟩,
    ⟨"PASSED_WITHOUT_RECONCILIATION", .CRITICAL,
      drills.countP IncludedDrill.withoutReconciliation⟩,
    ⟨"PASSED_WITHOUT_BACKUP_SET", .CRITICAL, drills.countP IncludedDrill.withoutBackupSet⟩,
    ⟨"UNACKNOWLEDGED_FAILED_DRILL", .WARNING, drills.countP IncludedDrill.unacknowledged⟩,
    ⟨"DRILL_STUCK_IN_PROGRESS", .WARNING, drills.countP IncludedDrill.stuck⟩,
    ⟨"UNVERIFIED_BACKUP_SET", .WARNING, backupSets.countP fun set => !set.verified⟩].filter
      fun issue => 0 < issue.count

/-- `reconcile` (lines 25-116) of the drills and the backup sets that it has read. -/
def reconcile (drills : List IncludedDrill) (backupSets : List VerifiedBackupSet) :
    ResilienceReconciliationResult :=
  let issues := resilienceIssues drills backupSets
  let critical := issues.filter fun issue => issue.severity = .CRITICAL
  { status := if critical.length = 0 then .PASS else .FAIL
    checkedDrills := drills.length
    checkedBackupSets := backupSets.length
    issueCount := (issues.map ResilienceIssue.count).sum
    issues := issues }

/-! ## When the status is `PASS` -/

/-- No critical check finds the drill. -/
structure IncludedDrill.Sound (drill : IncludedDrill) : Prop where
  history : drill.withoutHistory = false
  restore : drill.withoutRestoreEvidence = false
  reconciliation : drill.withoutReconciliation = false
  backup : drill.withoutBackupSet = false

theorem not_countP_pos {α : Type} {p : α → Bool} {l : List α} :
    ¬0 < l.countP p ↔ ∀ a ∈ l, p a = false := by
  simp [Nat.pos_iff_ne_zero, List.countP_eq_zero]

/-- Warnings do not fail a reconciliation. -/
theorem reconcile_pass {drills : List IncludedDrill} {backupSets : List VerifiedBackupSet} :
    (reconcile drills backupSets).status = .PASS ↔ ∀ drill ∈ drills, drill.Sound := by
  have hcritical : (reconcile drills backupSets).status = .PASS ↔
      ∀ issue ∈ resilienceIssues drills backupSets, issue.severity ≠ .CRITICAL := by
    unfold reconcile
    simp only [List.length_eq_zero_iff, List.filter_eq_nil_iff, decide_eq_true_eq]
    split_ifs with hnone
    · exact iff_of_true rfl hnone
    · exact iff_of_false (by decide) hnone
  rw [hcritical]
  simp only [resilienceIssues, List.mem_filter, List.mem_cons, List.not_mem_nil, or_false,
    decide_eq_true_eq]
  constructor
  · intro h drill hdrill
    refine ⟨not_countP_pos.mp (fun hpos => h _ ⟨.inl rfl, hpos⟩ rfl) drill hdrill,
      not_countP_pos.mp (fun hpos => h _ ⟨.inr (.inl rfl), hpos⟩ rfl) drill hdrill,
      not_countP_pos.mp (fun hpos => h _ ⟨.inr (.inr (.inl rfl)), hpos⟩ rfl) drill hdrill,
      not_countP_pos.mp (fun hpos => h _ ⟨.inr (.inr (.inr (.inl rfl))), hpos⟩ rfl) drill hdrill⟩
  · rintro h issue ⟨rfl | rfl | rfl | rfl | rfl | rfl | rfl, hpos⟩
    · exact absurd hpos (not_countP_pos.mpr fun drill hdrill => (h drill hdrill).history)
    · exact absurd hpos (not_countP_pos.mpr fun drill hdrill => (h drill hdrill).restore)
    · exact absurd hpos (not_countP_pos.mpr fun drill hdrill => (h drill hdrill).reconciliation)
    · exact absurd hpos (not_countP_pos.mpr fun drill hdrill => (h drill hdrill).backup)
    all_goals simp

/-! ## What a legal history holds -/

section History

variable {s u : Pool.State Tracked AdvanceCall} {states : List RecoveryDrillState}
  {last state : RecoveryDrillState} {drill : RecoveryDrillRow}

/-- A member of a chain is the first one or follows another member. -/
theorem chain_predecessor {α : Type} {R : α → α → Prop} {a x : α} {l : List α}
    (h : (a :: l).IsChain R) (hx : x ∈ a :: l) : x = a ∨ ∃ y ∈ a :: l, R y x := by
  induction l generalizing a with
  | nil => exact .inl (List.mem_singleton.mp hx)
  | cons b l ih =>
    obtain ⟨hab, hrest⟩ := List.isChain_cons_cons.mp h
    rcases List.mem_cons.mp hx with rfl | hx
    · exact .inl rfl
    · right
      rcases ih hrest hx with rfl | ⟨y, hy, hyx⟩
      · exact ⟨a, List.mem_cons_self, hab⟩
      · exact ⟨y, List.mem_cons_of_mem a hy, hyx⟩

theorem LegalPath.predecessor (h : LegalPath states last) (hstate : state ∈ states)
    (hplanned : state ≠ .PLANNED) : ∃ earlier ∈ states, state ∈ ALLOWED_TRANSITIONS earlier := by
  obtain ⟨rest, rfl⟩ := List.head?_eq_some_iff.mp h.starts
  exact (chain_predecessor h.path hstate).resolve_left hplanned

/-- A drill that has passed has had its restore verified. -/
theorem LegalPath.restored (h : LegalPath states last) (hpassed : .PASSED ∈ states) :
    RecoveryDrillState.RESTORE_VERIFIED ∈ states := by
  obtain ⟨reconciled, hreconciled, hnext⟩ := h.predecessor hpassed (by decide)
  obtain rfl : reconciled = .RECONCILIATION_PASSED := by
    cases reconciled <;> revert hnext <;> decide
  obtain ⟨restored, hrestored, hnext⟩ := h.predecessor hreconciled (by decide)
  obtain rfl : restored = .RESTORE_VERIFIED := by
    cases restored <;> revert hnext <;> decide
  exact hrestored

theorem mem_statesOf {db : ResilienceDb} {id : String} :
    state ∈ db.statesOf id ↔ ∃ event ∈ db.events, event.drillRowId = id ∧ event.state = state := by
  simp [ResilienceDb.statesOf, and_assoc]

/-- A statement of a call keeps the events. -/
theorem events_next {t t' : Tracked} {p p' : AdvanceCall} {e : Option DrillEnv}
    (h : p.next t e = some (t', p')) {event : DrillEvent} (hevent : event ∈ t.db.events) :
    event ∈ t'.db.events := by
  obtain ⟨input, stage⟩ := p
  cases e with
  | none => cases stage <;> cases h <;> exact hevent
  | some e =>
    cases stage with
    | read =>
      simp only [AdvanceCall.next] at h
      split at h
      · cases h
        exact hevent
      · split_ifs at h <;> cases h <;> exact hevent
    | update drill named =>
      simp only [AdvanceCall.next, ResilienceDb.updateDrill] at h
      cases hstored : t.db.drills.find drill.id with
      | none =>
        rw [hstored] at h
        cases h
        exact hevent
      | some stored =>
        rw [hstored] at h
        dsimp only at h
        by_cases haccepted : (stored.advanced drill input named e.now).accepted = true
        · rw [if_pos haccepted] at h
          cases h
          exact hevent
        · rw [if_neg haccepted] at h
          cases h
          exact hevent
    | record id item items =>
      simp only [AdvanceCall.next, ResilienceDb.insertReconciliation_eq] at h
      by_cases hrefused : item.service ∈ t.db.services id ∨ maxInt < item.issueCount
      · rw [if_pos hrefused] at h
        cases h
        exact hevent
      · rw [if_neg hrefused] at h
        cases h
        exact hevent
    | event id =>
      simp only [AdvanceCall.next] at h
      cases happend : t.db.appendEvent id input.state input.note e with
      | none =>
        rw [happend] at h
        cases h
        exact hevent
      | some db =>
        obtain ⟨-, new, -, -, rfl⟩ := ResilienceDb.appendEvent_some happend
        rw [happend] at h
        cases h
        exact List.mem_append_left _ hevent
    | named | load =>
      cases h
      exact hevent
    | done result => cases h

/-- Events stay. -/
theorem events_of_path (h : advancePool.machine.Path Machine.always s u) :
    ∀ event ∈ s.shared.db.events, event ∈ u.shared.db.events := by
  induction h with
  | refl => exact fun event hevent => hevent
  | @tail t u a hpath _ hstep ih =>
    intro event hevent
    replace hevent := ih event hevent
    cases a with
    | start input =>
      cases Pool.step_start hstep
      exact hevent
    | next n e =>
      obtain ⟨p, t', p', -, hnext, rfl⟩ := Pool.step_next hstep
      exact events_next hnext hevent
    | env x => cases x

end History

/-! ## What a reconciliation tells -/

/-- A passed drill names its backup set and has a passed reconciliation. -/
structure Reconciled (recs : ResilienceDb) (row : RecoveryDrillRow) : Prop where
  backup : row.backupSetId.getD "" ≠ ""
  passed : ∃ item ∈ recs.reconciliationsOf row.id, item.status = .PASS

/-- What is known after a reconciliation that has read `rows` in the state `s`, their events in
    `events` and their reconciliations in `recs`. -/
structure ReconciliationTells (s : Pool.State Tracked AdvanceCall) (events recs : ResilienceDb)
    (rows : List RecoveryDrillRow) (backupSets : List VerifiedBackupSet) : Prop where
  /-- Events are missing only where a call was about to write them. -/
  unlogged : ∀ row ∈ rows, (row.included events recs).withoutHistory = true ∨
    (row.included events recs).withoutRestoreEvidence = true →
      ∃ p ∈ s.calls, p.pendingOn row.id = true
  /-- Otherwise the status tells whether the passed drills are reconciled. -/
  decided : (∀ row ∈ rows, ∀ p ∈ s.calls, p.pendingOn row.id = false) →
    ((reconcile (rows.map fun row => row.included events recs) backupSets).status = .PASS ↔
      ∀ row ∈ rows, row.state = .PASSED → Reconciled recs row)
  /-- It tells so of all drills when there are no more than it reads. -/
  covers : s.shared.db.drills.rows.length ≤ 500 →
    (reconcile (rows.map fun row => row.included events recs) backupSets).status = .PASS →
      ∀ row ∈ s.shared.db.drills.rows, row.state = .PASSED →
        Reconciled recs row ∧ .RESTORE_VERIFIED ∈ events.statesOf row.id

section Tells

variable {s u : Pool.State Tracked AdvanceCall} {events recs : ResilienceDb}
  {row : RecoveryDrillRow}

variable {db : ResilienceDb} {rows : List RecoveryDrillRow}

theorem ResilienceDb.Newest.mem
    (h : db.Newest rows) (hrow : row ∈ rows) : row ∈ db.drills.rows := by
  obtain ⟨listed, hperm, -, rfl⟩ := h
  exact hperm.mem_iff.mp (List.mem_of_mem_take hrow)

theorem ResilienceDb.Newest.mem_of_length_le
    (h : db.Newest rows) (hlength : db.drills.rows.length ≤ 500) (hrow : row ∈ db.drills.rows) :
    row ∈ rows := by
  obtain ⟨listed, hperm, -, rfl⟩ := h
  rw [List.take_of_length_le (hperm.length_eq.trans_le hlength)]
  exact hperm.mem_iff.mpr hrow

theorem withoutRestoreEvidence_eq_false :
    (row.included events recs).withoutRestoreEvidence = false ↔
      (row.state = .PASSED → .RESTORE_VERIFIED ∈ events.statesOf row.id) := by
  simp only [IncludedDrill.withoutRestoreEvidence, Bool.and_eq_false_imp, decide_eq_true_eq,
    mem_statesOf]
  simp [RecoveryDrillRow.included]

/-- The two checks of what a drill has recorded besides its events. -/
theorem reconciled_iff : (row.included events recs).withoutReconciliation = false ∧
    (row.included events recs).withoutBackupSet = false ↔
      (row.state = .PASSED → Reconciled recs row) := by
  have hrec : (row.included events recs).withoutReconciliation = false ↔
      (row.state = .PASSED → ∃ item ∈ recs.reconciliationsOf row.id, item.status = .PASS) := by
    simp only [IncludedDrill.withoutReconciliation, Bool.and_eq_false_imp, decide_eq_true_eq]
    simp [RecoveryDrillRow.included]
  have hbackup : (row.included events recs).withoutBackupSet = false ↔
      (row.state = .PASSED → row.backupSetId.getD "" ≠ "") := by
    simp only [IncludedDrill.withoutBackupSet, Bool.and_eq_false_imp, decide_eq_true_eq,
      decide_eq_false_iff_not]
    rfl
  rw [hrec, hbackup]
  exact ⟨fun h hpassed => ⟨h.2 hpassed, h.1 hpassed⟩,
    fun h => ⟨fun hpassed => (h hpassed).passed, fun hpassed => (h hpassed).backup⟩⟩

/-- The two checks of the events find nothing where the states of a legal log are written. -/
theorem found_of_legal {states : List RecoveryDrillState} (hlegal : LegalPath states row.state)
    (hkept : ∀ state ∈ states, state ∈ events.statesOf row.id) (recs : ResilienceDb) :
    (row.included events recs).withoutHistory = false ∧
      (row.included events recs).withoutRestoreEvidence = false := by
  constructor
  · obtain ⟨event, hevent, hid, -⟩ :=
      mem_statesOf.mp (hkept .PLANNED (List.mem_of_mem_head? (hlegal.starts ▸ rfl)))
    refine Bool.eq_false_iff.mpr fun hempty => ?_
    exact List.filter_eq_nil_iff.mp (List.isEmpty_iff.mp hempty) event hevent
      (decide_eq_true hid)
  · refine withoutRestoreEvidence_eq_false.mpr fun hpassed => hkept _ (hlegal.restored ?_)
    exact hpassed ▸ List.mem_of_getLast? hlegal.ends

/-- The events of a drill that no call is about to write to are there in a later read. -/
theorem found_of_path (hs : advancePool.machine.Reachable (fun s a => apart s a = true) s)
    (hu : advancePool.machine.Path Machine.always s u)
    (hrow : row ∈ s.shared.db.drills.rows) (hnone : ∀ p ∈ s.calls, p.pendingOn row.id = false)
    (recs : ResilienceDb) : (row.included u.shared.db recs).withoutHistory = false ∧
      (row.included u.shared.db recs).withoutRestoreEvidence = false := by
  refine found_of_legal (((historyInv_of_reachable hs).tracks row hrow).legal hnone)
    (fun state hstate => ?_) recs
  obtain ⟨event, hevent, hof⟩ := mem_statesOf.mp hstate
  exact mem_statesOf.mpr ⟨event, events_of_path hu event hevent, hof⟩

end Tells

/-- A drill that was read without its history or its restore evidence has an event that a call is
    about to write; without such drills, the status tells whether the passed ones are reconciled. -/
theorem reconciliation_tells (s u : Pool.State Tracked AdvanceCall) (recs : ResilienceDb)
    (hs : advancePool.machine.Reachable (fun s a => apart s a = true) s)
    (hu : advancePool.machine.Path Machine.always s u)
    (rows : List RecoveryDrillRow) (hrows : s.shared.db.Newest rows)
    (backupSets : List VerifiedBackupSet) :
    ReconciliationTells s u.shared.db recs rows backupSets := by
  refine ⟨fun row hrow hmissing => ?_, fun hnone => ?_, fun hlength hpass row hrow hpassed => ?_⟩
  · by_contra hcalls
    have hnone : ∀ p ∈ s.calls, p.pendingOn row.id = false := fun p hp =>
      Bool.eq_false_iff.mpr fun hpending => hcalls ⟨p, hp, hpending⟩
    obtain ⟨hhistory, hrestore⟩ := found_of_path hs hu (hrows.mem hrow) hnone recs
    rcases hmissing with hmissing | hmissing
    · exact absurd (hhistory.symm.trans hmissing) Bool.false_ne_true
    · exact absurd (hrestore.symm.trans hmissing) Bool.false_ne_true
  · rw [reconcile_pass, List.forall_mem_map]
    refine forall₂_congr fun row hrow => ?_
    obtain ⟨hhistory, hrestore⟩ :=
      found_of_path hs hu (hrows.mem hrow) (hnone row hrow) recs
    rw [← @reconciled_iff u.shared.db recs row]
    exact ⟨fun h => ⟨h.reconciliation, h.backup⟩, fun h => ⟨hhistory, hrestore, h.1, h.2⟩⟩
  · have hsound := List.forall_mem_map.mp (reconcile_pass.mp hpass) row
      (hrows.mem_of_length_le hlength hrow)
    exact ⟨reconciled_iff.mp ⟨hsound.reconciliation, hsound.backup⟩ hpassed,
      withoutRestoreEvidence_eq_false.mp hsound.restore hpassed⟩

/-- A call that passes the drill of the examples. -/
def passingSteps : List (Pool.Action AdvanceDrillInput (Option DrillEnv) Empty) :=
  [.start (exampleAdvance .PASSED), .next 0 (some (exampleEnv 2 "e1")),
    .next 0 (some (exampleEnv 2 "e1")), .next 0 (some (exampleEnv 2 "e1")),
    .next 0 (some (exampleEnv 2 "e1"))]

/-- A drill that was passed without a backup set and without a reconciliation fails the
    reconciliation. -/
theorem reconciliation_tells_unreconciled : ∃ (s : Pool.State Tracked AdvanceCall)
    (rows : List RecoveryDrillRow), ReconciliationTells s s.shared.db s.shared.db rows [] ∧
      rows.length = 1 ∧ (reconcile (rows.map fun row =>
        row.included s.shared.db s.shared.db) []).status = .FAIL := by
  have hinit : advancePool.machine.init
      ⟨drillIn [.PLANNED, .RUNNING, .BACKUP_CREATED, .RESTORE_VERIFIED, .RECONCILIATION_PASSED]
        .RECONCILIATION_PASSED, []⟩ := ⟨drillIn_init ⟨rfl, by decide, rfl⟩, rfl⟩
  obtain ⟨s, hs, hp⟩ := Machine.reachable_of_runUnder (C := fun s a => apart s a = true)
    passingSteps apart
    (fun s => decide (s.shared.db.drills.rows.length = 1) &&
      decide ((reconcile (s.shared.db.drills.rows.map fun row =>
        row.included s.shared.db s.shared.db) []).status = .FAIL))
    (fun _ _ h => h) hinit (by decide +kernel)
  rw [Bool.and_eq_true, decide_eq_true_eq, decide_eq_true_eq] at hp
  obtain ⟨hlength, hstatus⟩ := hp
  refine ⟨s, s.shared.db.drills.rows, reconciliation_tells s s s.shared.db hs .refl _ ?_ [],
    hlength, hstatus⟩
  obtain ⟨row, hrow⟩ := List.length_eq_one_iff.mp hlength
  exact ⟨[row], by rw [hrow], List.pairwise_singleton _ _, by rw [hrow]; rfl⟩

end AegisShield.Resilience
