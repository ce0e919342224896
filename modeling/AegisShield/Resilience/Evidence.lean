import AegisShield.Resilience.Drills

/-!
# Drill evidence

What a call of `DrillService.advance` (`drill.service.ts`, lines 131-182) leaves when it throws,
and what later calls leave of what a drill has recorded (lines 144-165 and 184-210).

Results:
* `advance_strict`: a call that throws has changed nothing, and a call that names an unknown
  backup set throws, exactly when the call is refused before its first write, or all its
  reconciliations and its event can be written and the set it names exists.
* `half_advanced`: an advance that records a service twice has moved the drill when it throws.
* `evidence_kept`: the backup set, the completion, the measurements and the acknowledgement of a
  drill stay recorded, and its failure code until the drill is cleaned up.
* `failure_code_cleared`: cleaning up clears the failure code.
-/

namespace AegisShield.Resilience

open Common

/-! ## An advance as a whole -/

/-- An advance that throws changes nothing, and one that names an unknown backup set throws. -/
structure AdvanceStrict (db : ResilienceDb) (e : DrillEnv) (input : AdvanceDrillInput) : Prop where
  atomic : ∀ error, (db.advance e input).2 = .error error → (db.advance e input).1 = db
  strict : ∀ name, input.backupSetId = some name →
    (∀ set ∈ db.backupSets, set.backupSetId ≠ name) → ∃ error, (db.advance e input).2 = .error error

/-- The advance of a drill gets to its first write: the transition is allowed and the row is
    accepted. -/
structure AdvanceBegins (db : ResilienceDb) (e : DrillEnv) (input : AdvanceDrillInput)
    (drill : RecoveryDrillRow) : Prop where
  found : db.findDrill input.drillId = some drill
  allowed : input.state ∈ ALLOWED_TRANSITIONS drill.state
  accepted : (drill.advanced drill input (db.namedBackup input) e.now).accepted = true

/-- None of the reconciliations is refused, and the event is not: its note has no U+0000 and its
    id is new. -/
structure AdvanceCompletes (db : ResilienceDb) (e : DrillEnv) (input : AdvanceDrillInput)
    (drill : RecoveryDrillRow) : Prop where
  added : db.added drill input = input.reconciliations.getD []
  noted : ResilienceDb.storable (ResilienceDb.eventNote input.note) = true
  fresh : ∀ event ∈ db.events, event.eventId ≠ "event:" ++ e.eventUuid

section Advance

variable {db : ResilienceDb} {e : DrillEnv} {input : AdvanceDrillInput} {drill : RecoveryDrillRow}

/-- The loop of `advance` runs to its end when no reconciliation is refused. -/
theorem recordAll_complete (id : String) (t : ℕ) (items : List ReconciliationInput) :
    (db.recordAll id t items).2 = true ↔ recordable (db.services id) items = items := by
  induction items generalizing db with
  | nil => simp [ResilienceDb.recordAll, recordable]
  | cons item items ih =>
    rw [ResilienceDb.recordAll_cons]
    unfold recordable
    split_ifs with hrefused
    · simp
    · rw [ih, ResilienceDb.recordable_added, List.cons.injEq, and_iff_right rfl]

/-- No state follows itself. -/
theorem ne_of_allowed {state state' : RecoveryDrillState} (h : state' ∈ ALLOWED_TRANSITIONS state) :
    state' ≠ state := by
  rintro rfl
  revert h
  cases state' <;> decide

/-- The drill is there after an advance. -/
theorem load_afterAdvance {events : List DrillEvent} (h : AdvanceBegins db e input drill) :
    ∃ r, (db.afterAdvance drill input e events).load input.drillId = .ok r := by
  obtain ⟨hfound, hid⟩ := ResilienceDb.findDrill_some h.found
  have hmem : drill.advanced drill input (db.namedBackup input) e.now ∈
      (db.afterAdvance drill input e events).drills.rows :=
    (Table.find_some (Table.find_put_self (r := drill.advanced drill input (db.namedBackup input)
      e.now) hfound)).1
  unfold ResilienceDb.load
  cases hfind : (db.afterAdvance drill input e events).findDrill input.drillId with
  | none =>
    have hnone := List.find?_eq_none.mp hfind _ hmem
    exact absurd (decide_eq_true hid) hnone
  | some row => exact ⟨_, rfl⟩

/-- An advance that does not get to a write changes nothing. -/
theorem advance_refused (h : ∀ drill, ¬AdvanceBegins db e input drill) :
    ∃ error, db.advance e input = (db, .error error) := by
  unfold ResilienceDb.advance
  cases hdrill : db.findDrill input.drillId with
  | none => exact ⟨_, rfl⟩
  | some drill =>
    dsimp only
    by_cases hallowed : input.state ∈ ALLOWED_TRANSITIONS drill.state
    · have hrefused : ¬(drill.advanced drill input (db.namedBackup input) e.now).accepted = true :=
        fun haccepted => h drill ⟨hdrill, hallowed, haccepted⟩
      rw [if_neg (not_not.mpr hallowed),
        ResilienceDb.updateDrill_eq (ResilienceDb.findDrill_some hdrill).1, if_neg hrefused]
      exact ⟨_, rfl⟩
    · rw [if_pos hallowed]
      exact ⟨_, rfl⟩

/-- An advance that gets to its first write leaves the row written; it succeeds when the other
    writes do. -/
theorem advance_begun (h : AdvanceBegins db e input drill) :
    (∃ events, (db.advance e input).1 = db.afterAdvance drill input e events) ∧
      ((∃ r, (db.advance e input).2 = .ok r) ↔ AdvanceCompletes db e input drill) := by
  have hupdate : db.updateDrill drill input (db.namedBackup input) e.now = some { db with
      drills := db.drills.put (drill.advanced drill input (db.namedBackup input) e.now) } := by
    rw [ResilienceDb.updateDrill_eq (ResilienceDb.findDrill_some h.found).1, if_pos h.accepted]
  have hrecord := @ResilienceDb.recordAll_eq
    { db with drills := db.drills.put (drill.advanced drill input (db.namedBackup input) e.now) }
    drill.id e.dbNow (input.reconciliations.getD [])
  have hcomplete := @recordAll_complete
    { db with drills := db.drills.put (drill.advanced drill input (db.namedBackup input) e.now) }
    drill.id e.dbNow (input.reconciliations.getD [])
  unfold ResilienceDb.advance
  rw [h.found]
  dsimp only
  rw [if_neg (not_not.mpr h.allowed), hupdate]
  dsimp only
  split
  next db' hrun =>
    rw [hrun] at hrecord hcomplete
    refine ⟨⟨db.events, hrecord⟩, ?_⟩
    constructor
    · rintro ⟨r, hr⟩
      cases hr
    · intro hall
      exact absurd (hcomplete.mpr hall.added) Bool.false_ne_true
  next db' hrun =>
    rw [hrun] at hrecord hcomplete
    obtain rfl : db' = db.afterAdvance drill input e db.events := hrecord
    have hadded : db.added drill input = input.reconciliations.getD [] := hcomplete.mp rfl
    split
    next hevent =>
      refine ⟨⟨db.events, rfl⟩, ?_⟩
      have hrefused := ResilienceDb.appendEvent_none hevent
      constructor
      · rintro ⟨r, hr⟩
        cases hr
      · intro hall
        have haccepts : (db.afterAdvance drill input e db.events).acceptsEvent input.note e = true :=
          ResilienceDb.acceptsEvent_iff.mpr ⟨hall.noted, hall.fresh⟩
        exact absurd (hrefused.symm.trans haccepts) Bool.false_ne_true
    next db'' hevent =>
      obtain ⟨haccepts, event, -, -, rfl⟩ := ResilienceDb.appendEvent_some hevent
      obtain ⟨hnoted, hfresh⟩ : _ ∧ _ := ResilienceDb.acceptsEvent_iff.mp haccepts
      refine ⟨⟨_, rfl⟩, ?_⟩
      constructor
      · intro _
        exact ⟨hadded, hnoted, hfresh⟩
      · intro _
        exact load_afterAdvance h

/-- The row of the drill is another one after its first write. -/
theorem afterAdvance_ne {events : List DrillEvent} (h : AdvanceBegins db e input drill) :
    db.afterAdvance drill input e events ≠ db := by
  intro heq
  have hfound := (ResilienceDb.findDrill_some h.found).1
  have hrow : (db.afterAdvance drill input e events).drills.find drill.id =
      some (drill.advanced drill input (db.namedBackup input) e.now) :=
    Table.find_put_self (r := drill.advanced drill input (db.namedBackup input) e.now) hfound
  rw [heq, hfound] at hrow
  have hstate : drill.state = input.state := congrArg RecoveryDrillRow.state (Option.some.inj hrow)
  exact ne_of_allowed h.allowed hstate.symm

end Advance

/-- A call changes nothing when it throws, and throws when it names an unknown backup set, exactly
    when it is refused before its first write, or none of its writes is refused and the set that
    it names exists. -/
theorem advance_strict (db : ResilienceDb) (e : DrillEnv) (input : AdvanceDrillInput) :
    AdvanceStrict db e input ↔ ∀ drill, AdvanceBegins db e input drill →
      AdvanceCompletes db e input drill ∧
        ∀ name, input.backupSetId = some name → ∃ set ∈ db.backupSets, set.backupSetId = name := by
  constructor
  · intro h drill hbegins
    obtain ⟨⟨events, hafter⟩, hok⟩ := advance_begun hbegins
    have hsuccess : ∃ r, (db.advance e input).2 = .ok r := by
      cases hresult : (db.advance e input).2 with
      | ok r => exact ⟨r, rfl⟩
      | error error =>
        have hsame := h.atomic error hresult
        rw [hafter] at hsame
        exact absurd hsame (afterAdvance_ne hbegins)
    refine ⟨hok.mp hsuccess, fun name hname => ?_⟩
    by_contra hunknown
    obtain ⟨error, herror⟩ := h.strict name hname fun set hset heq => hunknown ⟨set, hset, heq⟩
    obtain ⟨r, hr⟩ := hsuccess
    rw [hr] at herror
    cases herror
  · intro h
    by_cases hbegins : ∃ drill, AdvanceBegins db e input drill
    · obtain ⟨drill, hbegins⟩ := hbegins
      obtain ⟨hcompletes, hknown⟩ := h drill hbegins
      obtain ⟨r, hr⟩ := (advance_begun hbegins).2.mpr hcompletes
      constructor
      · intro error herror
        rw [hr] at herror
        cases herror
      · intro name hname hunknown
        obtain ⟨set, hset, heq⟩ := hknown name hname
        exact absurd heq (hunknown set hset)
    · obtain ⟨error, hrefused⟩ := advance_refused (not_exists.mp hbegins)
      constructor
      · intro _ _
        rw [hrefused]
      · intro _ _ _
        exact ⟨error, by rw [hrefused]⟩

/-- A drill that has just been planned. -/
def plannedDrill : ResilienceDb :=
  (noDrills.db.createDrill (exampleEnv 1 "e1") .MANUAL "ops" none).1

/-- An advance with two results of one service. -/
def reconciledTwice : AdvanceDrillInput :=
  { exampleAdvance .RUNNING with
    reconciliations := some [{ service := .ledger, status := .PASS, issueCount := 0 },
      { service := .ledger, status := .FAIL, issueCount := 3 }] }

/-- The second result of a service is refused after the drill has been moved. -/
theorem half_advanced : ¬ ∀ (db : ResilienceDb) (e : DrillEnv) (input : AdvanceDrillInput),
    AdvanceStrict db e input := by
  intro h
  have hsame := (h plannedDrill (exampleEnv 2 "e2") reconciledTwice).atomic .store
    (by decide +kernel)
  have hstate := congrArg
    (fun db : ResilienceDb => (db.drills.find "row-1").map RecoveryDrillRow.state) hsame
  exact absurd hstate (by decide +kernel)

/-! ## What stays recorded -/

/-- Nothing that a drill has recorded is cleared. -/
structure EvidenceKept (drill drill' : RecoveryDrillRow) : Prop where
  failureCode : drill.failureCode ≠ none → drill'.failureCode ≠ none
  backupSetId : drill.backupSetId ≠ none → drill'.backupSetId ≠ none
  completedAt : drill.completedAt ≠ none → drill'.completedAt ≠ none
  pointAge : drill.measuredRecoveryPointAgeSeconds ≠ none →
    drill'.measuredRecoveryPointAgeSeconds ≠ none
  duration : drill.measuredRecoveryDurationMs ≠ none → drill'.measuredRecoveryDurationMs ≠ none
  acknowledgedAt : drill.acknowledgedAt ≠ none → drill'.acknowledgedAt ≠ none

/-- What a drill has recorded stays, but for the failure code of a drill that is cleaned up. -/
structure EvidenceHeld (drill drill' : RecoveryDrillRow) : Prop where
  failureCode : drill.failureCode ≠ none → drill'.failureCode = drill.failureCode ∨
    (drill'.state = .CLEANED_UP ∧ drill'.failureCode = none)
  backupSetId : drill.backupSetId ≠ none → drill'.backupSetId ≠ none
  completedAt : ∀ t, drill.completedAt = some t → drill'.completedAt = some t
  pointAge : drill.measuredRecoveryPointAgeSeconds ≠ none →
    drill'.measuredRecoveryPointAgeSeconds ≠ none
  duration : drill.measuredRecoveryDurationMs ≠ none → drill'.measuredRecoveryDurationMs ≠ none
  acknowledgement : ∀ t, drill.acknowledgedAt = some t → drill'.acknowledgedAt = some t ∧
    drill'.acknowledgedBy = drill.acknowledgedBy ∧
    drill'.acknowledgementReason = drill.acknowledgementReason

/-- An advance or an acknowledgement of a drill that succeeds. -/
def DrillCall.succeedsOn (drillId : String) (s : Recorded) : DrillCall → Bool
  | .advance e input => decide (input.drillId = drillId) && (s.db.advance e input).2.isOk
  | .acknowledge e id operatorId reason =>
    decide (id = drillId) && (s.db.acknowledge e id operatorId reason).2.isOk
  | _ => false

/-- The update of `acknowledge` (lines 201-208). -/
def RecoveryDrillRow.withAcknowledgement (drill : RecoveryDrillRow) (now : ℕ)
    (operatorId reason : String) : RecoveryDrillRow :=
  { drill with
    acknowledgedAt := some now
    acknowledgedBy := some operatorId
    acknowledgementReason := some reason }

/-- What a call makes of a row. -/
inductive DrillStep (drill : RecoveryDrillRow) : RecoveryDrillRow → Prop
  | same : DrillStep drill drill
  | advanced {input named now} (hallowed : input.state ∈ ALLOWED_TRANSITIONS drill.state) :
      DrillStep drill (drill.advanced drill input named now)
  | acknowledged {now operatorId reason} (hstate : drill.state = .FAILED)
      (hfirst : drill.acknowledgedAt = none) :
      DrillStep drill (drill.withAcknowledgement now operatorId reason)

/-- A drill has a completion time once it has passed or failed, and a failure code only while it
    is failed. -/
structure DrillInv (drill : RecoveryDrillRow) : Prop where
  completed : drill.completedAt ≠ none →
    drill.state = .PASSED ∨ drill.state = .FAILED ∨ drill.state = .CLEANED_UP
  failed : drill.failureCode ≠ none → drill.state = .FAILED

section Held

variable {s t : Recorded} {db : ResilienceDb} {drill drill' drill'' : RecoveryDrillRow}

/-- What a call makes of the drills: nothing, a planned one more, or one row is replaced. -/
theorem drills_of_run (db : ResilienceDb) (call : DrillCall) :
    (call.run db).drills = db.drills ∨
      (∃ row, db.drills.insert row = some (call.run db).drills ∧ row.completedAt = none ∧
        row.failureCode = none ∧ row.drillId ≠ "" ∧
        ∀ other ∈ db.drills.rows, other.drillId ≠ row.drillId) ∨
      ∃ drill row, db.drills.find drill.id = some drill ∧ row.id = drill.id ∧
        DrillStep drill row ∧ (call.run db).drills = db.drills.put row := by
  cases call with
  | recordBackupSet row =>
    left
    show (db.recordBackupSet row).drills = db.drills
    unfold ResilienceDb.recordBackupSet
    split_ifs <;> rfl
  | createDrill e type requestedBy note =>
    obtain heq | ⟨row, drills, events, hinsert, -, -, hcompleted, hcode, hnamed, hfree, heq⟩ :=
      db.createDrill_spec e type requestedBy note
    · exact .inl (congrArg ResilienceDb.drills heq)
    · refine .inr (.inl ⟨row, ?_, hcompleted, hcode, hnamed, hfree⟩)
      rw [hinsert]
      exact congrArg some (congrArg ResilienceDb.drills heq).symm
  | advance e input =>
    obtain heq | ⟨drill, events, hdrill, hallowed, -, heq⟩ := db.advance_spec e input
    · exact .inl (congrArg ResilienceDb.drills heq)
    · exact .inr (.inr ⟨drill, drill.advanced drill input (db.namedBackup input) e.now,
        (ResilienceDb.findDrill_some hdrill).1, rfl, .advanced hallowed,
        congrArg ResilienceDb.drills heq⟩)
  | acknowledge e drillId operatorId reason =>
    obtain heq | ⟨drill, hdrill, hstate, hfirst, heq⟩ :=
      db.acknowledge_spec e drillId operatorId reason
    · exact .inl (congrArg ResilienceDb.drills heq)
    · exact .inr (.inr ⟨drill, drill.withAcknowledgement e.now operatorId reason,
        (ResilienceDb.findDrill_some hdrill).1, rfl, .acknowledged hstate hfirst,
        congrArg ResilienceDb.drills heq⟩)

/-- What a call makes of a drill. -/
theorem drillStep_of_run (call : DrillCall) {id : String} (h : db.drills.find id = some drill) :
    ∃ next, (call.run db).drills.find id = some next ∧ DrillStep drill next := by
  obtain heq | ⟨row, hinsert, -⟩ | ⟨stored, row, hstored, hid, hstep, heq⟩ := drills_of_run db call
  · exact ⟨drill, by rw [heq, h], .same⟩
  · have hne : key row ≠ id := by
      rintro rfl
      exact absurd ((Table.insert_some hinsert).1.symm.trans h) (by simp)
    exact ⟨drill, by rw [Table.find_insert hinsert, if_neg hne, h], .same⟩
  · rw [heq]
    by_cases hsame : stored.id = id
    · rw [hsame] at hstored
      obtain rfl : drill = stored := Option.some.inj (h.symm.trans hstored)
      exact ⟨row, Table.find_put_of_find hid h, hstep⟩
    · exact ⟨drill, by rw [Table.find_put_ne (hid.trans_ne hsame), h], .same⟩

/-- A call keeps the invariant of the drills. -/
theorem drillInv_step (h : DrillInv drill) (hstep : DrillStep drill drill') : DrillInv drill' := by
  cases hstep with
  | same => exact h
  | @advanced input named now hallowed =>
    have hclosed : ∀ state, input.state = state → state ≠ .PASSED → state ≠ .FAILED →
        drill.completedAt ≠ none → state = .CLEANED_UP := by
      rintro state rfl hpassed hfailed hcompleted
      rcases h.completed hcompleted with hstate | hstate | hstate <;>
        rw [hstate] at hallowed <;> simp [ALLOWED_TRANSITIONS] at hallowed <;> exact hallowed
    constructor
    · intro hcompleted
      show input.state = _ ∨ input.state = _ ∨ input.state = _
      by_cases hpassed : input.state = .PASSED
      · exact .inl hpassed
      by_cases hfailed : input.state = .FAILED
      · exact .inr (.inl hfailed)
      refine .inr (.inr (hclosed _ rfl hpassed hfailed ?_))
      simpa [RecoveryDrillRow.advanced, hpassed, hfailed] using hcompleted
    · intro hcode
      show input.state = .FAILED
      by_contra hother
      exact hcode (if_neg hother)
  | acknowledged hstate hfirst => exact ⟨h.completed, h.failed⟩

theorem drillInv_of_reachable (h : drillMachine.Reachable Machine.always s) :
    ∀ drill ∈ s.db.drills.rows, DrillInv drill := by
  refine Machine.invariant (I := fun s => ∀ drill ∈ s.db.drills.rows, DrillInv drill) ?_ ?_ h
  · rintro s ⟨-, hdrills, -⟩ drill hdrill
    rw [hdrills] at hdrill
    cases hdrill
  · intro s call t hs _ hstep drill hdrill
    cases Option.some.inj hstep
    obtain heq | ⟨row, hinsert, hcompleted, hcode, -⟩ | ⟨stored, row, hstored, -, hrow, heq⟩ :=
      drills_of_run s.db call
    · exact hs drill (heq ▸ hdrill)
    · change drill ∈ (call.run s.db).drills.rows at hdrill
      rw [(Table.insert_some hinsert).2, List.mem_append, List.mem_singleton] at hdrill
      rcases hdrill with hdrill | rfl
      · exact hs drill hdrill
      · exact ⟨fun h => absurd hcompleted h, fun h => absurd hcode h⟩
    · change drill ∈ (call.run s.db).drills.rows at hdrill
      rw [heq] at hdrill
      rcases Table.mem_put hdrill with ⟨hdrill, -⟩ | rfl
      · exact hs drill hdrill
      · exact drillInv_step (hs stored (Table.find_some hstored).1) hrow

theorem EvidenceHeld.refl : EvidenceHeld drill drill :=
  ⟨fun _ => .inl rfl, id, fun _ h => h, id, id, fun _ h => ⟨h, rfl, rfl⟩⟩

theorem or_ne_none {α : Type} {x y : Option α} (h : y ≠ none) : x.or y ≠ none := by
  rw [Ne, Option.or_eq_none_iff]
  exact fun hnone => h hnone.2

/-- A call keeps what a drill has recorded. -/
theorem EvidenceHeld.step (h : EvidenceHeld drill drill') (hinv : DrillInv drill')
    (hstep : DrillStep drill' drill'') : EvidenceHeld drill drill'' := by
  cases hstep with
  | same => exact h
  | @advanced input named now hallowed =>
    refine ⟨fun hcode => ?_, fun hset => ?_, fun t ht => ?_, fun hage => or_ne_none (h.pointAge hage),
      fun hduration => or_ne_none (h.duration hduration), h.acknowledgement⟩
    · -- the code is there while the drill is failed, and then only a cleanup can follow
      rcases h.failureCode hcode with heq | ⟨hcleaned, -⟩
      · have hfailed := hinv.failed (heq ▸ hcode)
        rw [hfailed] at hallowed
        have hstate : input.state = .CLEANED_UP := List.mem_singleton.mp hallowed
        exact .inr ⟨hstate, if_neg (by rw [hstate]; decide)⟩
      · rw [hcleaned] at hallowed
        cases hallowed
    · rw [advanced_backup]
      exact or_ne_none (h.backupSetId hset)
    · have hcompleted := h.completedAt t ht
      have hstate : input.state = .CLEANED_UP := by
        rcases hinv.completed (by simp [hcompleted]) with hstate | hstate | hstate
        · rw [hstate] at hallowed
          exact List.mem_singleton.mp hallowed
        · rw [hstate] at hallowed
          exact List.mem_singleton.mp hallowed
        · rw [hstate] at hallowed
          cases hallowed
      show (if input.state = .PASSED ∨ input.state = .FAILED then _ else _) = _
      rw [if_neg (by rw [hstate]; decide)]
      exact hcompleted
  | acknowledged hstate hfirst =>
    refine ⟨fun hcode => ?_, h.backupSetId, h.completedAt, h.pointAge, h.duration, fun t ht => ?_⟩
    · rcases h.failureCode hcode with heq | ⟨hcleaned, -⟩
      · exact .inl heq
      · exact absurd (hstate.symm.trans hcleaned) (by decide)
    · exact absurd (hfirst.symm.trans (h.acknowledgement t ht).1) (by simp)

/-- Later calls keep what a drill has recorded. -/
theorem held_of_path (hs : drillMachine.Reachable Machine.always s)
    (hpath : drillMachine.Path Machine.always s t) (hdrill : drill ∈ s.db.drills.rows) :
    ∃ next, t.db.drills.find drill.id = some next ∧ EvidenceHeld drill next := by
  refine Machine.Path.stable (P := fun u => ∃ next, u.db.drills.find drill.id = some next ∧
    EvidenceHeld drill next) hs ?_ hpath ⟨drill, Table.find_of_mem hdrill, .refl⟩
  rintro u call v hu - hstep ⟨row, hrow, hheld⟩
  cases Option.some.inj hstep
  obtain ⟨next, hnext, hmove⟩ := drillStep_of_run call hrow
  exact ⟨next, hnext, hheld.step (drillInv_of_reachable hu row (Table.find_some hrow).1) hmove⟩

end Held

/-- The backup set, the completion, the measurements and the acknowledgement of a drill stay
    recorded after any later calls, and its failure code until it is cleaned up. -/
theorem evidence_kept (s t : Recorded) (hs : drillMachine.Reachable Machine.always s)
    (drill drill' : RecoveryDrillRow) (hdrill : drill ∈ s.db.drills.rows)
    (hpath : drillMachine.Path (fun u call => call.succeedsOn drill.drillId u = true) s t)
    (hdrill' : drill' ∈ t.db.drills.rows) (hid : drill'.id = drill.id) :
    EvidenceHeld drill drill' := by
  obtain ⟨next, hnext, hheld⟩ := held_of_path hs (hpath.mono fun _ _ _ => trivial) hdrill
  rw [← hid] at hnext
  obtain rfl : next = drill' := Option.some.inj (hnext.symm.trans (Table.find_of_mem hdrill'))
  exact hheld

/-- The calls of a drill that fails and is acknowledged. -/
def failedCalls : List DrillCall :=
  [.createDrill (exampleEnv 1 "e1") .MANUAL "ops" none,
    .advance (exampleEnv 2 "e2") (exampleAdvance .RUNNING),
    .advance (exampleEnv 3 "e3")
      { exampleAdvance .FAILED with
        failureCode := some .RESTORE_FAILED
        measuredRecoveryDurationMs := some 1500 },
    .acknowledge (exampleEnv 4 "-") "drill:2026-08-01:d1" "operator-1" "Reviewed"]

/-- The cleanup of the drill of the examples. -/
def cleanup : DrillCall := .advance (exampleEnv 5 "e5") (exampleAdvance .CLEANED_UP)

/-- A failed drill and the same drill after its cleanup. -/
theorem cleaned_up : ∃ (s t : Recorded) (drill drill' : RecoveryDrillRow),
    drillMachine.Reachable Machine.always s ∧ drill ∈ s.db.drills.rows ∧
      drillMachine.Path (fun u call => call.succeedsOn drill.drillId u = true) s t ∧
      drill' ∈ t.db.drills.rows ∧ drill'.id = drill.id ∧
      drill.failureCode = some .RESTORE_FAILED ∧ drill.acknowledgedAt = some 4 ∧
      drill'.failureCode = none := by
  obtain ⟨s, hs, hend⟩ := Machine.reachable_of_run failedCalls
    (fun s => (s.db.drills.find "row-1").any fun drill =>
      decide (drill.drillId = "drill:2026-08-01:d1") &&
      decide (drill.failureCode = some .RESTORE_FAILED) && decide (drill.acknowledgedAt = some 4) &&
      (drillMachine.runUnder (fun u call => call.succeedsOn "drill:2026-08-01:d1" u) s
        [cleanup]).any fun t => (t.db.drills.find "row-1").any fun drill' =>
          decide (drill'.failureCode = none)) noDrills_init (by decide +kernel)
  obtain ⟨drill, hdrill, hp⟩ := (Option.any_eq_true _ _).mp hend
  simp only [Bool.and_eq_true, decide_eq_true_eq] at hp
  obtain ⟨⟨⟨hid, hcode⟩, hack⟩, hrun⟩ := hp
  obtain ⟨t, ht, hp'⟩ := (Option.any_eq_true _ _).mp hrun
  obtain ⟨drill', hdrill', hcleared⟩ := (Option.any_eq_true _ _).mp hp'
  refine ⟨s, t, drill, drill', hs, (Table.find_some hdrill).1,
    Machine.path_of_runUnder (fun _ _ h => ?_) _ _ ht, (Table.find_some hdrill').1, ?_, hcode, hack,
    of_decide_eq_true hcleared⟩
  · rw [hid]
    exact h
  · exact (Table.key_of_find hdrill').trans (Table.key_of_find hdrill).symm

/-- The acknowledgement of a failed drill outlasts its cleanup. -/
theorem evidence_kept_cleaned_up : ∃ drill drill' : RecoveryDrillRow, EvidenceHeld drill drill' ∧
    drill.acknowledgedAt = some 4 ∧ drill'.acknowledgedAt = some 4 ∧ drill'.failureCode = none := by
  obtain ⟨s, t, drill, drill', hs, hdrill, hpath, hdrill', hid, -, hack, hcleared⟩ := cleaned_up
  have hheld := evidence_kept s t hs drill drill' hdrill hpath hdrill' hid
  exact ⟨drill, drill', hheld, hack, (hheld.acknowledgement 4 hack).1, hcleared⟩

/-- Cleaning up a failed drill clears its failure code. -/
theorem failure_code_cleared : ¬ ∀ s t : Recorded, drillMachine.Reachable Machine.always s →
    ∀ drill ∈ s.db.drills.rows, ∀ drill' ∈ t.db.drills.rows,
      drillMachine.Path (fun u call => call.succeedsOn drill.drillId u = true) s t →
        drill'.id = drill.id → EvidenceKept drill drill' := by
  intro h
  obtain ⟨s, t, drill, drill', hs, hdrill, hpath, hdrill', hid, hcode, -, hcleared⟩ := cleaned_up
  have hkept := h s t hs drill hdrill drill' hdrill' hpath hid
  exact hkept.failureCode (by simp [hcode]) hcleared

end AegisShield.Resilience
