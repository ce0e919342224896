import AegisShield.Common.Machine
import AegisShield.Risk.Assessment
import AegisShield.Risk.Operators

/-!
# The bookkeeping of incidents

Incidents that assessments open and that `IncidentService.update` (`incident.service.ts`,
lines 34-81) updates, one call after the other.

Results:
* `incident_bookkeeping`: in every run in which no update moves a settled incident to
  `INVESTIGATING` or `CONTAINED`, an incident has a resolution time exactly when it is settled,
  and reopening it is logged. An update that does so breaks both.
* `resolved_while_investigating`: such an update leaves the resolution time of an open incident.
-/

namespace AegisShield.Risk

open Common

/-! ## The calls -/

/-- The texts that `incidentUpdateSchema` (`operator.controller.ts`, lines 25-41) returns; at
    least one member is given. -/
def IncidentUpdate.passes (input : IncidentUpdate) : Bool :=
  let bounded (lo hi : ℕ) (text : Option String) : Bool :=
    text.all fun text => decide (lo ≤ utf16Length text ∧ utf16Length text ≤ hi)
  bounded 8 128 input.assignedTo && bounded 3 1000 input.note &&
    bounded 8 500 input.resolutionReason &&
    (input.status.isSome || input.assignedTo.isSome || input.note.isSome ||
      input.resolutionReason.isSome)

/-- `IncidentService.update` (lines 34-81): the tables after the call, and the row. -/
def RiskDb.update (db : RiskDb) (id : String) (input : IncidentUpdate) (operatorId : String)
    (now : ℕ) : Except RiskError (RiskDb × IncidentRow) :=
  match db.incidents.find id with
  | none => .error .notFound
  | some current =>
    if input.resolved = true ∧ (orText input.resolutionReason none).isNone then .error .resolution
    else
      match db.updateIncident (input.data now) (input.event current operatorId) with
      | none => .error .store
      | some r => .ok r

inductive IncidentAction where
  /-- An assessment creates an incident, or none. -/
  | assess (result : EngineResult) (e : EvaluateEnv)
  | update (id : String) (input : IncidentUpdate) (operatorId : String) (now : ℕ)

/-- The tables after a call; one that throws leaves them as they are. -/
def incidentStep (db : RiskDb) : IncidentAction → Option RiskDb
  | .assess result e => db.openIncident (incidentOf result e)
  | .update id input operatorId now =>
    if input.passes then
      some (match db.update id input operatorId now with
        | .ok r => r.1
        | .error _ => db)
    else none

/-- Calls in any order, from the tables after the migration. -/
def incidentMachine : Machine RiskDb IncidentAction where
  init db := db = RiskDb.migrated
  step := incidentStep

/-! ## The property -/

/-- A resolution time just when the incident is settled, and then a reason. -/
structure IncidentRow.Booked (row : IncidentRow) : Prop where
  resolvedAt : row.resolvedAt.isSome = true ↔ row.status.resolved = true
  reason : row.status.resolved = true → ∃ reason, row.resolutionReason = some reason ∧ reason ≠ ""

/-- Every incident is booked. -/
def RiskDb.Booked (db : RiskDb) : Prop := ∀ row ∈ db.incidents.rows, row.Booked

/-- An incident that is open again was logged as reopened. -/
def ReopeningLogged (db db' : RiskDb) : Prop :=
  ∀ id row row', db.incidents.find id = some row → db'.incidents.find id = some row' →
    row.status.resolved = true → row'.status.resolved = false →
    ∃ event : IncidentEventRow, db'.incidentEvents = db.incidentEvents ++ [event] ∧
      event.incidentId = id ∧ event.eventType = .REOPENED

/-- The condition on the steps of a run: no update moves a settled incident to an open status
    other than `OPEN`. -/
def staysSettled (db : RiskDb) : IncidentAction → Bool
  | .assess _ _ => true
  | .update id input _ _ =>
    decide (input.status ≠ some .INVESTIGATING ∧ input.status ≠ some .CONTAINED) ||
      (db.incidents.find id).all fun row => !row.status.resolved

/-! ## What a call does -/

section Steps

variable {db db' : RiskDb} {id : String} {input : IncidentUpdate} {operatorId : String} {now : ℕ}

/-- What `update` writes when it does not throw. -/
theorem update_ok {row : IncidentRow} (h : db.update id input operatorId now = .ok (db', row)) :
    ∃ current, db.incidents.find id = some current ∧ row = input.data now current ∧
      (input.resolved = true → ∃ reason, input.resolutionReason = some reason ∧ reason ≠ "") ∧
      db' = { db with
        incidents := db.incidents.put row
        incidentEvents := db.incidentEvents ++ [input.event current operatorId] } := by
  unfold RiskDb.update at h
  split at h
  · cases h
  next current hcurrent =>
    split_ifs at h with hreason
    have hid : current.id = id := Table.key_of_find hcurrent
    have hwrite : db.updateIncident (input.data now) (input.event current operatorId) =
        some ({ db with
          incidents := db.incidents.put (input.data now current)
          incidentEvents := db.incidentEvents ++ [input.event current operatorId] },
          input.data now current) := by
      unfold RiskDb.updateIncident
      rw [show (input.event current operatorId).incidentId = id from hid, hcurrent]
      rfl
    rw [hwrite] at h
    cases h
    refine ⟨current, hcurrent, rfl, fun hresolved => ?_, rfl⟩
    by_contra hnone
    refine hreason ⟨hresolved, ?_⟩
    unfold orText
    rw [Option.or_none, Option.isNone_iff_eq_none, Option.filter_eq_none_iff]
    intro reason hgiven hne
    exact hnone ⟨reason, hgiven, of_decide_eq_true hne⟩

/-- The row of an update is booked, unless it opens a settled incident without `OPEN`. -/
theorem booked_data {current : IncidentRow} (hcurrent : current.Booked)
    (hpasses : input.passes = true)
    (hreason : input.resolved = true →
      ∃ reason, input.resolutionReason = some reason ∧ reason ≠ "")
    (hsettled : (input.status ≠ some .INVESTIGATING ∧ input.status ≠ some .CONTAINED) ∨
      current.status.resolved = false) : (input.data now current).Booked := by
  have hgiven : ∀ reason, input.resolutionReason = some reason → reason ≠ "" := by
    rintro _ hsome rfl
    simp [IncidentUpdate.passes, hsome, utf16Length] at hpasses
  have hkept : current.status.resolved = true → ∃ reason,
      (input.resolutionReason.or current.resolutionReason) = some reason ∧ reason ≠ "" := by
    intro hresolved
    rcases hinput : input.resolutionReason with _ | reason
    · exact hcurrent.reason hresolved
    · exact ⟨reason, rfl, hgiven reason hinput⟩
  unfold IncidentUpdate.data
  rcases hstatus : input.status with _ | status
  · have hno : input.resolved = false := by
      unfold IncidentUpdate.resolved
      rw [hstatus]
      rfl
    refine ⟨?_, hkept⟩
    simpa [hno] using hcurrent.resolvedAt
  · have hresolved : input.resolved = status.resolved := by
      unfold IncidentUpdate.resolved
      rw [hstatus]
      rfl
    rw [hresolved] at hreason ⊢
    constructor
    · by_cases hnew : status.resolved = true
      · simp [hnew]
      · have hnone : ¬ status = .OPEN → current.resolvedAt = none := by
          intro hopen
          have hfree : current.status.resolved = false := by
            rcases hsettled with ⟨hinvestigating, hcontained⟩ | hfree
            · rw [hstatus] at hinvestigating hcontained
              cases status <;> simp_all [IncidentStatus.resolved]
            · exact hfree
          refine Option.not_isSome_iff_eq_none.mp fun hsome => ?_
          rw [hcurrent.resolvedAt.mp hsome] at hfree
          cases hfree
        simpa [hnew] using hnone
    · intro hnew
      obtain ⟨reason, hsome, hne⟩ := hreason hnew
      exact ⟨reason, by simp [hsome], hne⟩

variable (operatorId now) in
/-- A settled incident that is opened without `OPEN` keeps its resolution time, and the event is
    that of any change of status. -/
theorem data_of_settled {current : IncidentRow} (hcurrent : current.Booked)
    (hsettled : current.status.resolved = true)
    (hopen : input.status = some .INVESTIGATING ∨ input.status = some .CONTAINED) :
    ((input.data now current).resolvedAt.isSome = true ∧
      (input.data now current).status.resolved = false) ∧
      (input.event current operatorId).eventType = .STATUS_CHANGED := by
  have htime := hcurrent.resolvedAt.mpr hsettled
  rcases hopen with hstatus | hstatus
  · simp [IncidentUpdate.data, IncidentUpdate.event, IncidentUpdate.eventType,
      IncidentUpdate.resolved, IncidentStatus.resolved, hstatus, htime]
  · simp [IncidentUpdate.data, IncidentUpdate.event, IncidentUpdate.eventType,
      IncidentUpdate.resolved, IncidentStatus.resolved, hstatus, htime]

/-- A settled incident that is open after an update is logged as reopened, if the update sets
    `OPEN` when it opens. -/
theorem eventType_of_reopened {current : IncidentRow} (hsettled : current.status.resolved = true)
    (hopen : (input.data now current).status.resolved = false)
    (hstatus : input.status ≠ some .INVESTIGATING ∧ input.status ≠ some .CONTAINED) :
    (input.event current operatorId).eventType = .REOPENED := by
  have hnew : input.status = some .OPEN := by
    unfold IncidentUpdate.data at hopen
    rcases hinput : input.status with _ | status
    · rw [hinput] at hopen
      rw [show (none : Option IncidentStatus).getD current.status = current.status from rfl,
        hsettled] at hopen
      cases hopen
    · rw [hinput] at hopen hstatus
      cases status <;> simp_all [IncidentStatus.resolved]
  show input.eventType current = .REOPENED
  unfold IncidentUpdate.eventType
  rw [if_pos ⟨hnew, hsettled⟩]

end Steps

/-! ## Runs -/

/-- A new incident is open. -/
theorem booked_opened {db db' : RiskDb} {incident : Option (IncidentRow × String)}
    (hbooked : db.Booked) (hnew : ∀ p ∈ incident, p.1.resolvedAt = none)
    (h : db.openIncident incident = some db') :
    db'.Booked ∧ ∀ id row, db.incidents.find id = some row → db'.incidents.find id = some row := by
  rcases incident with _ | ⟨row, note⟩
  · cases h
    exact ⟨hbooked, fun _ _ hrow => hrow⟩
  · obtain ⟨incidents, hinsert, rfl⟩ := Option.map_eq_some_iff.mp h
    obtain ⟨hfree, hrows⟩ := Table.insert_some hinsert
    constructor
    · intro x hx
      rw [show incidents.rows = _ from hrows] at hx
      rcases List.mem_append.mp hx with hx | hx
      · exact hbooked x hx
      · rw [List.mem_singleton.mp hx]
        have htime : row.resolvedAt = none := hnew _ rfl
        exact ⟨by simp [htime, IncidentStatus.resolved], by simp [IncidentStatus.resolved]⟩
    · intro id x hx
      rw [show (_ : Option IncidentRow) = _ from Table.find_insert hinsert]
      split_ifs with hkey
      · rw [← hkey, hfree] at hx
        cases hx
      · exact hx

/-- Tables in which no incident changed have none reopened. -/
theorem reopeningLogged_of_kept {db db' : RiskDb}
    (h : ∀ id row, db.incidents.find id = some row → db'.incidents.find id = some row) :
    ReopeningLogged db db' := by
  intro id row row' hrow hrow' hsettled hopen
  cases (h id row hrow).symm.trans hrow'
  rw [hsettled] at hopen
  cases hopen

section Update

variable {db db' : RiskDb} {id : String} {input : IncidentUpdate} {operatorId : String} {now : ℕ}
  {current : IncidentRow}

variable (operatorId now) in
/-- The update of an incident that it finds goes through, unless it lacks a reason. -/
theorem exists_update (hcurrent : db.incidents.find id = some current)
    (hopen : input.resolved = false) :
    ∃ r, db.update id input operatorId now = .ok r := by
  unfold RiskDb.update RiskDb.updateIncident
  rw [hcurrent]
  dsimp only
  rw [if_neg (by rw [hopen]; simp),
    show (input.event current operatorId).incidentId = id from Table.key_of_find hcurrent, hcurrent]
  exact ⟨_, rfl⟩

/-- An update under the condition. -/
theorem booked_update {row : IncidentRow} (hbooked : db.Booked) (hpasses : input.passes = true)
    (h : db.update id input operatorId now = .ok (db', row))
    (hsettled : staysSettled db (.update id input operatorId now) = true) :
    db'.Booked ∧ ReopeningLogged db db' := by
  obtain ⟨current, hcurrent, rfl, hreason, rfl⟩ := update_ok h
  have hstays : (input.status ≠ some .INVESTIGATING ∧ input.status ≠ some .CONTAINED) ∨
      current.status.resolved = false := by
    simpa [staysSettled, hcurrent] using hsettled
  constructor
  · intro x hx
    rcases Table.mem_put hx with ⟨hx, -⟩ | rfl
    · exact hbooked x hx
    · exact booked_data (hbooked current (Table.find_some hcurrent).1) hpasses hreason hstays
  · intro other row row' hrow hrow' hold hopen
    have hkey : key (input.data now current) = key current := rfl
    rcases Table.find_put_cases hkey hcurrent hrow' with ⟨-, hsame⟩ | ⟨rfl, rfl⟩
    · cases hrow.symm.trans hsame
      rw [hold] at hopen
      cases hopen
    · cases hrow.symm.trans hcurrent
      refine ⟨_, rfl, Table.key_of_find hcurrent, eventType_of_reopened hold hopen ?_⟩
      rcases hstays with hstatus | hfree
      · exact hstatus
      · rw [hold] at hfree
        cases hfree

/-- An update that violates it. -/
theorem not_booked_update {row : IncidentRow} (hbooked : db.Booked)
    (h : db.update id input operatorId now = .ok (db', row))
    (hsettled : staysSettled db (.update id input operatorId now) = false) :
    ¬ db'.Booked ∧ ¬ ReopeningLogged db db' := by
  obtain ⟨current, hcurrent, rfl, -, rfl⟩ := update_ok h
  obtain ⟨hstatus, hold⟩ : (input.status = some .INVESTIGATING ∨ input.status = some .CONTAINED) ∧
      current.status.resolved = true := by
    simpa [staysSettled, hcurrent, not_and_or, or_iff_not_imp_left] using hsettled
  obtain ⟨⟨htime, hopen⟩, hevent⟩ := data_of_settled operatorId now
    (hbooked current (Table.find_some hcurrent).1) hold hstatus
  have hfind : (db.incidents.put (input.data now current)).find id =
      some (input.data now current) := Table.find_put_of_find (x := current) rfl hcurrent
  constructor
  · intro hall
    have hresolved := (hall _ (Table.find_some hfind).1).resolvedAt.mp htime
    rw [hopen] at hresolved
    cases hresolved
  · intro hlogged
    obtain ⟨event, hevents, -, htype⟩ := hlogged id current _ hcurrent hfind hold hopen
    rw [← (List.cons.inj (List.append_cancel_left hevents)).1, hevent] at htype
    cases htype

end Update

/-- A step under the condition keeps the books and logs what it reopens; any other breaks both. -/
theorem booked_step {db db' : RiskDb} {a : IncidentAction} (hbooked : db.Booked)
    (h : incidentMachine.step db a = some db') :
    (staysSettled db a = true → db'.Booked ∧ ReopeningLogged db db') ∧
      (staysSettled db a = false → ¬ db'.Booked ∧ ¬ ReopeningLogged db db') := by
  cases a with
  | assess result e =>
    have hnew : ∀ p ∈ incidentOf result e, p.1.resolvedAt = none := by
      intro p hp
      unfold incidentOf at hp
      split_ifs at hp
      · cases hp
        rfl
      · cases hp
    obtain ⟨hbooked', hkept⟩ := booked_opened hbooked hnew h
    exact ⟨fun _ => ⟨hbooked', reopeningLogged_of_kept hkept⟩, fun hsettled => by cases hsettled⟩
  | update id input operatorId now =>
    have hstep : incidentStep db (.update id input operatorId now) = some db' := h
    unfold incidentStep at hstep
    dsimp only at hstep
    split_ifs at hstep with hpasses
    rcases hupdate : db.update id input operatorId now with error | ⟨db₁, row⟩
    · rw [hupdate] at hstep
      cases hstep
      refine ⟨fun _ => ⟨hbooked, reopeningLogged_of_kept fun _ _ hrow => hrow⟩, fun hsettled => ?_⟩
      rcases hcurrent : db.incidents.find id with _ | current
      · simp [staysSettled, hcurrent] at hsettled
      · have hopen : input.resolved = false := by
          simp only [staysSettled, hcurrent, Bool.or_eq_false_iff,
            decide_eq_false_iff_not] at hsettled
          unfold IncidentUpdate.resolved
          rcases hstatus : input.status with _ | status
          · rfl
          · cases status <;> simp_all [IncidentStatus.resolved]
        obtain ⟨r, hr⟩ := exists_update operatorId now hcurrent hopen
        rw [hr] at hupdate
        cases hupdate
    · rw [hupdate] at hstep
      cases hstep
      exact ⟨booked_update hbooked hpasses hupdate, not_booked_update hbooked hupdate⟩

/-! ## Main results -/

/-- In a run in which no update moves a settled incident to `INVESTIGATING` or `CONTAINED`, an
    incident has a resolution time exactly when it is settled, with a reason, and what is reopened
    is logged so. An update that does otherwise breaks both. -/
theorem incident_bookkeeping (db : RiskDb)
    (h : incidentMachine.Reachable (fun db a => staysSettled db a = true) db) :
    db.Booked ∧
      (∀ a db', incidentMachine.step db a = some db' → staysSettled db a = true →
        ReopeningLogged db db') ∧
      ∀ a db', incidentMachine.step db a = some db' → staysSettled db a = false →
        ¬ db'.Booked ∧ ¬ ReopeningLogged db db' := by
  have hbooked : db.Booked := by
    refine Machine.invariant ?_ ?_ h
    · rintro db rfl row hrow
      cases hrow
    · intro db a db' hbooked hsettled hstep
      exact ((booked_step hbooked hstep).1 hsettled).1
  exact ⟨hbooked, fun a db' hstep hsettled => ((booked_step hbooked hstep).1 hsettled).2,
    fun a db' hstep => (booked_step hbooked hstep).2⟩

/-! ## Two runs -/

/-- An assessment that opens an incident. -/
def incidentOpened : IncidentAction :=
  .assess
    (evaluateRisk (highValueTransfer "customer-1") newRecipientFacts exampleRuntime.thresholds)
    { now := 0
      facts := newRecipientFacts
      assessmentId := "assessment-1"
      incidentId := "incident-1"
      controlId := "control-1"
      createdAt := 0
      controlNow := 0
      answered := true }

/-- The operator sets a status of the incident. -/
def setsStatus (now : ℕ) (status : IncidentStatus) (resolutionReason : Option String) :
    IncidentAction :=
  .update "incident-1" {
    status := some status
    assignedTo := none
    note := none
    resolutionReason := resolutionReason } "operator:1" now

/-- The incident is opened and resolved. -/
def incidentResolved : List IncidentAction :=
  [incidentOpened, setsStatus 10 .RESOLVED (some "Cleared by review.")]

/-- The incident has a status, and a resolution time or none. -/
def hasBooks (status : IncidentStatus) (timed : Bool) (db : RiskDb) : Bool :=
  (db.incidents.find "incident-1").any fun row =>
    decide (row.status = status ∧ row.resolvedAt.isSome = timed)

/-- A resolved incident that is investigated again keeps its resolution time. -/
theorem resolved_while_investigating : ¬ ∀ db : RiskDb,
    incidentMachine.Reachable Machine.always db → db.Booked ∧
      ∀ a db', incidentMachine.step db a = some db' → ReopeningLogged db db' := by
  intro h
  obtain ⟨db, hdb, hp⟩ := Machine.reachable_of_run
    (incidentResolved ++ [setsStatus 20 .INVESTIGATING none]) (hasBooks .INVESTIGATING true)
    (show incidentMachine.init RiskDb.migrated from rfl) (by decide)
  obtain ⟨row, hrow, hbooks⟩ := (Option.any_eq_true _ _).mp hp
  obtain ⟨hstatus, htime⟩ := of_decide_eq_true hbooks
  have hsettled := ((h db hdb).1 row (Table.find_some hrow).1).resolvedAt.mp htime
  rw [hstatus] at hsettled
  cases hsettled

/-- A resolved incident that is opened again has no resolution time. -/
theorem incident_bookkeeping_reopened : ∃ db : RiskDb,
    hasBooks .OPEN false db = true ∧ db.Booked := by
  obtain ⟨db, hdb, hp⟩ := Machine.reachable_of_runUnder
    (incidentResolved ++ [setsStatus 20 .OPEN none]) staysSettled (hasBooks .OPEN false)
    (fun _ _ hc => hc) (show incidentMachine.init RiskDb.migrated from rfl) (by decide)
  exact ⟨db, hp, (incident_bookkeeping db hdb).1⟩

end AegisShield.Risk
