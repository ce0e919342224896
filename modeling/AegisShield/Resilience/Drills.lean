import AegisShield.Common.Machine
import AegisShield.Common.Table

/-!
# Recovery drills

`DrillService` (`drill.service.ts`) against the tables of the Resilience service
(`schema.prisma`, `migration.sql`): a drill moves through `ALLOWED_TRANSITIONS`, and its
backup set, its reconciliations and its events are recorded on the way. Each call runs to its
end before the next one; a statement that a constraint refuses ends the call, and what it
wrote before stays.

Results:
* `passed_drills_evidenced`: in every run in which a drill is advanced to `PASSED` only with a
  backup set, at least one reconciliation and no failed one, and no failed reconciliation is
  added to a passed drill, every passed drill has its evidence.
* `passed_without_evidence`: without that, a drill passes with none.
-/

namespace AegisShield.Resilience

open Common

/-! ## Rows -/

/-- `RecoveryDrillState` (`contracts/resilience/v1.ts`, line 254). -/
inductive RecoveryDrillState where
  | PLANNED
  | RUNNING
  | BACKUP_CREATED
  | RESTORE_VERIFIED
  | RECONCILIATION_PASSED
  | PASSED
  | FAILED
  | CLEANED_UP
  deriving DecidableEq

/-- `RecoveryDrillType` (`contracts/resilience/v1.ts`, line 255). -/
inductive RecoveryDrillType where
  | SCHEDULED
  | MANUAL
  | CI_AUTOMATED
  deriving DecidableEq

/-- `ResilienceFailureCode` (`contracts/resilience/v1.ts`, line 256). -/
inductive ResilienceFailureCode where
  | BACKUP_FAILED
  | MANIFEST_INVALID
  | CHECKSUM_MISMATCH
  | DECRYPTION_FAILED
  | INCOMPLETE_BACKUP_SET
  | RESTORE_FAILED
  | RECONCILIATION_FAILED
  | CLEANUP_FAILED
  | DEPENDENCY_UNAVAILABLE
  | CONFIGURATION_INVALID
  deriving DecidableEq

/-- `ResilienceServiceName` (`contracts/resilience/v1.ts`, line 252). -/
inductive ResilienceServiceName where
  | identity
  | ledger
  | payments
  | risk
  | resilience
  deriving DecidableEq

/-- The status of a reconciliation. -/
inductive ReconciliationStatus where
  | PASS
  | FAIL
  deriving DecidableEq

/-- The columns of `BackupSet` (`schema.prisma`, lines 20-35) that drills refer to. -/
structure BackupSetRow where
  id : String
  backupSetId : String
  deriving DecidableEq

/-- `RecoveryDrill` (`schema.prisma`, lines 38-66); times are microseconds. -/
structure RecoveryDrillRow where
  id : String
  drillId : String
  type : RecoveryDrillType
  state : RecoveryDrillState
  startedAt : ℕ
  completedAt : Option ℕ
  requestedBy : String
  backupSetId : Option String
  measuredRecoveryPointAgeSeconds : Option ℕ
  measuredRecoveryDurationMs : Option ℕ
  failureCode : Option ResilienceFailureCode
  acknowledgedAt : Option ℕ
  acknowledgedBy : Option String
  acknowledgementReason : Option String
  deriving DecidableEq

instance : Keyed RecoveryDrillRow String := ⟨RecoveryDrillRow.id⟩

/-- `DrillEvent` (`schema.prisma`, lines 69-80). -/
structure DrillEvent where
  eventId : String
  drillRowId : String
  state : RecoveryDrillState
  occurredAt : ℕ
  note : Option String
  deriving DecidableEq

/-- `DrillReconciliation` (`schema.prisma`, lines 83-95). -/
structure DrillReconciliation where
  drillRowId : String
  service : ResilienceServiceName
  status : ReconciliationStatus
  issueCount : ℕ
  checkedAt : ℕ
  deriving DecidableEq

/-- The tables. -/
structure ResilienceDb where
  backupSets : List BackupSetRow
  drills : Table RecoveryDrillRow
  events : List DrillEvent
  reconciliations : List DrillReconciliation

/-- `ALLOWED_TRANSITIONS` (`drill.service.ts`, lines 30-39). -/
def ALLOWED_TRANSITIONS : RecoveryDrillState → List RecoveryDrillState
  | .PLANNED => [.RUNNING, .FAILED]
  | .RUNNING => [.BACKUP_CREATED, .FAILED]
  | .BACKUP_CREATED => [.RESTORE_VERIFIED, .FAILED]
  | .RESTORE_VERIFIED => [.RECONCILIATION_PASSED, .FAILED]
  | .RECONCILIATION_PASSED => [.PASSED, .FAILED]
  | .PASSED => [.CLEANED_UP]
  | .FAILED => [.CLEANED_UP]
  | .CLEANED_UP => []

/-! ## Statements -/

/-- The largest value of an `INTEGER` column. -/
def maxInt : ℕ := 2147483647

/-- A reconciliation in the body of `advance`. -/
structure ReconciliationInput where
  service : ResilienceServiceName
  status : ReconciliationStatus
  issueCount : ℕ
  deriving DecidableEq

/-- `AdvanceDrillInput` (`drill.service.ts`, lines 50-63). -/
structure AdvanceDrillInput where
  drillId : String
  state : RecoveryDrillState
  note : Option String
  backupSetId : Option String
  measuredRecoveryPointAgeSeconds : Option ℕ
  measuredRecoveryDurationMs : Option ℕ
  failureCode : Option ResilienceFailureCode
  reconciliations : Option (List ReconciliationInput)

/-- What a call throws. -/
inductive DrillError where
  | notFound
  | conflict (code : String)
  /-- The database refuses a statement. -/
  | store
  deriving DecidableEq

/-- The clocks of the service and of the database, and what a call generates. -/
structure DrillEnv where
  now : ℕ
  dbNow : ℕ
  isoDate : String
  drillUuid : String
  rowUuid : String
  eventUuid : String

namespace RecoveryDrillRow

/-- The constraints of `recovery_drills` that an update can violate. -/
def accepted (row : RecoveryDrillRow) : Bool :=
  row.completedAt.all (fun t => decide (row.startedAt ≤ t)) &&
    row.measuredRecoveryPointAgeSeconds.all (fun n => decide (n ≤ maxInt)) &&
    row.measuredRecoveryDurationMs.all fun n => decide (n ≤ maxInt)

/-- The update of `advance` (lines 144-165) of a stored row, from the row that was read and
    the backup set that the input names: `none` when it names none, `some none` when the name
    is unknown. -/
def advanced (stored drill : RecoveryDrillRow) (input : AdvanceDrillInput)
    (named : Option (Option String)) (now : ℕ) : RecoveryDrillRow :=
  { stored with
    state := input.state
    completedAt := if input.state = .PASSED ∨ input.state = .FAILED then some now
      else drill.completedAt
    failureCode := if input.state = .FAILED then input.failureCode else none
    measuredRecoveryPointAgeSeconds :=
      input.measuredRecoveryPointAgeSeconds.or drill.measuredRecoveryPointAgeSeconds
    measuredRecoveryDurationMs :=
      input.measuredRecoveryDurationMs.or drill.measuredRecoveryDurationMs
    backupSetId := match named with
      | none => drill.backupSetId
      | some none => stored.backupSetId
      | some (some id) => some id }

end RecoveryDrillRow

namespace ResilienceDb

/-- `recoveryDrill.findUnique` by `drillId`. -/
def findDrill (db : ResilienceDb) (drillId : String) : Option RecoveryDrillRow :=
  db.drills.rows.find? fun row => row.drillId = drillId

/-- The backup set that the input names (lines 157-163). -/
def namedBackup (db : ResilienceDb) (input : AdvanceDrillInput) : Option (Option String) :=
  match input.backupSetId with
  | none => none
  | some name =>
    if name = "" then none
    else some ((db.backupSets.find? fun set => set.backupSetId = name).map BackupSetRow.id)

/-- `recoveryDrill.create`. -/
def insertDrill (db : ResilienceDb) (row : RecoveryDrillRow) : Option ResilienceDb :=
  if db.drills.rows.any fun other => other.drillId = row.drillId then none
  else (db.drills.insert row).map fun drills => { db with drills := drills }

/-- `recoveryDrill.update` of `advance`. -/
def updateDrill (db : ResilienceDb) (drill : RecoveryDrillRow) (input : AdvanceDrillInput)
    (named : Option (Option String)) (now : ℕ) : Option ResilienceDb :=
  match db.drills.find drill.id with
  | none => none
  | some stored =>
    let row := stored.advanced drill input named now
    if row.accepted then some { db with drills := db.drills.put row } else none

/-- `drillReconciliation.create`: a service has one result in a drill. -/
def insertReconciliation (db : ResilienceDb) (row : DrillReconciliation) : Option ResilienceDb :=
  if (db.reconciliations.any fun other =>
      decide (other.drillRowId = row.drillRowId) && decide (other.service = row.service)) ||
      decide (maxInt < row.issueCount) then none
  else some { db with reconciliations := db.reconciliations ++ [row] }

/-- The note of an event (line 294). -/
def eventNote (note : Option String) : Option String :=
  (note.filter fun text => text ≠ "").map fun text => String.ofList (text.toList.take 500)

/-- A `TEXT` column takes no character U+0000. -/
def storable (note : Option String) : Bool :=
  note.all fun text => decide (Char.ofNat 0 ∉ text.toList)

/-- The database takes the next event: its note is storable and its id is new. -/
def acceptsEvent (db : ResilienceDb) (note : Option String) (e : DrillEnv) : Bool :=
  storable (eventNote note) &&
    db.events.all fun event => decide (event.eventId ≠ "event:" ++ e.eventUuid)

/-- `appendEvent` (lines 283-297). -/
def appendEvent (db : ResilienceDb) (drillRowId : String) (state : RecoveryDrillState)
    (note : Option String) (e : DrillEnv) : Option ResilienceDb :=
  let event : DrillEvent := {
    eventId := "event:" ++ e.eventUuid
    drillRowId := drillRowId
    state := state
    occurredAt := e.dbNow
    note := eventNote note }
  if db.acceptsEvent note e then some { db with events := db.events ++ [event] } else none

/-- The loop of `advance` (lines 167-178): the table after it, and whether it ran to its end. -/
def recordAll (db : ResilienceDb) (drillRowId : String) (checkedAt : ℕ) :
    List ReconciliationInput → ResilienceDb × Bool
  | [] => (db, true)
  | item :: items =>
    match db.insertReconciliation {
        drillRowId := drillRowId, service := item.service, status := item.status,
        issueCount := item.issueCount, checkedAt := checkedAt } with
    | none => (db, false)
    | some db => recordAll db drillRowId checkedAt items

end ResilienceDb

/-! ## The service -/

/-- `RecoveryDrill` (`contracts/resilience/v1.ts`, line 263), with times as numbers. -/
structure RecoveryDrill where
  drillId : String
  type : RecoveryDrillType
  state : RecoveryDrillState
  startedAt : ℕ
  completedAt : Option ℕ
  requestedBy : String
  backupSetId : Option String
  measuredRecoveryPointAgeSeconds : Option ℕ
  measuredRecoveryDurationMs : Option ℕ
  reconciliations : List DrillReconciliation
  failureCode : Option ResilienceFailureCode
  acknowledgedAt : Option ℕ
  acknowledgedBy : Option String
  deriving DecidableEq

namespace ResilienceDb

/-- The reconciliations of a drill. -/
def reconciliationsOf (db : ResilienceDb) (drillRowId : String) : List DrillReconciliation :=
  db.reconciliations.filter fun row => row.drillRowId = drillRowId

/-- `toDrill` (lines 319-359) of a row with its relations. -/
def toDrill (db : ResilienceDb) (row : RecoveryDrillRow) : RecoveryDrill where
  drillId := row.drillId
  type := row.type
  state := row.state
  startedAt := row.startedAt
  completedAt := row.completedAt
  requestedBy := row.requestedBy
  backupSetId := row.backupSetId.bind fun id =>
    (db.backupSets.find? fun set => set.id = id).map BackupSetRow.backupSetId
  measuredRecoveryPointAgeSeconds := row.measuredRecoveryPointAgeSeconds
  measuredRecoveryDurationMs := row.measuredRecoveryDurationMs
  reconciliations := db.reconciliationsOf row.id
  failureCode := row.failureCode
  acknowledgedAt := row.acknowledgedAt
  acknowledgedBy := row.acknowledgedBy

/-- `load` (lines 255-262). -/
def load (db : ResilienceDb) (drillId : String) : Except DrillError RecoveryDrill :=
  match db.findDrill drillId with
  | none => .error .notFound
  | some row => .ok (db.toDrill row)

/-- `recordBackupSet` (lines 69-90) of the row that it would create. -/
def recordBackupSet (db : ResilienceDb) (row : BackupSetRow) : ResilienceDb :=
  if db.backupSets.any fun set =>
      decide (set.id = row.id) || decide (set.backupSetId = row.backupSetId) then db
  else { db with backupSets := db.backupSets ++ [row] }

/-- `createDrill` (lines 106-122). -/
def createDrill (db : ResilienceDb) (e : DrillEnv) (type : RecoveryDrillType)
    (requestedBy : String) (note : Option String) :
    ResilienceDb × Except DrillError RecoveryDrill :=
  let row : RecoveryDrillRow := {
    id := e.rowUuid
    drillId := "drill:" ++ e.isoDate ++ ":" ++ String.ofList (e.drillUuid.toList.take 8)
    type := type
    state := .PLANNED
    startedAt := e.dbNow
    completedAt := none
    requestedBy := requestedBy
    backupSetId := none
    measuredRecoveryPointAgeSeconds := none
    measuredRecoveryDurationMs := none
    failureCode := none
    acknowledgedAt := none
    acknowledgedBy := none
    acknowledgementReason := none }
  match db.insertDrill row with
  | none => (db, .error .store)
  | some db =>
    match db.appendEvent row.id .PLANNED note e with
    | none => (db, .error .store)
    | some db => (db, db.load row.drillId)

/-- `advance` (lines 131-182). -/
def advance (db : ResilienceDb) (e : DrillEnv) (input : AdvanceDrillInput) :
    ResilienceDb × Except DrillError RecoveryDrill :=
  match db.findDrill input.drillId with
  | none => (db, .error .notFound)
  | some drill =>
    if input.state ∉ ALLOWED_TRANSITIONS drill.state then
      (db, .error (.conflict "INVALID_DRILL_TRANSITION"))
    else
      match db.updateDrill drill input (db.namedBackup input) e.now with
      | none => (db, .error .store)
      | some db =>
        match db.recordAll drill.id e.dbNow (input.reconciliations.getD []) with
        | (db, false) => (db, .error .store)
        | (db, true) =>
          match db.appendEvent drill.id input.state input.note e with
          | none => (db, .error .store)
          | some db => (db, db.load input.drillId)

/-- `acknowledge` (lines 184-210). -/
def acknowledge (db : ResilienceDb) (e : DrillEnv) (drillId operatorId reason : String) :
    ResilienceDb × Except DrillError RecoveryDrill :=
  match db.findDrill drillId with
  | none => (db, .error .notFound)
  | some drill =>
    if drill.state ≠ .FAILED then (db, .error (.conflict "DRILL_NOT_FAILED"))
    else if drill.acknowledgedAt.isSome then (db, .error (.conflict "ALREADY_ACKNOWLEDGED"))
    else
      let row := { drill with
        acknowledgedAt := some e.now
        acknowledgedBy := some operatorId
        acknowledgementReason := some reason }
      let db := { db with drills := db.drills.put row }
      (db, db.load drillId)

end ResilienceDb

/-! ## Sequences of calls -/

/-- A call. -/
inductive DrillCall where
  | recordBackupSet (row : BackupSetRow)
  | createDrill (e : DrillEnv) (type : RecoveryDrillType) (requestedBy : String)
      (note : Option String)
  | advance (e : DrillEnv) (input : AdvanceDrillInput)
  | acknowledge (e : DrillEnv) (drillId operatorId reason : String)

/-- The tables after a call. -/
def DrillCall.run (db : ResilienceDb) : DrillCall → ResilienceDb
  | .recordBackupSet row => db.recordBackupSet row
  | .createDrill e type requestedBy note => (db.createDrill e type requestedBy note).1
  | .advance e input => (db.advance e input).1
  | .acknowledge e drillId operatorId reason => (db.acknowledge e drillId operatorId reason).1

/-- The tables, and the drills that have been in the state `PASSED` after some call. -/
structure Recorded where
  db : ResilienceDb
  passed : List String

/-- The drills that are `PASSED`. -/
def ResilienceDb.passedIds (db : ResilienceDb) : List String :=
  (db.drills.rows.filter fun row => row.state = .PASSED).map RecoveryDrillRow.id

/-- Any sequence of calls, from empty tables. -/
def drillMachine : Machine Recorded DrillCall where
  init s := s.db.backupSets = [] ∧ s.db.drills.rows = [] ∧ s.db.events = [] ∧
    s.db.reconciliations = [] ∧ s.passed = []
  step s call := some { db := call.run s.db, passed := s.passed ++ (call.run s.db).passedIds }

/-- The evidence of a drill: a backup set, at least one reconciliation, and no failed one. -/
structure HasEvidence (db : ResilienceDb) (drill : RecoveryDrillRow) : Prop where
  backup : ∃ set ∈ db.backupSets, drill.backupSetId = some set.id
  recorded : db.reconciliationsOf drill.id ≠ []
  passed : ∀ row ∈ db.reconciliationsOf drill.id, row.status = .PASS

/-- A drill that is `PASSED`, or `CLEANED_UP` after having been `PASSED`, has its evidence. -/
def Evidenced (s : Recorded) : Prop :=
  ∀ drill ∈ s.db.drills.rows,
    (drill.state = .PASSED ∨ (drill.state = .CLEANED_UP ∧ drill.id ∈ s.passed)) →
      HasEvidence s.db drill

/-! ## When evidence is supplied -/

/-- The reconciliations of an input up to the first one that is refused: its service has a
    result already, or its count is out of range. -/
def recordable (taken : List ResilienceServiceName) :
    List ReconciliationInput → List ReconciliationInput
  | [] => []
  | item :: items =>
    if item.service ∈ taken ∨ maxInt < item.issueCount then []
    else item :: recordable (item.service :: taken) items

/-- The services that have a result in a drill. -/
def ResilienceDb.services (db : ResilienceDb) (drillRowId : String) :
    List ResilienceServiceName :=
  (db.reconciliationsOf drillRowId).map DrillReconciliation.service

/-- What an advance of a drill adds to its reconciliations. -/
def ResilienceDb.added (db : ResilienceDb) (drill : RecoveryDrillRow) (input : AdvanceDrillInput) :
    List ReconciliationInput :=
  recordable (db.services drill.id) (input.reconciliations.getD [])

/-- An advance leaves a passed drill without evidence: it passes a drill without a backup set
    or a reconciliation or with a failed one, or adds a failed one to a passed drill. -/
def ResilienceDb.lacksEvidence (db : ResilienceDb) (drill : RecoveryDrillRow)
    (input : AdvanceDrillInput) : Bool :=
  let failed := (db.added drill input).any fun item => item.status = .FAIL
  if input.state = .PASSED then
    (drill.backupSetId.isNone && ((db.namedBackup input).bind id).isNone) ||
      ((db.reconciliationsOf drill.id).isEmpty && (db.added drill input).isEmpty) || failed ||
      (db.reconciliationsOf drill.id).any fun row => row.status = .FAIL
  else decide (drill.state = .PASSED) && failed

/-- The call does not leave a passed drill without evidence. -/
def suppliesEvidence (s : Recorded) : DrillCall → Bool
  | .advance e input =>
    match s.db.findDrill input.drillId with
    | none => true
    | some drill =>
      decide (input.state ∉ ALLOWED_TRANSITIONS drill.state) ||
        !(drill.advanced drill input (s.db.namedBackup input) e.now).accepted ||
        !s.db.lacksEvidence drill input
  | _ => true

/-! ## What a call does -/

section Calls

variable {db : ResilienceDb} {e : DrillEnv} {input : AdvanceDrillInput}

/-- A reconciliation in a row. -/
def rowOf (drillRowId : String) (checkedAt : ℕ) (item : ReconciliationInput) :
    DrillReconciliation where
  drillRowId := drillRowId
  service := item.service
  status := item.status
  issueCount := item.issueCount
  checkedAt := checkedAt

theorem recordable_congr {taken taken' : List ResilienceServiceName}
    (h : ∀ s, s ∈ taken ↔ s ∈ taken') (items : List ReconciliationInput) :
    recordable taken items = recordable taken' items := by
  induction items generalizing taken taken' with
  | nil => rfl
  | cons item items ih =>
    have hrest : recordable (item.service :: taken) items =
        recordable (item.service :: taken') items :=
      ih fun s => by rw [List.mem_cons, List.mem_cons, h s]
    unfold recordable
    rw [hrest]
    simp only [h item.service]

namespace ResilienceDb

theorem reconciliationsOf_append (rows : List DrillReconciliation) (id : String) :
    reconciliationsOf { db with reconciliations := db.reconciliations ++ rows } id =
      db.reconciliationsOf id ++ rows.filter fun row => row.drillRowId = id :=
  List.filter_append _ _

/-- When a reconciliation is refused. -/
theorem insertReconciliation_eq (id : String) (t : ℕ) (item : ReconciliationInput) :
    db.insertReconciliation (rowOf id t item) =
      if item.service ∈ db.services id ∨ maxInt < item.issueCount then none
      else some { db with reconciliations := db.reconciliations ++ [rowOf id t item] } := by
  have htaken : (db.reconciliations.any fun other =>
      decide (other.drillRowId = id) && decide (other.service = item.service)) = true ↔
      item.service ∈ db.services id := by
    simp [services, reconciliationsOf, and_assoc]
  unfold insertReconciliation
  by_cases hrefused : item.service ∈ db.services id ∨ maxInt < item.issueCount
  · rw [if_pos hrefused, if_pos]
    rw [Bool.or_eq_true, decide_eq_true_eq]
    exact hrefused.imp_left htaken.mpr
  · rw [if_neg hrefused, if_neg]
    rw [Bool.or_eq_true, decide_eq_true_eq]
    exact fun h => hrefused (h.imp_left htaken.mp)

/-- A round of the loop of `advance`. -/
theorem recordAll_cons (id : String) (t : ℕ) (item : ReconciliationInput)
    (items : List ReconciliationInput) :
    db.recordAll id t (item :: items) =
      if item.service ∈ db.services id ∨ maxInt < item.issueCount then (db, false)
      else recordAll { db with reconciliations := db.reconciliations ++ [rowOf id t item] }
        id t items := by
  have hinsert := @insertReconciliation_eq db id t item
  unfold rowOf at hinsert ⊢
  rw [recordAll, hinsert]
  split_ifs <;> rfl

/-- The rest of the loop, after a reconciliation was added. -/
theorem recordable_added (id : String) (t : ℕ) (item : ReconciliationInput)
    (items : List ReconciliationInput) :
    recordable (services { db with
        reconciliations := db.reconciliations ++ [rowOf id t item] } id) items =
      recordable (item.service :: db.services id) items := by
  have hservices : services
      { db with reconciliations := db.reconciliations ++ [rowOf id t item] } id =
      db.services id ++ [item.service] := by
    unfold services
    rw [reconciliationsOf_append]
    simp [rowOf]
  rw [hservices]
  refine recordable_congr (fun s => ?_) items
  rw [List.mem_append, List.mem_singleton, List.mem_cons, or_comm]

/-- The loop of `advance` adds the reconciliations up to the first one that is refused. -/
theorem recordAll_eq (id : String) (t : ℕ) (items : List ReconciliationInput) :
    (db.recordAll id t items).1 = { db with
      reconciliations := db.reconciliations ++
        (recordable (db.services id) items).map (rowOf id t) } := by
  induction items generalizing db with
  | nil => simp [recordAll, recordable]
  | cons item items ih =>
    rw [recordAll_cons]
    unfold recordable
    split_ifs with hrefused
    · simp
    · refine ih.trans ?_
      rw [recordable_added, List.map_cons, List.append_assoc]
      rfl

theorem appendEvent_some {db' : ResilienceDb} {id : String} {state : RecoveryDrillState}
    {note : Option String} (h : db.appendEvent id state note e = some db') :
    db.acceptsEvent note e = true ∧ ∃ event : DrillEvent, event.drillRowId = id ∧
      event.state = state ∧ db' = { db with events := db.events ++ [event] } := by
  unfold appendEvent at h
  dsimp only at h
  split_ifs at h with haccepts
  exact ⟨haccepts, _, rfl, rfl, (Option.some.inj h).symm⟩

theorem appendEvent_none {id : String} {state : RecoveryDrillState} {note : Option String}
    (h : db.appendEvent id state note e = none) : db.acceptsEvent note e = false := by
  unfold appendEvent at h
  dsimp only at h
  split_ifs at h with haccepts
  exact Bool.eq_false_iff.mpr haccepts

theorem acceptsEvent_iff {note : Option String} : db.acceptsEvent note e = true ↔
    storable (eventNote note) = true ∧
      ∀ event ∈ db.events, event.eventId ≠ "event:" ++ e.eventUuid := by
  simp [acceptsEvent]

variable {drill : RecoveryDrillRow}

theorem findDrill_some {drillId : String} (h : db.findDrill drillId = some drill) :
    db.drills.find drill.id = some drill ∧ drill.drillId = drillId :=
  ⟨Table.find_of_mem (List.mem_of_find?_eq_some h), by simpa using List.find?_some h⟩

theorem updateDrill_eq {named : Option (Option String)} {now : ℕ}
    (h : db.drills.find drill.id = some drill) :
    db.updateDrill drill input named now =
      if (drill.advanced drill input named now).accepted then
        some { db with drills := db.drills.put (drill.advanced drill input named now) }
      else none := by
  unfold updateDrill
  rw [h]

/-- The tables after an advance that is not refused before it writes. -/
def afterAdvance (db : ResilienceDb) (drill : RecoveryDrillRow) (input : AdvanceDrillInput)
    (e : DrillEnv) (events : List DrillEvent) : ResilienceDb where
  backupSets := db.backupSets
  drills := db.drills.put (drill.advanced drill input (db.namedBackup input) e.now)
  events := events
  reconciliations := db.reconciliations ++ (db.added drill input).map (rowOf drill.id e.dbNow)

/-- What an advance does: nothing, or all its writes up to a reconciliation or an event that is
    refused. -/
theorem advance_spec (db : ResilienceDb) (e : DrillEnv) (input : AdvanceDrillInput) :
    (db.advance e input).1 = db ∨
      ∃ drill events, db.findDrill input.drillId = some drill ∧
        input.state ∈ ALLOWED_TRANSITIONS drill.state ∧
        (drill.advanced drill input (db.namedBackup input) e.now).accepted = true ∧
        (db.advance e input).1 = db.afterAdvance drill input e events := by
  unfold advance
  cases hdrill : db.findDrill input.drillId with
  | none => exact .inl rfl
  | some drill =>
    dsimp only
    by_cases hallowed : input.state ∈ ALLOWED_TRANSITIONS drill.state
    · rw [if_neg (not_not.mpr hallowed), updateDrill_eq (findDrill_some hdrill).1]
      by_cases haccepted : (drill.advanced drill input (db.namedBackup input) e.now).accepted
      · rw [if_pos haccepted]
        dsimp only
        have hrecord := @recordAll_eq
          { db with
            drills := db.drills.put (drill.advanced drill input (db.namedBackup input) e.now) }
          drill.id e.dbNow (input.reconciliations.getD [])
        split
        next db' hrun =>
          rw [hrun] at hrecord
          exact .inr ⟨drill, db.events, rfl, hallowed, haccepted, hrecord⟩
        next db' hrun =>
          rw [hrun] at hrecord
          obtain rfl : db' = db.afterAdvance drill input e db.events := hrecord
          split
          · exact .inr ⟨drill, db.events, rfl, hallowed, haccepted, rfl⟩
          next db'' hevent =>
            obtain ⟨-, event, -, -, rfl⟩ := appendEvent_some hevent
            exact .inr ⟨drill, _, rfl, hallowed, haccepted, rfl⟩
      · rw [if_neg haccepted]
        exact .inl rfl
    · rw [if_pos hallowed]
      exact .inl rfl

/-- What creating a drill does: nothing, or a new planned drill. -/
theorem createDrill_spec (db : ResilienceDb) (e : DrillEnv) (type : RecoveryDrillType)
    (requestedBy : String) (note : Option String) :
    (db.createDrill e type requestedBy note).1 = db ∨
      ∃ (row : RecoveryDrillRow) (drills : Table RecoveryDrillRow) (events : List DrillEvent),
        db.drills.insert row = some drills ∧ row.state = .PLANNED ∧ row.backupSetId = none ∧
        row.completedAt = none ∧ row.failureCode = none ∧ row.drillId ≠ "" ∧
        (∀ other ∈ db.drills.rows, other.drillId ≠ row.drillId) ∧
        (db.createDrill e type requestedBy note).1 =
          { db with drills := drills, events := events } := by
  unfold createDrill insertDrill
  dsimp only
  split_ifs with htaken
  · exact .inl rfl
  · generalize hrow : RecoveryDrillRow.mk e.rowUuid _ _ _ _ _ _ _ _ _ _ _ _ _ = row
    have hid : "drill:" ++ e.isoDate ++ ":" ++ String.ofList (e.drillUuid.toList.take 8) =
        row.drillId := hrow ▸ rfl
    have hnamed : row.drillId ≠ "" := by
      rw [← hid]
      intro hempty
      have hlength := congrArg String.length hempty
      simp at hlength
    have hfree : ∀ other ∈ db.drills.rows, other.drillId ≠ row.drillId := by
      rw [← hid]
      simpa using htaken
    cases hinsert : db.drills.insert row with
    | none => exact .inl rfl
    | some drills =>
      right
      simp only [Option.map_some]
      split
      · exact ⟨row, drills, db.events, hinsert, hrow ▸ rfl, hrow ▸ rfl, hrow ▸ rfl, hrow ▸ rfl,
          hnamed, hfree, rfl⟩
      next db' hevent =>
        obtain ⟨-, event, -, -, rfl⟩ := appendEvent_some hevent
        exact ⟨row, drills, _, hinsert, hrow ▸ rfl, hrow ▸ rfl, hrow ▸ rfl, hrow ▸ rfl,
          hnamed, hfree, rfl⟩

/-- What acknowledging a drill does: nothing, or its three columns. -/
theorem acknowledge_spec (db : ResilienceDb) (e : DrillEnv) (drillId operatorId reason : String) :
    (db.acknowledge e drillId operatorId reason).1 = db ∨
      ∃ drill, db.findDrill drillId = some drill ∧ drill.state = .FAILED ∧
        drill.acknowledgedAt = none ∧
        (db.acknowledge e drillId operatorId reason).1 = { db with
          drills := db.drills.put { drill with
            acknowledgedAt := some e.now
            acknowledgedBy := some operatorId
            acknowledgementReason := some reason } } := by
  unfold acknowledge
  cases hdrill : db.findDrill drillId with
  | none => exact .inl rfl
  | some drill =>
    dsimp only
    split_ifs with hstate hagain
    · exact .inl rfl
    · exact .inl rfl
    · exact .inr ⟨drill, rfl, not_not.mp hstate, by simpa using hagain, rfl⟩

theorem reconciliationsOf_afterAdvance {events : List DrillEvent} :
    (db.afterAdvance drill input e events).reconciliationsOf drill.id =
      db.reconciliationsOf drill.id ++ (db.added drill input).map (rowOf drill.id e.dbNow) := by
  unfold afterAdvance
  refine (List.filter_append _ _).trans (congrArg _ (List.filter_eq_self.mpr fun row hrow => ?_))
  obtain ⟨item, -, rfl⟩ := List.mem_map.mp hrow
  exact decide_eq_true rfl

theorem reconciliationsOf_afterAdvance_ne {events : List DrillEvent}
    {id : String} (h : id ≠ drill.id) :
    (db.afterAdvance drill input e events).reconciliationsOf id = db.reconciliationsOf id := by
  unfold afterAdvance
  have hnone : ((db.added drill input).map (rowOf drill.id e.dbNow)).filter
      (fun row => decide (row.drillRowId = id)) = [] := by
    refine List.filter_eq_nil_iff.mpr fun row hrow heq => ?_
    obtain ⟨item, -, rfl⟩ := List.mem_map.mp hrow
    exact h (of_decide_eq_true heq).symm
  refine (List.filter_append _ _).trans ?_
  rw [hnone, List.append_nil]
  rfl

theorem namedBackup_mem {id : String} (h : db.namedBackup input = some (some id)) :
    ∃ set ∈ db.backupSets, set.id = id := by
  unfold namedBackup at h
  split at h
  · cases h
  · split_ifs at h
    obtain ⟨set, hset, rfl⟩ := Option.map_eq_some_iff.mp (Option.some.inj h)
    exact ⟨set, List.mem_of_find?_eq_some hset, rfl⟩

end ResilienceDb

theorem advanced_backup (drill : RecoveryDrillRow)
    (named : Option (Option String)) (now : ℕ) :
    (drill.advanced drill input named now).backupSetId = (named.bind id).or drill.backupSetId := by
  unfold RecoveryDrillRow.advanced
  rcases named with _ | _ | id <;> rfl

end Calls

/-! ## Evidence -/

/-- Backup sets exist, and a drill that has been passed keeps its state and its evidence. -/
structure EvidenceInv (s : Recorded) : Prop where
  linked : ∀ drill ∈ s.db.drills.rows, ∀ id, drill.backupSetId = some id →
    ∃ set ∈ s.db.backupSets, set.id = id
  known : ∀ id ∈ s.passed, ∃ drill, s.db.drills.find id = some drill
  stays : ∀ drill ∈ s.db.drills.rows, drill.id ∈ s.passed →
    drill.state = .PASSED ∨ drill.state = .CLEANED_UP
  evidence : ∀ drill ∈ s.db.drills.rows, drill.state = .PASSED ∨ drill.id ∈ s.passed →
    HasEvidence s.db drill

section Evidence

variable {db : ResilienceDb} {passed : List String} {e : DrillEnv} {input : AdvanceDrillInput}

variable {drill : RecoveryDrillRow}

theorem HasEvidence.mono {db' : ResilienceDb}
    (h : HasEvidence db drill) (hsets : ∀ set ∈ db.backupSets, set ∈ db'.backupSets)
    (hrec : db'.reconciliationsOf drill.id = db.reconciliationsOf drill.id) :
    HasEvidence db' drill := by
  obtain ⟨set, hset, hid⟩ := h.backup
  exact ⟨⟨set, hsets set hset, hid⟩, hrec ▸ h.recorded, hrec ▸ h.passed⟩

/-- The drills that are passed after a call are noted. -/
theorem EvidenceInv.note (h : EvidenceInv ⟨db, passed⟩) :
    EvidenceInv ⟨db, passed ++ db.passedIds⟩ := by
  have hpassed : ∀ drill ∈ db.drills.rows, drill.id ∈ db.passedIds → drill.state = .PASSED := by
    intro drill hdrill hid
    obtain ⟨row, hrow, heq⟩ := List.mem_map.mp hid
    obtain ⟨hrow, hstate⟩ := List.mem_filter.mp hrow
    cases Table.eq_of_key hrow hdrill heq
    exact of_decide_eq_true hstate
  refine ⟨h.linked, fun id hid => ?_, fun drill hdrill hid => ?_, fun drill hdrill hid => ?_⟩
  · rcases List.mem_append.mp hid with hid | hid
    · exact h.known id hid
    · obtain ⟨row, hrow, rfl⟩ := List.mem_map.mp hid
      exact ⟨row, Table.find_of_mem (List.mem_filter.mp hrow).1⟩
  · rcases List.mem_append.mp hid with hid | hid
    · exact h.stays drill hdrill hid
    · exact .inl (hpassed drill hdrill hid)
  · refine h.evidence drill hdrill ?_
    rcases hid with hstate | hid
    · exact .inl hstate
    · exact (List.mem_append.mp hid).symm.imp_left (hpassed drill hdrill)

theorem EvidenceInv.createDrill (h : EvidenceInv ⟨db, passed⟩) (type : RecoveryDrillType)
    (requestedBy : String) (note : Option String) :
    EvidenceInv ⟨(db.createDrill e type requestedBy note).1, passed⟩ := by
  obtain heq | ⟨row, drills, events, hinsert, hstate, hbackup, -, -, -, -, heq⟩ :=
    db.createDrill_spec e type requestedBy note
  · rw [heq]
    exact h
  · rw [heq]
    obtain ⟨hfree, hrows⟩ := Table.insert_some hinsert
    have hold : ∀ drill ∈ drills.rows, drill ∈ db.drills.rows ∨ drill = row := by
      intro drill hdrill
      rw [hrows, List.mem_append, List.mem_singleton] at hdrill
      exact hdrill
    -- the id of the new row is free, so no passed drill has it
    have hnew : row.id ∉ passed := by
      intro hid
      obtain ⟨drill, hdrill⟩ := h.known _ hid
      exact absurd (hfree.symm.trans hdrill) (by simp)
    refine ⟨fun drill hdrill id hid => ?_, fun id hid => ?_, fun drill hdrill hid => ?_,
      fun drill hdrill hid => ?_⟩
    · rcases hold drill hdrill with hdrill | rfl
      · exact h.linked drill hdrill id hid
      · rw [hbackup] at hid
        cases hid
    · obtain ⟨drill, hdrill⟩ := h.known id hid
      have hne : key row ≠ id := by
        rintro rfl
        exact hnew hid
      exact ⟨drill, by rw [Table.find_insert hinsert, if_neg hne]; exact hdrill⟩
    · rcases hold drill hdrill with hdrill | rfl
      · exact h.stays drill hdrill hid
      · exact absurd hid hnew
    · rcases hold drill hdrill with hdrill | rfl
      · exact (h.evidence drill hdrill hid).mono (fun _ hset => hset) rfl
      · rw [hstate] at hid
        exact absurd hid (by simp [hnew])

/-- One row is updated, and the reconciliations of the other drills stay. -/
theorem EvidenceInv.put (h : EvidenceInv ⟨db, passed⟩) {row : RecoveryDrillRow}
    {events : List DrillEvent} {recs : List DrillReconciliation}
    (hdrill : db.drills.find drill.id = some drill) (hid : row.id = drill.id)
    (hothers : ∀ id, id ≠ drill.id →
      recs.filter (fun rec => rec.drillRowId = id) = db.reconciliationsOf id)
    (hlinked : ∀ id, row.backupSetId = some id → ∃ set ∈ db.backupSets, set.id = id)
    (hstays : row.id ∈ passed → row.state = .PASSED ∨ row.state = .CLEANED_UP)
    (hevidence : row.state = .PASSED ∨ row.id ∈ passed →
      HasEvidence ⟨db.backupSets, db.drills.put row, events, recs⟩ row) :
    EvidenceInv ⟨⟨db.backupSets, db.drills.put row, events, recs⟩, passed⟩ := by
  have hkey : key row = key drill := hid
  refine ⟨fun x hx id => ?_, fun id hid => ?_, fun x hx => ?_, fun x hx hx' => ?_⟩
  · rcases Table.mem_put hx with ⟨hx, -⟩ | rfl
    · exact h.linked x hx id
    · exact hlinked id
  · obtain ⟨x, hx⟩ := h.known id hid
    by_cases heq : drill.id = id
    · exact ⟨row, Table.find_put_of_find hkey (heq ▸ hdrill)⟩
    · exact ⟨x, (Table.find_put_ne (hkey ▸ heq)).trans hx⟩
  · rcases Table.mem_put hx with ⟨hx, -⟩ | rfl
    · exact h.stays x hx
    · exact hstays
  · rcases Table.mem_put hx with ⟨hx, hne⟩ | rfl
    · exact (h.evidence x hx hx').mono (fun _ hset => hset) 
        (hothers x.id fun heq => hne (heq.trans hid.symm))
    · exact hevidence hx'

theorem EvidenceInv.acknowledge (h : EvidenceInv ⟨db, passed⟩)
    (drillId operatorId reason : String) :
    EvidenceInv ⟨(db.acknowledge e drillId operatorId reason).1, passed⟩ := by
  obtain heq | ⟨drill, hdrill, hstate, -, heq⟩ := db.acknowledge_spec e drillId operatorId reason
  · rw [heq]
    exact h
  · rw [heq]
    have hfound := (ResilienceDb.findDrill_some hdrill).1
    have hmem := (Table.find_some hfound).1
    -- a failed drill has not been passed
    have hnever : drill.id ∉ passed := by
      intro hid
      rcases h.stays drill hmem hid with hpassed | hcleaned
      · exact absurd (hstate.symm.trans hpassed) (by decide)
      · exact absurd (hstate.symm.trans hcleaned) (by decide)
    refine h.put hfound rfl (fun _ _ => rfl) (h.linked drill hmem) (fun hid => absurd hid hnever) ?_
    rintro (hpassed | hid)
    · exact absurd (hstate.symm.trans hpassed) (by decide)
    · exact absurd hid hnever

/-- What the condition says of a drill that is passed. -/
theorem lacksEvidence_passed (hstate : input.state = .PASSED)
    (h : db.lacksEvidence drill input = false) :
    (((db.namedBackup input).bind id).or drill.backupSetId) ≠ none ∧
      (db.reconciliationsOf drill.id ≠ [] ∨ db.added drill input ≠ []) ∧
      (∀ item ∈ db.added drill input, item.status ≠ .FAIL) ∧
      ∀ row ∈ db.reconciliationsOf drill.id, row.status ≠ .FAIL := by
  unfold ResilienceDb.lacksEvidence at h
  simp only [hstate, if_true, Bool.or_eq_false_iff, Bool.and_eq_false_iff,
    Option.isNone_eq_false_iff, List.isEmpty_eq_false_iff, List.any_eq_false,
    decide_eq_true_eq] at h
  obtain ⟨⟨⟨hbackup, hrecorded⟩, hadded⟩, hold⟩ := h
  refine ⟨?_, hrecorded, hadded, hold⟩
  rw [Ne, Option.or_eq_none_iff, not_and_or]
  exact hbackup.symm.imp Option.isSome_iff_ne_none.mp Option.isSome_iff_ne_none.mp

/-- What the condition says of a passed drill that is cleaned up. -/
theorem lacksEvidence_cleaned (hstate : input.state ≠ .PASSED)
    (hpassed : drill.state = .PASSED) (h : db.lacksEvidence drill input = false) :
    ∀ item ∈ db.added drill input, item.status ≠ .FAIL := by
  unfold ResilienceDb.lacksEvidence at h
  simpa [hstate, hpassed, List.any_eq_false] using h

theorem pass_of_not_fail {status : ReconciliationStatus} (h : status ≠ .FAIL) :
    status = .PASS := by
  cases status with
  | PASS => rfl
  | FAIL => exact absurd rfl h

/-- The evidence of an advanced drill: what it had, and what the advance adds. -/
theorem hasEvidence_advanced {events : List DrillEvent}
    (hlinked : ∀ id, (drill.advanced drill input (db.namedBackup input) e.now).backupSetId =
      some id → ∃ set ∈ db.backupSets, set.id = id)
    (hbackup : ((db.namedBackup input).bind id).or drill.backupSetId ≠ none)
    (hrecorded : db.reconciliationsOf drill.id ≠ [] ∨ db.added drill input ≠ [])
    (hadded : ∀ item ∈ db.added drill input, item.status ≠ .FAIL)
    (hold : ∀ row ∈ db.reconciliationsOf drill.id, row.status ≠ .FAIL) :
    HasEvidence (db.afterAdvance drill input e events)
      (drill.advanced drill input (db.namedBackup input) e.now) := by
  have hrecs := @ResilienceDb.reconciliationsOf_afterAdvance db e input drill events
  constructor
  · obtain ⟨setId, hset⟩ := Option.ne_none_iff_exists'.mp hbackup
    have hrow : (drill.advanced drill input (db.namedBackup input) e.now).backupSetId =
      some setId := (advanced_backup _ _ _).trans hset
    obtain ⟨set, hmem, rfl⟩ := hlinked setId hrow
    exact ⟨set, hmem, hrow⟩
  · show (db.afterAdvance drill input e events).reconciliationsOf drill.id ≠ []
    rw [hrecs, Ne, List.append_eq_nil_iff, List.map_eq_nil_iff, not_and_or]
    exact hrecorded
  · intro row hrow
    replace hrow : row ∈ (db.afterAdvance drill input e events).reconciliationsOf drill.id := hrow
    rw [hrecs] at hrow
    rcases List.mem_append.mp hrow with hrow | hrow
    · exact pass_of_not_fail (hold row hrow)
    · obtain ⟨item, hitem, rfl⟩ := List.mem_map.mp hrow
      exact pass_of_not_fail (hadded item hitem)

theorem EvidenceInv.advance (h : EvidenceInv ⟨db, passed⟩)
    (hcond : suppliesEvidence ⟨db, passed⟩ (.advance e input) = true) :
    EvidenceInv ⟨(db.advance e input).1, passed⟩ := by
  obtain heq | ⟨drill, events, hdrill, hallowed, haccepted, heq⟩ := db.advance_spec e input
  · rw [heq]
    exact h
  · rw [heq]
    obtain ⟨hfound, -⟩ := ResilienceDb.findDrill_some hdrill
    have hmem := (Table.find_some hfound).1
    have hlacks : db.lacksEvidence drill input = false := by
      simpa [suppliesEvidence, hdrill, hallowed, haccepted] using hcond
    have hlinked : ∀ id, (drill.advanced drill input (db.namedBackup input) e.now).backupSetId =
        some id → ∃ set ∈ db.backupSets, set.id = id := by
      intro id hid
      rw [advanced_backup] at hid
      rcases Option.or_eq_some_iff.mp hid with hnamed | ⟨-, hold⟩
      · obtain ⟨named, hnamed, rfl⟩ := Option.bind_eq_some_iff.mp hnamed
        exact ResilienceDb.namedBackup_mem hnamed
      · exact h.linked drill hmem id hold
    -- a drill that has been passed can only be cleaned up
    have hcleaned : drill.id ∈ passed → drill.state = .PASSED ∧ input.state = .CLEANED_UP := by
      intro hid
      rcases h.stays drill hmem hid with hstate | hstate
      · rw [hstate] at hallowed
        exact ⟨hstate, List.mem_singleton.mp hallowed⟩
      · rw [hstate] at hallowed
        cases hallowed
    refine h.put hfound rfl
      (fun id => @ResilienceDb.reconciliationsOf_afterAdvance_ne db e input drill events id)
      hlinked (fun hid => .inr (hcleaned hid).2) fun hpassed => ?_
    by_cases hstate : input.state = .PASSED
    · obtain ⟨hbackup, hrecorded, hadded, hold⟩ := lacksEvidence_passed hstate hlacks
      exact hasEvidence_advanced hlinked hbackup hrecorded hadded hold
    · obtain ⟨hold, -⟩ := hcleaned (hpassed.resolve_left hstate)
      have hevidence := h.evidence drill hmem (.inl hold)
      obtain ⟨set, -, hset⟩ := hevidence.backup
      refine hasEvidence_advanced hlinked ?_ (.inl hevidence.recorded)
        (lacksEvidence_cleaned hstate hold hlacks) fun row hrow hfail => ?_
      · rw [hset, Ne, Option.or_eq_none_iff]
        exact fun hnone => absurd hnone.2 (by simp)
      · exact absurd ((hevidence.passed row hrow).symm.trans hfail) (by decide)

theorem EvidenceInv.recordBackupSet (h : EvidenceInv ⟨db, passed⟩) (row : BackupSetRow) :
    EvidenceInv ⟨db.recordBackupSet row, passed⟩ := by
  unfold ResilienceDb.recordBackupSet
  split_ifs
  · exact h
  · have hsets : ∀ set ∈ db.backupSets, set ∈ db.backupSets ++ [row] :=
      fun set hset => List.mem_append_left _ hset
    refine ⟨fun drill hdrill id hid => ?_, h.known, h.stays,
      fun drill hdrill hid => (h.evidence drill hdrill hid).mono hsets rfl⟩
    obtain ⟨set, hset, rfl⟩ := h.linked drill hdrill id hid
    exact ⟨set, hsets set hset, rfl⟩

/-- A call that supplies the evidence keeps the invariant. -/
theorem EvidenceInv.run (h : EvidenceInv ⟨db, passed⟩) (call : DrillCall)
    (hcond : suppliesEvidence ⟨db, passed⟩ call = true) : EvidenceInv ⟨call.run db, passed⟩ := by
  cases call with
  | recordBackupSet row => exact h.recordBackupSet row
  | createDrill e type requestedBy note => exact h.createDrill type requestedBy note
  | advance e input => exact h.advance hcond
  | acknowledge e drillId operatorId reason => exact h.acknowledge drillId operatorId reason

end Evidence

/-- In every run whose calls supply the evidence, passed drills have it. -/
theorem evidenceInv_of_reachable {s : Recorded}
    (h : drillMachine.Reachable (fun s call => suppliesEvidence s call = true) s) :
    EvidenceInv s := by
  refine Machine.invariant (fun s hs => ?_) (fun s call t hs hcond hstep => ?_) h
  · obtain ⟨-, hdrills, -, -, hpassed⟩ := hs
    constructor <;> simp [hdrills, hpassed]
  · cases Option.some.inj hstep
    exact (hs.run call hcond).note

/-! ## Runs -/

/-- A drill of the examples below, at its creation. -/
def exampleEnv (now : ℕ) (uuid : String) : DrillEnv where
  now := now
  dbNow := now
  isoDate := "2026-08-01"
  drillUuid := "d1"
  rowUuid := "row-1"
  eventUuid := uuid

/-- An advance of the example drill that records nothing. -/
def exampleAdvance (state : RecoveryDrillState) : AdvanceDrillInput where
  drillId := "drill:2026-08-01:d1"
  state := state
  note := none
  backupSetId := none
  measuredRecoveryPointAgeSeconds := none
  measuredRecoveryDurationMs := none
  failureCode := none
  reconciliations := none

/-- Passed drills have their evidence in every state of a run in which a drill is passed only
    with it and no failed reconciliation is added to a passed drill. -/
theorem passed_drills_evidenced (s : Recorded)
    (h : drillMachine.Reachable (fun s call => suppliesEvidence s call = true) s) :
    Evidenced s := by
  intro drill hdrill hstate
  exact (evidenceInv_of_reachable h).evidence drill hdrill (hstate.imp_right And.right)

/-- The calls of a drill that is passed with a backup set and a reconciliation. -/
def evidencedCalls : List DrillCall :=
  [.recordBackupSet { id := "set-1", backupSetId := "backup:1" },
    .createDrill (exampleEnv 1 "e1") .MANUAL "ops" none,
    .advance (exampleEnv 2 "e2") (exampleAdvance .RUNNING),
    .advance (exampleEnv 3 "e3")
      { exampleAdvance .BACKUP_CREATED with backupSetId := some "backup:1" },
    .advance (exampleEnv 4 "e4") (exampleAdvance .RESTORE_VERIFIED),
    .advance (exampleEnv 5 "e5")
      { exampleAdvance .RECONCILIATION_PASSED with
        reconciliations := some [{ service := .ledger, status := .PASS, issueCount := 0 }] },
    .advance (exampleEnv 6 "e6") (exampleAdvance .PASSED),
    .advance (exampleEnv 7 "e7") (exampleAdvance .CLEANED_UP)]

/-- No tables yet. -/
def noDrills : Recorded where
  db := { backupSets := [], drills := .empty, events := [], reconciliations := [] }
  passed := []

theorem noDrills_init : drillMachine.init noDrills := ⟨rfl, rfl, rfl, rfl, rfl⟩

/-- A drill is passed with its evidence and cleaned up. -/
theorem passed_drill_evidenced : ∃ s : Recorded, Evidenced s ∧
    (s.db.drills.find "row-1").map RecoveryDrillRow.state = some .CLEANED_UP ∧
      "row-1" ∈ s.passed := by
  obtain ⟨s, hs, hp⟩ := Machine.reachable_of_runUnder evidencedCalls suppliesEvidence
    (fun s => decide ((s.db.drills.find "row-1").map RecoveryDrillRow.state = some .CLEANED_UP) &&
      decide ("row-1" ∈ s.passed))
    (C := fun s call => suppliesEvidence s call = true) (fun _ _ h => h) noDrills_init
    (by decide +kernel)
  rw [Bool.and_eq_true, decide_eq_true_eq, decide_eq_true_eq] at hp
  exact ⟨s, passed_drills_evidenced s hs, hp⟩

/-- A drill is passed without a backup set and without a reconciliation. -/
theorem passed_without_evidence :
    ¬ ∀ s : Recorded, drillMachine.Reachable Machine.always s → Evidenced s := by
  intro h
  obtain ⟨s, hs, hp⟩ := Machine.reachable_of_run
    [.createDrill (exampleEnv 1 "e1") .MANUAL "ops" none,
      .advance (exampleEnv 2 "e2") (exampleAdvance .RUNNING),
      .advance (exampleEnv 3 "e3") (exampleAdvance .BACKUP_CREATED),
      .advance (exampleEnv 4 "e4") (exampleAdvance .RESTORE_VERIFIED),
      .advance (exampleEnv 5 "e5") (exampleAdvance .RECONCILIATION_PASSED),
      .advance (exampleEnv 6 "e6") (exampleAdvance .PASSED)]
    (fun s => s.db.drills.rows.any fun drill =>
      decide (drill.state = .PASSED) && drill.backupSetId.isNone) noDrills_init (by decide +kernel)
  obtain ⟨drill, hdrill, hp⟩ := List.any_eq_true.mp hp
  rw [Bool.and_eq_true, decide_eq_true_eq, Option.isNone_iff_eq_none] at hp
  obtain ⟨set, -, hset⟩ := (h s hs drill hdrill (.inl hp.1)).backup
  exact absurd (hp.2.symm.trans hset) (by simp)

end AegisShield.Resilience
