import AegisShield.Common.Pool
import AegisShield.Resilience.Drills

/-!
# The history of a drill

Concurrent `DrillService.advance` calls (`drill.service.ts`, lines 131-182): the read of the
row, the lookup of the backup set, the update of the row, each reconciliation and the event are
statements of their own, without a transaction. A statement may fail, and a call that fails
leaves what it wrote.

Results:
* `drill_history_legal`: the log of every drill is a path of `ALLOWED_TRANSITIONS` from
  `PLANNED` to the state of the row, in every run in which no other call updates the row between
  the read of a call and its update, or between its update and its event, and no call fails
  between the last two. That the states follow each other is the check of lines 138-142.
* `drill_history_illegal`: two calls that overlap leave a drill that was passed and failed.
* `advance_alone`: a call that runs alone does what `ResilienceDb.advance` does.
-/

namespace AegisShield.Resilience

open Common

/-! ## The steps of a call -/

/-- The statement that a call of `advance` is about to run. -/
inductive AdvanceStage where
  /-- Line 132. -/
  | read
  /-- Lines 157-163, after the check of lines 138-142. -/
  | named (drill : RecoveryDrillRow)
  /-- Lines 145-165. -/
  | update (drill : RecoveryDrillRow) (named : Option (Option String))
  /-- Lines 167-178. -/
  | record (drillRowId : String) (item : ReconciliationInput) (items : List ReconciliationInput)
  /-- Line 180. -/
  | event (drillRowId : String)
  /-- Line 181. -/
  | load
  | done (result : Except DrillError RecoveryDrill)

/-- A call of `advance`. -/
structure AdvanceCall where
  input : AdvanceDrillInput
  stage : AdvanceStage

/-- The tables, and the states that the rows have taken, with those of the events at the start. -/
structure Tracked where
  db : ResilienceDb
  entered : List (String × RecoveryDrillState)

/-- The statement after a reconciliation, or after the update of the row. -/
def afterRecord (drillRowId : String) : List ReconciliationInput → AdvanceStage
  | [] => .event drillRowId
  | item :: items => .record drillRowId item items

namespace AdvanceCall

/-- The call has thrown. -/
def throw (p : AdvanceCall) (error : DrillError) : AdvanceCall :=
  { p with stage := .done (.error error) }

/-- The next statement of a call; `e` is `none` when it fails. -/
def next (t : Tracked) (p : AdvanceCall) (e : Option DrillEnv) : Option (Tracked × AdvanceCall) :=
  match p.stage, e with
  | .done _, _ => none
  | _, none => some (t, p.throw .store)
  | .read, some _ =>
    match t.db.findDrill p.input.drillId with
    | none => some (t, p.throw .notFound)
    | some drill =>
      if p.input.state ∉ ALLOWED_TRANSITIONS drill.state then
        some (t, p.throw (.conflict "INVALID_DRILL_TRANSITION"))
      else if p.input.backupSetId.getD "" = "" then
        some (t, { p with stage := .update drill none })
      else some (t, { p with stage := .named drill })
  | .named drill, some _ =>
    some (t, { p with stage := .update drill (t.db.namedBackup p.input) })
  | .update drill named, some e =>
    match t.db.updateDrill drill p.input named e.now with
    | none => some (t, p.throw .store)
    | some db =>
      some ({ db := db, entered := t.entered ++ [(drill.id, p.input.state)] },
        { p with stage := afterRecord drill.id (p.input.reconciliations.getD []) })
  | .record id item items, some e =>
    match t.db.insertReconciliation (rowOf id e.dbNow item) with
    | none => some (t, p.throw .store)
    | some db => some ({ t with db := db }, { p with stage := afterRecord id items })
  | .event id, some e =>
    match t.db.appendEvent id p.input.state p.input.note e with
    | none => some (t, p.throw .store)
    | some db => some ({ t with db := db }, { p with stage := .load })
  | .load, some _ => some (t, { p with stage := .done (t.db.load p.input.drillId) })

/-- The call has updated the row of a drill and not yet written the event. -/
def pendingOn (id : String) (p : AdvanceCall) : Bool :=
  match p.stage with
  | .record row _ _ => decide (row = id)
  | .event row => decide (row = id)
  | _ => false

/-- The row that the call has read and is to update (lines 132-165). -/
def row (p : AdvanceCall) : Option RecoveryDrillRow :=
  match p.stage with
  | .named drill => some drill
  | .update drill _ => some drill
  | _ => none

/-- The call is between its read of a row and its update, or between its update and its event. -/
def holds (id : String) (p : AdvanceCall) : Bool :=
  (p.row.any fun drill => decide (drill.id = id)) || p.pendingOn id

/-- The call has returned or thrown. -/
def finished (p : AdvanceCall) : Bool :=
  match p.stage with
  | .done _ => true
  | _ => false

end AdvanceCall

/-! ## A call that runs alone -/

section Alone

variable {e : DrillEnv} {entered : List (String × RecoveryDrillState)} {input : AdvanceDrillInput}

/-- A statement of a call that nothing disturbs. -/
def Alone (e : DrillEnv) (input : AdvanceDrillInput) (a b : Tracked × AdvanceStage) : Prop :=
  AdvanceCall.next a.1 ⟨input, a.2⟩ (some e) = some (b.1, ⟨input, b.2⟩)

/-- The stage after the loop over the reconciliations. -/
def recorded (id : String) (completed : Bool) : AdvanceStage :=
  if completed then .event id else .done (.error .store)

/-- The loop over the reconciliations, statement by statement. -/
theorem recordAll_alone (id : String) (items : List ReconciliationInput) (db : ResilienceDb) :
    Relation.ReflTransGen (Alone e input) (⟨db, entered⟩, afterRecord id items)
      (⟨(db.recordAll id e.dbNow items).1, entered⟩,
        recorded id (db.recordAll id e.dbNow items).2) := by
  induction items generalizing db with
  | nil => exact .refl
  | cons item items ih =>
    have hrecord : db.recordAll id e.dbNow (item :: items) =
        match db.insertReconciliation (rowOf id e.dbNow item) with
        | none => (db, false)
        | some db => db.recordAll id e.dbNow items := rfl
    rw [hrecord]
    cases hinsert : db.insertReconciliation (rowOf id e.dbNow item) with
    | none =>
      refine .single ?_
      simp [Alone, afterRecord, AdvanceCall.next, hinsert, AdvanceCall.throw, recorded]
    | some db' =>
      refine .head ?_ (ih db')
      simp [Alone, afterRecord, AdvanceCall.next, hinsert]

/-- The read of the row and the lookup of the backup set. -/
theorem update_alone {db : ResilienceDb} {drill : RecoveryDrillRow}
    (hdrill : db.findDrill input.drillId = some drill)
    (hallowed : input.state ∈ ALLOWED_TRANSITIONS drill.state) :
    Relation.ReflTransGen (Alone e input) (⟨db, entered⟩, .read)
      (⟨db, entered⟩, .update drill (db.namedBackup input)) := by
  by_cases hname : input.backupSetId.getD "" = ""
  · have hnamed : db.namedBackup input = none := by
      unfold ResilienceDb.namedBackup
      cases hset : input.backupSetId with
      | none => rfl
      | some name =>
        rw [hset, Option.getD_some] at hname
        exact if_pos hname
    refine .single ?_
    simp [Alone, AdvanceCall.next, hdrill, hallowed, hname, hnamed]
  · have hread : Alone e input (⟨db, entered⟩, .read) (⟨db, entered⟩, .named drill) := by
      simp [Alone, AdvanceCall.next, hdrill, hallowed, hname]
    exact (Relation.ReflTransGen.single hread).tail rfl

/-- A call that runs alone does what `advance` does. -/
theorem advance_alone (db : ResilienceDb) : ∃ entered', Relation.ReflTransGen (Alone e input)
    (⟨db, entered⟩, .read) (⟨(db.advance e input).1, entered'⟩, .done (db.advance e input).2) := by
  unfold ResilienceDb.advance
  cases hdrill : db.findDrill input.drillId with
  | none =>
    refine ⟨entered, .single ?_⟩
    simp [Alone, AdvanceCall.next, hdrill, AdvanceCall.throw]
  | some drill =>
    dsimp only
    by_cases hallowed : input.state ∈ ALLOWED_TRANSITIONS drill.state
    · rw [if_neg (not_not.mpr hallowed)]
      have hread := @update_alone e entered input db drill hdrill hallowed
      cases hupdate : db.updateDrill drill input (db.namedBackup input) e.now with
      | none =>
        refine ⟨entered, hread.tail ?_⟩
        simp [Alone, AdvanceCall.next, hupdate, AdvanceCall.throw]
      | some db₁ =>
        have hupdated : Relation.ReflTransGen (Alone e input) (⟨db, entered⟩, .read)
            (⟨db₁, entered ++ [(drill.id, input.state)]⟩,
              afterRecord drill.id (input.reconciliations.getD [])) :=
          hread.tail (by simp [Alone, AdvanceCall.next, hupdate])
        have hrecorded := hupdated.trans (recordAll_alone drill.id _ db₁)
        dsimp only
        rcases hrun : db₁.recordAll drill.id e.dbNow (input.reconciliations.getD []) with
          ⟨db₂, _ | _⟩
        · rw [hrun] at hrecorded
          exact ⟨_, hrecorded⟩
        · rw [hrun] at hrecorded
          dsimp only
          cases hevent : db₂.appendEvent drill.id input.state input.note e with
          | none =>
            refine ⟨entered ++ [(drill.id, input.state)], hrecorded.tail ?_⟩
            simp [Alone, recorded, AdvanceCall.next, hevent, AdvanceCall.throw]
          | some db₃ =>
            have hlogged : Alone e input
                (⟨db₂, entered ++ [(drill.id, input.state)]⟩, recorded drill.id true)
                (⟨db₃, entered ++ [(drill.id, input.state)]⟩, .load) := by
              simp [Alone, recorded, AdvanceCall.next, hevent]
            exact ⟨_, (hrecorded.tail hlogged).tail rfl⟩
    · rw [if_pos hallowed]
      refine ⟨entered, .single ?_⟩
      simp [Alone, AdvanceCall.next, hdrill, hallowed, AdvanceCall.throw]

end Alone

/-! ## The property -/

/-- The states of the events of a drill, in the order in which they were written. -/
def ResilienceDb.statesOf (db : ResilienceDb) (id : String) : List RecoveryDrillState :=
  (db.events.filter fun event => event.drillRowId = id).map DrillEvent.state

/-- The states that the row of a drill has taken. -/
def Tracked.enteredOf (t : Tracked) (id : String) : List RecoveryDrillState :=
  (t.entered.filter fun entry => entry.1 = id).map Prod.snd

/-- A path of `ALLOWED_TRANSITIONS` from `PLANNED`. -/
structure LegalPath (states : List RecoveryDrillState) (last : RecoveryDrillState) : Prop where
  starts : states.head? = some .PLANNED
  path : states.IsChain fun a b => b ∈ ALLOWED_TRANSITIONS a
  ends : states.getLast? = some last

/-- The log of every drill is a path to the state of the row, which has not been both passed and
    failed. -/
def ResilienceDb.HistoryLegal (db : ResilienceDb) : Prop :=
  ∀ drill ∈ db.drills.rows, LegalPath (db.statesOf drill.id) drill.state ∧
    ¬(.PASSED ∈ db.statesOf drill.id ∧ .FAILED ∈ db.statesOf drill.id)

/-- Concurrent calls of `advance`, from tables with legal histories. -/
def advancePool : Pool Tracked AdvanceCall AdvanceDrillInput (Option DrillEnv) Empty where
  init t := (∀ drill ∈ t.db.drills.rows, LegalPath (t.db.statesOf drill.id) drill.state) ∧
    t.entered = t.db.events.map fun event => (event.drillRowId, event.state)
  start _ input := { input := input, stage := .read }
  next := AdvanceCall.next
  env _ x := nomatch x

/-- When no call is in progress, every history is legal. -/
def HistoriesLegal (s : Pool.State Tracked AdvanceCall) : Prop :=
  (∀ p ∈ s.calls, p.finished = true) → s.shared.db.HistoryLegal

/-! ## When histories stay legal -/

/-- Nothing comes between the statements of a call: when it updates a row, no other call holds
    it; and once it has updated the row, no reconciliation and no event of it is refused. -/
def AdvanceCall.undisturbed (t : Tracked) (others : List AdvanceCall) (p : AdvanceCall)
    (e : Option DrillEnv) : Bool :=
  match p.stage with
  | .update drill named =>
    e.all fun e => (t.db.updateDrill drill p.input named e.now).isNone ||
      others.all fun q => !q.holds drill.id
  | .record id item _ =>
    e.isSome && decide (item.service ∉ t.db.services id) && decide (item.issueCount ≤ maxInt)
  | .event _ => e.any fun e => t.db.acceptsEvent p.input.note e
  | _ => true

/-- The condition on the steps of a run. -/
def apart (s : Pool.State Tracked AdvanceCall) :
    Pool.Action AdvanceDrillInput (Option DrillEnv) Empty → Bool
  | .next n e => s.calls[n]?.all fun p => p.undisturbed s.shared (s.calls.eraseIdx n) e
  | _ => true

/-- A call that has read a row may take it to its state, and the log of a drill lacks only the
    state that a call has given its row. -/
structure AdvanceCall.Ready (t : Tracked) (p : AdvanceCall) : Prop where
  allowed : ∀ drill, p.row = some drill → ∃ stored, t.db.drills.find drill.id = some stored ∧
    p.input.state ∈ ALLOWED_TRANSITIONS stored.state
  logged : ∀ id, p.pendingOn id = true → (∃ stored, t.db.drills.find id = some stored) ∧
    t.enteredOf id = t.db.statesOf id ++ [p.input.state]

/-! ## What a step does -/

/-- The steps of a call that meet the condition. -/
inductive Move (t : Tracked) (others : List AdvanceCall) (p : AdvanceCall) :
    Tracked → AdvanceCall → Prop
  /-- Nothing that the histories depend on; the call may have read a row. -/
  | quiet {t' p'} (hdrills : t'.db.drills = t.db.drills)
      (hevents : t'.db.events = t.db.events) (hentered : t'.entered = t.entered)
      (hpending : ∀ id, p'.pendingOn id = p.pendingOn id)
      (hrow : ∀ drill, p'.row = some drill → p.row = some drill ∨
        (t.db.drills.find drill.id = some drill ∧
          p.input.state ∈ ALLOWED_TRANSITIONS drill.state)) : Move t others p t' p'
  /-- The row takes a state. -/
  | enter {t' p' stored row}
      (hstored : t.db.drills.find row.id = some stored) (hid : row.id = stored.id)
      (hstate : row.state = p.input.state)
      (hallowed : row.state ∈ ALLOWED_TRANSITIONS stored.state)
      (hapart : ∀ q ∈ others, q.holds row.id = false)
      (hdrills : t'.db.drills = t.db.drills.put row) (hevents : t'.db.events = t.db.events)
      (hentered : t'.entered = t.entered ++ [(row.id, row.state)])
      (hpending : ∀ id, p.pendingOn id = false)
      (hpending' : ∀ id, p'.pendingOn id = decide (row.id = id)) (hrow : p'.row = none) :
      Move t others p t' p'
  /-- The event is written. -/
  | log {t' p' event}
      (hdrills : t'.db.drills = t.db.drills) (hevents : t'.db.events = t.db.events ++ [event])
      (hentered : t'.entered = t.entered)
      (hnext : (t.enteredOf event.drillRowId)[(t.db.statesOf event.drillRowId).length]? =
        some event.state)
      (hpending : ∀ id, p.pendingOn id = decide (event.drillRowId = id))
      (hpending' : ∀ id, p'.pendingOn id = false) (hrow : p'.row = none) : Move t others p t' p'

section Steps

variable {t t' : Tracked} {others : List AdvanceCall} {p p' q : AdvanceCall}
  {e : Option DrillEnv}

theorem input_of_next (h : p.next t e = some (t', p')) : p'.input = p.input := by
  unfold AdvanceCall.next at h
  split at h
  · cases h
  · cases h
    rfl
  · split at h
    · cases h
      rfl
    · split_ifs at h
      all_goals
        cases h
        rfl
  · cases h
    rfl
  iterate 3
    · split at h
      · cases h
        rfl
      · cases h
        rfl
  · cases h
    rfl

theorem pendingOn_afterRecord (input : AdvanceDrillInput) (row id : String)
    (items : List ReconciliationInput) :
    AdvanceCall.pendingOn id ⟨input, afterRecord row items⟩ = decide (row = id) := by
  cases items with
  | nil | cons => rfl

theorem row_afterRecord (input : AdvanceDrillInput) (id : String)
    (items : List ReconciliationInput) : AdvanceCall.row ⟨input, afterRecord id items⟩ = none := by
  cases items with
  | nil | cons => rfl

theorem pendingOn_of_finished (h : p.finished = true) (id : String) : p.pendingOn id = false := by
  obtain ⟨input, stage⟩ := p
  cases stage with
  | done result => rfl
  | _ => cases h

/-- A statement of `advance` under the condition. -/
theorem move_of_next (h : p.next t e = some (t', p')) (hready : p.Ready t)
    (hc : p.undisturbed t others e = true) : Move t others p t' p' := by
  obtain ⟨input, stage⟩ := p
  cases stage with
  | read =>
    cases e with
    | none =>
      cases h
      exact .quiet rfl rfl rfl (fun _ => rfl) (by rintro _ ⟨⟩)
    | some e =>
      simp only [AdvanceCall.next] at h
      cases hfound : t.db.findDrill input.drillId with
      | none =>
        rw [hfound] at h
        cases h
        exact .quiet rfl rfl rfl (fun _ => rfl) (by rintro _ ⟨⟩)
      | some drill =>
        have hstored := (ResilienceDb.findDrill_some hfound).1
        rw [hfound] at h
        dsimp only at h
        by_cases hallowed : input.state ∈ ALLOWED_TRANSITIONS drill.state
        · rw [if_neg (not_not.mpr hallowed)] at h
          split_ifs at h
          all_goals
            cases h
            refine .quiet rfl rfl rfl (fun _ => rfl) ?_
            rintro _ ⟨⟩
            exact .inr ⟨hstored, hallowed⟩
        · rw [if_pos hallowed] at h
          cases h
          exact .quiet rfl rfl rfl (fun _ => rfl) (by rintro _ ⟨⟩)
  | named drill =>
    cases e with
    | none =>
      cases h
      exact .quiet rfl rfl rfl (fun _ => rfl) (by rintro _ ⟨⟩)
    | some e =>
      cases h
      exact .quiet rfl rfl rfl (fun _ => rfl) fun _ hrow => .inl hrow
  | update drill named =>
    cases e with
    | none =>
      cases h
      exact .quiet rfl rfl rfl (fun _ => rfl) (by rintro _ ⟨⟩)
    | some e =>
      obtain ⟨stored, hstored, hallowed⟩ := hready.allowed drill rfl
      have hkey : stored.id = drill.id := Table.key_of_find hstored
      simp only [AdvanceCall.next] at h
      cases hupdate : t.db.updateDrill drill input named e.now with
      | none =>
        rw [hupdate] at h
        cases h
        exact .quiet rfl rfl rfl (fun _ => rfl) (by rintro _ ⟨⟩)
      | some db =>
        have hothers : ∀ q ∈ others, q.holds drill.id = false := by
          simpa [AdvanceCall.undisturbed, hupdate] using hc
        rw [hupdate] at h
        cases h
        simp only [ResilienceDb.updateDrill, hstored] at hupdate
        split_ifs at hupdate
        cases hupdate
        have hrow : t.db.drills.find (stored.advanced drill input named e.now).id = some stored :=
          Table.find_of_mem (Table.find_some hstored).1
        refine .enter hrow rfl rfl hallowed ?_ rfl rfl ?_ (fun _ => rfl) (fun id => ?_)
          (row_afterRecord _ _ _)
        · intro q hq
          show q.holds stored.id = false
          rw [hkey]
          exact hothers q hq
        · rw [← hkey]
          rfl
        · refine (pendingOn_afterRecord input drill.id id _).trans ?_
          rw [← hkey]
          rfl
  | record id item items =>
    simp only [AdvanceCall.undisturbed, Bool.and_eq_true, decide_eq_true_eq] at hc
    obtain ⟨⟨hanswered, hnew⟩, hsmall⟩ := hc
    obtain ⟨e, rfl⟩ := Option.isSome_iff_exists.mp hanswered
    have hfree : ¬(item.service ∈ t.db.services id ∨ maxInt < item.issueCount) := by
      rintro (htaken | hbig)
      · exact hnew htaken
      · exact Nat.not_lt.mpr hsmall hbig
    simp only [AdvanceCall.next, ResilienceDb.insertReconciliation_eq, if_neg hfree] at h
    cases h
    refine .quiet rfl rfl rfl (fun x => pendingOn_afterRecord input id x items) fun drill hrow => ?_
    rw [row_afterRecord] at hrow
    cases hrow
  | event id =>
    obtain ⟨e, rfl, haccepts⟩ := (Option.any_eq_true _ _).mp hc
    obtain ⟨-, hlogged⟩ := hready.logged id (decide_eq_true rfl)
    simp only [AdvanceCall.next] at h
    cases hevent : t.db.appendEvent id input.state input.note e with
    | none =>
      rw [ResilienceDb.appendEvent_none hevent] at haccepts
      cases haccepts
    | some db =>
      obtain ⟨-, event, rfl, hstate, rfl⟩ := ResilienceDb.appendEvent_some hevent
      rw [hevent] at h
      cases h
      refine .log rfl rfl rfl ?_ (fun _ => rfl) (fun _ => rfl) rfl
      rw [hlogged, List.getElem?_concat_length, hstate]
  | load =>
    cases e with
    | none | some =>
      cases h
      exact .quiet rfl rfl rfl (fun _ => rfl) (by rintro _ ⟨⟩)
  | done result => cases h

/-! ## Paths -/

variable {states : List RecoveryDrillState} {last : RecoveryDrillState}

theorem LegalPath.snoc {state : RecoveryDrillState}
    (h : LegalPath states last) (hnext : state ∈ ALLOWED_TRANSITIONS last) :
    LegalPath (states ++ [state]) state := by
  refine ⟨?_, ?_, List.getLast?_concat⟩
  · rw [List.head?_append, h.starts]
    rfl
  · refine h.path.append (List.isChain_singleton state) fun a ha b hb => ?_
    rw [h.ends] at ha
    cases ha
    cases hb
    exact hnext

/-- How far a drill has come. -/
def rank : RecoveryDrillState → ℕ
  | .PLANNED => 0
  | .RUNNING => 1
  | .BACKUP_CREATED => 2
  | .RESTORE_VERIFIED => 3
  | .RECONCILIATION_PASSED => 4
  | .PASSED => 5
  | .FAILED => 5
  | .CLEANED_UP => 6

theorem rank_lt {a b : RecoveryDrillState} (h : b ∈ ALLOWED_TRANSITIONS a) : rank a < rank b := by
  cases a <;> cases b <;> revert h <;> decide

/-- A drill that passed did not fail. -/
theorem LegalPath.once (h : LegalPath states last) :
    ¬(RecoveryDrillState.PASSED ∈ states ∧ RecoveryDrillState.FAILED ∈ states) := by
  have hrank : states.Pairwise fun a b => rank a < rank b := by
    have : IsTrans RecoveryDrillState fun a b => rank a < rank b := ⟨fun _ _ _ => Nat.lt_trans⟩
    exact List.isChain_iff_pairwise.mp (h.path.imp fun _ _ => rank_lt)
  have hnodup : (states.map rank).Nodup :=
    List.pairwise_map.mpr (hrank.imp Nat.ne_of_lt)
  rintro ⟨hpassed, hfailed⟩
  exact absurd (List.inj_on_of_nodup_map hnodup hpassed hfailed rfl) (by decide)

end Steps

/-! ## The invariant -/

/-- The states of a row are a legal path; its log has the first of them, and one is missing for
    each call that has updated the row and not written its event. -/
structure Tracks (t : Tracked) (calls : List AdvanceCall) (drill : RecoveryDrillRow) : Prop where
  path : LegalPath (t.enteredOf drill.id) drill.state
  logged : t.db.statesOf drill.id <+: t.enteredOf drill.id
  missing : (t.enteredOf drill.id).length =
    (t.db.statesOf drill.id).length + calls.countP (AdvanceCall.pendingOn drill.id)

section Invariant

variable {t t' : Tracked} {calls : List AdvanceCall} {drill : RecoveryDrillRow}

variable {db db' : ResilienceDb}

theorem statesOf_congr (h : db'.events = db.events) (id : String) :
    db'.statesOf id = db.statesOf id := by
  unfold ResilienceDb.statesOf
  rw [h]

theorem enteredOf_congr (h : t'.entered = t.entered) (id : String) :
    t'.enteredOf id = t.enteredOf id := by
  unfold Tracked.enteredOf
  rw [h]

theorem statesOf_concat {event : DrillEvent} (h : db'.events = db.events ++ [event]) (id : String) :
    db'.statesOf id =
      db.statesOf id ++ if event.drillRowId = id then [event.state] else [] := by
  unfold ResilienceDb.statesOf
  rw [h, List.filter_append, List.map_append]
  by_cases hid : event.drillRowId = id <;> simp [hid]

theorem enteredOf_concat {entry : String × RecoveryDrillState}
    (h : t'.entered = t.entered ++ [entry]) (id : String) :
    t'.enteredOf id = t.enteredOf id ++ if entry.1 = id then [entry.2] else [] := by
  unfold Tracked.enteredOf
  rw [h, List.filter_append, List.map_append]
  by_cases hid : entry.1 = id <;> simp [hid]

/-- A drill is tracked as before when its log, its states and its calls are. -/
theorem Tracks.congr {calls' : List AdvanceCall} (h : Tracks t calls drill)
    (hlog : t'.db.statesOf drill.id = t.db.statesOf drill.id)
    (hentered : t'.enteredOf drill.id = t.enteredOf drill.id)
    (hcalls : calls'.countP (AdvanceCall.pendingOn drill.id) =
      calls.countP (AdvanceCall.pendingOn drill.id)) : Tracks t' calls' drill := by
  refine ⟨?_, ?_, ?_⟩
  · rw [hentered]
    exact h.path
  · rw [hlog, hentered]
    exact h.logged
  · rw [hlog, hentered, hcalls]
    exact h.missing

/-- What is missing from a log of which the next state is known. -/
theorem concat_isPrefix {l states : List RecoveryDrillState} {state : RecoveryDrillState}
    (h : l <+: states) (hnext : states[l.length]? = some state) : l ++ [state] <+: states := by
  obtain ⟨rest, rfl⟩ := h
  rw [List.getElem?_append_right (Nat.le_refl _), Nat.sub_self] at hnext
  cases rest with
  | nil => cases hnext
  | cons a rest =>
    cases Option.some.inj hnext
    exact ⟨rest, by rw [List.append_assoc]; rfl⟩

/-- A step of a call keeps the invariant. -/
theorem tracks_move {n : ℕ} {p p' : AdvanceCall} {others : List AdvanceCall}
    (hn : calls[n]? = some p) (h : ∀ drill ∈ t.db.drills.rows, Tracks t calls drill)
    (hmove : Move t others p t' p') :
    ∀ drill ∈ t'.db.drills.rows, Tracks t' (calls.set n p') drill := by
  intro drill hdrill
  have hcount := Pool.countP_next (f := AdvanceCall.pendingOn drill.id) p' hn
  cases hmove with
  | quiet hdrills hevents hentered hpending hrow =>
    rw [hdrills] at hdrill
    rw [hpending] at hcount
    exact (h drill hdrill).congr (statesOf_congr hevents _) (enteredOf_congr hentered _)
      (Nat.add_right_cancel hcount)
  | @enter stored row hstored hid hstate hallowed hapart hdrills hevents hentered hpending
      hpending' hrow =>
    have hstates := statesOf_congr hevents drill.id
    have hconcat := enteredOf_concat hentered drill.id
    rw [hpending, hpending'] at hcount
    rw [hdrills] at hdrill
    rcases Table.mem_put hdrill with ⟨hdrill, hne⟩ | rfl
    · have hne' : row.id ≠ drill.id := fun heq => hne heq.symm
      rw [if_neg hne', List.append_nil] at hconcat
      rw [decide_eq_false hne'] at hcount
      exact (h drill hdrill).congr hstates hconcat (Nat.add_right_cancel hcount)
    · -- the row takes a state that is not yet in its log
      obtain ⟨hpath, hlogged, hmissing⟩ := h stored (Table.find_some hstored).1
      rw [← hid] at hpath hlogged hmissing
      rw [if_pos rfl] at hconcat
      rw [decide_eq_true rfl] at hcount
      refine ⟨?_, ?_, ?_⟩
      · rw [hconcat]
        exact hpath.snoc hallowed
      · rw [hstates, hconcat]
        exact hlogged.trans (List.prefix_append _ _)
      · rw [hstates, hconcat, List.length_append, List.length_singleton, hmissing]
        simp only [Bool.toNat_true, Bool.toNat_false] at hcount
        omega
  | @log event hdrills hevents hentered hnext hpending hpending' hrow =>
    have hstates := statesOf_concat hevents drill.id
    have hsame := enteredOf_congr hentered drill.id
    rw [hpending, hpending'] at hcount
    rw [hdrills] at hdrill
    have hold := h drill hdrill
    by_cases hid : event.drillRowId = drill.id
    · rw [if_pos hid] at hstates
      rw [decide_eq_true hid] at hcount
      rw [hid] at hnext
      refine ⟨?_, ?_, ?_⟩
      · rw [hsame]
        exact hold.path
      · rw [hsame, hstates]
        exact concat_isPrefix hold.logged hnext
      · rw [hsame, hstates, List.length_append, List.length_singleton, hold.missing]
        simp only [Bool.toNat_true, Bool.toNat_false] at hcount
        omega
    · rw [if_neg hid, List.append_nil] at hstates
      rw [decide_eq_false hid] at hcount
      exact hold.congr hstates hsame (Nat.add_right_cancel hcount)

theorem tracks_init (h : ∀ drill ∈ t.db.drills.rows,
    LegalPath (t.db.statesOf drill.id) drill.state)
    (hentered : t.entered = t.db.events.map fun event => (event.drillRowId, event.state)) :
    ∀ drill ∈ t.db.drills.rows, Tracks t [] drill := by
  intro drill hdrill
  have hsame : t.enteredOf drill.id = t.db.statesOf drill.id := by
    unfold Tracked.enteredOf ResilienceDb.statesOf
    rw [hentered, List.filter_map, List.map_map]
    rfl
  refine ⟨?_, ?_, ?_⟩
  · rw [hsame]
    exact h drill hdrill
  · exact hsame.symm ▸ List.prefix_refl _
  · rw [hsame]
    rfl

/-- The log of a drill is complete when no call is about to write to it. -/
theorem Tracks.settled (h : Tracks t calls drill)
    (hnone : ∀ p ∈ calls, p.pendingOn drill.id = false) :
    t.enteredOf drill.id = t.db.statesOf drill.id := by
  have hcount : calls.countP (AdvanceCall.pendingOn drill.id) = 0 :=
    List.countP_eq_zero.mpr fun p hp => Bool.eq_false_iff.mp (hnone p hp)
  exact (h.logged.eq_of_length (by rw [h.missing, hcount, Nat.add_zero])).symm

/-- The log of a drill that no call is about to write to is a path to its state. -/
theorem Tracks.legal (h : Tracks t calls drill)
    (hnone : ∀ p ∈ calls, p.pendingOn drill.id = false) :
    LegalPath (t.db.statesOf drill.id) drill.state := by
  rw [← h.settled hnone]
  exact h.path

end Invariant

/-! ## The calls of an undisturbed run -/

section Ready

variable {t t' : Tracked} {calls : List AdvanceCall} {n : ℕ} {p p' : AdvanceCall}

variable {id : String}

theorem pendingOn_of_not_holds (h : p.holds id = false) :
    p.pendingOn id = false := (Bool.or_eq_false_iff.mp h).2

theorem row_of_not_holds {drill : RecoveryDrillRow} (h : p.holds id = false)
    (hrow : p.row = some drill) : drill.id ≠ id := by
  have hnone := (Bool.or_eq_false_iff.mp h).1
  rw [hrow, Option.any_some] at hnone
  exact of_decide_eq_false hnone

/-- A row stays in the table. -/
theorem find_put_some {drills : Table RecoveryDrillRow}
    (row : RecoveryDrillRow) (h : ∃ stored, drills.find id = some stored) :
    ∃ stored, (drills.put row).find id = some stored := by
  obtain ⟨stored, hstored⟩ := h
  refine Option.ne_none_iff_exists'.mp fun hnone => ?_
  rw [Table.find_put_eq_none.mp hnone] at hstored
  cases hstored

/-- A call's own statement. -/
theorem ready_own (htracks : ∀ drill ∈ t.db.drills.rows, Tracks t calls drill)
    (hn : calls[n]? = some p) (hready : p.Ready t) (hinput : p'.input = p.input)
    (hmove : Move t (calls.eraseIdx n) p t' p') : p'.Ready t' := by
  cases hmove with
  | quiet hdrills hevents hentered hpending hrow =>
    constructor
    · intro drill hdrill
      rw [hdrills, hinput]
      rcases hrow drill hdrill with hold | ⟨hstored, hallowed⟩
      · exact hready.allowed drill hold
      · exact ⟨drill, hstored, hallowed⟩
    · intro id hid
      rw [hdrills, enteredOf_congr hentered, statesOf_congr hevents, hinput]
      exact hready.logged id (hpending id ▸ hid)
  | @enter stored row hstored hid hstate hallowed hapart hdrills hevents hentered hpending
      hpending' hrow =>
    constructor
    · intro drill hdrill
      rw [hrow] at hdrill
      cases hdrill
    · intro id hid'
      obtain rfl : row.id = id := of_decide_eq_true (hpending' id ▸ hid')
      refine ⟨hdrills ▸ find_put_some row ⟨stored, hstored⟩, ?_⟩
      -- no call is about to write to the log, so the new state is all that it lacks
      have hnone : ∀ q ∈ calls, q.pendingOn stored.id = false := by
        intro q hq
        obtain ⟨m, hm⟩ := List.mem_iff_getElem?.mp hq
        rw [← hid]
        by_cases hmn : m = n
        · subst hmn
          cases hn.symm.trans hm
          exact hpending row.id
        · exact pendingOn_of_not_holds
            (hapart q (List.mem_eraseIdx_iff_getElem?.mpr ⟨m, hmn, hm⟩))
      have hsettled := (htracks stored (Table.find_some hstored).1).settled hnone
      rw [← hid] at hsettled
      rw [enteredOf_concat hentered, if_pos rfl, statesOf_congr hevents, hsettled, hinput, hstate]
  | log hdrills hevents hentered hnext hpending hpending' hrow =>
    constructor
    · intro drill hdrill
      rw [hrow] at hdrill
      cases hdrill
    · intro id hid
      rw [hpending'] at hid
      cases hid

/-- A statement of another call. -/
theorem ready_other {m : ℕ} {q : AdvanceCall}
    (htracks : ∀ drill ∈ t.db.drills.rows, Tracks t calls drill) (hn : calls[n]? = some p)
    (hmn : m ≠ n) (hm : calls[m]? = some q) (hready : q.Ready t)
    (hmove : Move t (calls.eraseIdx n) p t' p') : q.Ready t' := by
  cases hmove with
  | quiet hdrills hevents hentered hpending hrow =>
    constructor
    · rw [hdrills]
      exact hready.allowed
    · intro id hid
      rw [hdrills, enteredOf_congr hentered, statesOf_congr hevents]
      exact hready.logged id hid
  | @enter stored row hstored hid hstate hallowed hapart hdrills hevents hentered hpending
      hpending' hrow =>
    have hfree := hapart q (List.mem_eraseIdx_iff_getElem?.mpr ⟨m, hmn, hm⟩)
    constructor
    · intro drill hdrill
      have hne : key row ≠ drill.id := Ne.symm (row_of_not_holds hfree hdrill)
      rw [hdrills, Table.find_put_ne hne]
      exact hready.allowed drill hdrill
    · intro id hid'
      have hne : row.id ≠ id := by
        rintro rfl
        rw [pendingOn_of_not_holds hfree] at hid'
        cases hid'
      obtain ⟨hfound, hlogged⟩ := hready.logged id hid'
      refine ⟨hdrills ▸ find_put_some row hfound, ?_⟩
      rw [enteredOf_concat hentered, if_neg hne, List.append_nil, statesOf_congr hevents]
      exact hlogged
  | @log event hdrills hevents hentered hnext hpending hpending' hrow =>
    constructor
    · rw [hdrills]
      exact hready.allowed
    · intro id hid
      obtain ⟨⟨stored, hstored⟩, hlogged⟩ := hready.logged id hid
      rw [hdrills, enteredOf_congr hentered, statesOf_concat hevents]
      by_cases hsame : event.drillRowId = id
      · -- two calls that are about to write to one log lack two states
        have htwo := Pool.two_le_countP hmn hn hm
          ((hpending id).trans (decide_eq_true hsame)) hid
        obtain ⟨-, -, hmissing⟩ := htracks stored (Table.find_some hstored).1
        rw [show stored.id = id from Table.key_of_find hstored, hlogged, List.length_append,
          List.length_singleton] at hmissing
        omega
      · rw [if_neg hsame, List.append_nil]
        exact ⟨⟨stored, hstored⟩, hlogged⟩

end Ready

/-- The logs are tracked, and the calls are ready for what they do next. -/
structure HistoryInv (s : Pool.State Tracked AdvanceCall) : Prop where
  tracks : ∀ drill ∈ s.shared.db.drills.rows, Tracks s.shared s.calls drill
  ready : ∀ p ∈ s.calls, p.Ready s.shared

/-- The calls of a run whose steps meet the condition are undisturbed. -/
theorem historyInv_of_reachable {s : Pool.State Tracked AdvanceCall}
    (h : advancePool.machine.Reachable (fun s a => apart s a = true) s) : HistoryInv s := by
  refine Machine.invariant (I := HistoryInv) ?_ ?_ h
  · rintro ⟨t, calls⟩ ⟨⟨hlegal, hentered⟩, rfl⟩
    exact ⟨tracks_init hlegal hentered, fun p hp => absurd hp List.not_mem_nil⟩
  · rintro s a u hs hapart hstep
    cases a with
    | start input =>
      cases Pool.step_start hstep
      refine ⟨fun drill hdrill => (hs.tracks drill hdrill).congr rfl rfl ?_, fun p hp => ?_⟩
      · rw [List.countP_append]
        rfl
      · rcases List.mem_append.mp hp with hp | hp
        · exact hs.ready p hp
        · rw [List.mem_singleton.mp hp]
          exact ⟨by rintro _ ⟨⟩, by rintro _ ⟨⟩⟩
    | next n e =>
      obtain ⟨p, t', p', hp, hnext, rfl⟩ := Pool.step_next hstep
      have hc : p.undisturbed s.shared (s.calls.eraseIdx n) e = true := by
        simpa [apart, hp] using hapart
      have hready := hs.ready p (Pool.mem_of_getElem? hp)
      have hmove := move_of_next hnext hready hc
      refine ⟨tracks_move hp hs.tracks hmove, Pool.forall_set (fun m q hm hq => ?_) ?_⟩
      · exact ready_other hs.tracks hp hm hq (hs.ready q (Pool.mem_of_getElem? hq)) hmove
      · exact ready_own hs.tracks hp hready (input_of_next hnext) hmove
    | env x => cases x

/-- When no call is in progress, the log of every drill is a path of `ALLOWED_TRANSITIONS` from
    `PLANNED` to the state of the row, and no drill has passed and failed: in every run in which
    nothing comes between the read of a call and its update, nor between its update and its
    event. -/
theorem drill_history_legal (s : Pool.State Tracked AdvanceCall)
    (h : advancePool.machine.Reachable (fun s a => apart s a = true) s) : HistoriesLegal s := by
  intro hfinished drill hdrill
  have hlegal := ((historyInv_of_reachable h).tracks drill hdrill).legal fun p hp =>
    pendingOn_of_finished (hfinished p hp) drill.id
  exact ⟨hlegal, hlegal.once⟩

/-! ## Runs -/

/-- The tables of a drill that has taken some states. -/
def drillIn (states : List RecoveryDrillState) (last : RecoveryDrillState) : Tracked where
  db := {
    backupSets := []
    drills := Table.empty.add {
      id := "row-1"
      drillId := "drill:2026-08-01:d1"
      type := .MANUAL
      state := last
      startedAt := 1
      completedAt := none
      requestedBy := "ops"
      backupSetId := none
      measuredRecoveryPointAgeSeconds := none
      measuredRecoveryDurationMs := none
      failureCode := none
      acknowledgedAt := none
      acknowledgedBy := none
      acknowledgementReason := none }
    events := states.zipIdx.map fun entry => {
      eventId := toString entry.2, drillRowId := "row-1", state := entry.1, occurredAt := 1,
      note := none }
    reconciliations := [] }
  entered := states.map fun state => ("row-1", state)

theorem drillIn_init {states : List RecoveryDrillState} {last : RecoveryDrillState}
    (h : LegalPath states last) : advancePool.init (drillIn states last) := by
  have hstates : (drillIn states last).db.statesOf "row-1" = states := by
    unfold ResilienceDb.statesOf drillIn
    rw [List.filter_eq_self.mpr, List.map_map]
    · exact List.zipIdx_map_fst 0 states
    · intro event hevent
      obtain ⟨entry, -, rfl⟩ := List.mem_map.mp hevent
      exact decide_eq_true rfl
  constructor
  · intro drill hdrill
    obtain rfl := List.mem_singleton.mp hdrill
    show LegalPath ((drillIn states last).db.statesOf "row-1") last
    rw [hstates]
    exact h
  · show states.map (fun state => ("row-1", state)) = List.map _ (List.map _ states.zipIdx)
    rw [List.map_map]
    conv_lhs => rw [← List.zipIdx_map_fst 0 states]
    rw [List.map_map]
    rfl

/-- Two calls of which the second one reads the row between the update of the first one and its
    event. -/
def apartSteps : List (Pool.Action AdvanceDrillInput (Option DrillEnv) Empty) :=
  [.start (exampleAdvance .RUNNING), .start (exampleAdvance .BACKUP_CREATED),
    .next 0 (some (exampleEnv 2 "e1")), .next 0 (some (exampleEnv 2 "e1")),
    .next 1 (some (exampleEnv 2 "e2")), .next 0 (some (exampleEnv 2 "e1")),
    .next 1 (some (exampleEnv 2 "e2")), .next 0 (some (exampleEnv 2 "e1")),
    .next 1 (some (exampleEnv 2 "e2")), .next 1 (some (exampleEnv 2 "e2"))]

/-- Two calls that both read the row before either updates it. -/
def racingSteps : List (Pool.Action AdvanceDrillInput (Option DrillEnv) Empty) :=
  [.start (exampleAdvance .PASSED), .start (exampleAdvance .FAILED),
    .next 0 (some (exampleEnv 2 "e1")), .next 1 (some (exampleEnv 2 "e2")),
    .next 0 (some (exampleEnv 2 "e1")), .next 1 (some (exampleEnv 2 "e2")),
    .next 0 (some (exampleEnv 2 "e1")), .next 1 (some (exampleEnv 2 "e2")),
    .next 0 (some (exampleEnv 2 "e1")), .next 1 (some (exampleEnv 2 "e2"))]

/-- Overlapping calls leave the path of their drill in its log. -/
theorem drill_history_legal_overlap : ∃ s : Pool.State Tracked AdvanceCall, HistoriesLegal s ∧
    (∀ p ∈ s.calls, p.finished = true) ∧
      s.shared.db.statesOf "row-1" = [.PLANNED, .RUNNING, .BACKUP_CREATED] := by
  have hinit : advancePool.machine.init ⟨drillIn [.PLANNED] .PLANNED, []⟩ :=
    ⟨drillIn_init ⟨rfl, List.isChain_singleton _, rfl⟩, rfl⟩
  obtain ⟨s, hs, hp⟩ := Machine.reachable_of_runUnder (C := fun s a => apart s a = true)
    apartSteps apart
    (fun s => s.calls.all AdvanceCall.finished &&
      decide (s.shared.db.statesOf "row-1" = [.PLANNED, .RUNNING, .BACKUP_CREATED]))
    (fun _ _ h => h) hinit (by decide +kernel)
  rw [Bool.and_eq_true, List.all_eq_true, decide_eq_true_eq] at hp
  exact ⟨s, drill_history_legal s hs, hp⟩

/-- Two calls that overlap pass and fail one drill. -/
theorem drill_history_illegal : ¬ ∀ s : Pool.State Tracked AdvanceCall,
    advancePool.machine.Reachable Machine.always s → HistoriesLegal s := by
  intro h
  have hinit : advancePool.machine.init
      ⟨drillIn [.PLANNED, .RUNNING, .BACKUP_CREATED, .RESTORE_VERIFIED, .RECONCILIATION_PASSED]
        .RECONCILIATION_PASSED, []⟩ := ⟨drillIn_init ⟨rfl, by decide, rfl⟩, rfl⟩
  obtain ⟨s, hs, hp⟩ := Machine.reachable_of_run racingSteps
    (fun s => s.calls.all AdvanceCall.finished &&
      (s.shared.db.drills.find "row-1").any fun drill => decide
        (.PASSED ∈ s.shared.db.statesOf drill.id ∧ .FAILED ∈ s.shared.db.statesOf drill.id))
    hinit (by decide +kernel)
  rw [Bool.and_eq_true, List.all_eq_true] at hp
  obtain ⟨drill, hdrill, hboth⟩ := (Option.any_eq_true _ _).mp hp.2
  exact (h s hs hp.1 drill (Table.find_some hdrill).1).2 (of_decide_eq_true hboth)

end AegisShield.Resilience
