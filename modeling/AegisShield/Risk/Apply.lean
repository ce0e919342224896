import AegisShield.Risk.Controls

/-!
# Applying a control

One call of `ControlService.apply` (`control.service.ts`, lines 80-131) on any tables. The control
that the idempotency key names is returned as it is: nothing is compared with the command.

Results:
* `control_as_asked`: `apply` returns the control that was asked for, and changes nothing when the
  key was used for another command, exactly when the key is free or names a control of the same
  command that is in force.
* `control_of_another`: a key that was used for one customer returns that control for another.
-/

namespace AegisShield.Risk

open Common

/-! ## The property -/

/-- The subject, the type and the expiry are those of the command. -/
structure ControlActionRow.IsFor (row : ControlActionRow) (input : ApplyControlInput) : Prop where
  type : row.type = input.type
  scopeType : row.scopeType = input.scopeType
  scopeId : row.scopeId = input.scopeId
  expiresAt : row.expiresAt = input.expiresAt

/-- The control is the one that the command makes. -/
structure ControlActionRow.SameCommand (row : ControlActionRow) (input : ApplyControlInput) : Prop
    extends row.IsFor input where
  reasonCode : row.reasonCode = input.reasonCode
  incidentId : row.incidentId = input.incidentId

/-- The control is active. -/
def ControlActionRow.InForce (row : ControlActionRow) (now : ℕ) : Prop :=
  row.status = .ACTIVE ∧ now < row.expiresAt

/-- A call of `apply` at a time ends in tables with a result: each of its statements runs or
    fails, and its answer may be lost. -/
def Applies (sha256 : String → String) (db : RiskDb) (input : ApplyControlInput)
    (operatorId : String) (now : ℕ) (db' : RiskDb) (result : Except RiskError ControlResponse) :
    Prop :=
  ∃ es : List (Option ControlEnv), (∀ e, some e ∈ es → e.now = now) ∧
    (controlPool sha256).runAlone db (.looking input operatorId) es = some (db', .done result)

/-- A call that succeeds returns an active control as it was asked for; a call with a key that was
    used for another command fails and changes nothing. -/
structure AppliedAsAsked (sha256 : String → String) (db : RiskDb) (input : ApplyControlInput)
    (operatorId : String) (now : ℕ) : Prop where
  control : ∀ db' response, Applies sha256 db input operatorId now db' (.ok response) →
    ∃ row, response = .control row ∧ row.InForce now ∧ row.IsFor input
  conflict : ∀ existing, db.findControlByKey (sha256 input.idempotencyKey) = some existing →
    ¬existing.SameCommand input → ∀ db' result, Applies sha256 db input operatorId now db' result →
      (∃ error, result = .error error) ∧ db' = db

/-! ## The call -/

section Call

variable {sha256 : String → String} {db db' : RiskDb} {input : ApplyControlInput}
  {operatorId : String} {now : ℕ} {es : List (Option ControlEnv)} {row : ControlActionRow}
  {result result' : Except RiskError ControlResponse}

/-- A call that has ended takes no step. -/
theorem runAlone_done
    (h : (controlPool sha256).runAlone db (.done result) es = some (db', .done result')) :
    db' = db ∧ result' = result := by
  cases es with
  | nil =>
    cases h
    exact ⟨rfl, rfl⟩
  | cons e es =>
    obtain ⟨db₁, call₁, hnext, -⟩ := Pool.runAlone_cons.mp h
    cases hnext

/-- A control that is found or made is returned, unless the Identity service fails. -/
theorem runAlone_afterApplied
    (h : (controlPool sha256).runAlone db (.afterApplied row) es = some (db', .done result)) :
    db' = db ∧ ∀ response, result = .ok response → response = .control row := by
  unfold ControlCall.afterApplied at h
  split_ifs at h with hrevoke
  · cases es with
    | nil => cases h
    | cons e es =>
      obtain ⟨db₁, call₁, hnext, hrest⟩ := Pool.runAlone_cons.mp h
      rcases e with _ | e
      · cases hnext
        obtain ⟨rfl, rfl⟩ := runAlone_done hrest
        exact ⟨rfl, fun response hresponse => nomatch hresponse⟩
      · cases hnext
        obtain ⟨rfl, rfl⟩ := runAlone_done hrest
        exact ⟨rfl, fun response hresponse => (Except.ok.inj hresponse).symm⟩
  · obtain ⟨rfl, rfl⟩ := runAlone_done h
    exact ⟨rfl, fun response hresponse => (Except.ok.inj hresponse).symm⟩

/-- The statement that reads by the key. -/
theorem next_looking (e : ControlEnv) :
    (controlPool sha256).next db (.looking input operatorId) (some e) =
      some (db, match db.findControlByKey (sha256 input.idempotencyKey) with
        | some existing => .afterApplied existing
        | none => .creating input operatorId) := by
  show (match db.findControlByKey (sha256 input.idempotencyKey) with
    | some existing => some (db, ControlCall.afterApplied existing)
    | none => some (db, ControlCall.creating input operatorId)) = _
  cases db.findControlByKey (sha256 input.idempotencyKey) <;> rfl

variable {existing : ControlActionRow}

/-- A key that is taken: its control is returned. -/
theorem applies_existing (hfind : db.findControlByKey (sha256 input.idempotencyKey) = some existing)
    (h : Applies sha256 db input operatorId now db' result) :
    db' = db ∧ ∀ response, result = .ok response → response = .control existing := by
  obtain ⟨es, -, hrun⟩ := h
  cases es with
  | nil => cases hrun
  | cons e es =>
    obtain ⟨db₁, call₁, hnext, hrest⟩ := Pool.runAlone_cons.mp hrun
    rcases e with _ | e
    · cases hnext
      obtain ⟨rfl, rfl⟩ := runAlone_done hrest
      exact ⟨rfl, fun response hresponse => nomatch hresponse⟩
    · rw [next_looking, hfind] at hnext
      cases hnext
      exact runAlone_afterApplied hrest

/-- The control that a key names is returned when no statement fails. -/
theorem applies_found (now : ℕ) (operatorId : String)
    (hfind : db.findControlByKey (sha256 input.idempotencyKey) = some existing) :
    Applies sha256 db input operatorId now db (.ok (.control existing)) := by
  have hlook : (controlPool sha256).next db (.looking input operatorId) (some ⟨now, "", [], true⟩) =
      some (db, .afterApplied existing) := by
    rw [next_looking, hfind]
  by_cases hrevoke : existing.type = .SESSION_REVOKE
  · refine ⟨[some ⟨now, "", [], true⟩, some ⟨now, "", [], true⟩], by simp, ?_⟩
    refine Pool.runAlone_cons.mpr ⟨db, .revoking existing, ?_, rfl⟩
    rw [hlook, ControlCall.afterApplied, if_pos hrevoke]
  · refine ⟨[some ⟨now, "", [], true⟩], by simp, ?_⟩
    refine Pool.runAlone_cons.mpr ⟨db, .done (.ok (.control existing)), ?_, rfl⟩
    rw [hlook, ControlCall.afterApplied, if_neg hrevoke]

/-- `control_actions_expiry_after_creation`. -/
theorem expiry_of_createControl {reason : String} (h : db.createControl row reason = some db') :
    row.createdAt < row.expiresAt := by
  unfold RiskDb.createControl at h
  split_ifs at h with hrefused
  simp only [Bool.or_eq_true, not_or, decide_eq_true_eq, Nat.not_le] at hrefused
  exact hrefused.2

/-- The statement that makes the control. -/
theorem next_creating {e : ControlEnv} {call : ControlCall}
    (h : (controlPool sha256).next db (.creating input operatorId) (some e) = some (db', call)) :
    (db' = db ∧ call = .done (.error .store)) ∨
      (db.createControl (controlRow sha256 input operatorId e) input.reasonCode = some db' ∧
        call = (ControlCall.afterApplied (controlRow sha256 input operatorId e)).answer e) := by
  simp only [controlPool, ControlCall.next] at h
  split at h
  · cases h
    exact .inl ⟨rfl, rfl⟩
  next db₁ hmade =>
    cases h
    exact .inr ⟨hmade, rfl⟩

/-- A key that is free: the control of the command is made. -/
theorem applies_new (hfind : db.findControlByKey (sha256 input.idempotencyKey) = none)
    {response : ControlResponse} (h : Applies sha256 db input operatorId now db' (.ok response)) :
    ∃ e : ControlEnv, e.now = now ∧ response = .control (controlRow sha256 input operatorId e) ∧
      now < input.expiresAt := by
  obtain ⟨es, htime, hrun⟩ := h
  cases es with
  | nil => cases hrun
  | cons e es =>
    obtain ⟨db₁, call₁, hnext, hrest⟩ := Pool.runAlone_cons.mp hrun
    rcases e with _ | e
    · cases hnext
      obtain ⟨-, hresult⟩ := runAlone_done hrest
      cases hresult
    · rw [next_looking, hfind] at hnext
      cases hnext
      cases es with
      | nil => cases hrest
      | cons e' es =>
        obtain ⟨db₂, call₂, hcreate, hend⟩ := Pool.runAlone_cons.mp hrest
        rcases e' with _ | e'
        · cases hcreate
          obtain ⟨-, hresult⟩ := runAlone_done hend
          cases hresult
        · have hnow : e'.now = now := htime e' (by simp)
          rcases next_creating hcreate with ⟨-, rfl⟩ | ⟨hmade, rfl⟩
          · obtain ⟨-, hresult⟩ := runAlone_done hend
            cases hresult
          · have hexpiry := expiry_of_createControl hmade
            by_cases hanswered : e'.answered
            · rw [ControlCall.answer, if_pos hanswered] at hend
              exact ⟨e', hnow, (runAlone_afterApplied hend).2 response rfl, hnow ▸ hexpiry⟩
            · rw [ControlCall.answer, if_neg hanswered] at hend
              obtain ⟨-, hresult⟩ := runAlone_done hend
              cases hresult

end Call

/-! ## Applying -/

/-- A call returns the control that was asked for, and refuses a key that was used for another
    command, exactly when its key is free or names a control of the same command in force. -/
theorem control_as_asked (sha256 : String → String) (db : RiskDb) (input : ApplyControlInput)
    (operatorId : String) (now : ℕ) :
    AppliedAsAsked sha256 db input operatorId now ↔
      ∀ existing, db.findControlByKey (sha256 input.idempotencyKey) = some existing →
        existing.InForce now ∧ existing.SameCommand input := by
  constructor
  · intro h existing hfind
    have hfound := applies_found now operatorId hfind
    have hsame : existing.SameCommand input := by
      by_contra hother
      obtain ⟨⟨error, herror⟩, -⟩ := h.conflict existing hfind hother _ _ hfound
      cases herror
    obtain ⟨row, hrow, hforce, -⟩ := h.control _ _ hfound
    cases hrow
    exact ⟨hforce, hsame⟩
  · intro h
    constructor
    · intro db' response happlies
      cases hfind : db.findControlByKey (sha256 input.idempotencyKey) with
      | none =>
        obtain ⟨e, -, rfl, hexpiry⟩ := applies_new hfind happlies
        exact ⟨_, rfl, ⟨rfl, hexpiry⟩, rfl, rfl, rfl, rfl⟩
      | some existing =>
        obtain ⟨hforce, hsame⟩ := h existing hfind
        obtain ⟨-, hresponse⟩ := applies_existing hfind happlies
        exact ⟨existing, hresponse response rfl, hforce, hsame.toIsFor⟩
    · intro existing hfind hother
      exact absurd (h existing hfind).2 hother

/-- A command to quarantine a customer. -/
def quarantine (scopeId : String) : ApplyControlInput where
  idempotencyKey := "operator-command-1"
  type := .QUARANTINE
  scopeType := .CUSTOMER
  scopeId := scopeId
  reasonCode := "MANUAL_REVIEW"
  expiresAt := 900000
  incidentId := none

/-- The tables after the first customer is quarantined. -/
def quarantined : RiskDb :=
  ((RiskDb.migrated.createControl (controlRow id (quarantine "customer-1") "operator-1"
    ⟨0, "control-1", [], true⟩) "MANUAL_REVIEW").getD RiskDb.migrated)

/-- A command for a second customer with the same key returns the control of the first one. -/
theorem control_of_another : ¬ ∀ (sha256 : String → String) (db : RiskDb)
    (input : ApplyControlInput) (operatorId : String) (now : ℕ),
    AppliedAsAsked sha256 db input operatorId now := by
  intro h
  have hfind : quarantined.findControlByKey "operator-command-1" =
      some (controlRow id (quarantine "customer-1") "operator-1" ⟨0, "control-1", [], true⟩) := by
    decide
  obtain ⟨row, hrow, -, hfor⟩ := (h id quarantined (quarantine "customer-2") "operator-1" 1).control
    _ _ (applies_found 1 "operator-1" hfind)
  cases hrow
  exact absurd hfor.scopeId (by decide)

end AegisShield.Risk
