import AegisShield.Payments.Intent

/-!
# Steps of the calls about transfer intents

Results:
* `intentMove_of_next`: what one step of a call does.
* `IntentMove.tables`: what it does to the tables.
-/

namespace AegisShield.Payments

open Common

section Moves

variable (runtime : Runtime) (limits : PaymentsLimits)

/-! ## What a step does -/

/-- The steps of a call at the time of the shared state, one constructor for each way it goes on. -/
inductive IntentMove (s : IntentShared) :
    IntentCall → IntentInput → IntentShared → IntentCall → Prop
  | drafted {request preview e} (hdraft : intentDraft limits request e.preview = .ok preview) :
      IntentMove s (.drafting request) (.run e) s (.inserting request preview)
  | intended {request preview e intents}
      (hinsert : insertIntent s.intents (newIntent runtime limits request preview e) =
        some intents) :
      IntentMove s (.inserting request preview) (.run e) { s with intents := intents }
        (.intended e.token)
  | consumed {senderCustomerId token intentId e} :
      IntentMove s (.authorizing senderCustomerId token) (.run e) s
        (.rechecking senderCustomerId intentId)
  | allowed {senderCustomerId token intent e}
      (hfind : findIntent runtime s senderCustomerId token = some intent) :
      IntentMove s (.authorizing senderCustomerId token) (.run e) s (.granting intent.id)
  | rechecked {senderCustomerId intentId e} :
      IntentMove s (.rechecking senderCustomerId intentId) (.run e) s .authorized
  | granted {intentId intent e} (hfind : s.intents.find intentId = some intent) :
      IntentMove s (.granting intentId) (.run e)
        { s with intents := s.intents.put { intent with authorizedAt := some e.now } } .authorized
  | preflighted {c intent e}
      (hfind : findIntent runtime s c.senderCustomerId c.intentToken = some intent)
      (hauthorized : intent.authorizedAt.isSome) :
      IntentMove s (.confirming c) (.run e) s
        (.replaying c (confirmHash runtime c.senderCustomerId intent))
  | replayed {c requestHash row e}
      (hfind : findTransfer runtime s c = some row) (hhash : row.requestHash = requestHash) :
      IntentMove s (.replaying c requestHash) (.run e) s (.confirmed c row)
  | unused {c requestHash e} (hfind : findTransfer runtime s c = none) :
      IntentMove s (.replaying c requestHash) (.run e) s (.enforcing c)
  | enforced {c e} :
      IntentMove s (.enforcing c) (.run e) s (.beginning c)
  | begun {c intent e}
      (hfind : findIntent runtime s c.senderCustomerId c.intentToken = some intent) :
      IntentMove s (.beginning c) (.run e) s (.dating c intent)
  | dated {c intent e} :
      IntentMove s (.dating c intent) (.run e) s (.waiting c intent e.now)
  | locked {c intent lockedAt e} (hfree : dayLock runtime c.senderCustomerId lockedAt ∉ s.locks) :
      IntentMove s (.waiting c intent lockedAt) (.run e)
        { s with locks := dayLock runtime c.senderCustomerId lockedAt :: s.locks }
        (.inTx c intent lockedAt .checking)
  | unseen {c intent lockedAt e} :
      IntentMove s (.inTx c intent lockedAt .checking) (.run e) s
        (.inTx c intent lockedAt .expiring)
  | valid {c intent lockedAt e} (hauthorized : intent.authorizedAt.isSome) :
      IntentMove s (.inTx c intent lockedAt .expiring) (.run e) s
        (.inTx c intent lockedAt .reserving)
  | reserved {c intent lockedAt e}
      (hlimit : reservedSum s.transfers c.senderCustomerId (startOfDay e.now) +
        intent.amountMinor ≤ limits.dailyOutgoingLimitMinor) :
      IntentMove s (.inTx c intent lockedAt .reserving) (.run e) s
        (.inTx c intent lockedAt (.creating e.now))
  | repeated {c intent lockedAt row e} (hfind : findTransfer runtime s c = some row)
      (hhash : row.requestHash = confirmHash runtime c.senderCustomerId intent) :
      IntentMove s (.inTx c intent lockedAt .checking) (.run e) (unlock runtime s c lockedAt)
        (.confirmed c row)
  | created {c intent current lockedAt windowAt e transfers}
      (hcreate : createTransfer s.transfers (newTransfer runtime c intent e) e.now = some transfers)
      (hfind : s.intents.find intent.id = some current) :
      IntentMove s (.inTx c intent lockedAt (.creating windowAt)) (.run e)
        (unlock runtime { s with
          intents := s.intents.put { current with consumedAt := some e.now }
          transfers := transfers } c lockedAt)
        (.settling c (TransferRow.create (newTransfer runtime c intent e) e.now))
  | sent {c row e} :
      IntentMove s (.settling c row) (.run e)
        { s with commands := s.commands ++ [settleCommand row] } (.awaiting c row)
  | answered {c row outcome} :
      IntentMove s (.awaiting c row) (.reply outcome) s (.answered c row outcome)
  | unanswered {c row outcome} :
      IntentMove s (.awaiting c row) (.reply outcome) s (.confirmed c row)
  | settled {c row outcome e transfers}
      (hwrite : settleWrite s.transfers row.id outcome e.now = some transfers) :
      IntentMove s (.answered c row outcome) (.run e) { s with transfers := transfers }
        (.confirmed c ((transfers.find row.id).getD row))
  | unwritten {c row outcome x} :
      IntentMove s (.answered c row outcome) x s (.confirmed c row)
  | aborted {c intent lockedAt stage x e} :
      IntentMove s (.inTx c intent lockedAt stage) x (unlock runtime s c lockedAt) (.thrown e)
  | refused {c e}
      (hfind : ∀ intent, findIntent runtime s c.senderCustomerId c.intentToken = some intent →
        intent.authorizedAt = none) :
      IntentMove s (.confirming c) (.run e) s
        (.thrown (.payments (paymentError "AUTHORIZATION_FAILED")))
  | conflicted {c requestHash row e}
      (hfind : findTransfer runtime s c = some row) (hhash : row.requestHash ≠ requestHash) :
      IntentMove s (.replaying c requestHash) (.run e) s
        (.thrown (.payments (paymentError "IDEMPOTENCY_CONFLICT")))
  | stopped {call x e}
      (hcall : ∀ c, call = .confirming c ∨ (∃ h, call = .replaying c h) → e = .other)
      (hlock : ∀ c intent lockedAt stage, call ≠ .inTx c intent lockedAt stage) :
      IntentMove s call x s (.thrown e)

variable {runtime limits} {s s' : IntentShared} {call call' : IntentCall} {x : IntentInput}

theorem afterFailedSettle_cases (c : Confirmation) (row : TransferRow) (outcome : LedgerOutcome) :
    afterFailedSettle c row outcome = .confirmed c row ∨
      afterFailedSettle c row outcome = .thrown .other := by
  cases outcome with
  | result result => exact .inl rfl
  | callError | unavailable => exact .inr rfl

/-- A failed settlement write ends the call. -/
theorem intentMove_unwritten (c : Confirmation) (row : TransferRow) (outcome : LedgerOutcome) :
    IntentMove runtime limits s (.answered c row outcome) x s (afterFailedSettle c row outcome) := by
  rcases afterFailedSettle_cases c row outcome with heq | heq
  · rw [heq]
    exact .unwritten
  · rw [heq]
    exact .stopped (by simp) (by simp)

variable {e : IntentEnv}

/-- A statement of the transaction under its lock. -/
theorem intentMove_of_inTx {c : Confirmation} {intent : TransferIntentRow} {lockedAt : ℕ}
    {stage : Stage}
    (h : intentRun runtime limits s (.inTx c intent lockedAt stage) e = some (s', call')) :
    IntentMove runtime limits s (.inTx c intent lockedAt stage) (.run e) s' call' := by
  simp only [intentRun] at h
  cases stage with
  | checking =>
    simp only [confirmTx] at h
    cases hfind : findTransfer runtime s c with
    | none =>
      rw [hfind] at h
      cases h
      exact .unseen
    | some existing =>
      rw [hfind] at h
      by_cases hhash : existing.requestHash = confirmHash runtime c.senderCustomerId intent
      · simp only [hhash, ne_eq, not_true_eq_false, if_false] at h
        cases h
        exact .repeated hfind hhash
      · simp only [ne_eq, hhash, not_false_eq_true, if_true] at h
        cases h
        exact .aborted
  | expiring =>
    simp only [confirmTx] at h
    split_ifs at h with hexpired
    · cases h
      exact .aborted
    · cases h
      push Not at hexpired
      exact .valid (by simpa [Option.isSome_iff_ne_none, Option.isNone_iff_eq_none] using hexpired.2.2)
  | reserving =>
    simp only [confirmTx] at h
    split_ifs at h with hlimit
    · cases h
      exact .aborted
    · cases h
      exact .reserved (not_lt.mp hlimit)
  | creating windowAt =>
    simp only [confirmTx] at h
    cases hcreate : createTransfer s.transfers (newTransfer runtime c intent e) e.now with
    | none =>
      rw [hcreate] at h
      cases h
      exact .aborted
    | some transfers =>
      cases hfind : s.intents.find intent.id with
      | none =>
        rw [hcreate, hfind] at h
        cases h
        exact .aborted
      | some current =>
        rw [hcreate, hfind] at h
        cases h
        exact .created hcreate hfind

theorem intentMove_of_run (h : intentRun runtime limits s call e = some (s', call')) :
    IntentMove runtime limits s call (.run e) s' call' := by
  cases call with
  | inTx c intent lockedAt stage => exact intentMove_of_inTx h
  | drafting request =>
    simp only [intentRun] at h
    split at h
    · cases h
      exact .stopped (by simp) (by simp)
    · cases h
      exact .drafted ‹_›
  | inserting request preview =>
    simp only [intentRun] at h
    split at h
    · cases h
      exact .stopped (by simp) (by simp)
    · cases h
      exact .intended ‹_›
  | authorizing senderCustomerId token =>
    simp only [intentRun] at h
    split at h
    · cases h
      exact .stopped (by simp) (by simp)
    next intent hfind =>
      split_ifs at h with hconsumed hexpired
      · cases h
        exact .consumed
      · cases h
        exact .stopped (by simp) (by simp)
      · cases h
        exact .allowed hfind
  | rechecking senderCustomerId intentId =>
    simp only [intentRun] at h
    split_ifs at h with hany
    · cases h
      exact .rechecked
    · cases h
      exact .stopped (by simp) (by simp)
  | granting intentId =>
    simp only [intentRun] at h
    split at h
    · cases h
      exact .stopped (by simp) (by simp)
    · cases h
      exact .granted ‹_›
  | confirming c =>
    simp only [intentRun] at h
    split at h
    next hnone =>
      cases h
      refine .refused fun intent hintent => ?_
      cases hnone.symm.trans hintent
    next intent hfind =>
      split_ifs at h with hauthorized
      · cases h
        refine .refused fun other hother => ?_
        cases hfind.symm.trans hother
        exact Option.isNone_iff_eq_none.mp hauthorized
      · cases h
        exact .preflighted hfind (Option.isSome_iff_ne_none.mpr
          fun hnone => hauthorized (Option.isNone_iff_eq_none.mpr hnone))
  | replaying c requestHash =>
    simp only [intentRun] at h
    split at h
    · cases h
      exact .unused ‹_›
    next existing hfind =>
      split_ifs at h with hhash
      · cases h
        exact .conflicted hfind hhash
      · cases h
        exact .replayed hfind (not_not.mp hhash)
  | enforcing c =>
    simp only [intentRun] at h
    split at h
    · cases h
      exact .stopped (by simp) (by simp)
    · cases h
      exact .enforced
  | beginning c =>
    simp only [intentRun] at h
    split at h
    · cases h
      exact .stopped (by simp) (by simp)
    · cases h
      exact .begun ‹_›
  | dating c intent =>
    cases h
    exact .dated
  | waiting c intent lockedAt =>
    simp only [intentRun] at h
    split_ifs at h with hheld
    cases h
    exact .locked hheld
  | settling c row =>
    cases h
    exact .sent
  | answered c row outcome =>
    simp only [intentRun] at h
    split at h
    · cases h
      exact intentMove_unwritten c row outcome
    · cases h
      exact .settled ‹_›
  | intended | authorized | awaiting | confirmed | thrown => cases h

theorem intentMove_of_next (h : intentNext runtime limits s call x = some (s', call')) :
    IntentMove runtime limits (s.after x) call x s' call' := by
  simp only [intentNext, intentStep] at h
  split at h
  · exact intentMove_of_run h
  next c row outcome =>
    cases h
    cases outcome.writes with
    | true => exact .answered
    | false => exact .unanswered
  · cases h
    exact .aborted
  · cases h
    exact .aborted
  · cases h
    exact intentMove_unwritten _ _ _
  iterate 6
    · cases h
  · cases h
    exact .stopped (by simp) (by simp_all)
  · cases h
    exact .stopped (by simp) (by simp_all)
  · cases h

/-! ## What a step does to the tables -/

/-- What an intent keeps. -/
def TransferIntentRow.terms (intent : TransferIntentRow) : TransferIntentRow :=
  { intent with authorizedAt := none, consumedAt := none }

/-- What a transfer keeps: the data it was created with, and the time. -/
def TransferRow.data (row : TransferRow) : NewTransfer × ℕ :=
  ({ id := row.id
     displayReference := row.displayReference
     senderCustomerId := row.senderCustomerId
     recipientCustomerId := row.recipientCustomerId
     senderAccountId := row.senderAccountId
     recipientAccountId := row.recipientAccountId
     recipientPublicReference := row.recipientPublicReference
     currency := row.currency
     amountMinor := row.amountMinor
     idempotencyKeyHash := row.idempotencyKeyHash
     requestHash := row.requestHash
     intentId := row.intentId
     correlationId := row.correlationId }, row.createdAt)

@[simp] theorem data_create (new : NewTransfer) (now : ℕ) :
    (TransferRow.create new now).data = (new, now) := rfl

variable (runtime limits) in
/-- A step leaves the tables alone, inserts an intent, authorizes one, creates the transfer of
    one or writes the outcome of a transfer. -/
inductive TablesMove (s s' : IntentShared) : IntentCall → IntentCall → Prop
  | kept {call call' : IntentCall} (hintents : s'.intents = s.intents)
      (htransfers : s'.transfers = s.transfers) : TablesMove s s' call call'
  | intended {request preview e}
      (hinsert : insertIntent s.intents (newIntent runtime limits request preview e) =
        some s'.intents)
      (htransfers : s'.transfers = s.transfers) :
      TablesMove s s' (.inserting request preview) (.intended e.token)
  | granted {intentId intent now} (hfind : s.intents.find intentId = some intent)
      (hintents : s'.intents = s.intents.put { intent with authorizedAt := some now })
      (htransfers : s'.transfers = s.transfers) : TablesMove s s' (.granting intentId) .authorized
  | created {c intent current lockedAt windowAt e}
      (hcreate : createTransfer s.transfers (newTransfer runtime c intent e) e.now =
        some s'.transfers)
      (hfind : s.intents.find intent.id = some current)
      (hintents : s'.intents = s.intents.put { current with consumedAt := some e.now }) :
      TablesMove s s' (.inTx c intent lockedAt (.creating windowAt))
        (.settling c (TransferRow.create (newTransfer runtime c intent e) e.now))
  | settled {c row outcome now}
      (hwrite : settleWrite s.transfers row.id outcome now = some s'.transfers)
      (hintents : s'.intents = s.intents) :
      TablesMove s s' (.answered c row outcome) (.confirmed c ((s'.transfers.find row.id).getD row))

theorem IntentMove.tables (h : IntentMove runtime limits s call x s' call') :
    TablesMove runtime limits s s' call call' := by
  cases h with
  | intended hinsert => exact .intended hinsert rfl
  | granted hfind => exact .granted hfind rfl rfl
  | created hcreate hfind => exact .created hcreate hfind rfl
  | settled hwrite => exact .settled hwrite rfl
  | drafted | consumed | allowed | rechecked | preflighted | replayed | unused | enforced | begun
  | dated | locked | unseen | valid | reserved | repeated | sent | answered | unanswered
  | unwritten | aborted | refused | conflicted | stopped => exact .kept rfl rfl

section Tables

variable {id : String} {intent intent' : TransferIntentRow} {row row' : TransferRow}

theorem find_insertIntent {intents intents' : Table TransferIntentRow}
    (h : insertIntent intents intent = some intents') :
    (∀ other ∈ intents.rows, other.tokenHash ≠ intent.tokenHash) ∧
      intents.find intent.id = none ∧
      ∀ id, intents'.find id = if intent.id = id then some intent else intents.find id := by
  unfold insertIntent at h
  split_ifs at h with hconflict
  refine ⟨fun other hother hsame => ?_, (Table.insert_some h).1, fun id => Table.find_insert h⟩
  exact hconflict (List.any_eq_true.mpr ⟨other, hother, decide_eq_true hsame⟩)

/-- An intent stays in the table, with its terms and its marks. -/
theorem TablesMove.keeps_intent (h : TablesMove runtime limits s s' call call')
    (hfind : s.intents.find id = some intent) :
    ∃ intent', s'.intents.find id = some intent' ∧ intent'.terms = intent.terms ∧
      (intent.authorizedAt.isSome → intent'.authorizedAt.isSome) ∧
      (intent.consumedAt.isSome → intent'.consumedAt.isSome) := by
  cases h with
  | kept hintents htransfers | settled hwrite hintents =>
    exact ⟨intent, hintents ▸ hfind, rfl, fun h => h, fun h => h⟩
  | intended hinsert htransfers =>
    obtain ⟨-, hnone, hfinds⟩ := find_insertIntent hinsert
    refine ⟨intent, ?_, rfl, fun h => h, fun h => h⟩
    rw [hfinds, if_neg, hfind]
    rintro rfl
    cases hnone.symm.trans hfind
  | @granted intentId granted now hgranted hintents htransfers =>
    rw [hintents]
    by_cases hid : intentId = id
    · subst hid
      cases hgranted.symm.trans hfind
      exact ⟨_, Table.find_put_of_find (x := intent) rfl hgranted, rfl, fun _ => rfl, fun h => h⟩
    · refine ⟨intent, ?_, rfl, fun h => h, fun h => h⟩
      have hkey : granted.id = intentId := Table.key_of_find hgranted
      rw [Table.find_put_ne (fun h => hid (hkey.symm.trans h)), hfind]
  | @created c read current lockedAt windowAt e hcreate hcurrent hintents =>
    rw [hintents]
    by_cases hid : read.id = id
    · subst hid
      cases hcurrent.symm.trans hfind
      exact ⟨_, Table.find_put_of_find (x := intent) rfl hcurrent, rfl, fun h => h, fun _ => rfl⟩
    · refine ⟨intent, ?_, rfl, fun h => h, fun h => h⟩
      have hkey : current.id = read.id := Table.key_of_find hcurrent
      rw [Table.find_put_ne (fun h => hid (hkey.symm.trans h)), hfind]

variable {transfers transfers' : Table TransferRow} {now : ℕ}

theorem createTransfer_fresh {new : NewTransfer} (h : createTransfer transfers new now = some transfers')
    (hfind : transfers.find id = some row) :
    row.intentId ≠ new.intentId ∧ ¬(row.senderCustomerId = new.senderCustomerId ∧
      row.idempotencyKeyHash = new.idempotencyKeyHash) := by
  unfold createTransfer at h
  split_ifs at h with hconflict
  have hfree : new.conflicts row = false := Bool.eq_false_iff.mpr fun hrow =>
    hconflict (List.any_eq_true.mpr ⟨row, (Table.find_some hfind).1, hrow⟩)
  unfold NewTransfer.conflicts at hfree
  rw [Bool.or_eq_false_iff, Bool.or_eq_false_iff] at hfree
  refine ⟨of_decide_eq_false hfree.1.2, fun hkey => ?_⟩
  rw [decide_eq_true hkey.1, decide_eq_true hkey.2] at hfree
  cases hfree.2

/-- An intent was in the table, with its terms, or is the one of the step. If it is consumed,
    it was, or its transfer is created. -/
theorem TablesMove.intent_of (h : TablesMove runtime limits s s' call call')
    (hfind : s'.intents.find id = some intent') :
    (∃ intent, s.intents.find id = some intent ∧ intent'.terms = intent.terms ∧
      (intent'.consumedAt.isSome → intent.consumedAt.isSome ∨
        ∃ k row, s'.transfers.find k = some row ∧ row.intentId = id)) ∨
    ∃ request preview e, call = .inserting request preview ∧
      intent' = newIntent runtime limits request preview e ∧
      (∀ other ∈ s.intents.rows, other.tokenHash ≠ intent'.tokenHash) ∧
      ∀ k, id ≠ k → s'.intents.find k = s.intents.find k := by
  cases h with
  | kept hintents htransfers | settled hwrite hintents =>
    exact .inl ⟨intent', hintents ▸ hfind, rfl, .inl⟩
  | @intended request preview e hinsert htransfers =>
    obtain ⟨hfresh, -, hfinds⟩ := find_insertIntent hinsert
    rw [hfinds] at hfind
    split_ifs at hfind with hid
    · cases hfind
      subst hid
      exact .inr ⟨request, preview, e, rfl, rfl, hfresh, fun k hk => (hfinds k).trans (if_neg hk)⟩
    · exact .inl ⟨intent', hfind, rfl, .inl⟩
  | @granted intentId granted now hgranted hintents htransfers =>
    rw [hintents] at hfind
    have hkey : key { granted with authorizedAt := some now } = key granted := rfl
    rcases Table.find_put_cases hkey hgranted hfind with ⟨-, hold⟩ | ⟨rfl, rfl⟩
    · exact .inl ⟨intent', hold, rfl, .inl⟩
    · exact .inl ⟨granted, hgranted, rfl, .inl⟩
  | @created c read current lockedAt windowAt e hcreate hcurrent hintents =>
    rw [hintents] at hfind
    have hkey : key { current with consumedAt := some e.now } = key current := rfl
    rcases Table.find_put_cases hkey hcurrent hfind with ⟨-, hold⟩ | ⟨rfl, rfl⟩
    · exact .inl ⟨intent', hold, rfl, .inl⟩
    · refine .inl ⟨current, hcurrent, rfl, fun _ => .inr ⟨e.uuid,
        TransferRow.create (newTransfer runtime c read e) e.now, ?_, rfl⟩⟩
      exact ((createTransfer_some hcreate).2 _).trans (if_pos rfl)

/-- A settlement keeps the data of the transfers. -/
theorem data_settleWrite {k : String} {outcome : LedgerOutcome}
    (h : settleWrite transfers k outcome now = some transfers') :
    (transfers'.find id).map TransferRow.data = (transfers.find id).map TransferRow.data := by
  obtain ⟨old, new, hold, hfinds, hnew⟩ := settleWrite_some h
  rw [hfinds]
  split_ifs with hid
  · subst hid
    rw [hold]
    rcases hnew with ⟨result, -, rfl⟩ | ⟨status, code, -, -, rfl⟩
    · rfl
    · rfl
  · rfl

/-- A transfer stays in the table, with its data. -/
theorem TablesMove.keeps_transfer (h : TablesMove runtime limits s s' call call')
    (hfind : s.transfers.find id = some row) :
    ∃ row', s'.transfers.find id = some row' ∧ row'.data = row.data := by
  cases h with
  | kept hintents htransfers | intended hinsert htransfers | granted hgranted hintents htransfers =>
    exact ⟨row, htransfers ▸ hfind, rfl⟩
  | created hcreate hcurrent hintents =>
    obtain ⟨hnone, hfinds⟩ := createTransfer_some hcreate
    refine ⟨row, ?_, rfl⟩
    rw [hfinds, if_neg, hfind]
    rintro rfl
    cases hnone.symm.trans hfind
  | settled hwrite hintents =>
    have hdata := @data_settleWrite id _ _ _ _ _ hwrite
    rw [hfind] at hdata
    exact Option.map_eq_some_iff.mp hdata

/-- A transfer was in the table, with its data, or is the one of the step. -/
theorem TablesMove.transfer_of (h : TablesMove runtime limits s s' call call')
    (hfind : s'.transfers.find id = some row') :
    (∃ row, s.transfers.find id = some row ∧ row'.data = row.data) ∨
    ∃ c intent current lockedAt windowAt e,
      call = .inTx c intent lockedAt (.creating windowAt) ∧
      createTransfer s.transfers (newTransfer runtime c intent e) e.now = some s'.transfers ∧
      s.intents.find intent.id = some current ∧
      s'.intents = s.intents.put { current with consumedAt := some e.now } ∧
      row' = TransferRow.create (newTransfer runtime c intent e) e.now ∧ e.uuid = id := by
  cases h with
  | kept hintents htransfers | intended hinsert htransfers | granted hgranted hintents htransfers =>
    exact .inl ⟨row', htransfers ▸ hfind, rfl⟩
  | settled hwrite hintents =>
    left
    have hdata := @data_settleWrite id _ _ _ _ _ hwrite
    rw [hfind] at hdata
    obtain ⟨row, hrow, hsame⟩ := Option.map_eq_some_iff.mp hdata.symm
    exact ⟨row, hrow, hsame.symm⟩
  | @created c read current lockedAt windowAt e hcreate hcurrent hintents =>
    obtain ⟨hnone, hfinds⟩ := createTransfer_some hcreate
    rw [hfinds] at hfind
    split_ifs at hfind with hid
    · cases hfind
      exact .inr ⟨c, read, current, lockedAt, windowAt, e, rfl, hcreate, hcurrent, hintents, rfl, hid⟩
    · exact .inl ⟨row', hfind, rfl⟩

end Tables

end Moves

end AegisShield.Payments
