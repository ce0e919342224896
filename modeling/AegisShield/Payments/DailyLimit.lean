import AegisShield.Payments.IntentSteps

/-!
# The daily limit of a sender

A confirm compares its amount and what the sender has reserved that day with the limit,
under an advisory lock for the sender and the day. The day of the lock, the day of the
aggregate and the creation time of the row are separate readings of the clock.

Results:
* `daily_limit`: when each transfer is created on the day of its lock, what a sender's
  transfers of one day come to stays within the limit.
* `midnight`: when one of them is locked before midnight and created after it, it does not.
-/

namespace AegisShield.Payments

open Common

/-! ## What is outgoing -/

/-- The transfer is one of the sender's of the day, and has not FAILED. -/
def TransferRow.counts (senderCustomerId : String) (day : ℕ) (row : TransferRow) : Bool :=
  decide (row.senderCustomerId = senderCustomerId) && decide (row.status ≠ .FAILED) &&
    decide (startOfDay row.createdAt = day)

/-- The sum of the amounts of these transfers. -/
def outgoing (transfers : Table TransferRow) (senderCustomerId : String) (day : ℕ) : ℤ :=
  ((transfers.rows.filter (TransferRow.counts senderCustomerId day)).map
    TransferRow.amountMinor).sum

/-- The part of one transfer in the sum. -/
def TransferRow.part (senderCustomerId : String) (day : ℕ) (row : TransferRow) : ℤ :=
  if row.counts senderCustomerId day then row.amountMinor else 0

/-- No reading of the clock is before an earlier one. -/
def inOrder (s : IntentState) : IntentAction → Bool
  | .next _ (.run e) => decide (s.shared.clock ≤ e.now)
  | _ => true

/-- A transfer is created on the day of its lock. -/
def lockedOnDay (s : IntentState) : IntentAction → Bool
  | .next n (.run e) =>
    match s.calls[n]? with
    | some (.inTx _ _ lockedAt (.creating _)) => decide (startOfDay lockedAt = startOfDay e.now)
    | _ => true
  | _ => true

section Sums

variable {senderCustomerId : String} {day : ℕ} {row : TransferRow}
  {transfers transfers' : Table TransferRow}

theorem counts_iff : row.counts senderCustomerId day = true ↔
    row.senderCustomerId = senderCustomerId ∧ row.status ≠ .FAILED ∧
      startOfDay row.createdAt = day := by
  unfold TransferRow.counts
  rw [Bool.and_eq_true, Bool.and_eq_true, decide_eq_true_iff, decide_eq_true_iff,
    decide_eq_true_iff, and_assoc]

theorem outgoing_eq : outgoing transfers senderCustomerId day =
    (transfers.rows.map (TransferRow.part senderCustomerId day)).sum := by
  unfold outgoing
  induction transfers.rows with
  | nil => rfl
  | cons row rows ih =>
    rw [List.filter_cons, List.map_cons, List.sum_cons, ← ih]
    unfold TransferRow.part
    split_ifs with hcounts
    · rw [List.map_cons, List.sum_cons]
    · rw [zero_add]

theorem startOfDay_le (now : ℕ) : startOfDay now ≤ now := by
  unfold startOfDay
  exact Nat.div_mul_le_self now 86400000

theorem startOfDay_mono {now later : ℕ} (h : now ≤ later) : startOfDay now ≤ startOfDay later := by
  unfold startOfDay
  exact Nat.mul_le_mul_right 86400000 (Nat.div_le_div_right h)

/-- A transfer that counts for a day is in the aggregate of that day. -/
theorem reserved_of_counts (h : row.counts senderCustomerId day = true) :
    (decide (row.senderCustomerId = senderCustomerId) &&
      (decide (row.status = .PROCESSING) || decide (row.status = .COMPLETED) ||
        decide (row.status = .REQUIRES_REVIEW)) && decide (day ≤ row.createdAt)) = true := by
  obtain ⟨hsender, hstatus, hday⟩ := counts_iff.mp h
  have hsince : day ≤ row.createdAt := hday ▸ startOfDay_le row.createdAt
  clear h hday
  cases hrowStatus : row.status with
  | FAILED => exact absurd hrowStatus hstatus
  | PROCESSING | COMPLETED | REQUIRES_REVIEW => simp [hsender, hsince]

/-- What the aggregate of a day counts is no less than what is outgoing on it. -/
theorem outgoing_le_reservedSum (hamount : ∀ row ∈ transfers.rows, 0 ≤ row.amountMinor) :
    outgoing transfers senderCustomerId day ≤ reservedSum transfers senderCustomerId day := by
  have hsub := (transfers.rows.monotone_filter_right fun row hcounts =>
    @reserved_of_counts senderCustomerId day row hcounts).map TransferRow.amountMinor
  refine hsub.sum_le_sum fun amount hamount' => ?_
  obtain ⟨row, hrow, rfl⟩ := List.mem_map.mp hamount'
  exact hamount row (List.mem_filter.mp hrow).1

theorem part_nonneg_of_amount (h : 0 ≤ row.amountMinor) : 0 ≤ row.part senderCustomerId day := by
  unfold TransferRow.part
  split_ifs
  · exact h
  · exact le_rfl

variable {new : NewTransfer}

theorem part_created {now : ℕ} :
    (TransferRow.create new now).part senderCustomerId day =
      if new.senderCustomerId = senderCustomerId ∧ startOfDay now = day then new.amountMinor
      else 0 := by
  refine if_congr (counts_iff.trans ?_) rfl rfl
  constructor
  · rintro ⟨hsender, -, hday⟩
    exact ⟨hsender, hday⟩
  · rintro ⟨hsender, hday⟩
    exact ⟨hsender, by simp [TransferRow.create], hday⟩

/-- The creation of a transfer adds its amount to the day. -/
theorem outgoing_create {now : ℕ} (h : createTransfer transfers new now = some transfers') :
    outgoing transfers' senderCustomerId day = outgoing transfers senderCustomerId day +
      if new.senderCustomerId = senderCustomerId ∧ startOfDay now = day then new.amountMinor
      else 0 := by
  unfold createTransfer at h
  split_ifs at h with hconflict
  rw [outgoing_eq, outgoing_eq, Table.sum_insert _ h, part_created]

/-- The outcome of a PROCESSING transfer adds nothing. -/
theorem outgoing_settle {id : String} {outcome : LedgerOutcome} {now : ℕ} {current : TransferRow}
    (h : settleWrite transfers id outcome now = some transfers')
    (hfind : transfers.find id = some current) (hstatus : current.status = .PROCESSING)
    (hamount : 0 ≤ current.amountMinor) :
    outgoing transfers' senderCustomerId day ≤ outgoing transfers senderCustomerId day := by
  have hkey : current.id = id := Table.key_of_find hfind
  have hput : ∀ updated : TransferRow, updated.id = current.id →
      updated.part senderCustomerId day ≤ current.part senderCustomerId day →
        outgoing (transfers.put updated) senderCustomerId day ≤
          outgoing transfers senderCustomerId day := by
    intro updated hid hpart
    have hsum := Table.sum_put (TransferRow.part senderCustomerId day) (t := transfers)
      (r := updated) (x := current) (by show transfers.find updated.id = _; rw [hid, hkey, hfind])
    rw [outgoing_eq, outgoing_eq]
    omega
  unfold settleWrite at h
  rw [hfind] at h
  cases outcome with
  | result result =>
    simp only at h
    split_ifs at h
    cases h
    refine hput _ rfl (le_of_eq (if_congr (counts_iff.trans (Iff.trans ?_ counts_iff.symm)) rfl rfl))
    constructor
    · rintro ⟨hsender, -, hday⟩
      exact ⟨hsender, by simp [hstatus], hday⟩
    · rintro ⟨hsender, -, hday⟩
      exact ⟨hsender, by simp [TransferRow.complete], hday⟩
  | callError status code =>
    simp only at h
    split_ifs at h
    cases h
    refine hput _ rfl ?_
    have hzero : (current.fail code now).part senderCustomerId day = 0 :=
      if_neg fun hcounts => (counts_iff.mp hcounts).2.1 rfl
    rw [hzero]
    exact part_nonneg_of_amount hamount
  | unavailable => cases h

end Sums

/-! ## Who holds a lock -/

section Calls

variable (runtime : Runtime) (limits : PaymentsLimits)

/-- The call is in a transaction under the lock. -/
def IntentCall.holds (lock : String) : IntentCall → Bool
  | .inTx c _ lockedAt _ => decide (dayLock runtime c.senderCustomerId lockedAt = lock)
  | _ => false

/-- The call settles the transfer. -/
def IntentCall.settles (id : String) : IntentCall → Bool
  | .settling _ row | .awaiting _ row | .answered _ row _ => decide (row.id = id)
  | _ => false

variable {runtime limits} {s s' : IntentShared} {call call' : IntentCall} {x : IntentInput}

variable {intent : TransferIntentRow}

theorem holds_inTx {c : Confirmation} {lockedAt : ℕ} {stage : Stage}
    {lock : String} : (IntentCall.inTx c intent lockedAt stage).holds runtime lock = true ↔
      dayLock runtime c.senderCustomerId lockedAt = lock := decide_eq_true_iff

/-- A step takes the lock of the transaction it starts, and releases that of the one it ends. -/
theorem IntentMove.locks (h : IntentMove runtime limits s call x s' call')
    (hheld : ∀ lock, call.holds runtime lock = true → lock ∈ s.locks) :
    (∀ lock, s'.locks.count lock + (call.holds runtime lock).toNat =
      s.locks.count lock + (call'.holds runtime lock).toNat) ∧
    (s.locks.Nodup → s'.locks.Nodup) := by
  have hunlock : ∀ c intent lockedAt stage, call = .inTx c intent lockedAt stage →
      ∀ lock, (unlock runtime s c lockedAt).locks.count lock + (call.holds runtime lock).toNat =
        s.locks.count lock := by
    rintro c intent lockedAt stage rfl lock
    have hmem := hheld _ (holds_inTx.mpr rfl)
    show (s.locks.erase _).count lock + (decide _).toNat = _
    rw [List.count_erase]
    by_cases hlock : dayLock runtime c.senderCustomerId lockedAt = lock
    · subst hlock
      have hpos := List.count_pos_iff.mpr hmem
      simp only [beq_self_eq_true, if_true, decide_true, Bool.toNat_true]
      omega
    · simp [hlock]
  have herase : ∀ c lockedAt, s.locks.Nodup → (unlock runtime s c lockedAt).locks.Nodup :=
    fun c lockedAt hnodup => hnodup.erase _
  cases h with
  | @locked c intent lockedAt e hfree =>
    refine ⟨fun lock => ?_, fun hnodup => List.nodup_cons.mpr ⟨hfree, hnodup⟩⟩
    show (_ :: s.locks).count lock + 0 = s.locks.count lock + (decide _).toNat
    rw [List.count_cons]
    by_cases hlock : dayLock runtime c.senderCustomerId lockedAt = lock
    · simp [hlock]
    · simp [hlock]
  | repeated | created | aborted => exact ⟨hunlock _ _ _ _ rfl, herase _ _⟩
  | stopped hcall hlock =>
    refine ⟨fun lock => ?_, fun hnodup => hnodup⟩
    cases call with
    | inTx c intent lockedAt stage => exact absurd rfl (hlock c intent lockedAt stage)
    | _ => rfl
  | _ => exact ⟨fun lock => rfl, fun hnodup => hnodup⟩

/-- A step starts to settle the transfer it creates, and no other. -/
theorem IntentMove.settles (h : IntentMove runtime limits s call x s' call') (id : String) :
    (call'.settles id = true → call.settles id = true) ∨ s.transfers.find id = none := by
  cases h with
  | @created c intent current lockedAt windowAt e transfers hcreate hfind =>
    by_cases hid : e.uuid = id
    · subst hid
      exact .inr (createTransfer_some hcreate).1
    · exact .inl fun hsettles => absurd (of_decide_eq_true hsettles) hid
  | sent | answered => exact .inl fun hsettles => hsettles
  | _ => exact .inl fun hsettles => by cases hsettles

/-! ## The invariant -/

variable (limits) in
/-- What a call knows. -/
def DayCall (s : IntentShared) : IntentCall → Prop
  | .inserting request _ => 0 ≤ request.amountMinor
  | .dating _ intent => 0 ≤ intent.amountMinor
  | .waiting _ intent lockedAt => 0 ≤ intent.amountMinor ∧ lockedAt ≤ s.clock
  | .inTx c intent lockedAt stage => 0 ≤ intent.amountMinor ∧ lockedAt ≤ s.clock ∧
      ∀ windowAt, stage = .creating windowAt → lockedAt ≤ windowAt ∧ windowAt ≤ s.clock ∧
        (startOfDay lockedAt = startOfDay windowAt →
          outgoing s.transfers c.senderCustomerId (startOfDay windowAt) + intent.amountMinor ≤
            limits.dailyOutgoingLimitMinor)
  | .settling _ row | .awaiting _ row | .answered _ row _ =>
      ∃ current, s.transfers.find row.id = some current ∧ current.status = .PROCESSING
  | _ => True

variable (runtime limits) in
/-- The invariant of the daily limit. -/
structure DayInv (p : IntentState) : Prop where
  /-- A lock is held by one transaction. -/
  held : ∀ lock, p.calls.countP (IntentCall.holds runtime lock) = p.shared.locks.count lock
  nodup : p.shared.locks.Nodup
  /-- A transfer is settled by one call. -/
  settled : ∀ id, p.calls.countP (IntentCall.settles id) ≤ 1
  intents : ∀ id intent, p.shared.intents.find id = some intent → 0 ≤ intent.amountMinor
  transfers : ∀ id row, p.shared.transfers.find id = some row → 0 ≤ row.amountMinor
  bounded : ∀ senderCustomerId day,
    outgoing p.shared.transfers senderCustomerId day ≤ limits.dailyOutgoingLimitMinor
  calls : ∀ call ∈ p.calls, DayCall limits p.shared call

/-! ## One step -/

theorem mem_of_findIntent {senderCustomerId token : String}
    (h : findIntent runtime s senderCustomerId token = some intent) :
    s.intents.find intent.id = some intent :=
  Table.find_of_mem (List.mem_of_find?_eq_some h)

theorem IntentMove.clock (h : IntentMove runtime limits s call x s' call') :
    s'.clock = s.clock := by
  cases h <;> rfl

/-- A step changes the transfer its call settles, and no other. -/
theorem IntentMove.find_transfer (h : IntentMove runtime limits s call x s' call') {id : String}
    {row : TransferRow} (hid : call.settles id = false) (hfind : s.transfers.find id = some row) :
    s'.transfers.find id = some row := by
  cases h with
  | @created c intent current lockedAt windowAt e transfers hcreate hcurrent =>
    obtain ⟨hnone, hfinds⟩ := createTransfer_some hcreate
    show transfers.find id = _
    rw [hfinds, if_neg, hfind]
    rintro rfl
    cases hnone.symm.trans hfind
  | @settled c settled outcome e transfers hwrite =>
    obtain ⟨old, new, -, hfinds, -⟩ := settleWrite_some hwrite
    show transfers.find id = _
    rw [hfinds, if_neg (of_decide_eq_false hid), hfind]
  | _ => exact hfind

theorem processing_of_settles {id : String} (h : DayCall limits s call)
    (hsettles : call.settles id = true) :
    ∃ current, s.transfers.find id = some current ∧ current.status = .PROCESSING := by
  cases call with
  | settling | awaiting | answered => exact of_decide_eq_true hsettles ▸ h
  | _ => cases hsettles

section Step

variable {calls : List IntentCall} {n m : ℕ} {other : IntentCall}
  (hinv : DayInv runtime limits ⟨s, calls⟩) (hcall : calls[n]? = some call)
  (hmove : IntentMove runtime limits s call x s' call')
  (hnow : ∀ e, x = .run e → e.now = s.clock)
  (hday : ∀ c intent lockedAt windowAt e, call = .inTx c intent lockedAt (.creating windowAt) →
    x = .run e → startOfDay lockedAt = startOfDay e.now)
  (hm : m ≠ n) (hother : calls[m]? = some other)

include hinv hcall hm hother in
/-- No two transactions hold one lock. -/
theorem dayLock_ne {c c' : Confirmation} {intent intent' : TransferIntentRow}
    {lockedAt lockedAt' : ℕ} {stage stage' : Stage} (h : call = .inTx c intent lockedAt stage)
    (h' : other = .inTx c' intent' lockedAt' stage') :
    dayLock runtime c.senderCustomerId lockedAt ≠ dayLock runtime c'.senderCustomerId lockedAt' := by
  subst h h'
  intro hsame
  have htwo := Pool.two_le_countP hm hcall hother (holds_inTx.mpr rfl) (holds_inTx.mpr hsame.symm)
  have hone := List.nodup_iff_count_le_one.mp hinv.nodup
    (dayLock runtime c.senderCustomerId lockedAt)
  rw [hinv.held] at htwo
  omega

include hinv hcall hm hother in
/-- No two calls settle one transfer. -/
theorem settles_other {id : String} (h : other.settles id = true) : call.settles id = false := by
  refine Bool.eq_false_iff.mpr fun hcallSettles => ?_
  have htwo := Pool.two_le_countP hm hcall hother hcallSettles h
  exact absurd (hinv.settled id) (not_le.mpr htwo)

include hinv hcall hmove in
/-- What is outgoing grows by the transfer of the step only. -/
theorem outgoing_move :
    (∀ senderCustomerId day, outgoing s'.transfers senderCustomerId day ≤
      outgoing s.transfers senderCustomerId day) ∨
    ∃ c intent lockedAt windowAt e, call = .inTx c intent lockedAt (.creating windowAt) ∧
      x = .run e ∧ ∀ senderCustomerId day, outgoing s'.transfers senderCustomerId day =
        outgoing s.transfers senderCustomerId day +
          if c.senderCustomerId = senderCustomerId ∧ startOfDay e.now = day then intent.amountMinor
          else 0 := by
  have hknown := hinv.calls _ (Pool.mem_of_getElem? hcall)
  cases hmove with
  | created hcreate hfind =>
    exact .inr ⟨_, _, _, _, _, rfl, rfl, fun senderCustomerId day => outgoing_create hcreate⟩
  | settled hwrite =>
    obtain ⟨current, hcurrent, hstatus⟩ := hknown
    exact .inl fun senderCustomerId day =>
      outgoing_settle hwrite hcurrent hstatus (hinv.transfers _ _ hcurrent)
  | _ => exact .inl fun senderCustomerId day => le_rfl

include hinv hcall hmove hday hm hother in
/-- A step leaves what another call knows true. -/
theorem dayCall_other : DayCall limits s' other := by
  have hclock := hmove.clock
  have hknown := hinv.calls _ (Pool.mem_of_getElem? hother)
  have hrow : ∀ row : TransferRow, other.settles row.id = true →
      (∃ current, s.transfers.find row.id = some current ∧ current.status = .PROCESSING) →
      ∃ current, s'.transfers.find row.id = some current ∧ current.status = .PROCESSING := by
    rintro row hsettles ⟨current, hcurrent, hstatus⟩
    exact ⟨current, hmove.find_transfer (settles_other hinv hcall hm hother hsettles) hcurrent,
      hstatus⟩
  cases other with
  | inserting | dating => exact hknown
  | waiting c intent lockedAt => exact ⟨hknown.1, hclock ▸ hknown.2⟩
  | inTx c intent lockedAt stage =>
    obtain ⟨hamount, hlocked, hwindow⟩ := hknown
    refine ⟨hamount, hclock ▸ hlocked, fun windowAt hstage => ?_⟩
    obtain ⟨hafter, hbefore, hfits⟩ := hwindow windowAt hstage
    refine ⟨hafter, hclock ▸ hbefore, fun hsame => ?_⟩
    have hle := hfits hsame
    rcases outgoing_move hinv hcall hmove with hkept |
      ⟨creator, created, createdLock, createdWindow, e, rfl, rfl, hgrows⟩
    · exact le_trans (add_le_add_left (hkept _ _) _) hle
    · -- the creation of a transfer of the same sender and day has the same lock
      rw [hgrows, if_neg, add_zero]
      · exact hle
      · rintro ⟨hsender, hcreatedOn⟩
        have hlockDay := hday _ _ _ _ _ rfl rfl
        refine dayLock_ne hinv hcall hm hother rfl rfl ?_
        unfold dayLock
        rw [hsender, isoDate_of_startOfDay (hlockDay.trans (hcreatedOn.trans hsame.symm))]
  | settling c row | awaiting c row | answered c row outcome =>
    exact hrow row (decide_eq_true rfl) hknown
  | _ => trivial

include hinv hcall hmove hnow in
/-- What a call knows after its step. -/
theorem dayCall_own : DayCall limits s' call' := by
  have hknown := hinv.calls _ (Pool.mem_of_getElem? hcall)
  cases hmove with
  | drafted hdraft => exact (limits.min_pos.trans_le (intentDraft_ok hdraft).2.1).le
  | begun hfind => exact hinv.intents _ _ (mem_of_findIntent hfind)
  | dated => exact ⟨hknown, (hnow _ rfl).le⟩
  | locked hfree => exact ⟨hknown.1, hknown.2, fun windowAt hstage => by cases hstage⟩
  | unseen | valid => exact ⟨hknown.1, hknown.2.1, fun windowAt hstage => by cases hstage⟩
  | reserved hlimit =>
    refine ⟨hknown.1, hknown.2.1, ?_⟩
    rintro windowAt ⟨⟩
    refine ⟨(hnow _ rfl).symm ▸ hknown.2.1, (hnow _ rfl).le, fun _ => ?_⟩
    refine le_trans (add_le_add_left (outgoing_le_reservedSum fun row hrow => ?_) _) hlimit
    exact hinv.transfers _ _ (Table.find_of_mem hrow)
  | @created c intent current lockedAt windowAt e transfers hcreate hfind =>
    refine ⟨TransferRow.create (newTransfer runtime c intent e) e.now, ?_, rfl⟩
    exact ((createTransfer_some hcreate).2 _).trans (if_pos rfl)
  | sent | answered => exact hknown
  | _ => trivial

include hinv hcall hmove hnow hday in
/-- A step keeps the invariant. -/
theorem dayInv_move : DayInv runtime limits ⟨s', calls.set n call'⟩ := by
  have hknown := hinv.calls _ (Pool.mem_of_getElem? hcall)
  have hheld : ∀ lock, call.holds runtime lock = true → lock ∈ s.locks := by
    intro lock hholds
    rw [← List.count_pos_iff, ← hinv.held]
    exact List.countP_pos_iff.mpr ⟨call, Pool.mem_of_getElem? hcall, hholds⟩
  obtain ⟨hcount, hnodup⟩ := hmove.locks hheld
  refine ⟨fun lock => ?_, hnodup hinv.nodup, fun id => ?_, fun id intent hfind => ?_,
    fun id row hfind => ?_, fun senderCustomerId day => ?_, ?_⟩
  · have hcalls := Pool.countP_next (f := IntentCall.holds runtime lock) call' hcall
    have hlocks := hcount lock
    have hold := hinv.held lock
    simp only at hold ⊢
    omega
  · have hcalls := Pool.countP_next (f := IntentCall.settles id) call' hcall
    have hone : calls.countP (IntentCall.settles id) ≤ 1 := hinv.settled id
    show (calls.set n call').countP (IntentCall.settles id) ≤ 1
    rcases hmove.settles id with hkept | hnone
    · have hle := Bool.toNat_le_toNat hkept
      omega
    · have hzero : calls.countP (IntentCall.settles id) = 0 := by
        refine List.countP_eq_zero.mpr fun q hq hsettles => ?_
        obtain ⟨current, hcurrent, -⟩ := processing_of_settles (hinv.calls q hq) hsettles
        cases hnone.symm.trans hcurrent
      have hle := Bool.toNat_le (call'.settles id)
      omega
  · rcases hmove.tables.intent_of hfind with ⟨old, hold, hterms, -⟩ |
      ⟨request, preview, e, rfl, rfl, -, -⟩
    · have hamount : intent.amountMinor = old.amountMinor := calc
        intent.amountMinor = intent.terms.amountMinor := rfl
        _ = old.terms.amountMinor := by rw [hterms]
        _ = old.amountMinor := rfl
      exact hamount ▸ hinv.intents _ _ hold
    · exact hknown
  · rcases hmove.tables.transfer_of hfind with ⟨old, hold, hdata⟩ |
      ⟨c, intent, current, lockedAt, windowAt, e, rfl, -, -, -, rfl, -⟩
    · have hamount : row.amountMinor = old.amountMinor :=
        congrArg (fun data => data.1.amountMinor) hdata
      exact hamount ▸ hinv.transfers _ _ hold
    · exact hknown.1
  · have hold := hinv.bounded senderCustomerId day
    rcases outgoing_move hinv hcall hmove with hkept |
      ⟨c, intent, lockedAt, windowAt, e, rfl, rfl, hgrows⟩
    · exact le_trans (hkept senderCustomerId day) hold
    · show outgoing s'.transfers senderCustomerId day ≤ _
      rw [hgrows]
      split_ifs with hcounts
      · obtain ⟨rfl, rfl⟩ := hcounts
        obtain ⟨-, -, hwindow⟩ := hknown
        obtain ⟨hafter, hbefore, hfits⟩ := hwindow windowAt rfl
        -- the clock reading of the aggregate is between two of one day
        have hlockDay := hday _ _ _ _ _ rfl rfl
        have hstart := startOfDay_mono hafter
        have hend := startOfDay_mono (hbefore.trans (hnow e rfl).ge)
        have hsame : startOfDay windowAt = startOfDay e.now :=
          le_antisymm hend (hlockDay.symm.trans_le hstart)
        rw [← hsame]
        exact hfits (hlockDay.trans hsame.symm)
      · rw [add_zero]
        exact hold
  · exact Pool.forall_set (fun m other hm hother =>
      dayCall_other hinv hcall hmove hday hm hother) (dayCall_own hinv hcall hmove hnow)

end Step

/-! ## Runs -/

/-- A later reading of the clock keeps the invariant. -/
theorem dayInv_after {calls : List IntentCall} (h : DayInv runtime limits ⟨s, calls⟩)
    (horder : ∀ e, x = .run e → s.clock ≤ e.now) :
    DayInv runtime limits ⟨s.after x, calls⟩ := by
  cases x with
  | run e =>
    refine ⟨h.held, h.nodup, h.settled, h.intents, h.transfers, h.bounded, fun call hcall => ?_⟩
    have hknown := h.calls call hcall
    have hclock := horder e rfl
    cases call with
    | waiting c intent lockedAt => exact ⟨hknown.1, hknown.2.trans hclock⟩
    | inTx c intent lockedAt stage =>
      obtain ⟨hamount, hlocked, hwindow⟩ := hknown
      refine ⟨hamount, hlocked.trans hclock, fun windowAt hstage => ?_⟩
      obtain ⟨hafter, hbefore, hfits⟩ := hwindow windowAt hstage
      exact ⟨hafter, hbefore.trans hclock, hfits⟩
    | _ => exact hknown
  | reply | fail | crash => exact h

/-- The start of a call keeps the invariant. -/
theorem dayInv_start {calls : List IntentCall} (h : DayInv runtime limits ⟨s, calls⟩)
    (start : IntentStart) :
    DayInv runtime limits ⟨s, calls ++ [(intentService runtime limits).start s start]⟩ := by
  have hfree : (∀ lock, ((intentService runtime limits).start s start).holds runtime lock = false) ∧
      (∀ id, ((intentService runtime limits).start s start).settles id = false) ∧
      DayCall limits s ((intentService runtime limits).start s start) := by
    cases start with
    | createIntent | authorize | confirm => exact ⟨fun _ => rfl, fun _ => rfl, trivial⟩
  obtain ⟨hholds, hsettles, hknown⟩ := hfree
  refine ⟨fun lock => ?_, h.nodup, fun id => ?_, h.intents, h.transfers, h.bounded,
    fun call hcall => ?_⟩
  · show (calls ++ [_]).countP _ = _
    rw [List.countP_append, List.countP_singleton, if_neg (by rw [hholds]; exact Bool.false_ne_true)]
    exact h.held lock
  · show (calls ++ [_]).countP _ ≤ 1
    rw [List.countP_append, List.countP_singleton,
      if_neg (by rw [hsettles]; exact Bool.false_ne_true)]
    exact h.settled id
  · rcases List.mem_append.mp hcall with hcall | hcall
    · exact h.calls call hcall
    · exact List.mem_singleton.mp hcall ▸ hknown

theorem dayInv_reachable {p : IntentState} (h : (intentService runtime limits).machine.Reachable
    (fun p a => (inOrder p a && lockedOnDay p a) = true) p) : DayInv runtime limits p := by
  refine Machine.invariant (I := DayInv runtime limits) ?_ ?_ h
  · rintro ⟨s, calls⟩ ⟨rfl, rfl⟩
    refine ⟨fun _ => rfl, List.nodup_nil, fun _ => Nat.zero_le _, ?_, ?_, fun _ _ => ?_, ?_⟩
    · rintro id intent ⟨⟩
    · rintro id row ⟨⟩
    · have hpos := limits.min_pos
      have hmax := limits.min_le_max
      have hdaily := limits.max_le_daily
      show (0 : ℤ) ≤ _
      omega
    · rintro call ⟨⟩
  · rintro ⟨s, calls⟩ a t hinv hC hstep
    obtain ⟨horder, honDay⟩ := Bool.and_eq_true_iff.mp hC
    cases a with
    | start start =>
      rw [Pool.step_start hstep]
      exact dayInv_start hinv start
    | env x => exact x.elim
    | next n x =>
      obtain ⟨call, s', call', hcall, hnext, rfl⟩ := Pool.step_next hstep
      refine dayInv_move (dayInv_after hinv ?_) hcall (intentMove_of_next hnext) ?_ ?_
      · rintro e rfl
        exact of_decide_eq_true horder
      · rintro e rfl
        rfl
      · rintro c intent lockedAt windowAt e rfl rfl
        have hcall : calls[n]? = _ := hcall
        simp only [lockedOnDay, hcall] at honDay
        exact of_decide_eq_true honDay

end Calls

/-! ## Main results -/

/-- In every run in which each transfer is created on the day of its lock, what is outgoing of a
    sender on a day stays within the limit. -/
theorem daily_limit (runtime : Runtime) (limits : PaymentsLimits) (p : IntentState)
    (hp : (intentService runtime limits).machine.Reachable
      (fun p a => (inOrder p a && lockedOnDay p a) = true) p)
    (senderCustomerId : String) (day : ℕ) :
    outgoing p.shared.transfers senderCustomerId day ≤ limits.dailyOutgoingLimitMinor :=
  (dayInv_reachable hp).bounded senderCustomerId day

/-- Its first transfer of a day is within the limit. -/
theorem daily_limit_one : ∃ p : IntentState, outgoing p.shared.transfers "s" 0 = 500 ∧
    outgoing p.shared.transfers "s" 0 ≤ defaultLimits.dailyOutgoingLimitMinor := by
  have hrun : ((intentService plainRuntime defaultLimits).machine.runUnder
      (fun p a => inOrder p a && lockedOnDay p a) noIntents
      (intentOf 0 0 "s" "i-1" "t-1" 500 ++ confirmOf 2 0 "s" "t-1" "k-1" ++
        statements 2 5 (plainInput 0 "p-1" "" 1))).any (fun p =>
          decide (outgoing p.shared.transfers "s" 0 = 500)) = true := by decide
  obtain ⟨p, hp, houtgoing⟩ := Machine.reachable_of_runUnder _ _ _ (fun _ _ h => h)
    (noIntents_init plainRuntime defaultLimits) hrun
  exact ⟨p, of_decide_eq_true houtgoing, daily_limit plainRuntime defaultLimits p hp "s" 0⟩

/-- Not in every run: the first of three transfers of half the limit is locked before
    midnight, counts the day after midnight and is created there after the other two. -/
theorem midnight : ¬ ∀ (runtime : Runtime) (limits : PaymentsLimits) (p : IntentState),
    (intentService runtime limits).machine.Reachable (fun p a => inOrder p a = true) p →
      ∀ senderCustomerId day,
        outgoing p.shared.transfers senderCustomerId day ≤ limits.dailyOutgoingLimitMinor := by
  intro h
  have hrun : ((intentService plainRuntime defaultLimits).machine.runUnder inOrder noIntents
      (intentOf 0 86399999 "s" "i-1" "t-1" 5000000 ++ intentOf 2 86399999 "s" "i-2" "t-2" 5000000 ++
        intentOf 4 86399999 "s" "i-3" "t-3" 5000000 ++ confirmOf 6 86399999 "s" "t-1" "k-1" ++
        statements 6 4 (plainInput 86400000 "" "" 0) ++ confirmOf 7 86400000 "s" "t-2" "k-2" ++
        statements 7 5 (plainInput 86400000 "p-2" "" 2) ++
        confirmOf 8 86400000 "s" "t-3" "k-3" ++
        statements 8 5 (plainInput 86400000 "p-3" "" 3) ++
        statements 6 1 (plainInput 86400000 "p-1" "" 1))).any (fun p =>
          decide (outgoing p.shared.transfers "s" 86400000 = 15000000)) = true := by decide
  obtain ⟨p, hp, houtgoing⟩ := Machine.reachable_of_runUnder _ _ _ (fun _ _ h => h)
    (noIntents_init plainRuntime defaultLimits) hrun
  have hle := h plainRuntime defaultLimits p hp "s" 86400000
  rw [of_decide_eq_true houtgoing] at hle
  exact absurd hle (by decide)

end AegisShield.Payments
