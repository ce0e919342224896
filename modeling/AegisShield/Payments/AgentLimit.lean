import AegisShield.Payments.Agent
import AegisShield.Payments.Claims

/-!
# The daily limit of an agent

What an agent's operations of one UTC day come to. A preview adds its amount to the total
of the COMPLETED operations created that day, and compares the sum with the limit; the
confirm that makes the amount count compares nothing.

Results:
* `agent_daily_limit`: in every run in which the total of a preview leaves out nothing, and
  its row is claimed for the first time, on that day and before any other of the agent,
  the operations confirmed on one day stay within the limit.
* `three_previews_exceed`: three previews against one total exceed it.
-/

namespace AegisShield.Payments

open Common

/-! ## What is spent -/

/-- The operation of the agent was confirmed on the day, and is PROCESSING or COMPLETED. -/
def AgentCashOperationRow.spends (agentId : String) (day : ℕ) (op : AgentCashOperationRow) : Bool :=
  decide (op.agentId = agentId) &&
    (decide (op.status = .PROCESSING) || decide (op.status = .COMPLETED)) &&
    op.confirmedAt.any fun confirmedAt => startOfDay confirmedAt = day

/-- The sum of the amounts of these operations. -/
def spent (operations : Table AgentCashOperationRow) (agentId : String) (day : ℕ) : ℤ :=
  ((operations.rows.filter (AgentCashOperationRow.spends agentId day)).map
    AgentCashOperationRow.amountMinor).sum

theorem AgentCashOperationRow.spends_iff {agentId : String} {day : ℕ} {op : AgentCashOperationRow} :
    op.spends agentId day = true ↔ op.agentId = agentId ∧
      (op.status = .PROCESSING ∨ op.status = .COMPLETED) ∧
      ∃ confirmedAt, op.confirmedAt = some confirmedAt ∧ startOfDay confirmedAt = day := by
  unfold AgentCashOperationRow.spends
  simp only [Bool.and_eq_true, Bool.or_eq_true, decide_eq_true_eq, Option.any_eq_true, and_assoc]

/-- The part of one operation in the sum. -/
def AgentCashOperationRow.part (agentId : String) (day : ℕ) (op : AgentCashOperationRow) : ℤ :=
  if op.spends agentId day then op.amountMinor else 0

/-! ## The condition -/

/-- The total that a preview reads counts all that the agent has spent that day. -/
def totalsComplete (s : AgentState) : AgentAction → Bool
  | .next n (.run e) =>
    match s.calls[n]? with
    | some (.previewing input) => s.shared.rows.rows.all fun op =>
        !op.spends input.agentId (startOfDay e.now) ||
          (decide (op.status = .COMPLETED) && decide (startOfDay e.now ≤ op.createdAt))
    | _ => true
  | _ => true

/-- No claim since the reading is of an operation of the agent. -/
def quietSince (s : ChannelShared AgentCashOperationRow (List AgentCashEvent)) (agentId : String)
    (origin : Origin) : Bool :=
  (s.claims.drop origin.claimsSeen).all fun claim =>
    (s.rows.find claim.1).all fun op => op.agentId ≠ agentId

/-- A claim is the first of its row, made on the day of the reading of its preview, and the
    first of the agent's since. -/
def claimsAtOnce : AgentState → AgentAction → Bool :=
  claimsMeet fun s _ current e => decide (claimsOf s current.id = []) &&
    s.origins.all fun origin => decide (origin.1 ≠ current.id) ||
      (decide (startOfDay origin.2.readAt = startOfDay e.now) &&
        quietSince s current.agentId origin.2)

/-- The total of a preview is still right when its row is claimed. -/
def totalsHold (s : AgentState) (a : AgentAction) : Bool := totalsComplete s a && claimsAtOnce s a

/-! ## Sums -/

section Sums

variable {runtime : Runtime} {limits : PaymentsLimits} {agentId : String} {day : ℕ}
  {op current updated : AgentCashOperationRow} {operations operations' : Table AgentCashOperationRow}

theorem spent_eq : spent operations agentId day =
    (operations.rows.map (AgentCashOperationRow.part agentId day)).sum := by
  unfold spent
  induction operations.rows with
  | nil => rfl
  | cons op rows ih =>
    rw [List.filter_cons, List.map_cons, List.sum_cons, ← ih]
    unfold AgentCashOperationRow.part
    split_ifs with hspends
    · rw [List.map_cons, List.sum_cons]
    · rw [zero_add]

theorem part_of_not_spends (h : ¬ op.spends agentId day = true) : op.part agentId day = 0 :=
  if_neg h

theorem part_of_pending (h : op.status = .PENDING_CONFIRMATION) : op.part agentId day = 0 := by
  refine part_of_not_spends fun hspends => ?_
  obtain ⟨-, hstatus, -⟩ := AgentCashOperationRow.spends_iff.mp hspends
  rw [h] at hstatus
  rcases hstatus with h | h <;> cases h

theorem part_nonneg (h : 0 ≤ op.amountMinor) : 0 ≤ op.part agentId day := by
  unfold AgentCashOperationRow.part
  split_ifs
  · exact h
  · exact le_rfl

theorem part_claim (k h : String) (now : ℕ) : (op.claim k h now).part agentId day =
    if op.agentId = agentId ∧ startOfDay now = day then op.amountMinor else 0 := by
  refine if_congr (AgentCashOperationRow.spends_iff.trans ?_) rfl rfl
  constructor
  · rintro ⟨hagent, -, confirmedAt, hconfirmed, hday⟩
    cases hconfirmed
    exact ⟨hagent, hday⟩
  · rintro ⟨hagent, hday⟩
    exact ⟨hagent, .inl rfl, now, rfl, hday⟩

/-- The outcome of a PROCESSING operation adds nothing. -/
theorem part_settles {outcome : LedgerOutcome}
    (h : Settles (agentChannel runtime limits) current outcome updated)
    (hamount : 0 ≤ current.amountMinor) (hstatus : current.status = .PROCESSING) :
    updated.part agentId day ≤ current.part agentId day := by
  cases h with
  | completed result now =>
    refine le_of_eq (if_congr (AgentCashOperationRow.spends_iff.trans
      (Iff.trans ?_ AgentCashOperationRow.spends_iff.symm)) rfl rfl)
    constructor
    · rintro ⟨hagent, -, hconfirmed⟩
      exact ⟨hagent, .inl hstatus, hconfirmed⟩
    · rintro ⟨hagent, -, hconfirmed⟩
      exact ⟨hagent, .inr rfl, hconfirmed⟩
  | failed status code now =>
    have hzero : (current.fail now).part agentId day = 0 := by
      refine part_of_not_spends fun hspends => ?_
      obtain ⟨-, hstatus, -⟩ := AgentCashOperationRow.spends_iff.mp hspends
      rcases hstatus with h | h <;> cases h
    show (current.fail now).part agentId day ≤ _
    rw [hzero]
    exact part_nonneg hamount

theorem spent_put (h : operations.find updated.id = some current) :
    spent (operations.put updated) agentId day + current.part agentId day =
      spent operations agentId day + updated.part agentId day := by
  rw [spent_eq, spent_eq]
  exact Table.sum_put _ h

theorem spent_insert (h : operations.insert op = some operations') :
    spent operations' agentId day = spent operations agentId day + op.part agentId day := by
  rw [spent_eq, spent_eq]
  exact Table.sum_insert _ h

/-- The total of a preview that leaves out nothing. -/
theorem spent_le_dailyTotal (hamount : ∀ op ∈ operations.rows, 0 ≤ op.amountMinor)
    (hcomplete : ∀ op ∈ operations.rows, op.spends agentId day = true →
      op.status = .COMPLETED ∧ day ≤ op.createdAt) :
    spent operations agentId day ≤ dailyTotal operations agentId day := by
  rw [spent_eq]
  unfold dailyTotal
  revert hamount hcomplete
  induction operations.rows with
  | nil => exact fun _ _ => le_rfl
  | cons op rows ih =>
    intro hamount hcomplete
    have hrest := ih (fun op hop => hamount op (List.mem_cons_of_mem _ hop))
      (fun op hop => hcomplete op (List.mem_cons_of_mem _ hop))
    have hop := hamount op List.mem_cons_self
    rw [List.map_cons, List.sum_cons, List.filter_cons]
    by_cases hspends : op.spends agentId day = true
    · obtain ⟨hstatus, hcreated⟩ := hcomplete op List.mem_cons_self hspends
      have hagent := (AgentCashOperationRow.spends_iff.mp hspends).1
      rw [if_pos (by simp [hstatus, hcreated, hagent]), List.map_cons, List.sum_cons,
        AgentCashOperationRow.part, if_pos hspends]
      omega
    · rw [part_of_not_spends hspends]
      split_ifs
      · rw [List.map_cons, List.sum_cons]
        omega
      · omega

end Sums

/-! ## The invariant -/

section Invariant

variable {runtime : Runtime} {limits : PaymentsLimits}

abbrev AgentShared := ChannelShared AgentCashOperationRow (List AgentCashEvent)
abbrev AgentCall := ChannelCall AgentCashOperationRow AgentCashEvent AgentPreviewInput AgentDraft

/-- No operation of the agent has been claimed since the reading. -/
def Quiet (s : AgentShared) (agentId : String) (origin : Origin) : Prop :=
  ∀ claim ∈ s.claims.drop origin.claimsSeen, ∀ op, s.rows.find claim.1 = some op →
    op.agentId ≠ agentId

/-- The amount fits the limit, unless another operation was claimed since the reading. -/
structure Budget (limits : PaymentsLimits) (s : AgentShared) (agentId : String) (amountMinor : ℤ)
    (origin : Origin) : Prop where
  seen : origin.claimsSeen ≤ s.claims.length
  fits : Quiet s agentId origin →
    spent s.rows agentId (startOfDay origin.readAt) + amountMinor ≤ limits.dailyOutgoingLimitMinor

/-- What holds of an operation of the table. -/
structure OpInv (limits : PaymentsLimits) (s : AgentShared) (id : String)
    (op : AgentCashOperationRow) : Prop where
  amount : 0 ≤ op.amountMinor
  pending : claimsOf s id = [] → op.status = .PENDING_CONFIRMATION
  processing : claimsOf s id ≠ [] → op.status.settlement = none → op.status = .PROCESSING
  origin : ∃ origin, (id, origin) ∈ s.origins ∧ Budget limits s op.agentId op.amountMinor origin

/-- What holds of a draft that is to be inserted. -/
def DraftInv (limits : PaymentsLimits) (s : AgentShared) : AgentCall → Prop
  | .creating draft origin => 0 ≤ draft.input.amountMinor ∧
    Budget limits s draft.input.agentId draft.input.amountMinor origin
  | _ => True

/-- The invariant of the daily limit. -/
structure LimitInv (limits : PaymentsLimits) (s : AgentState) : Prop where
  bounded : ∀ agentId day, spent s.shared.rows agentId day ≤ limits.dailyOutgoingLimitMinor
  rows : ∀ id op, s.shared.rows.find id = some op → OpInv limits s.shared id op
  drafts : ∀ call ∈ s.calls, DraftInv limits s.shared call

variable {s s' : AgentShared} {agentId : String} {amountMinor : ℤ} {origin : Origin}

/-- A budget survives what spends nothing, and what claims an operation of the agent. -/
theorem Budget.mono (h : Budget limits s agentId amountMinor origin)
    {claims : List (String × ConfirmInput)} (hclaims : s'.claims = s.claims ++ claims)
    (hagents : ∀ id op, s.rows.find id = some op →
      ∃ op', s'.rows.find id = some op' ∧ op'.agentId = op.agentId)
    (hspent : (∀ claim ∈ claims, ∀ op, s'.rows.find claim.1 = some op → op.agentId ≠ agentId) →
      ∀ day, spent s'.rows agentId day ≤ spent s.rows agentId day) :
    Budget limits s' agentId amountMinor origin := by
  have hdrop : s'.claims.drop origin.claimsSeen = s.claims.drop origin.claimsSeen ++ claims := by
    rw [hclaims, List.drop_append_of_le_length h.seen]
  constructor
  · rw [hclaims, List.length_append]
    exact le_trans h.seen (Nat.le_add_right _ _)
  · intro hquiet
    have hold : Quiet s agentId origin := by
      intro claim hclaim op hop
      obtain ⟨op', hop', hsame⟩ := hagents _ _ hop
      rw [← hsame]
      exact hquiet claim (hdrop ▸ List.mem_append_left _ hclaim) op' hop'
    have hnew := hspent (fun claim hclaim op hop =>
      hquiet claim (hdrop ▸ List.mem_append_right _ hclaim) op hop) (startOfDay origin.readAt)
    have hfits := h.fits hold
    omega

theorem quiet_of_quietSince (h : quietSince s agentId origin = true) : Quiet s agentId origin := by
  intro claim hclaim op hop
  have hall := List.all_eq_true.mp h claim hclaim
  simpa [hop] using hall

/-! ## Steps -/

variable {p : AgentState} {n : ℕ} {x : ChannelInput} {call call' : AgentCall}

variable {input : ConfirmInput} {row : AgentCashOperationRow} {outcome : LedgerOutcome}

theorem active_of_answered (hcall : p.calls[n]? = some (.answered input row outcome)) :
    0 < p.calls.countP (ChannelCall.active (key row)) :=
  List.countP_pos_iff.mpr ⟨_, Pool.mem_of_getElem? hcall, decide_eq_true rfl⟩

theorem claimed_of_answered (honce : OnceInv (agentChannel runtime limits) p)
    (hcall : p.calls[n]? = some (.answered input row outcome)) :
    claimsOf p.shared (key row) ≠ [] := by
  intro hnil
  have hpos := active_of_answered hcall
  have hactive := honce.active (key row)
  rw [hnil, List.length_nil] at hactive
  omega

/-- The operation of a call that writes an outcome is PROCESSING. -/
theorem processing_of_answered (honce : OnceInv (agentChannel runtime limits) p)
    (hinv : LimitInv limits p) {current : AgentCashOperationRow}
    (hcall : p.calls[n]? = some (.answered input row outcome))
    (hfind : p.shared.rows.find (key row) = some current) : current.status = .PROCESSING := by
  have hpos := active_of_answered hcall
  refine (hinv.rows _ _ hfind).processing (claimed_of_answered honce hcall) ?_
  by_contra hsettled
  have hzero := honce.settled _ _ hfind hsettled
  omega

/-- What a step does to the sums: nothing is added except by a claim. -/
theorem spent_move (honce : OnceInv (agentChannel runtime limits) p) (hinv : LimitInv limits p)
    (hclaim : ClaimsFirst p.shared x call) (hcall : p.calls[n]? = some call)
    (hmove : Move runtime (agentChannel runtime limits) p.shared call x s' call') :
    (s'.claims = p.shared.claims ∧
      ∀ agentId day, spent s'.rows agentId day ≤ spent p.shared.rows agentId day) ∨
    ∃ input row current e, call = .claiming input row ∧ x = .run e ∧
      p.shared.rows.find (key row) = some current ∧
      s'.claims = p.shared.claims ++ [(key row, input)] ∧
      ∀ agentId day, spent s'.rows agentId day = spent p.shared.rows agentId day +
        if current.agentId = agentId ∧ startOfDay e.now = day then current.amountMinor else 0 := by
  cases hmove.rows with
  | kept hrows hclaims horigins =>
    refine .inl ⟨hclaims, fun agentId day => ?_⟩
    rw [hrows]
  | @created draft origin e new notes hcreate hinsert hclaims horigins =>
    refine .inl ⟨hclaims, fun agentId day => ?_⟩
    have hpending : new.status = .PENDING_CONFIRMATION := by
      cases hcreate
      rfl
    unfold insertRow at hinsert
    split_ifs at hinsert with hconflict
    rw [spent_insert hinsert, part_of_pending hpending, add_zero]
  | @claimed input row current updated e hfind hupdated htaken hrows hclaims horigins =>
    refine .inr ⟨input, row, current, e, rfl, rfl, hfind, hclaims, fun agentId day => ?_⟩
    have hpending := (hinv.rows _ _ hfind).pending (hclaim _ _ _ _ rfl rfl hfind)
    have hid : updated.id = key row := by
      rw [hupdated]
      exact Table.key_of_find hfind
    have hput : spent _ agentId day + _ = spent _ agentId day + _ := spent_put (hid ▸ hfind)
    rw [part_of_pending hpending, add_zero] at hput
    rw [hrows, hput, hupdated]
    exact congrArg _ (part_claim _ _ _)
  | @settled input row current updated outcome e notes hfind hsettles hrows hclaims horigins =>
    refine .inl ⟨hclaims, fun agentId day => ?_⟩
    have hid : updated.id = key row := hsettles.key.trans (Table.key_of_find hfind)
    have hput : spent _ agentId day + _ = spent _ agentId day + _ := spent_put (hid ▸ hfind)
    have hpart : updated.part agentId day ≤ current.part agentId day := part_settles hsettles
      (hinv.rows _ _ hfind).amount (processing_of_answered honce hinv hcall hfind)
    rw [hrows]
    omega

/-- A step keeps the budgets. -/
theorem budget_move (honce : OnceInv (agentChannel runtime limits) p) (hinv : LimitInv limits p)
    (hclaim : ClaimsFirst p.shared x call) (hcall : p.calls[n]? = some call)
    (hmove : Move runtime (agentChannel runtime limits) p.shared call x s' call')
    (h : Budget limits p.shared agentId amountMinor origin) :
    Budget limits s' agentId amountMinor origin := by
  have hagents : ∀ id op, p.shared.rows.find id = some op →
      ∃ op', s'.rows.find id = some op' ∧ op'.agentId = op.agentId := by
    intro id op hop
    obtain ⟨op', hop', hterms⟩ := hmove.terms hop
    exact ⟨op', hop', congrArg Terms.owner hterms⟩
  rcases spent_move honce hinv hclaim hcall hmove with ⟨hclaims, hle⟩ |
    ⟨input, row, current, e, -, -, hfind, hclaims, hspent⟩
  · refine h.mono (hclaims.trans (List.append_nil _).symm) hagents fun _ day => hle agentId day
  · refine h.mono hclaims hagents fun hquiet day => ?_
    obtain ⟨op', hop', hsame⟩ := hagents _ _ hfind
    have hother : current.agentId ≠ agentId :=
      hsame ▸ hquiet _ (List.mem_singleton.mpr rfl) op' hop'
    rw [hspent, if_neg fun h => hother h.1, add_zero]

/-- A step that claims in time keeps the sums within the limit. -/
theorem bounded_move (honce : OnceInv (agentChannel runtime limits) p) (hinv : LimitInv limits p)
    (hC : claimsAtOnce p (.next n x) = true) (hclaim : ClaimsFirst p.shared x call)
    (hcall : p.calls[n]? = some call)
    (hmove : Move runtime (agentChannel runtime limits) p.shared call x s' call')
    (agentId : String) (day : ℕ) : spent s'.rows agentId day ≤ limits.dailyOutgoingLimitMinor := by
  have hold := hinv.bounded agentId day
  rcases spent_move honce hinv hclaim hcall hmove with ⟨-, hle⟩ |
    ⟨input, row, current, e, rfl, rfl, hfind, -, hspent⟩
  · exact le_trans (hle agentId day) hold
  · rw [hspent]
    split_ifs with hcounts
    · obtain ⟨rfl, rfl⟩ := hcounts
      obtain ⟨origin, horigin, hbudget⟩ := (hinv.rows _ _ hfind).origin
      have hmeets := claimsMeet_claiming hC hcall hfind
      rw [Bool.and_eq_true, List.all_eq_true] at hmeets
      have hthis := hmeets.2 _ horigin
      have hid : current.id = key row := Table.key_of_find hfind
      simp only [hid, ne_eq, not_true_eq_false, decide_false, Bool.false_or, Bool.and_eq_true,
        decide_eq_true_eq] at hthis
      rw [← hthis.1]
      exact hbudget.fits (quiet_of_quietSince hthis.2)
    · rw [add_zero]
      exact hold

/-- An operation keeps what holds of it, when its update does. -/
theorem OpInv.mono {id : String} {op op' : AgentCashOperationRow} (h : OpInv limits s id op)
    (hagent : op'.agentId = op.agentId) (hamount : op'.amountMinor = op.amountMinor)
    (horigins : s.origins ⊆ s'.origins)
    (hbudget : ∀ agentId amountMinor origin, Budget limits s agentId amountMinor origin →
      Budget limits s' agentId amountMinor origin)
    (hpending : claimsOf s' id = [] → op'.status = .PENDING_CONFIRMATION)
    (hprocessing : claimsOf s' id ≠ [] → op'.status.settlement = none → op'.status = .PROCESSING) :
    OpInv limits s' id op' where
  amount := hamount ▸ h.amount
  pending := hpending
  processing := hprocessing
  origin := by
    obtain ⟨origin, horigin, hold⟩ := h.origin
    rw [hagent, hamount]
    exact ⟨origin, horigins horigin, hbudget _ _ _ hold⟩

theorem rows_move (honce : OnceInv (agentChannel runtime limits) p) (hinv : LimitInv limits p)
    (hclaim : ClaimsFirst p.shared x call) (hcall : p.calls[n]? = some call)
    (hmove : Move runtime (agentChannel runtime limits) p.shared call x s' call')
    (id : String) (op : AgentCashOperationRow) (hop : s'.rows.find id = some op) :
    OpInv limits s' id op := by
  have hbudget : ∀ agentId amountMinor origin, Budget limits p.shared agentId amountMinor origin →
      Budget limits s' agentId amountMinor origin :=
    fun _ _ _ h => budget_move honce hinv hclaim hcall hmove h
  have hkept : p.shared.rows.find id = some op → claimsOf s' id = claimsOf p.shared id →
      p.shared.origins ⊆ s'.origins → OpInv limits s' id op := by
    intro hold hof horigins
    have h := hinv.rows _ _ hold
    refine h.mono rfl rfl horigins hbudget ?_ ?_
    · rw [hof]
      exact h.pending
    · rw [hof]
      exact h.processing
  cases hmove.rows with
  | kept hrows hclaims horigins =>
    exact hkept (hrows ▸ hop) (claimsOf_of_eq hclaims id) (horigins ▸ List.Subset.refl _)
  | @created draft origin e new notes hcreate hinsert hclaims horigins =>
    have hof := claimsOf_of_eq hclaims id
    have hfree := hop
    rw [find_insertRow hinsert] at hfree
    split_ifs at hfree with hid
    · have hdraft := hinv.drafts _ (Pool.mem_of_getElem? hcall)
      have hnone : claimsOf s' id = [] := by
        rw [hof]
        refine honce.absent _ ?_
        unfold insertRow at hinsert
        split_ifs at hinsert with hconflict
        exact hid ▸ (Table.insert_some hinsert).1
      cases hfree
      cases hcreate
      refine ⟨hdraft.1, fun _ => rfl, fun h => absurd hnone h, origin, ?_, ?_⟩
      · rw [horigins, ← hid]
        exact List.mem_append_right _ (List.mem_singleton.mpr rfl)
      · exact hbudget _ _ _ hdraft.2
    · refine hkept hfree hof ?_
      rw [horigins]
      exact List.subset_append_left _ _
  | @claimed input row current updated e hfind hupdated htaken hrows hclaims horigins =>
    have hof : claimsOf s' id = _ := claimsOf_append hclaims
    have horigins : p.shared.origins ⊆ s'.origins := horigins ▸ List.Subset.refl _
    rw [hrows] at hop
    have hkey : key updated = key current := by
      rw [hupdated]
      rfl
    rcases Table.find_put_cases hkey hfind hop with ⟨hne, hold⟩ | ⟨rfl, rfl⟩
    · exact hkept hold (hof.trans (if_neg hne)) horigins
    · rw [if_pos rfl] at hof
      subst hupdated
      refine (hinv.rows _ _ hfind).mono rfl rfl horigins hbudget ?_ fun _ _ => rfl
      rw [hof]
      exact fun h => absurd h (List.append_ne_nil_of_right_ne_nil _ (List.cons_ne_nil _ _))
  | @settled input row current updated outcome e notes hfind hsettles hrows hclaims horigins =>
    have hof := claimsOf_of_eq hclaims id
    have horigins : p.shared.origins ⊆ s'.origins := horigins ▸ List.Subset.refl _
    rw [hrows] at hop
    rcases Table.find_put_cases hsettles.key hfind hop with ⟨hne, hold⟩ | ⟨rfl, rfl⟩
    · exact hkept hold hof horigins
    · have hclaimed := claimed_of_answered honce hcall
      cases hsettles with
      | completed | failed =>
        refine (hinv.rows _ _ hfind).mono rfl rfl horigins hbudget ?_ fun _ h => ?_
        · rw [hof]
          exact fun h => absurd h hclaimed
        · cases h

/-- What a call is about to insert after a step. -/
theorem draft_move (hinv : LimitInv limits p) (hC : totalsComplete p (.next n x) = true)
    (hcall : p.calls[n]? = some call)
    (hmove : Move runtime (agentChannel runtime limits) p.shared call x s' call') :
    DraftInv limits s' call' := by
  cases hmove with
  | @drafted input e draft hdraft =>
    obtain ⟨hmin, -, customerId, accountId, maskedReference, -, htotal, rfl⟩ :=
      (agentDraft_eq_ok limits).mp hdraft
    have hpositive : 0 ≤ input.amountMinor := le_trans limits.min_pos.le hmin
    simp only [totalsComplete, hcall, List.all_eq_true, Bool.or_eq_true, Bool.not_eq_true',
      Bool.and_eq_true, decide_eq_true_eq] at hC
    have hle : spent p.shared.rows input.agentId (startOfDay e.now) ≤
        dailyTotal p.shared.rows input.agentId (startOfDay e.now) := by
      apply spent_le_dailyTotal
      · exact fun op hop => (hinv.rows _ _ (Table.find_of_mem hop)).amount
      · intro op hop hspends
        rcases hC op hop with hnot | hholds
        · rw [hspends] at hnot
          cases hnot
        · exact hholds
    exact ⟨hpositive, le_rfl, fun _ => le_trans (Int.add_le_add_right hle _) htotal⟩
  | created | claimed | completed | failed | unknown | replayed | found | sent | answered
  | unanswered | unwritten | noted | unnoted | returned | stopped => trivial

theorem limitInv_next (honce : OnceInv (agentChannel runtime limits) p) (hinv : LimitInv limits p)
    (hC : totalsHold p (.next n x) = true) (hclaim : ClaimsFirst p.shared x call)
    (hcall : p.calls[n]? = some call)
    (hmove : Move runtime (agentChannel runtime limits) p.shared call x s' call') :
    LimitInv limits { shared := s', calls := p.calls.set n call' } := by
  have hholds := (Bool.and_eq_true _ _).mp hC
  constructor
  · exact bounded_move honce hinv hholds.2 hclaim hcall hmove
  · exact rows_move honce hinv hclaim hcall hmove
  · refine Pool.forall_set (fun m other _ hother => ?_) (draft_move hinv hholds.1 hcall hmove)
    have hdraft := hinv.drafts other (Pool.mem_of_getElem? hother)
    cases other with
    | creating draft origin =>
      exact ⟨hdraft.1, budget_move honce hinv hclaim hcall hmove hdraft.2⟩
    | _ => trivial

/-- What leaves the rows and the history alone keeps the invariant. -/
theorem limitInv_env (hinv : LimitInv limits p) (hrows : s'.rows = p.shared.rows)
    (hclaims : s'.claims = p.shared.claims) (horigins : s'.origins = p.shared.origins) :
    LimitInv limits { p with shared := s' } := by
  have hbudget : ∀ agentId amountMinor origin, Budget limits p.shared agentId amountMinor origin →
      Budget limits s' agentId amountMinor origin := by
    intro agentId amountMinor origin h
    refine h.mono (hclaims.trans (List.append_nil _).symm) (fun id op hop => ?_) fun _ day => ?_
    · exact ⟨op, hrows ▸ hop, rfl⟩
    · rw [hrows]
  constructor
  · intro agentId day
    show spent s'.rows agentId day ≤ _
    rw [hrows]
    exact hinv.bounded agentId day
  · intro id op hop
    have h := hinv.rows id op (hrows ▸ hop)
    have hof := claimsOf_of_eq hclaims id
    refine h.mono rfl rfl (horigins ▸ List.Subset.refl _) hbudget ?_ ?_
    · rw [hof]
      exact h.pending
    · rw [hof]
      exact h.processing
  · intro call hcall
    have hdraft := hinv.drafts call hcall
    cases call with
    | creating draft origin => exact ⟨hdraft.1, hbudget _ _ _ hdraft.2⟩
    | _ => trivial

theorem limitInv_start (hinv : LimitInv limits p) (hcall : DraftInv limits p.shared call) :
    LimitInv limits { p with calls := p.calls ++ [call] } where
  bounded := hinv.bounded
  rows := hinv.rows
  drafts other hother := by
    rcases List.mem_append.mp hother with hold | hnew
    · exact hinv.drafts other hold
    · rw [List.mem_singleton.mp hnew]
      exact hcall

end Invariant

/-! ## Runs -/

section Runs

variable {runtime : Runtime} {limits : PaymentsLimits} {s : AgentState}

theorem claimsFirst_of_totalsHold {n : ℕ} {x : ChannelInput} {call : AgentCall}
    (hC : totalsHold s (.next n x) = true) (hcall : s.calls[n]? = some call) :
    ClaimsFirst s.shared x call := by
  rintro confirm row current e rfl rfl hfind
  have hmeets := claimsMeet_claiming ((Bool.and_eq_true _ _).mp hC).2 hcall hfind
  have hid : current.id = key row := Table.key_of_find hfind
  rw [Bool.and_eq_true, decide_eq_true_eq, hid] at hmeets
  exact hmeets.1

theorem limitInv_reachable (h : (agentService runtime limits).machine.Reachable
    (fun s a => totalsHold s a = true) s) : LimitInv limits s := by
  refine Machine.invariant_of_reachable (I := LimitInv limits) ?_ ?_ h
  · rintro s ⟨⟨hrows, -, -, -, -⟩, hcalls⟩
    constructor
    · intro agentId day
      have hpositive := limits.min_pos
      have hmax := limits.min_le_max
      have hdaily := limits.max_le_daily
      rw [spent_eq, hrows, List.map_nil, List.sum_nil]
      omega
    · intro id op hop
      rw [Table.find, hrows] at hop
      cases hop
    · intro call hcall
      rw [hcalls] at hcall
      cases hcall
  · intro s a t hs hinv hC hstep
    cases a with
    | start call =>
      rw [Pool.step_start hstep]
      cases call with
      | preview | confirm => exact limitInv_start hinv trivial
    | env x =>
      obtain ⟨s', henv, rfl⟩ := Pool.step_env hstep
      obtain ⟨hrows, hclaims, horigins, -⟩ := env_spec henv
      exact limitInv_env hinv hrows hclaims horigins
    | next n x =>
      obtain ⟨call, s', call', hcall, hnext, rfl⟩ := Pool.step_next hstep
      have honce : OnceInv (agentChannel runtime limits) s :=
        onceInv_reachable (fun s n x call => claimsFirst_of_totalsHold) hs
      exact limitInv_next honce hinv hC (claimsFirst_of_totalsHold hC hcall) hcall
        (move_of_next hnext)

end Runs

/-! ## Main results -/

/-- In every run in which the total of a preview leaves out nothing, and is still right when its
    row is claimed, the operations confirmed on one day stay within the limit. -/
theorem agent_daily_limit (runtime : Runtime) (limits : PaymentsLimits) (s : AgentState)
    (hs : (agentService runtime limits).machine.Reachable (fun s a => totalsHold s a = true) s)
    (agentId : String) (day : ℕ) :
    spent s.shared.rows agentId day ≤ limits.dailyOutgoingLimitMinor :=
  (limitInv_reachable hs).bounded agentId day

/-- A preview of the amount, up to its insert. -/
def previewOf (amountMinor : ℤ) (n : ℕ) (id token : String) (byte : UInt8) : List AgentAction := [
  .start (.preview (cashIn amountMinor)),
  .next n (.run (plainEnv 0 id token byte)), .next n (.run (plainEnv 0 id token byte))]

/-- A confirm of the operation, up to its claim. -/
def claimOf (n : ℕ) (token idempotencyKey : String) : List AgentAction := [
  .start (.confirm ⟨"agent-1", token, idempotencyKey⟩),
  .next n (.run (plainEnv 0 "" "" 0)), .next n (.run (plainEnv 0 "" "" 0)),
  .next n (.run (plainEnv 0 "" "" 0))]

/-- Its first operation of a day is within the limit. -/
theorem agent_daily_limit_one : ∃ s : AgentState, spent s.shared.rows "agent-1" 0 = 500 ∧
    spent s.shared.rows "agent-1" 0 ≤ defaultLimits.dailyOutgoingLimitMinor := by
  have hrun : ((agentService plainRuntime defaultLimits).machine.runUnder totalsHold noOperations
      (previewOf 500 0 "op-1" "t-1" 1 ++ claimOf 1 "t-1" "k-1")).any (fun s =>
        decide (spent s.shared.rows "agent-1" 0 = 500)) = true := by decide
  obtain ⟨s, hs, hspent⟩ := Machine.reachable_of_runUnder _ _ _ (fun _ _ h => h)
    (noOperations_init plainRuntime defaultLimits) hrun
  exact ⟨s, of_decide_eq_true hspent, agent_daily_limit plainRuntime defaultLimits s hs "agent-1" 0⟩

/-- Not in every run: three previews of half the limit each read the total before any of
    them is confirmed, and all of them are. -/
theorem three_previews_exceed : ¬ ∀ (runtime : Runtime) (limits : PaymentsLimits) (s : AgentState),
    (agentService runtime limits).machine.Reachable Machine.always s →
      ∀ agentId day, spent s.shared.rows agentId day ≤ limits.dailyOutgoingLimitMinor := by
  intro h
  have hrun : ((agentService plainRuntime defaultLimits).machine.run noOperations
      (previewOf 5000000 0 "op-1" "t-1" 1 ++ previewOf 5000000 1 "op-2" "t-2" 2 ++
        previewOf 5000000 2 "op-3" "t-3" 3 ++ claimOf 3 "t-1" "k-1" ++ claimOf 4 "t-2" "k-2" ++
        claimOf 5 "t-3" "k-3")).any (fun s =>
          decide (spent s.shared.rows "agent-1" 0 = 15000000)) = true := by decide
  obtain ⟨s, hs, hspent⟩ := Machine.reachable_of_run _ _
    (noOperations_init plainRuntime defaultLimits) hrun
  have hle := h plainRuntime defaultLimits s hs "agent-1" 0
  rw [of_decide_eq_true hspent] at hle
  exact absurd hle (by decide)

end AegisShield.Payments
