import AegisShield.Payments.Steps

/-!
# Rows that are claimed once

What follows for a payment channel when no row is claimed a second time: one call is
between the claim and the outcome of a row, and a settled row is left alone.

Results:
* `onceInv_reachable`: the invariant, for every run without second claims.
* `settled_step`: a step leaves a settled row alone.
-/

namespace AegisShield.Payments

open Common

variable {Row S N I D X : Type} [Keyed Row String] {runtime : Runtime}
  {channel : Channel Row S N I D}

/-- The call has claimed the row and not written its outcome. -/
def ChannelCall.active (id : String) : ChannelCall Row N I D → Bool
  | .settling _ row | .awaiting _ row | .answered _ row _ => key row = id
  | _ => false

section Next

variable {s : ChannelState Row S N I D} {n : ℕ} {x : ChannelInput}
  {call call' : ChannelCall Row N I D} {s' : ChannelShared Row S} {id : String} {row : Row}

/-- The number of active calls of a row grows with its claims only. -/
theorem Move.active {s : ChannelShared Row S} (h : Move runtime channel s call x s' call')
    (id : String) : (call'.active id).toNat + (claimsOf s id).length ≤
      (call.active id).toNat + (claimsOf s' id).length := by
  cases h with
  | @claimed input claimed current e hfind htaken =>
    rw [claimsOf_claimRow]
    simp only [ChannelCall.active, channel.claim_key, Table.key_of_find hfind]
    split_ifs with hid
    · simp only [hid, decide_true, Bool.toNat_true, Bool.toNat_false, List.length_append,
        List.length_singleton]
      omega
    · simp [hid]
  | sent | answered | drafted | created | unknown | replayed | found | noted | unnoted | returned =>
    exact le_rfl
  | completed | failed | unanswered | unwritten | stopped =>
    exact Nat.add_le_add_right (Nat.zero_le _) _

/-- The step does not claim a row that has been claimed. -/
def ClaimsFirst (s : ChannelShared Row S) (x : ChannelInput) (call : ChannelCall Row N I D) : Prop :=
  ∀ confirm row current e, call = .claiming confirm row → x = .run e →
    s.rows.find (key row) = some current → claimsOf s (key row) = []

theorem mem_claimsOf_move (hmove : Move runtime channel s.shared call x s' call') (id : String)
    (i : ConfirmInput) (hi : i ∈ claimsOf s.shared id) : i ∈ claimsOf s' id := by
  rcases hmove.claims id with heq | ⟨confirm, claimed, current, e, -, -, -, -, happend⟩
  · rw [heq]
    exact hi
  · rw [happend]
    exact List.mem_append_left _ hi

/-- A row is not claimed a second time. -/
theorem claimsOf_move (hclaim : ClaimsFirst s.shared x call)
    (hmove : Move runtime channel s.shared call x s' call') (hclaimed : claimsOf s.shared id ≠ []) :
    claimsOf s' id = claimsOf s.shared id := by
  rcases hmove.claims id with heq | ⟨confirm, claimed, current, e, rfl, rfl, rfl, hfind, -⟩
  · exact heq
  · exact absurd (hclaim _ _ _ _ rfl rfl hfind) hclaimed

theorem active_next (hcall : s.calls[n]? = some call)
    (hmove : Move runtime channel s.shared call x s' call') (id : String) :
    (s.calls.set n call').countP (ChannelCall.active id) + (claimsOf s.shared id).length ≤
      s.calls.countP (ChannelCall.active id) + (claimsOf s' id).length := by
  have hcount := Pool.countP_next (f := ChannelCall.active id) call' hcall
  have hstep := hmove.active id
  omega

/-- The invariant of rows that are claimed once. -/
structure OnceInv (channel : Channel Row S N I D)
    (s : ChannelState Row S N I D) : Prop where
  absent : ∀ id, s.shared.rows.find id = none → claimsOf s.shared id = []
  first : ∀ id, (claimsOf s.shared id).length ≤ 1
  active : ∀ id, s.calls.countP (ChannelCall.active id) ≤ (claimsOf s.shared id).length
  unsettled : ∀ id row, s.shared.rows.find id = some row → claimsOf s.shared id = [] →
    channel.settlement row = none
  settled : ∀ id row, s.shared.rows.find id = some row → channel.settlement row ≠ none →
    s.calls.countP (ChannelCall.active id) = 0

/-- The step that writes an outcome ends the last active call of the row. -/
theorem active_settled (hinv : OnceInv channel s) {confirm : ConfirmInput}
    {settled updated : Row} {outcome outcome' : LedgerOutcome} {notes : List (ℕ → N)}
    (hcall : s.calls[n]? = some (.answered confirm settled outcome)) :
    (s.calls.set n (.noting confirm settled updated outcome' notes)).countP
      (ChannelCall.active (key settled)) = 0 := by
  have hcount := Pool.countP_next (f := ChannelCall.active (key settled))
    (.noting confirm settled updated outcome' notes) hcall
  have hactive := hinv.active (key settled)
  have hfirst := hinv.first (key settled)
  simp only [ChannelCall.active, decide_true, Bool.toNat_true, Bool.toNat_false] at hcount
  omega

/-- A step that claims a row for the first time only keeps the invariant. -/
theorem onceInv_next (hinv : OnceInv channel s) (hclaim : ClaimsFirst s.shared x call)
    (hcall : s.calls[n]? = some call) (hmove : Move runtime channel s.shared call x s' call') :
    OnceInv channel { shared := s', calls := s.calls.set n call' } := by
  constructor
  case absent =>
    intro id hnone
    show claimsOf s' id = []
    rcases hmove.claims id with heq | ⟨confirm, row, current, e, -, -, -, hfind, -⟩
    · rw [heq]
      refine hinv.absent id ?_
      cases hold : s.shared.rows.find id with
      | none => rfl
      | some row =>
        obtain ⟨row', hrow', -⟩ := hmove.terms hold
        cases hnone.symm.trans hrow'
    · obtain ⟨row', hrow', -⟩ := hmove.terms hfind
      cases hnone.symm.trans hrow'
  case first =>
    intro id
    show (claimsOf s' id).length ≤ 1
    rcases hmove.claims id with heq | ⟨confirm, row, current, e, rfl, rfl, rfl, hfind, happend⟩
    · rw [heq]
      exact hinv.first id
    · rw [happend, hclaim _ _ _ _ rfl rfl hfind]
      exact le_rfl
  case active =>
    intro id
    have hstep := active_next hcall hmove id
    have hold := hinv.active id
    show (s.calls.set n call').countP (ChannelCall.active id) ≤ (claimsOf s' id).length
    omega
  case unsettled =>
    intro id row hrow hnone
    rcases hmove.row_cases hrow with ⟨hold, hclaims⟩ |
      ⟨-, -, draft, origin, e, notes, -, -, hcreate, -⟩ |
      ⟨confirm, claimed, current, e, -, -, -, -, hclaims, -, -, -⟩ |
      ⟨confirm, settled, current, outcome, notes, rfl, rfl, -, hclaims, -, -⟩
    · exact hinv.unsettled id row hold (hclaims ▸ hnone)
    · exact channel.create_settlement _ _ _ _ hcreate
    · have hlength := congrArg List.length (hclaims.symm.trans hnone)
      simp at hlength
    · have hactive := hinv.active (key settled)
      rw [← hclaims, show claimsOf s' (key settled) = [] from hnone] at hactive
      have hzero := List.countP_eq_zero.mp (Nat.le_zero.mp hactive) _ (Pool.mem_of_getElem? hcall)
      simp [ChannelCall.active] at hzero
  case settled =>
    intro id row hrow hsettled
    show (s.calls.set n call').countP (ChannelCall.active id) = 0
    have hactive := active_next hcall hmove id
    rcases hmove.row_cases hrow with ⟨hold, hclaims⟩ |
      ⟨-, -, draft, origin, e, notes, -, -, hcreate, -⟩ |
      ⟨confirm, claimed, current, e, rfl, rfl, rfl, hfind, -, rfl, -, -⟩ |
      ⟨confirm, settled, current, outcome, notes, rfl, rfl, hfind, -, -, rfl⟩
    · have hzero := hinv.settled id row hold hsettled
      rw [hclaims] at hactive
      omega
    · exact absurd (channel.create_settlement _ _ _ _ hcreate) hsettled
    · have hnone := hinv.unsettled _ _ hfind (hclaim _ _ _ _ rfl rfl hfind)
      exact absurd (channel.claim_settlement _ _ _ _ hnone) hsettled
    · exact active_settled hinv hcall

end Next

/-! ## Runs -/

section Runs

variable {initial : S → Prop} {other : S → X → Option S}
  {s t : ChannelState Row S N I D}
  {a : Pool.Action (ChannelStart I) ChannelInput (Outside X)} {id : String} {row : Row}
  {C : ChannelState Row S N I D →
    Pool.Action (ChannelStart I) ChannelInput (Outside X) → Prop}

omit [Keyed Row String] in
/-- A call without a property does not count. -/
theorem countP_start {f : ChannelCall Row N I D → Bool}
    {call : ChannelCall Row N I D} (hf : f call = false) (calls : List (ChannelCall Row N I D)) :
    (calls ++ [call]).countP f = calls.countP f := by
  simp [List.countP_append, hf]

theorem onceInv_start (hinv : OnceInv channel s) {call : ChannelCall Row N I D}
    (hcall : ∀ id, call.active id = false) :
    OnceInv channel { s with calls := s.calls ++ [call] } where
  absent := hinv.absent
  first := hinv.first
  active id := by
    rw [countP_start (hcall id)]
    exact hinv.active id
  unsettled := hinv.unsettled
  settled id row hrow hsettled := by
    rw [countP_start (hcall id)]
    exact hinv.settled id row hrow hsettled

theorem onceInv_env (hinv : OnceInv channel s) {s' : ChannelShared Row S}
    (hrows : s'.rows = s.shared.rows) (hclaims : s'.claims = s.shared.claims) :
    OnceInv channel { s with shared := s' } := by
  have hof : ∀ id, claimsOf s' id = claimsOf s.shared id := by
    intro id
    unfold claimsOf
    rw [hclaims]
  constructor
  · intro id hnone
    rw [hof]
    exact hinv.absent id (hrows ▸ hnone)
  · intro id
    rw [hof]
    exact hinv.first id
  · intro id
    rw [hof]
    exact hinv.active id
  · intro id row hrow hnone
    exact hinv.unsettled id row (hrows ▸ hrow) (hof id ▸ hnone)
  · intro id row hrow hsettled
    exact hinv.settled id row (hrows ▸ hrow) hsettled

theorem onceInv_reachable
    (hC : ∀ (s : ChannelState Row S N I D) n x call,
      C s (.next n x) → s.calls[n]? = some call → ClaimsFirst s.shared x call)
    (h : (channelService runtime channel initial other).machine.Reachable C s) :
    OnceInv channel s := by
  refine Machine.invariant (I := OnceInv channel) ?_ ?_ h
  · rintro s ⟨⟨hrows, -, hremote, hclaims, -⟩, hcalls⟩
    have hnone : ∀ id, s.shared.rows.find id = none := by
      intro id
      rw [Table.find, hrows]
      rfl
    have hof : ∀ id, claimsOf s.shared id = [] := by
      intro id
      rw [claimsOf, hclaims]
      rfl
    constructor
    · exact fun id _ => hof id
    · exact fun id => by simp [hof]
    · exact fun id => by simp [hcalls]
    · intro id row hrow
      cases (hnone id).symm.trans hrow
    · intro id row hrow
      cases (hnone id).symm.trans hrow
  · intro s a t hinv hCa hstep
    cases a with
    | start call =>
      rw [Pool.step_start hstep]
      cases call with
      | preview | confirm => exact onceInv_start hinv fun id => rfl
    | next n x =>
      obtain ⟨call, s', call', hcall, hnext, rfl⟩ := Pool.step_next hstep
      exact onceInv_next hinv (hC s n x call hCa hcall) hcall (move_of_next hnext)
    | env x =>
      obtain ⟨s', henv, rfl⟩ := Pool.step_env hstep
      obtain ⟨hrows, hclaims, -⟩ := env_spec henv
      exact onceInv_env hinv hrows hclaims

/-- A settled row is left alone. -/
theorem settled_step (hinv : OnceInv channel s)
    (hC : ∀ n x call, a = .next n x → s.calls[n]? = some call → ClaimsFirst s.shared x call)
    (hstep : (channelService runtime channel initial other).machine.step s a = some t)
    (hrow : s.shared.rows.find id = some row) (hsettled : channel.settlement row ≠ none) :
    t.shared.rows.find id = some row := by
  cases a with
  | start call =>
    rw [Pool.step_start hstep]
    exact hrow
  | env x =>
    obtain ⟨s', henv, rfl⟩ := Pool.step_env hstep
    show s'.rows.find id = some row
    rw [(env_spec henv).1, hrow]
  | next n x =>
    obtain ⟨call, s', call', hcall, hnext, rfl⟩ := Pool.step_next hstep
    have hmove := move_of_next hnext
    obtain ⟨row', hrow', -⟩ := hmove.terms hrow
    rcases hmove.row_cases hrow' with ⟨hold, -⟩ | ⟨hnone, -⟩ |
      ⟨confirm, claimed, current, e, rfl, rfl, rfl, hfind, -⟩ |
      ⟨confirm, settled, current, outcome, notes, rfl, rfl, hfind, -⟩
    · cases hrow.symm.trans hold
      exact hrow'
    · cases hrow.symm.trans hnone
    · have hfirst := hC _ _ _ rfl hcall _ _ _ _ rfl rfl hfind
      exact absurd (hinv.unsettled _ _ hrow hfirst) hsettled
    · have hzero := hinv.settled _ _ hrow hsettled
      have hone := List.countP_eq_zero.mp hzero _ (Pool.mem_of_getElem? hcall)
      simp [ChannelCall.active] at hone

end Runs

end AegisShield.Payments
