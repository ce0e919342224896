import AegisShield.Payments.Agent
import AegisShield.Payments.Qr
import AegisShield.Payments.Steps

/-!
# Confirmations and their previewers

For whom a confirm acts. A row is created for the caller of its preview, and keeps that
owner, its token and the account that pays.

Results:
* `confirm_bound`: in every run in which a claim is made by the owner of the row, a
  confirm acts on one row at most, its caller's own, and sends only the command of that
  row, which debits the account of its preview.
* `confirmed_by_another`: the claim does not compare the caller with the owner; who has the
  token has the payment made.
-/

namespace AegisShield.Payments

open Common

variable {Row S N I D X : Type} [Keyed Row String] {runtime : Runtime}
  {channel : Channel Row S N I D}

/-- The confirm that a call belongs to. -/
def ChannelCall.confirmInput? : ChannelCall Row N I D → Option ConfirmInput
  | .confirming input | .searching input | .claiming input _ | .settling input _
  | .awaiting input _ | .answered input _ _ | .noting input _ _ _ _ | .confirmed input _ =>
    some input
  | .previewing _ | .creating _ _ | .previewed _ | .thrown _ => none

/-- A claim is made by the owner of the row. -/
def claimsOwn (channel : Channel Row S N I D) :
    ChannelState Row S N I D →
      Pool.Action (ChannelStart I) ChannelInput (Outside X) → Bool :=
  claimsMeet fun _ input current _ => (channel.terms current).owner = input.caller

/-- No table has changed, and no command was sent. -/
def Unchanged (s t : ChannelShared Row S) : Prop :=
  t.rows = s.rows ∧ t.side = s.side ∧ t.remote.commands = s.remote.commands

/-- What a step of a confirm does is about one row, its caller's own. -/
structure ActsOn (runtime : Runtime) (channel : Channel Row S N I D) (input : ConfirmInput)
    (s t : ChannelShared Row S) (row : Row) : Prop where
  mem : row ∈ s.rows.rows
  owner : (channel.terms row).owner = input.caller
  token : (channel.terms row).tokenHash = runtime.sha256 input.intentToken
  others : ∀ id, id ≠ key row → t.rows.find id = s.rows.find id
  command : ∀ command ∈ t.remote.commands, command ∈ s.remote.commands ∨
    command.idempotencyKey = channel.idempotencyKey (key row) ∧
      command.sourceAccountId = (channel.terms row).sourceAccountId

/-- The binding of confirms to previews, for the runs of a service whose steps meet `C`.
    The caller and the account of a preview are those of its input, and of its draft. -/
structure Bound (runtime : Runtime) (channel : Channel Row S N I D)
    (asked : I → String × String) (drafted : D → String × String)
    (service : ChannelPool Row S N I D X)
    (C : ChannelState Row S N I D →
      Pool.Action (ChannelStart I) ChannelInput (Outside X) → Prop) : Prop where
  /-- A preview makes a draft for its caller and account. -/
  asks : ∀ s n x t input draft origin, s.calls[n]? = some (.previewing input) →
    service.machine.step s (.next n x) = some t → t.calls[n]? = some (.creating draft origin) →
    drafted draft = asked input
  /-- A new row has the caller of its draft as the owner, and the account pays. -/
  creates : ∀ s a t row, service.machine.step s a = some t → row ∈ t.shared.rows.rows →
    s.shared.rows.find (key row) = none →
    ∃ n x draft origin, a = .next n x ∧ s.calls[n]? = some (.creating draft origin) ∧
      ((channel.terms row).owner, (channel.terms row).sourceAccountId) = drafted draft
  /-- It stays so. -/
  keeps : ∀ s t row, service.machine.Path C s t → row ∈ s.shared.rows.rows →
    ∃ row', t.shared.rows.find (key row) = some row' ∧ channel.terms row' = channel.terms row
  /-- A step of a confirm changes nothing, or acts on a row of its caller. -/
  acts : ∀ s n x t call input, service.machine.Reachable C s → C s (.next n x) →
    s.calls[n]? = some call → call.confirmInput? = some input →
    service.machine.step s (.next n x) = some t →
    Unchanged s.shared t.shared ∨ ∃ row, ActsOn runtime channel input s.shared t.shared row
  /-- A step of a confirm with the token of another's row changes nothing. -/
  foreign : ∀ s n x t call input, service.machine.Reachable C s → C s (.next n x) →
    s.calls[n]? = some call → call.confirmInput? = some input →
    (∀ row ∈ s.shared.rows.rows,
      (channel.terms row).tokenHash = runtime.sha256 input.intentToken →
        (channel.terms row).owner ≠ input.caller) →
    service.machine.step s (.next n x) = some t → Unchanged s.shared t.shared

/-! ## The row of a confirm -/

/-- The row is in the table, as far as its terms go, and has the token of the confirm. -/
structure Names (runtime : Runtime) (channel : Channel Row S N I D) (rows : Table Row)
    (input : ConfirmInput) (row : Row) : Prop where
  token : (channel.terms row).tokenHash = runtime.sha256 input.intentToken
  stored : ∃ current, rows.find (key row) = some current ∧
    channel.terms current = channel.terms row

/-- A confirm that has claimed its row is the owner's. -/
def Own (runtime : Runtime) (channel : Channel Row S N I D) (rows : Table Row) :
    ChannelCall Row N I D → Prop
  | .claiming input row => Names runtime channel rows input row
  | .settling input row | .awaiting input row | .answered input row _ | .noting input row _ _ _ =>
    (channel.terms row).owner = input.caller ∧ Names runtime channel rows input row
  | .previewing _ | .creating _ _ | .previewed _ | .confirming _ | .searching _ | .confirmed _ _
  | .thrown _ => True

section Steps

variable {s s' : ChannelShared Row S} {call call' : ChannelCall Row N I D} {row : Row}
  {rows rows' : Table Row} {input : ConfirmInput} {x : ChannelInput}

theorem Names.mono (hterms : ∀ id row, rows.find id = some row →
      ∃ row', rows'.find id = some row' ∧ channel.terms row' = channel.terms row)
    (h : Names runtime channel rows input row) : Names runtime channel rows' input row := by
  obtain ⟨current, hfind, hsame⟩ := h.stored
  obtain ⟨row', hfind', hsame'⟩ := hterms _ _ hfind
  exact ⟨h.token, row', hfind', hsame'.trans hsame⟩

theorem Own.mono (hterms : ∀ id row, rows.find id = some row →
      ∃ row', rows'.find id = some row' ∧ channel.terms row' = channel.terms row)
    (h : Own runtime channel rows call) : Own runtime channel rows' call := by
  unfold Own at h ⊢
  split at h
  · exact h.mono hterms
  iterate 4
    · exact ⟨h.1, h.2.mono hterms⟩
  iterate 7
    · trivial

/-- A row found by its token. -/
theorem names_of_findByToken (h : findByToken runtime channel rows input = some row) :
    Names runtime channel rows input row := by
  have htoken : (channel.terms row).tokenHash = runtime.sha256 input.intentToken := by
    simpa using List.find?_some h
  exact ⟨htoken, row, Table.find_of_mem (List.mem_of_find?_eq_some h), rfl⟩

/-- A step of a call keeps its row its own, if its claim is the owner's. -/
theorem Move.own (h : Move runtime channel s call x s' call')
    (hclaim : ∀ input row current e, call = .claiming input row → x = .run e →
      s.rows.find (key row) = some current → (channel.terms current).owner = input.caller)
    (hown : Own runtime channel s.rows call) : Own runtime channel s'.rows call' := by
  have hown' : Own runtime channel s'.rows call := hown.mono fun id row hrow => h.terms hrow
  cases h with
  | found htoken hchecks => exact names_of_findByToken htoken
  | claimed hfind htaken =>
    have howner := hclaim _ _ _ _ rfl rfl hfind
    obtain ⟨htoken, current', hfind', hsame⟩ := hown
    rw [hfind] at hfind'
    cases hfind'
    refine ⟨?_, ?_, _, ?_, rfl⟩
    · rw [channel.claim_terms, howner]
    · rw [channel.claim_terms, hsame, htoken]
    · rw [channel.claim_key, Table.key_of_find hfind]
      exact Table.find_put_of_find (channel.claim_key _ _ _ _) hfind
  | sent | answered | completed | failed | noted => exact hown'
  | drafted | created | unknown | replayed | unanswered | unwritten | unnoted | returned | stopped =>
    trivial

/-- A write to a row acts on that row. -/
theorem actsOn_put {row updated : Row} (hmem : row ∈ s.rows.rows)
    (howner : (channel.terms row).owner = input.caller)
    (htoken : (channel.terms row).tokenHash = runtime.sha256 input.intentToken)
    (hkey : key updated = key row) (hrows : s'.rows = s.rows.put updated)
    (hremote : s'.remote = s.remote) : ActsOn runtime channel input s s' row where
  mem := hmem
  owner := howner
  token := htoken
  others id hid := by
    rw [hrows]
    exact Table.find_put_ne (hkey ▸ hid.symm)
  command command hcommand := .inl (hremote ▸ hcommand)

/-- A step of a confirm is about the row it names. -/
theorem Move.actsOn (h : Move runtime channel s call x s' call')
    (hclaim : ∀ input row current e, call = .claiming input row → x = .run e →
      s.rows.find (key row) = some current → (channel.terms current).owner = input.caller)
    (hown : Own runtime channel s.rows call) (hinput : call.confirmInput? = some input) :
    Unchanged s s' ∨ ∃ row, ActsOn runtime channel input s s' row := by
  cases h with
  | claimed hfind htaken =>
    cases hinput
    obtain ⟨htoken, current', hfind', hsame⟩ := hown
    rw [hfind] at hfind'
    cases hfind'
    exact .inr ⟨_, actsOn_put (Table.find_some hfind).1 (hclaim _ _ _ _ rfl rfl hfind) (hsame ▸ htoken)
      (channel.claim_key _ _ _ _) rfl rfl⟩
  | @sent input row =>
    cases hinput
    obtain ⟨howner, htoken, current, hfind, hsame⟩ := hown
    refine .inr ⟨current, (Table.find_some hfind).1, hsame ▸ howner, hsame ▸ htoken,
      fun id hid => rfl, ?_⟩
    intro command hcommand
    rcases List.mem_append.mp hcommand with hold | hnew
    · exact .inl hold
    · rw [List.mem_singleton.mp hnew, Table.key_of_find hfind, hsame]
      exact .inr ⟨channel.command_key _ _, channel.command_source _ _⟩
  | answered hanswer hwrites => exact .inl ⟨rfl, rfl, (Remote.kept_by_answer hanswer).2⟩
  | completed hfind =>
    cases hinput
    obtain ⟨howner, htoken, current, hfind', hsame⟩ := hown
    rw [hfind] at hfind'
    cases hfind'
    exact .inr ⟨_, actsOn_put (Table.find_some hfind).1 (hsame ▸ howner) (hsame ▸ htoken)
      (channel.complete_key _ _ _) rfl rfl⟩
  | failed hfind =>
    cases hinput
    obtain ⟨howner, htoken, current, hfind', hsame⟩ := hown
    rw [hfind] at hfind'
    cases hfind'
    exact .inr ⟨_, actsOn_put (Table.find_some hfind).1 (hsame ▸ howner) (hsame ▸ htoken)
      (channel.fail_key _ _) rfl rfl⟩
  | noted =>
    cases hinput
    obtain ⟨howner, htoken, current, hfind, hsame⟩ := hown
    exact .inr ⟨current, (Table.find_some hfind).1, hsame ▸ howner, hsame ▸ htoken,
      fun id hid => rfl, fun command hcommand => .inl hcommand⟩
  | drafted | unknown | replayed | found | unanswered | unwritten | unnoted | returned | stopped =>
    exact .inl ⟨rfl, rfl, rfl⟩
  | created hcreate hinsert => cases hinput

end Steps

/-! ## Runs -/

section Runs

variable {initial : S → Prop} {other : S → X → Option S}
  {s t : ChannelState Row S N I D}
  {C : ChannelState Row S N I D →
    Pool.Action (ChannelStart I) ChannelInput (Outside X) → Prop}
  {a : Pool.Action (ChannelStart I) ChannelInput (Outside X)}

theorem own_reachable
    (h : (channelService runtime channel initial other).machine.Reachable
      (fun s a => claimsOwn channel s a = true) s) :
    ∀ call ∈ s.calls, Own runtime channel s.shared.rows call := by
  refine (Pool.invariant (G := fun _ => True)
    (A := fun s call => Own runtime channel s.rows call) ?_ ?_ ?_ ?_ h).2
  · intro s hs
    trivial
  · intro s start hs
    cases start with
    | preview | confirm => trivial
  · intro s n x call s' call' hs hcalls hC hcall hnext
    have hmove := move_of_next hnext
    have hown := hcalls call (Pool.mem_of_getElem? hcall)
    refine ⟨trivial, ?_, fun m q hm hq => ?_⟩
    · refine hmove.own ?_ hown
      rintro input row current e rfl rfl hfind
      exact of_decide_eq_true (claimsMeet_claiming hC hcall hfind)
    · exact (hcalls q (Pool.mem_of_getElem? hq)).mono fun id row hrow => hmove.terms hrow
  · intro s x s' hs hC henv
    refine ⟨trivial, fun call hcall => ?_⟩
    rw [(env_spec henv).1]
    exact hcall

/-- A row stays in the table with its terms along a run. -/
theorem terms_path {row : Row}
    (h : (channelService runtime channel initial other).machine.Path C s t)
    (hrow : row ∈ s.shared.rows.rows) :
    ∃ row', t.shared.rows.find (key row) = some row' ∧ channel.terms row' = channel.terms row := by
  induction h with
  | refl => exact ⟨row, Table.find_of_mem hrow, rfl⟩
  | @tail t u a hpath hC hstep ih =>
    obtain ⟨row', hfind, hsame⟩ := ih
    cases a with
    | start call =>
      rw [Pool.step_start hstep]
      exact ⟨row', hfind, hsame⟩
    | next n x =>
      obtain ⟨call, s', call', -, hnext, rfl⟩ := Pool.step_next hstep
      obtain ⟨row'', hfind', hsame'⟩ := (move_of_next hnext).terms hfind
      exact ⟨row'', hfind', hsame'.trans hsame⟩
    | env x =>
      obtain ⟨s', henv, rfl⟩ := Pool.step_env hstep
      refine ⟨row', ?_, hsame⟩
      show s'.rows.find (key row) = some row'
      rw [(env_spec henv).1, hfind]

/-- A row that a step adds is that of a preview. -/
theorem created_of_step {row : Row}
    (hstep : (channelService runtime channel initial other).machine.step s a = some t)
    (hrow : row ∈ t.shared.rows.rows) (hnew : s.shared.rows.find (key row) = none) :
    ∃ n x draft origin e notes, a = .next n x ∧ s.calls[n]? = some (.creating draft origin) ∧
      channel.create draft e = .ok (row, notes) := by
  have hkept : t.shared.rows.rows.map key = s.shared.rows.rows.map key → False := by
    intro hkeys
    have hmem : key row ∈ s.shared.rows.rows.map key := hkeys ▸ List.mem_map_of_mem hrow
    exact Table.find_eq_none.mp hnew hmem
  cases a with
  | start call =>
    rw [Pool.step_start hstep] at hkept
    exact absurd rfl hkept
  | env x =>
    obtain ⟨s', henv, rfl⟩ := Pool.step_env hstep
    exact absurd (by rw [(env_spec henv).1]) hkept
  | next n x =>
    obtain ⟨call, s', call', hcall, hnext, rfl⟩ := Pool.step_next hstep
    cases (move_of_next hnext).rows with
    | kept hrows hclaims horigins => exact absurd (by rw [hrows]) hkept
    | @created draft origin e new notes hcreate hinsert hclaims horigins =>
      refine ⟨n, .run e, draft, origin, e, notes, rfl, hcall, ?_⟩
      unfold insertRow at hinsert
      split_ifs at hinsert with hconflict
      have hmem : row ∈ s.shared.rows.rows ++ [new] := (Table.insert_some hinsert).2 ▸ hrow
      rcases List.mem_append.mp hmem with hold | hlast
      · exact absurd (List.mem_map_of_mem hold) (Table.find_eq_none.mp hnew)
      · rw [List.mem_singleton.mp hlast, hcreate]
    | claimed hfind hupdated htaken hrows hclaims horigins
    | settled hfind hsettles hrows hclaims horigins =>
      exact absurd (by rw [hrows, Table.keys_put]) hkept

/-- The binding of confirms, from what is a service's own: its drafts are of their input,
    and its rows of their draft. -/
theorem bound_of {asked : I → String × String} {drafted : D → String × String}
    (hdraft : ∀ rows side input e draft, channel.draft rows side input e = .ok draft →
      drafted draft = asked input)
    (hcreate : ∀ draft e row notes, channel.create draft e = .ok (row, notes) →
      ((channel.terms row).owner, (channel.terms row).sourceAccountId) = drafted draft) :
    Bound runtime channel asked drafted (channelService runtime channel initial other)
      (fun s a => claimsOwn channel s a = true) := by
  have hacts : ∀ (s : ChannelState Row S N I D) n x t call input,
      (channelService runtime channel initial other).machine.Reachable
        (fun s a => claimsOwn channel s a = true) s →
      claimsOwn (X := X) channel s (.next n x) = true → s.calls[n]? = some call →
      call.confirmInput? = some input →
      (channelService runtime channel initial other).machine.step s (.next n x) = some t →
      Unchanged s.shared t.shared ∨
        ∃ row, ActsOn runtime channel input s.shared t.shared row := by
    intro s n x t call input hs hC hcall hinput hstep
    obtain ⟨call', s', next, hcall', hnext, rfl⟩ := Pool.step_next hstep
    rw [hcall] at hcall'
    cases hcall'
    have hown := own_reachable hs call (Pool.mem_of_getElem? hcall)
    refine (move_of_next hnext).actsOn ?_ hown hinput
    rintro input row current e rfl rfl hfind
    exact of_decide_eq_true (claimsMeet_claiming hC hcall hfind)
  constructor
  case asks =>
    intro s n x t input draft origin hcall hstep ht
    obtain ⟨call', s', next, hcall', hnext, rfl⟩ := Pool.step_next hstep
    rw [hcall] at hcall'
    cases hcall'
    rw [List.getElem?_set_self (List.getElem?_eq_some_iff.mp hcall).1] at ht
    cases ht
    cases move_of_next hnext with
    | drafted h => exact hdraft _ _ _ _ _ h
  case creates =>
    intro s a t row hstep hrow hnew
    obtain ⟨n, x, draft, origin, e, notes, ha, hcall, h⟩ := created_of_step hstep hrow hnew
    exact ⟨n, x, draft, origin, ha, hcall, hcreate draft e row notes h⟩
  case keeps =>
    intro s t row hpath hrow
    exact terms_path hpath hrow
  case acts => exact hacts
  case foreign =>
    intro s n x t call input hs hC hcall hinput hforeign hstep
    rcases hacts s n x t call input hs hC hcall hinput hstep with hsame | ⟨row, hrow⟩
    · exact hsame
    · exact absurd hrow.owner (hforeign row hrow.mem hrow.token)

end Runs

/-- A step of a confirm that changes the rows without one of its caller. -/
theorem not_bound_of_step {asked : I → String × String} {drafted : D → String × String}
    {service : ChannelPool Row S N I D X} {s t : ChannelState Row S N I D} {n : ℕ}
    {x : ChannelInput} {input : ConfirmInput}
    (hs : service.machine.Reachable Machine.always s)
    (hcall : ((s.calls[n]?).bind ChannelCall.confirmInput?) = some input)
    (howner : ∀ row ∈ s.shared.rows.rows, (channel.terms row).owner ≠ input.caller)
    (hstep : service.machine.step s (.next n x) = some t)
    (hrows : t.shared.rows.rows ≠ s.shared.rows.rows) :
    ¬ Bound runtime channel asked drafted service Machine.always := by
  intro h
  obtain ⟨call, hcall, hinput⟩ := Option.bind_eq_some_iff.mp hcall
  obtain ⟨hsame, -⟩ := h.foreign s n x t call input hs trivial hcall hinput
    (fun row hrow _ => howner row hrow) hstep
  exact hrows (congrArg Table.rows hsame)

/-! ## Main results -/

/-- The caller and the account of a preview of `QrService`. -/
def QrPreviewInput.asked (input : QrPreviewInput) : String × String :=
  (input.senderCustomerId, input.sourceAccountId)

/-- The agent of a preview of `AgentService`, whose identifier is that of the account too. -/
def AgentPreviewInput.asked (input : AgentPreviewInput) : String × String :=
  (input.agentId, input.agentId)

/-- In every run in which a claim is made by the owner of the row, the confirms of both services
    are bound to the caller of the preview. -/
theorem confirm_bound (qrRuntime : QrRuntime) (runtime : Runtime) (limits : PaymentsLimits) :
    Bound qrRuntime.toRuntime (qrChannel qrRuntime) QrPreviewInput.asked
      (fun draft => draft.input.asked) (qrService qrRuntime)
      (fun s a => claimsOwn (qrChannel qrRuntime) s a = true) ∧
    Bound runtime (agentChannel runtime limits) AgentPreviewInput.asked
      (fun draft => draft.input.asked) (agentService runtime limits)
      (fun s a => claimsOwn (agentChannel runtime limits) s a = true) := by
  constructor
  · refine bound_of ?_ ?_
    · intro rows side input e draft h
      obtain ⟨decoded, record, -, -, -, -, rfl⟩ := (qrDraft_eq_ok qrRuntime).mp h
      rfl
    · intro draft e row notes h
      change qrCreate qrRuntime draft e = _ at h
      unfold qrCreate at h
      split at h
      · cases h
        rfl
      · cases h
      · cases h
  · refine bound_of ?_ ?_
    · intro rows side input e draft h
      obtain ⟨-, -, customerId, accountId, masked, -, -, rfl⟩ := (agentDraft_eq_ok limits).mp h
      rfl
    · intro draft e row notes h
      cases h
      rfl

/-! ## A confirm with the token of another -/

/-- A confirm of the payment under token `t-1`. -/
def confirmBy (caller : String) : ConfirmInput where
  caller := caller
  intentToken := "t-1"
  idempotencyKey := "k-1"

/-- Alice scans the code of the shop, and `caller` confirms up to the claim. -/
def scanAndConfirm (caller : String) :
    List (Pool.Action (ChannelStart QrPreviewInput) ChannelInput (Outside QrIssue)) := [
  .env (.other (fiveRupeeIssue .STATIC)),
  .start (.preview ⟨"STATIC", "alice", "account-alice"⟩),
  .next 0 (.run (plainEnv 0 "pay-1" "t-1" 0)), .next 0 (.run (plainEnv 0 "pay-1" "t-1" 0)),
  .start (.confirm (confirmBy caller)),
  .next 1 (.run (plainEnv 0 "" "" 0)), .next 1 (.run (plainEnv 0 "" "" 0))]

/-- The same of an agent's operation. -/
def cashInAndConfirm (caller : String) :
    List (Pool.Action (ChannelStart AgentPreviewInput) ChannelInput (Outside Empty)) := [
  .start (.preview (cashIn 500)),
  .next 0 (.run (plainEnv 0 "op-1" "t-1" 0)), .next 0 (.run (plainEnv 0 "op-1" "t-1" 0)),
  .start (.confirm (confirmBy caller)),
  .next 1 (.run (plainEnv 0 "" "" 0)), .next 1 (.run (plainEnv 0 "" "" 0))]

/-- Not in every run, of either service: the row is claimed for whoever has its token. -/
theorem confirmed_by_another :
    (¬ ∀ runtime : QrRuntime, Bound runtime.toRuntime (qrChannel runtime) QrPreviewInput.asked
      (fun draft => draft.input.asked) (qrService runtime) Machine.always) ∧
    ¬ ∀ (runtime : Runtime) (limits : PaymentsLimits), Bound runtime (agentChannel runtime limits)
      AgentPreviewInput.asked (fun draft => draft.input.asked) (agentService runtime limits)
      Machine.always := by
  constructor
  · intro h
    have hrun : ((qrService plainQrRuntime).machine.run noQrPayments
        (scanAndConfirm "mallory")).any (fun s =>
          decide (((s.calls[1]?).bind ChannelCall.confirmInput?) = some (confirmBy "mallory")) &&
          decide (∀ row ∈ s.shared.rows.rows, row.senderCustomerId ≠ "mallory") &&
          ((qrService plainQrRuntime).machine.step s (.next 1 (.run (plainEnv 0 "" "" 0)))).any
            fun t => decide (t.shared.rows.rows ≠ s.shared.rows.rows)) = true := by decide
    obtain ⟨s, hs, hp⟩ :=
      Machine.reachable_of_run _ _ (noQrPayments_init plainQrRuntime) hrun
    simp only [Bool.and_eq_true, decide_eq_true_eq] at hp
    obtain ⟨⟨hcall, howner⟩, hclaim⟩ := hp
    obtain ⟨t, hstep, hrows⟩ := (Option.any_eq_true _ _).mp hclaim
    exact not_bound_of_step hs hcall howner hstep (of_decide_eq_true hrows) (h plainQrRuntime)
  · intro h
    have hrun : ((agentService plainRuntime defaultLimits).machine.run noOperations
        (cashInAndConfirm "agent-2")).any (fun s =>
          decide (((s.calls[1]?).bind ChannelCall.confirmInput?) = some (confirmBy "agent-2")) &&
          decide (∀ row ∈ s.shared.rows.rows, row.agentId ≠ "agent-2") &&
          ((agentService plainRuntime defaultLimits).machine.step s
            (.next 1 (.run (plainEnv 0 "" "" 0)))).any
              fun t => decide (t.shared.rows.rows ≠ s.shared.rows.rows)) = true := by decide
    obtain ⟨s, hs, hp⟩ :=
      Machine.reachable_of_run _ _ (noOperations_init plainRuntime defaultLimits) hrun
    simp only [Bool.and_eq_true, decide_eq_true_eq] at hp
    obtain ⟨⟨hcall, howner⟩, hclaim⟩ := hp
    obtain ⟨t, hstep, hrows⟩ := (Option.any_eq_true _ _).mp hclaim
    exact not_bound_of_step hs hcall howner hstep (of_decide_eq_true hrows)
      (h plainRuntime defaultLimits)

/-- Alice's own confirm claims her payment and sends its command. -/
theorem confirm_bound_alice : ∃ s t : QrState,
    t.shared.remote.commands.length = 1 ∧ s.shared.remote.commands = [] ∧
      ∃ row, ActsOn plainRuntime (qrChannel plainQrRuntime) (confirmBy "alice") s.shared
        t.shared row := by
  have hrun : ((qrService plainQrRuntime).machine.runUnder
      (claimsOwn (qrChannel plainQrRuntime)) noQrPayments
      (scanAndConfirm "alice" ++ [.next 1 (.run (plainEnv 0 "" "" 0))])).any (fun s =>
        decide (((s.calls[1]?).bind ChannelCall.confirmInput?) = some (confirmBy "alice")) &&
        decide (s.shared.remote.commands = []) &&
        claimsOwn (X := QrIssue) (qrChannel plainQrRuntime) s
          (.next 1 (.run (plainEnv 0 "" "" 0))) &&
        ((qrService plainQrRuntime).machine.step s (.next 1 (.run (plainEnv 0 "" "" 0)))).any
          fun t => decide (t.shared.remote.commands.length = 1)) = true := by decide
  obtain ⟨s, hs, hp⟩ := Machine.reachable_of_runUnder _ _ _ (fun _ _ h => h)
    (noQrPayments_init plainQrRuntime) hrun
  simp only [Bool.and_eq_true, decide_eq_true_eq] at hp
  obtain ⟨⟨⟨hcall, hnone⟩, hown⟩, hsend⟩ := hp
  obtain ⟨t, hstep, hone⟩ := (Option.any_eq_true _ _).mp hsend
  have hlength := of_decide_eq_true hone
  obtain ⟨call, hcall, hinput⟩ := Option.bind_eq_some_iff.mp hcall
  refine ⟨s, t, hlength, hnone, ?_⟩
  rcases (confirm_bound plainQrRuntime plainRuntime defaultLimits).1.acts s 1 _ t call
    (confirmBy "alice") hs hown hcall hinput
    hstep with ⟨-, -, hsame⟩ | hrow
  · rw [hsame, hnone] at hlength
    cases hlength
  · exact hrow

end AegisShield.Payments
