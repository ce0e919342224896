import AegisShield.Payments.Agent
import AegisShield.Payments.Claims
import AegisShield.Payments.Qr

/-!
# Settlements of QR payments and agent operations

The outcomes of rows against the journals of the Ledger, over every interleaving of
confirms and every way the Ledger answers.

Results:
* `settlements`: in every run in which a row is claimed once, and by its owner, COMPLETED is
  final, a FAILED row has no journal, a row is confirmed under one key, and a confirm that
  repeats a returned one returns the same row.
* `settled_twice`: nothing keeps two confirms from claiming one row.
-/

namespace AegisShield.Payments

open Common

variable {Row S N I D X : Type} [Keyed Row String] {runtime : Runtime}
  {channel : Channel Row S N I D}

/-- A claim is the first of its row, and made by the owner. -/
def claimsOnce (channel : Channel Row S N I D) :
    ChannelState Row S N I D →
      Pool.Action (ChannelStart I) ChannelInput (Outside X) → Bool :=
  claimsMeet fun s input current _ =>
    decide (claimsOf s (key current) = []) && decide ((channel.terms current).owner = input.caller)

/-- What holds of settlements, for the runs of a service whose steps meet `C`. -/
structure Settlements (runtime : Runtime) (channel : Channel Row S N I D)
    (service : ChannelPool Row S N I D X)
    (C : ChannelState Row S N I D →
      Pool.Action (ChannelStart I) ChannelInput (Outside X) → Prop) : Prop where
  /-- A COMPLETED row stays COMPLETED. -/
  final : ∀ s t id row, service.machine.Reachable C s → s.shared.rows.find id = some row →
    channel.settlement row = some .completed → service.machine.Path C s t →
    ∃ row', t.shared.rows.find id = some row' ∧ channel.settlement row' = some .completed
  /-- It has a journal. -/
  posted : ∀ s row, service.machine.Reachable C s → row ∈ s.shared.rows.rows →
    channel.settlement row = some .completed →
    channel.idempotencyKey (key row) ∈ s.shared.remote.journals
  /-- A FAILED row has none. -/
  unposted : ∀ s row, service.machine.Reachable C s → row ∈ s.shared.rows.rows →
    channel.settlement row = some .failed →
    channel.idempotencyKey (key row) ∉ s.shared.remote.journals
  /-- The confirms that claim a row have one key. -/
  once : ∀ s id i j, service.machine.Reachable C s → i ∈ claimsOf s.shared id →
    j ∈ claimsOf s.shared id → i.idempotencyKey = j.idempotencyKey
  /-- A confirm that repeats a returned one returns the same row. -/
  replays : ∀ s input row e, service.machine.Reachable C s → .confirmed input row ∈ s.calls →
    ∃ row', channelNext runtime channel s.shared (.confirming input) (.run e) =
      some (s.shared, .confirmed input row') ∧ key row' = key row

/-! ## The attempts of a row -/

/-- The call has claimed the row and not sent its command. -/
def ChannelCall.unsent (id : String) : ChannelCall Row N I D → Bool
  | .settling _ row => key row = id
  | _ => false

namespace Remote

variable {r r' : Remote} {k k' : String} {outcome : LedgerOutcome}

/-- The attempts under a key that may commit, or have committed, a journal. -/
def weight (r : Remote) (k : String) : ℕ := r.pending.count k + r.journals.count k

theorem weight_send (command : InternalLedgerTransferCommand) :
    (r.send command).weight k =
      r.weight k + (decide (command.idempotencyKey = k)).toNat := by
  unfold weight send
  by_cases hk : command.idempotencyKey = k
  · rw [hk, List.count_cons_self]
    simp only [decide_true, Bool.toNat_true]
    omega
  · rw [List.count_cons_of_ne hk]
    simp [hk]

theorem weight_post (h : r.post k' = some r') : r'.weight k ≤ r.weight k := by
  unfold post at h
  split_ifs at h with hpending hjournal
  · cases h
    show (r.pending.erase k').count k + r.journals.count k ≤ r.weight k
    have herase := List.Sublist.count_le k (List.erase_sublist (a := k') (l := r.pending))
    unfold weight
    omega
  · cases h
    show (r.pending.erase k').count k + (k' :: r.journals).count k ≤ r.weight k
    unfold weight
    by_cases hk : k' = k
    · subst hk
      have hpos := List.count_pos_iff.mpr hpending
      rw [List.count_erase_self, List.count_cons_self]
      omega
    · rw [List.count_cons_of_ne hk]
      have herase := List.Sublist.count_le k (List.erase_sublist (a := k') (l := r.pending))
      omega

theorem mem_journals_post (h : r.post k' = some r') (hk : k ∈ r.journals) : k ∈ r'.journals := by
  unfold post at h
  split_ifs at h with hpending hjournal
  · cases h
    exact hk
  · cases h
    exact List.mem_cons_of_mem _ hk

theorem mem_journals_of_result {result : InternalLedgerTransferResult}
    (h : r.answer k (.result result) = some r') : k ∈ r'.journals := by
  simp only [answer] at h
  split_ifs at h with hmem
  cases h
  exact hmem

theorem weight_answer (h : r.answer k' outcome = some r') : r'.weight k ≤ r.weight k := by
  unfold answer at h
  split at h
  · split_ifs at h
    cases h
    rfl
  · split_ifs at h
    · cases h
      have herase := List.Sublist.count_le k (List.erase_sublist (a := k') (l := r.pending))
      show (r.pending.erase k').count k + r.journals.count k ≤ r.weight k
      unfold weight
      omega
    · cases h
      rfl
  · cases h
    rfl

/-- An error below 500 takes an attempt away. -/
theorem weight_error {status : ℕ} {code : Option String} (hstatus : status < 500)
    (h : r.answer k (.callError status code) = some r') : r'.weight k < r.weight k := by
  simp only [answer] at h
  rw [if_pos hstatus] at h
  split_ifs at h with hmem
  cases h
  have hpos := List.count_pos_iff.mpr hmem
  show (r.pending.erase k).count k + r.journals.count k < r.weight k
  rw [List.count_erase_self]
  unfold weight
  omega

end Remote

section Steps

variable {s s' : ChannelShared Row S} {call call' : ChannelCall Row N I D} {row : Row}
  {input : ConfirmInput} {id : String} {x : ChannelInput}

/-- The attempts of a row that are to be sent, may commit or have committed grow with its
    claims only. -/
theorem Move.weight (h : Move runtime channel s call x s' call') (id : String) :
    (call'.unsent id).toNat + s'.remote.weight (channel.idempotencyKey id) +
        (claimsOf s id).length ≤
      (call.unsent id).toNat + s.remote.weight (channel.idempotencyKey id) +
        (claimsOf s' id).length := by
  cases h with
  | @claimed input claimed current e hfind htaken =>
    rw [claimsOf_claimRow]
    simp only [ChannelCall.unsent, channel.claim_key, Table.key_of_find hfind]
    split_ifs with hid
    · show _ + s.remote.weight _ + _ ≤ _
      simp only [hid, decide_true, Bool.toNat_true, Bool.toNat_false, List.length_append,
        List.length_singleton]
      omega
    · simp only [hid, decide_false, Bool.toNat_false]
      exact le_rfl
  | @sent input row =>
    show 0 + (s.remote.send (channel.command s.side row)).weight _ + (claimsOf s id).length ≤
      (decide (key row = id)).toNat + _ + (claimsOf s id).length
    rw [Remote.weight_send, channel.command_key]
    simp only [channel.key_injective.eq_iff]
    omega
  | @answered input row outcome remote hanswer hwrites =>
    have hle := Remote.weight_answer (k := channel.idempotencyKey id) hanswer
    show 0 + remote.weight _ + (claimsOf s id).length ≤ 0 + _ + (claimsOf s id).length
    omega
  | completed | failed | drafted | created | unknown | replayed | found | unanswered | unwritten
  | noted | unnoted | returned => exact le_rfl
  | stopped =>
    show 0 + _ + _ ≤ _
    omega

/-- What holds of a row of the table. -/
structure RowInv (runtime : Runtime) (channel : Channel Row S N I D) (s : ChannelShared Row S)
    (calls : List (ChannelCall Row N I D)) (id : String) (row : Row) : Prop where
  pending : claimsOf s id = [] → channel.requestHash row = channel.pendingHash
  claimed : ∀ input ∈ claimsOf s id, (channel.terms row).owner = input.caller ∧
    channel.keyHash row = runtime.sha256 input.idempotencyKey ∧
    channel.requestHash row = channel.hash input
  failed : channel.settlement row = some .failed →
    calls.countP (ChannelCall.unsent id) + s.remote.weight (channel.idempotencyKey id) = 0
  completed : channel.settlement row = some .completed →
    channel.idempotencyKey id ∈ s.remote.journals

/-- The two confirms have one caller, one key and one token, as far as the hashes tell. -/
def SameConfirm (runtime : Runtime) (channel : Channel Row S N I D) (i j : ConfirmInput) : Prop :=
  i.caller = j.caller ∧ runtime.sha256 i.idempotencyKey = runtime.sha256 j.idempotencyKey ∧
    channel.hash i = channel.hash j

/-- What a call that has claimed a row, or returns one, knows. -/
def CallInv (runtime : Runtime) (channel : Channel Row S N I D) (s : ChannelShared Row S)
    (calls : List (ChannelCall Row N I D)) : ChannelCall Row N I D → Prop
  | .settling input row | .awaiting input row => input ∈ claimsOf s (key row)
  | .answered input row outcome => input ∈ claimsOf s (key row) ∧
    ((∃ result, outcome = .result result) →
      channel.idempotencyKey (key row) ∈ s.remote.journals) ∧
    ((∃ status code, outcome = .callError status code) →
      calls.countP (ChannelCall.unsent (key row)) +
        s.remote.weight (channel.idempotencyKey (key row)) = 0)
  | .noting input row updated _ _ => input ∈ claimsOf s (key row) ∧ key updated = key row
  | .confirmed input row =>
    ∃ first ∈ claimsOf s (key row), SameConfirm runtime channel first input
  | .previewing _ | .creating _ _ | .previewed _ | .confirming _ | .searching _ | .claiming _ _
  | .thrown _ => True

/-- The invariant of settlements, beside that of rows that are claimed once. -/
structure SettlementInv (runtime : Runtime) (channel : Channel Row S N I D)
    (s : ChannelState Row S N I D) : Prop where
  weight : ∀ id, s.calls.countP (ChannelCall.unsent id) +
    s.shared.remote.weight (channel.idempotencyKey id) ≤ (claimsOf s.shared id).length
  rows : ∀ id row, s.shared.rows.find id = some row → RowInv runtime channel s.shared s.calls id row
  calls : ∀ call ∈ s.calls, CallInv runtime channel s.shared s.calls call
  apart : ∀ id id' row row', s.shared.rows.find id = some row → s.shared.rows.find id' = some row' →
    (channel.terms row).owner = (channel.terms row').owner →
    channel.keyHash row = channel.keyHash row' → id = id'

/-- What a step of call `n` leaves of the invariant of another call. -/
theorem CallInv.mono {calls calls' : List (ChannelCall Row N I D)} {q : ChannelCall Row N I D}
    (hclaims : ∀ id, ∀ i ∈ claimsOf s id, i ∈ claimsOf s' id)
    (hjournals : ∀ k, k ∈ s.remote.journals → k ∈ s'.remote.journals)
    (hweight : ∀ id, claimsOf s id ≠ [] →
      calls'.countP (ChannelCall.unsent id) + s'.remote.weight (channel.idempotencyKey id) ≤
        calls.countP (ChannelCall.unsent id) + s.remote.weight (channel.idempotencyKey id))
    (h : CallInv runtime channel s calls q) : CallInv runtime channel s' calls' q := by
  unfold CallInv at h ⊢
  split at h
  · exact hclaims _ _ h
  · exact hclaims _ _ h
  · obtain ⟨hclaimed, hposted, hrefused⟩ := h
    refine ⟨hclaims _ _ hclaimed, fun hresult => hjournals _ (hposted hresult), fun herror => ?_⟩
    have hzero := hrefused herror
    have hle := hweight _ (List.ne_nil_of_mem hclaimed)
    omega
  · exact ⟨hclaims _ _ h.1, h.2⟩
  · obtain ⟨first, hfirst, hsame⟩ := h
    exact ⟨first, hclaims _ _ hfirst, hsame⟩
  iterate 7
    · trivial

end Steps

/-! ## Steps of the service -/

section Next

variable {s : ChannelState Row S N I D} {n : ℕ} {x : ChannelInput}
  {call call' : ChannelCall Row N I D} {s' : ChannelShared Row S} {id : String} {row : Row}

/-- The step claims a row for the first time only, and for its owner. -/
def ClaimsOnce (channel : Channel Row S N I D) (s : ChannelShared Row S) (x : ChannelInput)
    (call : ChannelCall Row N I D) : Prop :=
  ∀ confirm row current e, call = .claiming confirm row → x = .run e →
    s.rows.find (key row) = some current →
    claimsOf s (key row) = [] ∧ (channel.terms current).owner = confirm.caller

theorem ClaimsOnce.first (h : ClaimsOnce channel s.shared x call) : ClaimsFirst s.shared x call :=
  fun confirm row current e hcall hx hfind => (h confirm row current e hcall hx hfind).1

theorem journals_move (hmove : Move runtime channel s.shared call x s' call') :
    s'.remote.journals = s.shared.remote.journals := by
  cases hmove with
  | answered hanswer hwrites => exact (Remote.kept_by_answer hanswer).1
  | _ => rfl

theorem weight_next (hcall : s.calls[n]? = some call)
    (hmove : Move runtime channel s.shared call x s' call') (id : String) :
    (s.calls.set n call').countP (ChannelCall.unsent id) +
        s'.remote.weight (channel.idempotencyKey id) + (claimsOf s.shared id).length ≤
      s.calls.countP (ChannelCall.unsent id) +
        s.shared.remote.weight (channel.idempotencyKey id) + (claimsOf s' id).length := by
  have hcount := Pool.countP_next (f := ChannelCall.unsent id) call' hcall
  have hstep := hmove.weight id
  omega

theorem rowInv_next (honce : OnceInv channel s) (hinv : SettlementInv runtime channel s)
    (hclaim : ClaimsOnce channel s.shared x call) (hcall : s.calls[n]? = some call)
    (hmove : Move runtime channel s.shared call x s' call') (hrow : s'.rows.find id = some row) :
    RowInv runtime channel s' (s.calls.set n call') id row := by
  have hweight := weight_next hcall hmove id
  rcases hmove.row_cases hrow with ⟨hold, hclaims⟩ |
    ⟨hnone, hclaims, draft, origin, e, notes, rfl, rfl, hcreate, -⟩ |
    ⟨confirm, claimed, current, e, rfl, rfl, rfl, hfind, hclaims, rfl, -, -⟩ |
    ⟨confirm, settled, current, outcome, notes, rfl, rfl, hfind, hclaims, hsettles, rfl⟩
  · have hrowInv := hinv.rows id row hold
    rw [hclaims] at hweight
    constructor
    · rw [hclaims]
      exact hrowInv.pending
    · rw [hclaims]
      exact hrowInv.claimed
    · intro hfailed
      have hzero := hrowInv.failed hfailed
      omega
    · intro hcompleted
      rw [journals_move hmove]
      exact hrowInv.completed hcompleted
  · have hsettlement := channel.create_settlement _ _ _ _ hcreate
    constructor
    · intro _
      exact channel.create_requestHash _ _ _ _ hcreate
    · rw [hclaims, honce.absent id hnone]
      intro input hinput
      cases hinput
    · intro hfailed
      rw [hsettlement] at hfailed
      cases hfailed
    · intro hcompleted
      rw [hsettlement] at hcompleted
      cases hcompleted
  · obtain ⟨hfirst, howner⟩ := hclaim _ _ _ _ rfl rfl hfind
    have hsettlement := channel.claim_settlement current
      (runtime.sha256 confirm.idempotencyKey) (channel.hash confirm) e.now
      (honce.unsettled _ _ hfind hfirst)
    rw [hfirst] at hclaims
    constructor
    · rw [hclaims]
      intro hnil
      cases hnil
    · rw [hclaims]
      intro input hinput
      rw [List.mem_singleton.mp hinput, channel.claim_terms, channel.claim_keyHash,
        channel.claim_requestHash]
      exact ⟨howner, rfl, rfl⟩
    · intro hfailed
      rw [hsettlement] at hfailed
      cases hfailed
    · intro hcompleted
      rw [hsettlement] at hcompleted
      cases hcompleted
  · have hrowInv := hinv.rows _ _ hfind
    obtain ⟨hclaimed, hposted, hrefused⟩ := hinv.calls _ (Pool.mem_of_getElem? hcall)
    rw [hclaims] at hweight
    constructor
    · rw [hclaims]
      intro hnil
      rw [hnil] at hclaimed
      cases hclaimed
    · rw [hclaims, hsettles.terms, hsettles.keyHash, hsettles.requestHash]
      exact hrowInv.claimed
    · intro hfailed
      cases hsettles with
      | completed result now =>
        rw [channel.complete_settlement] at hfailed
        cases hfailed
      | failed status code now =>
        have hzero := hrefused ⟨_, _, rfl⟩
        omega
    · intro hcompleted
      rw [journals_move hmove]
      cases hsettles with
      | completed result now => exact hposted ⟨_, rfl⟩
      | failed status code now =>
        rw [channel.fail_settlement] at hcompleted
        cases hcompleted

/-- The invariant of a call after a step of another. -/
theorem callInv_next (hclaim : ClaimsOnce channel s.shared x call) (hcall : s.calls[n]? = some call)
    (hmove : Move runtime channel s.shared call x s' call') {q : ChannelCall Row N I D}
    (hq : CallInv runtime channel s.shared s.calls q) :
    CallInv runtime channel s' (s.calls.set n call') q := by
  refine hq.mono (fun id i hi => mem_claimsOf_move hmove id i hi) (fun k hk => ?_)
    (fun id hclaimed => ?_)
  · rw [journals_move hmove]
    exact hk
  · have hweight := weight_next hcall hmove id
    rw [claimsOf_move hclaim.first hmove hclaimed] at hweight
    omega

/-- An error below 500 leaves no attempt. -/
theorem weight_refused (honce : OnceInv channel s) (hinv : SettlementInv runtime channel s)
    {confirm : ConfirmInput} {row : Row} {status : ℕ} {code : Option String} {remote : Remote}
    (hcall : s.calls[n]? = some (.awaiting confirm row))
    (hanswer : s.shared.remote.answer (channel.idempotencyKey (key row)) (.callError status code) =
      some remote) (hstatus : status < 500) :
    (s.calls.set n (.answered confirm row (.callError status code))).countP
      (ChannelCall.unsent (key row)) + remote.weight (channel.idempotencyKey (key row)) = 0 := by
  have hcount := Pool.countP_next (f := ChannelCall.unsent (key row))
    (.answered confirm row (.callError status code)) hcall
  have hless := Remote.weight_error hstatus hanswer
  have hweight := hinv.weight (key row)
  have hfirst := honce.first (key row)
  simp only [ChannelCall.unsent, Bool.toNat_false] at hcount
  omega

/-- The invariant of the call that takes the step. -/
theorem callInv_self (hpending : ∀ confirm, channel.hash confirm ≠ channel.pendingHash)
    (honce : OnceInv channel s) (hinv : SettlementInv runtime channel s)
    (hclaim : ClaimsOnce channel s.shared x call) (hcall : s.calls[n]? = some call)
    (hmove : Move runtime channel s.shared call x s' call') :
    CallInv runtime channel s' (s.calls.set n call') call' := by
  have hself := callInv_next hclaim hcall hmove (hinv.calls call (Pool.mem_of_getElem? hcall))
  cases hmove with
  | @replayed confirm row e hkey hhash =>
    have hmem := List.mem_of_find?_eq_some hkey
    have hsame : (channel.terms row).owner = confirm.caller ∧
        channel.keyHash row = runtime.sha256 confirm.idempotencyKey := by
      simpa using List.find?_some hkey
    have hrow := hinv.rows _ _ (Table.find_of_mem hmem)
    -- a row with the hash of a confirm has been claimed
    cases hclaims : claimsOf s.shared (key row) with
    | nil =>
      rw [hrow.pending hclaims] at hhash
      exact absurd hhash.symm (hpending confirm)
    | cons first rest =>
      have hfirst : first ∈ claimsOf s.shared (key row) := hclaims ▸ List.mem_cons_self
      obtain ⟨howner, hkeyHash, hrequest⟩ := hrow.claimed first hfirst
      exact ⟨first, hfirst, howner ▸ hsame.1, hkeyHash ▸ hsame.2, hrequest ▸ hhash⟩
  | @claimed confirm row current e hfind htaken =>
    show confirm ∈ claimsOf _ (key (channel.claim current _ _ _))
    rw [channel.claim_key, Table.key_of_find hfind, claimsOf_claimRow, if_pos rfl]
    exact List.mem_append_right _ List.mem_cons_self
  | sent | noted => exact hself
  | @answered confirm row outcome remote hanswer hwrites =>
    refine ⟨hself, ?_, ?_⟩
    · rintro ⟨result, rfl⟩
      exact Remote.mem_journals_of_result hanswer
    · rintro ⟨status, code, rfl⟩
      exact weight_refused honce hinv hcall hanswer (of_decide_eq_true hwrites)
  | completed hfind => exact ⟨hself.1, (channel.complete_key _ _ _).trans (Table.key_of_find hfind)⟩
  | failed hfind => exact ⟨hself.1, (channel.fail_key _ _).trans (Table.key_of_find hfind)⟩
  | unanswered => exact ⟨_, hself, rfl, rfl, rfl⟩
  | unwritten | unnoted => exact ⟨_, hself.1, rfl, rfl, rfl⟩
  | returned =>
    refine ⟨_, ?_, rfl, rfl, rfl⟩
    rw [hself.2]
    exact hself.1
  | drafted | created | unknown | found | stopped => trivial

/-- A step that claims a row for the first time only keeps the invariant. -/
theorem inv_next (hpending : ∀ confirm, channel.hash confirm ≠ channel.pendingHash)
    (honce : OnceInv channel s) (hinv : SettlementInv runtime channel s)
    (hclaim : ClaimsOnce channel s.shared x call) (hcall : s.calls[n]? = some call)
    (hmove : Move runtime channel s.shared call x s' call') :
    SettlementInv runtime channel { shared := s', calls := s.calls.set n call' } := by
  constructor
  case weight =>
    intro id
    have hstep := weight_next hcall hmove id
    have hold := hinv.weight id
    show (s.calls.set n call').countP (ChannelCall.unsent id) + s'.remote.weight _ ≤
      (claimsOf s' id).length
    omega
  case rows =>
    intro id row hrow
    exact rowInv_next honce hinv hclaim hcall hmove hrow
  case calls =>
    refine Pool.forall_set ?_ (callInv_self hpending honce hinv hclaim hcall hmove)
    intro m q hm hq
    exact callInv_next hclaim hcall hmove (hinv.calls q (Pool.mem_of_getElem? hq))
  case apart =>
    intro id id' row row' hrow hrow' howner hsame
    by_contra hne
    rcases hmove.keyHash_cases hrow with ⟨old, hold, hterms, hkeyHash⟩ | ⟨hothers, hfresh⟩
    · rcases hmove.keyHash_cases hrow' with ⟨old', hold', hterms', hkeyHash'⟩ | ⟨hothers, hfresh⟩
      · refine hne (hinv.apart id id' old old' hold hold' ?_ ?_)
        · rw [← hterms, ← hterms', howner]
        · rw [← hkeyHash, ← hkeyHash', hsame]
      · exact hfresh id row (hothers id row hrow hne) hne howner hsame
    · exact hfresh id' row' (hothers id' row' hrow' (Ne.symm hne)) (Ne.symm hne) howner.symm
        hsame.symm

end Next

/-! ## Runs -/

section Runs

variable {initial : S → Prop} {other : S → X → Option S}
  {s t : ChannelState Row S N I D}
  {a : Pool.Action (ChannelStart I) ChannelInput (Outside X)} {id : String} {row : Row}

theorem inv_start (hinv : SettlementInv runtime channel s) {call : ChannelCall Row N I D}
    (hunsent : ∀ id, call.unsent id = false)
    (hcall : CallInv runtime channel s.shared (s.calls ++ [call]) call) :
    SettlementInv runtime channel { s with calls := s.calls ++ [call] } := by
  constructor
  case weight =>
    intro id
    rw [countP_start (hunsent id)]
    exact hinv.weight id
  case rows =>
    intro id row hrow
    have hold := hinv.rows id row hrow
    refine ⟨hold.pending, hold.claimed, ?_, hold.completed⟩
    rw [countP_start (hunsent id)]
    exact hold.failed
  case calls =>
    intro q hq
    rcases List.mem_append.mp hq with hq | hq
    · refine (hinv.calls q hq).mono (fun id i hi => hi) (fun k hk => hk) (fun id hclaimed => ?_)
      rw [countP_start (hunsent id)]
    · rw [List.mem_singleton.mp hq]
      exact hcall
  case apart => exact hinv.apart

theorem inv_env (hinv : SettlementInv runtime channel s) {s' : ChannelShared Row S}
    (hrows : s'.rows = s.shared.rows) (hclaims : s'.claims = s.shared.claims)
    (hremote : s'.remote = s.shared.remote ∨ ∃ k, s.shared.remote.post k = some s'.remote) :
    SettlementInv runtime channel { s with shared := s' } := by
  have hof : ∀ id, claimsOf s' id = claimsOf s.shared id := by
    intro id
    unfold claimsOf
    rw [hclaims]
  have hweight : ∀ k, s'.remote.weight k ≤ s.shared.remote.weight k := by
    intro k
    rcases hremote with heq | ⟨key, hpost⟩
    · rw [heq]
    · exact Remote.weight_post hpost
  have hjournals : ∀ k, k ∈ s.shared.remote.journals → k ∈ s'.remote.journals := by
    intro k hk
    rcases hremote with heq | ⟨key, hpost⟩
    · rw [heq]
      exact hk
    · exact Remote.mem_journals_post hpost hk
  constructor
  case weight =>
    intro id
    have hold := hinv.weight id
    have hle := hweight (channel.idempotencyKey id)
    show s.calls.countP (ChannelCall.unsent id) + s'.remote.weight _ ≤ (claimsOf s' id).length
    rw [hof]
    omega
  case rows =>
    intro id row hrow
    have hold := hinv.rows id row (hrows ▸ hrow)
    constructor
    · rw [hof]
      exact hold.pending
    · rw [hof]
      exact hold.claimed
    · intro hfailed
      have hzero := hold.failed hfailed
      have hle := hweight (channel.idempotencyKey id)
      show s.calls.countP (ChannelCall.unsent id) + s'.remote.weight _ = 0
      omega
    · intro hcompleted
      exact hjournals _ (hold.completed hcompleted)
  case calls =>
    intro q hq
    refine (hinv.calls q hq).mono (fun id i hi => ?_) hjournals (fun id hclaimed => ?_)
    · rw [hof]
      exact hi
    · exact Nat.add_le_add_left (hweight (channel.idempotencyKey id)) _
  case apart =>
    intro id id' row row' hrow hrow'
    exact hinv.apart id id' row row' (hrows ▸ hrow) (hrows ▸ hrow')

/-- The claims of a step that meets the condition. -/
theorem claimsOnce_next {n : ℕ} {x : ChannelInput} {call : ChannelCall Row N I D}
    (hC : claimsOnce (X := X) channel s (.next n x) = true) (hcall : s.calls[n]? = some call) :
    ClaimsOnce channel s.shared x call := by
  rintro confirm row current e rfl rfl hfind
  have hmeets := claimsMeet_claiming hC hcall hfind
  rw [Bool.and_eq_true, decide_eq_true_eq, decide_eq_true_eq, Table.key_of_find hfind] at hmeets
  exact hmeets

theorem once_reachable
    (h : (channelService runtime channel initial other).machine.Reachable
      (fun s a => claimsOnce channel s a = true) s) : OnceInv channel s := by
  refine onceInv_reachable ?_ h
  intro s n x call hC hcall
  exact (claimsOnce_next hC hcall).first

theorem inv_reachable (hpending : ∀ confirm, channel.hash confirm ≠ channel.pendingHash)
    (h : (channelService runtime channel initial other).machine.Reachable
      (fun s a => claimsOnce channel s a = true) s) : SettlementInv runtime channel s := by
  refine Machine.invariant_of_reachable (I := SettlementInv runtime channel) ?_ ?_ h
  · rintro s ⟨⟨hrows, -, hremote, -, -⟩, hcalls⟩
    have hnone : ∀ id, s.shared.rows.find id = none := by
      intro id
      rw [Table.find, hrows]
      rfl
    constructor
    · exact fun id => by simp [hcalls, hremote, Remote.weight]
    · intro id row hrow
      cases (hnone id).symm.trans hrow
    · intro call hcall
      rw [hcalls] at hcall
      cases hcall
    · intro id id' row row' hrow
      cases (hnone id).symm.trans hrow
  · intro s a t hs hinv hC hstep
    cases a with
    | start call =>
      rw [Pool.step_start hstep]
      cases call with
      | preview | confirm => exact inv_start hinv (fun id => rfl) trivial
    | next n x =>
      obtain ⟨call, s', call', hcall, hnext, rfl⟩ := Pool.step_next hstep
      exact inv_next hpending (once_reachable hs) hinv (claimsOnce_next hC hcall) hcall
        (move_of_next hnext)
    | env x =>
      obtain ⟨s', henv, rfl⟩ := Pool.step_env hstep
      obtain ⟨hrows, hclaims, -, hremote⟩ := env_spec henv
      exact inv_env hinv hrows hclaims hremote

/-- The lookup of the key of a confirm that has been returned. -/
theorem findByKey_confirmed (honce : OnceInv channel s) (hinv : SettlementInv runtime channel s)
    {input : ConfirmInput}
    (hcall : .confirmed input row ∈ s.calls) :
    ∃ row', findByKey runtime channel s.shared.rows input = some row' ∧ key row' = key row ∧
      channel.requestHash row' = channel.hash input := by
  obtain ⟨first, hfirst, hcaller, hkey, hhash⟩ := hinv.calls _ hcall
  cases hfind : s.shared.rows.find (key row) with
  | none =>
    rw [honce.absent _ hfind] at hfirst
    cases hfirst
  | some current =>
    obtain ⟨howner, hkeyHash, hrequest⟩ := (hinv.rows _ _ hfind).claimed first hfirst
    cases hlookup : findByKey runtime channel s.shared.rows input with
    | none =>
      have hnot := List.find?_eq_none.mp hlookup current (Table.find_some hfind).1
      simp [howner, hcaller, hkeyHash, hkey] at hnot
    | some row' =>
      have hsame : (channel.terms row').owner = input.caller ∧
          channel.keyHash row' = runtime.sha256 input.idempotencyKey := by
        simpa using List.find?_some hlookup
      have hrow' := Table.find_of_mem (List.mem_of_find?_eq_some hlookup)
      have hid : key row' = key row := by
        refine hinv.apart _ _ _ _ hrow' hfind ?_ ?_
        · rw [hsame.1, howner, hcaller]
        · rw [hsame.2, hkeyHash, hkey]
      rw [hid, hfind] at hrow'
      cases hrow'
      exact ⟨current, rfl, hid, by rw [hrequest, hhash]⟩

/-- The settlements of a service whose hash of a confirm is not that of no confirm. -/
theorem settlements_of (hpending : ∀ confirm, channel.hash confirm ≠ channel.pendingHash) :
    Settlements runtime channel (channelService runtime channel initial other)
      (fun s a => claimsOnce channel s a = true) := by
  constructor
  case final =>
    intro s t id row hs hrow hcompleted hpath
    refine ⟨row, ?_, hcompleted⟩
    refine Machine.Path.stable (P := fun t => t.shared.rows.find id = some row) hs ?_ hpath hrow
    intro u a v hu hC hstep hrow
    refine settled_step (once_reachable hu) ?_ hstep hrow ?_
    · rintro n x call rfl hcall
      exact (claimsOnce_next hC hcall).first
    · rw [hcompleted]
      exact Option.some_ne_none _
  case posted =>
    intro s row hs hrow hcompleted
    exact ((inv_reachable hpending hs).rows _ _ (Table.find_of_mem hrow)).completed hcompleted
  case unposted =>
    intro s row hs hrow hfailed hmem
    have hzero := ((inv_reachable hpending hs).rows _ _ (Table.find_of_mem hrow)).failed hfailed
    have hpos := List.count_pos_iff.mpr hmem
    unfold Remote.weight at hzero
    omega
  case once =>
    intro s id i j hs hi hj
    have hfirst := (once_reachable hs).first id
    obtain ⟨first, hsingle⟩ : ∃ first, claimsOf s.shared id = [first] := by
      cases hclaims : claimsOf s.shared id with
      | nil =>
        rw [hclaims] at hi
        cases hi
      | cons first rest =>
        rw [hclaims, List.length_cons] at hfirst
        rw [List.length_eq_zero_iff.mp (by omega : rest.length = 0)]
        exact ⟨first, rfl⟩
    rw [hsingle] at hi hj
    rw [List.mem_singleton.mp hi, List.mem_singleton.mp hj]
  case replays =>
    intro s input row e hs hcall
    obtain ⟨row', hfind, hid, hhash⟩ :=
      findByKey_confirmed (once_reachable hs) (inv_reachable hpending hs) hcall
    refine ⟨row', ?_, hid⟩
    simp only [channelNext, hfind]
    rw [if_neg (not_not.mpr hhash)]

end Runs

/-! ## Main results -/

/-- The hash of an object is never that of the text `pending`. -/
def PendingFree (runtime : Runtime) : Prop :=
  ∀ members, canonicalHash runtime members ≠ runtime.sha256 "pending"

/-- In every run in which a row is claimed once, and by its owner, the settlements of both
    services are final and agree with the Ledger. -/
theorem settlements (qrRuntime : QrRuntime) (runtime : Runtime) (limits : PaymentsLimits)
    (hqr : PendingFree qrRuntime.toRuntime) (hagent : PendingFree runtime) :
    Settlements qrRuntime.toRuntime (qrChannel qrRuntime) (qrService qrRuntime)
      (fun s a => claimsOnce (qrChannel qrRuntime) s a = true) ∧
    Settlements runtime (agentChannel runtime limits) (agentService runtime limits)
      (fun s a => claimsOnce (agentChannel runtime limits) s a = true) := by
  constructor
  · exact settlements_of fun confirm => hqr _
  · exact settlements_of fun confirm => hagent _

/-! ## Two claims of one row -/

/-- A COMPLETED row that the next step turns FAILED. -/
theorem not_settlements_of_step {service : ChannelPool Row S N I D X}
    {s t : ChannelState Row S N I D}
    {a : Pool.Action (ChannelStart I) ChannelInput (Outside X)} {id : String}
    (hs : service.machine.Reachable Machine.always s)
    (hcompleted : (s.shared.rows.find id).bind channel.settlement = some .completed)
    (hstep : service.machine.step s a = some t)
    (hfailed : (t.shared.rows.find id).bind channel.settlement = some .failed) :
    ¬ Settlements runtime channel service Machine.always := by
  intro h
  obtain ⟨row, hrow, hsettled⟩ := Option.bind_eq_some_iff.mp hcompleted
  obtain ⟨row', hrow', hkept⟩ := h.final s t id row hs hrow hsettled
    (Machine.Path.refl.tail trivial hstep)
  rw [hrow'] at hfailed
  cases hkept.symm.trans hfailed

/-- The confirm of the payment under token `t-1` with a key. -/
def confirmUnder (caller idempotencyKey : String) : ConfirmInput where
  caller := caller
  intentToken := "t-1"
  idempotencyKey := idempotencyKey

/-- Confirms 1 and 2 both find the row before either claims it, and both send its command.
    The Ledger posts it once, and tells the other that it is in progress. -/
def twoClaims {I X : Type} (caller id : String) :
    List (Pool.Action (ChannelStart I) ChannelInput (Outside X)) := [
  .start (.confirm (confirmUnder caller "k-1")), .start (.confirm (confirmUnder caller "k-2")),
  .next 1 (.run (plainEnv 0 "" "" 0)), .next 2 (.run (plainEnv 0 "" "" 0)),
  .next 1 (.run (plainEnv 0 "" "" 0)), .next 2 (.run (plainEnv 0 "" "" 0)),
  .next 1 (.run (plainEnv 0 "" "" 0)), .next 2 (.run (plainEnv 0 "" "" 0)),
  .next 1 (.run (plainEnv 0 "" "" 0)), .next 2 (.run (plainEnv 0 "" "" 0)),
  .env (.post id),
  .next 1 (.reply (.result ⟨"j-1", "p-1", "p-2", 0, 500⟩)),
  .next 2 (.reply (.callError 409 (some "IDEMPOTENCY_IN_PROGRESS"))),
  .next 1 (.run (plainEnv 0 "" "" 0))]

/-- Alice scans the code of the shop. -/
def scan : List (Pool.Action (ChannelStart QrPreviewInput) ChannelInput (Outside QrIssue)) := [
  .env (.other (fiveRupeeIssue .STATIC)),
  .start (.preview ⟨"STATIC", "alice", "account-alice"⟩),
  .next 0 (.run (plainEnv 0 "pay-1" "t-1" 0)), .next 0 (.run (plainEnv 0 "pay-1" "t-1" 0))]

/-- Agent 1 previews a cash-in. -/
def previewCashIn :
    List (Pool.Action (ChannelStart AgentPreviewInput) ChannelInput (Outside Empty)) := [
  .start (.preview (cashIn 500)),
  .next 0 (.run (plainEnv 0 "op-1" "t-1" 0)), .next 0 (.run (plainEnv 0 "op-1" "t-1" 0))]

theorem plainRuntime_pendingFree : PendingFree plainRuntime := by
  intro members h
  have hlist := congrArg String.toList h
  simp only [canonicalHash, plainRuntime, String.toList_append] at hlist
  have hsecond := congrArg (fun l => l.drop 1 |>.head?) hlist
  simp at hsecond

/-- Not in every run, of either service: the second of two claims of one row fails what the
    first has completed. -/
theorem settled_twice :
    (¬ ∀ runtime : QrRuntime, PendingFree runtime.toRuntime →
      Settlements runtime.toRuntime (qrChannel runtime) (qrService runtime) Machine.always) ∧
    ¬ ∀ (runtime : Runtime) (limits : PaymentsLimits), PendingFree runtime →
      Settlements runtime (agentChannel runtime limits) (agentService runtime limits)
        Machine.always := by
  constructor
  · intro h
    have hrun : ((qrService plainQrRuntime).machine.run noQrPayments
        (scan ++ twoClaims "alice" "qr-pay:pay-1")).any (fun s =>
          decide ((s.shared.rows.find "pay-1").bind (qrChannel plainQrRuntime).settlement =
            some .completed) &&
          ((qrService plainQrRuntime).machine.step s (.next 2 (.run (plainEnv 0 "" "" 0)))).any
            fun t => decide ((t.shared.rows.find "pay-1").bind
              (qrChannel plainQrRuntime).settlement = some .failed)) = true := by decide
    obtain ⟨s, hs, hp⟩ :=
      Machine.reachable_of_run _ _ (noQrPayments_init plainQrRuntime) hrun
    simp only [Bool.and_eq_true, decide_eq_true_eq] at hp
    obtain ⟨t, hstep, hfailed⟩ := (Option.any_eq_true _ _).mp hp.2
    exact not_settlements_of_step hs hp.1 hstep (of_decide_eq_true hfailed)
      (h plainQrRuntime plainRuntime_pendingFree)
  · intro h
    have hrun : ((agentService plainRuntime defaultLimits).machine.run noOperations
        (previewCashIn ++ twoClaims "agent-1" "agent-cash:op-1")).any (fun s =>
          decide ((s.shared.rows.find "op-1").bind
            (agentChannel plainRuntime defaultLimits).settlement = some .completed) &&
          ((agentService plainRuntime defaultLimits).machine.step s
            (.next 2 (.run (plainEnv 0 "" "" 0)))).any
              fun t => decide ((t.shared.rows.find "op-1").bind
                (agentChannel plainRuntime defaultLimits).settlement = some .failed)) = true := by
      decide
    obtain ⟨s, hs, hp⟩ :=
      Machine.reachable_of_run _ _ (noOperations_init plainRuntime defaultLimits) hrun
    simp only [Bool.and_eq_true, decide_eq_true_eq] at hp
    obtain ⟨t, hstep, hfailed⟩ := (Option.any_eq_true _ _).mp hp.2
    exact not_settlements_of_step hs hp.1 hstep (of_decide_eq_true hfailed)
      (h plainRuntime defaultLimits plainRuntime_pendingFree)

/-- One confirm of the operation, which the Ledger posts. -/
def oneClaim : List (Pool.Action (ChannelStart AgentPreviewInput) ChannelInput (Outside Empty)) := [
  .start (.confirm (confirmUnder "agent-1" "k-1")),
  .next 1 (.run (plainEnv 0 "" "" 0)), .next 1 (.run (plainEnv 0 "" "" 0)),
  .next 1 (.run (plainEnv 0 "" "" 0)), .next 1 (.run (plainEnv 0 "" "" 0)),
  .env (.post "agent-cash:op-1"),
  .next 1 (.reply (.result ⟨"j-1", "p-1", "p-2", 0, 500⟩)),
  .next 1 (.run (plainEnv 0 "" "" 0)), .next 1 (.run (plainEnv 0 "" "" 0)),
  .next 1 (.run (plainEnv 0 "" "" 0))]

/-- It leaves the operation COMPLETED, with its journal. -/
theorem settlements_one : ∃ s : Pool.State (ChannelShared AgentCashOperationRow
    (List AgentCashEvent)) (ChannelCall AgentCashOperationRow AgentCashEvent AgentPreviewInput
      AgentDraft),
    ∃ row, row ∈ s.shared.rows.rows ∧ row.status = .COMPLETED ∧
      "agent-cash:" ++ row.id ∈ s.shared.remote.journals := by
  have hrun : ((agentService plainRuntime defaultLimits).machine.runUnder
      (claimsOnce (agentChannel plainRuntime defaultLimits)) noOperations
      (previewCashIn ++ oneClaim)).any (fun s =>
        decide (s.shared.rows.rows.map AgentCashOperationRow.status = [.COMPLETED])) = true := by
    decide
  obtain ⟨s, hs, hp⟩ := Machine.reachable_of_runUnder _ _ _ (fun _ _ h => h)
    (noOperations_init plainRuntime defaultLimits) hrun
  obtain ⟨row, hrow, hstatus⟩ := List.mem_map.mp
    (of_decide_eq_true hp ▸ List.mem_cons_self :
      AgentCashOperationStatus.COMPLETED ∈ s.shared.rows.rows.map AgentCashOperationRow.status)
  refine ⟨s, row, hrow, hstatus, ?_⟩
  refine (settlements plainQrRuntime plainRuntime defaultLimits plainRuntime_pendingFree
    plainRuntime_pendingFree).2.posted s row hs hrow ?_
  show row.status.settlement = some .completed
  rw [hstatus]
  rfl

end AegisShield.Payments
