import AegisShield.Payments.CommandSchema
import AegisShield.Payments.Settlement

/-!
# The availability of QR codes

Who can preview a code, and how often one is paid (`qr.service.ts`, lines 139-278 and 502-592).
A preview inserts a redemption, and a request has one redemption at most
(`schema.prisma`, line 192). A redemption is COMPLETED when the Ledger has executed its
command, which the Ledger parses first (`customer-transfer.controller.ts`, line 26).

Results:
* `qr_availability`: an ACTIVE, unexpired code can be previewed exactly when it has no redemption,
  its currency is LKR and its amount, if it has one, is positive; a code is paid by one payer at
  most, whatever the Ledger executes, and by none when the Ledger executes what its schema accepts.
* `abandoned_preview_blocks`: one abandoned preview keeps all other payers out.
-/

namespace AegisShield.Payments

open Common

variable {runtime : QrRuntime}

/-- The request is the one that `issue` created, as far as its status goes. -/
def IssuedAs (runtime : QrRuntime) (new : QrIssue) (request : QrPaymentRequestRow) : Prop :=
  ∃ amountMinor, new.amount runtime = some amountMinor ∧
    new.row runtime amountMinor = { request with status := .ACTIVE, redeemedAt := none }

/-- What Node does with the code that `issue` returns: JSON, base64url and the ISO date give
    back what they were made from, and a digest has bytes. -/
structure Readable (runtime : QrRuntime) (new : QrIssue) : Prop where
  decodes : runtime.decodeJson (runtime.encodeJson (new.payload runtime).toJson) =
    some (new.payload runtime).toJson
  dates : runtime.parseDate (runtime.toISOString new.expiresAt) = some new.expiresAt
  digests : bufferFromHex (new.payload runtime).signature.toList ≠ []

/-- The values that a preview generates are new. -/
structure Fresh (runtime : QrRuntime) (redemptions : Table QrRedemptionRow) (payer : String)
    (e : Env) : Prop where
  id : redemptions.find e.uuid = none
  reference : ∀ row ∈ redemptions.rows, row.displayReference ≠ newQrPaymentReference e.random
  token : ∀ row ∈ redemptions.rows, row.intentTokenHash ≠ runtime.sha256 e.token
  keyHash : ∀ row ∈ redemptions.rows, row.senderCustomerId = payer →
    row.idempotencyKeyHash ≠ runtime.sha256 ("temp-" ++ e.token)

/-- A preview of the code by a payer, its two steps with `e₁` and `e₂`, creates a redemption
    of the request. -/
def Previews (runtime : QrRuntime) (s : QrState) (input : QrPreviewInput)
    (request : QrPaymentRequestRow) (e₁ e₂ : Env) : Prop :=
  ∃ t row, (qrService runtime).machine.run s [.start (.preview input),
      .next s.calls.length (.run e₁), .next s.calls.length (.run e₂)] = some t ∧
    t.calls[s.calls.length]? = some (.previewed row) ∧ row ∈ t.shared.rows.rows ∧
    row.qrPaymentRequestId = request.id ∧ row.senderCustomerId = input.senderCustomerId

/-! ## The checks of a preview -/

section Checks

variable {new : QrIssue} {request : QrPaymentRequestRow} {now : ℕ} {payer : String}

theorem decode_code (hreadable : Readable runtime new) :
    decodeQrPayload runtime (new.code runtime) = some (new.payload runtime) := by
  show (runtime.decodeJson (runtime.encodeJson (new.payload runtime).toJson)).bind _ = _
  rw [hreadable.decodes]
  exact isSignedQrPayload_toJson _

theorem verify_payload (hreadable : Readable runtime new) :
    verifyQrSignature runtime (new.payload runtime) = true := by
  have hlength : (bufferFromHex (new.payload runtime).signature.toList).length ≠ 0 :=
    fun hzero => hreadable.digests (List.length_eq_zero_iff.mp hzero)
  have hexpected : runtime.hmacSha256 runtime.qrSigningKey
      (canonicalPayloadString runtime (new.payload runtime).toQrPayloadData) =
        (new.payload runtime).signature := rfl
  simp [verifyQrSignature, hexpected, hlength]

/-- The amount of a request, if it has one, is positive. -/
def Payable (request : QrPaymentRequestRow) : Prop :=
  ∀ amount, request.amountMinor = some amount → 0 < amount

theorem checkAmount_payload (hissued : IssuedAs runtime new request) :
    checkAmount runtime (new.payload runtime) = .ok () ↔ Payable request := by
  obtain ⟨amountMinor, hamount, hrow⟩ := hissued
  have hsame : request.amountMinor = amountMinor :=
    (congrArg QrPaymentRequestRow.amountMinor hrow).symm
  have hpayload : (new.payload runtime).amountMinor = QrIssue.given new.amountMinor := rfl
  unfold checkAmount Payable
  rw [hpayload, hsame]
  unfold QrIssue.amount at hamount
  cases hgiven : QrIssue.given new.amountMinor with
  | none =>
    rw [hgiven] at hamount
    cases hamount
    simp
  | some text =>
    rw [hgiven] at hamount
    obtain ⟨amount, hbig, rfl⟩ := Option.map_eq_some_iff.mp hamount
    simp only [hbig, Option.some.injEq, forall_eq']
    split_ifs with hle
    · simp [hle]
    · simpa using hle

theorem checkPayload_payload (hissued : IssuedAs runtime new request)
    (hreadable : Readable runtime new) (hunexpired : now < request.expiresAt) :
    checkPayload runtime (new.payload runtime) now = .ok () ↔
      request.currency = "LKR" ∧ Payable request := by
  have hamount := checkAmount_payload hissued
  obtain ⟨amountMinor, -, hrow⟩ := hissued
  have hcurrency : (new.payload runtime).currency = request.currency :=
    congrArg QrPaymentRequestRow.currency hrow
  have hexpires : new.expiresAt = request.expiresAt :=
    congrArg QrPaymentRequestRow.expiresAt hrow
  have hdate : runtime.parseDate (new.payload runtime).expiresAt = some new.expiresAt :=
    hreadable.dates
  have hversion : (new.payload runtime).version = QR_PROTOCOL_VERSION := rfl
  have hlate : ¬ request.expiresAt ≤ now := not_le.mpr hunexpired
  unfold checkPayload
  rw [hversion, verify_payload hreadable, hdate, hcurrency, hexpires]
  simp only [ne_eq, not_true_eq_false, if_false, Bool.not_true, Bool.false_eq_true, Option.any_some,
    hlate, decide_false]
  split_ifs with hLKR
  · simp [hLKR, hamount]
  · simp [hLKR]

theorem checkRecord_active (hactive : request.status = .ACTIVE)
    (hpayer : payer ≠ request.recipientCustomerId) : checkRecord request payer = .ok () := by
  unfold checkRecord
  simp [hactive, Ne.symm hpayer]

end Checks

/-! ## A preview alone -/

section Alone

variable {Row S N I D X : Type} [Keyed Row String] {runtime : Runtime}
  {channel : Channel Row S N I D} {initial : S → Prop} {other : S → X → Option S}
  {s t : ChannelState Row S N I D} {row : Row}

/-- The last call of a pool takes a step. -/
theorem step_last {calls : List (ChannelCall Row N I D)} {shared : ChannelShared Row S}
    {call : ChannelCall Row N I D} {x : ChannelInput} :
    (channelService runtime channel initial other).machine.step
        { shared := shared, calls := calls ++ [call] } (.next calls.length x) =
      (channelNext runtime channel shared call x).map fun next =>
        { shared := next.1, calls := calls ++ [next.2] } := by
  simp only [Pool.machine, List.getElem?_concat_length, List.set_append_right _ _ le_rfl,
    Nat.sub_self, List.set_cons_zero]
  rfl

/-- A preview alone creates a row when its draft, its creation and its insert succeed. -/
theorem preview_run {input : I} {e₁ e₂ : Env} :
    ((channelService runtime channel initial other).machine.run s [.start (.preview input),
        .next s.calls.length (.run e₁), .next s.calls.length (.run e₂)] = some t ∧
      t.calls[s.calls.length]? = some (.previewed row)) ↔
    ∃ draft notes rows, channel.draft s.shared.rows s.shared.side input e₁ = .ok draft ∧
      channel.create draft e₂ = .ok (row, notes) ∧
      insertRow channel s.shared.rows row = some rows ∧
      t = { shared := { s.shared with
              rows := rows
              side := notes.foldl channel.apply s.shared.side
              origins := s.shared.origins ++ [(key row,
                { readAt := e₁.now, claimsSeen := s.shared.claims.length })] }
            calls := s.calls ++ [.previewed row] } := by
  have hstart : (channelService runtime channel initial other).machine.step s
      (.start (.preview input)) =
        some { s with calls := s.calls ++ [.previewing input] } := rfl
  simp only [Machine.run, hstart, Option.bind_some, step_last]
  cases hdraft : channel.draft s.shared.rows s.shared.side input e₁ with
  | error e => simp [channelNext, hdraft, step_last]
  | ok draft =>
    simp only [channelNext, hdraft, Option.map_some, Option.bind_some, step_last]
    cases hcreate : channel.create draft e₂ with
    | error e =>
      constructor
      · rintro ⟨hrun, hcall⟩
        cases hrun
        simp at hcall
      · rintro ⟨draft', notes, rows, hdraft', hcreate', -⟩
        cases hdraft'
        rw [hcreate] at hcreate'
        cases hcreate'
    | ok created =>
      obtain ⟨new, notes⟩ := created
      dsimp only
      cases hinsert : insertRow channel s.shared.rows new with
      | none =>
        constructor
        · rintro ⟨hrun, hcall⟩
          cases hrun
          simp at hcall
        · rintro ⟨draft', notes, rows, hdraft', hcreate', hinsert', -⟩
          cases hdraft'
          rw [hcreate] at hcreate'
          cases hcreate'
          rw [hinsert] at hinsert'
          cases hinsert'
      | some rows =>
        constructor
        · rintro ⟨hrun, hcall⟩
          cases hrun
          obtain rfl : new = row := by simpa using hcall
          exact ⟨draft, notes, rows, rfl, hcreate, hinsert, rfl⟩
        · rintro ⟨draft', notes', rows', hdraft', hcreate', hinsert', rfl⟩
          cases hdraft'
          rw [hcreate] at hcreate'
          cases hcreate'
          rw [hinsert] at hinsert'
          cases hinsert'
          exact ⟨rfl, by simp⟩

end Alone

/-! ## Invariants -/

section Invariants

variable {s : QrState} {d : QrTables} {C : QrState → QrAction → Prop}

/-- The requests are issued ones, and no two have one nonce. -/
structure RequestsInv (runtime : QrRuntime) (d : QrTables) : Prop where
  issued : ∀ request ∈ d.requests.rows, ∃ new, IssuedAs runtime new request
  apart : ∀ request ∈ d.requests.rows, ∀ other ∈ d.requests.rows,
    request.nonceHash = other.nonceHash → request.id = other.id

theorem requestsInv_apply (h : RequestsInv runtime d) (note : QrNote) :
    RequestsInv runtime (d.apply note) := by
  unfold QrTables.apply
  split
  next id redeemedAt =>
    split
    · exact h
    next request hfind =>
      have hmem := (Table.find_some hfind).1
      -- an updated row has the nonce and the origin of the row it was
      have hold : ∀ row ∈ (d.requests.put
          { request with status := .REDEEMED, redeemedAt := some redeemedAt }).rows,
          ∃ old ∈ d.requests.rows, row.id = old.id ∧ row.nonceHash = old.nonceHash ∧
            { row with status := .ACTIVE, redeemedAt := none } =
              { old with status := .ACTIVE, redeemedAt := none } := by
        intro row hrow
        obtain ⟨old, holdmem, rfl⟩ := List.mem_map.mp hrow
        split_ifs with hkey
        · exact ⟨request, hmem, rfl, rfl, rfl⟩
        · exact ⟨old, holdmem, rfl, rfl, rfl⟩
      constructor
      · intro row hrow
        obtain ⟨old, holdmem, -, -, hsame⟩ := hold row hrow
        obtain ⟨new, amountMinor, hamount, hnew⟩ := h.issued old holdmem
        exact ⟨new, amountMinor, hamount, hnew.trans hsame.symm⟩
      · intro row hrow row' hrow' hnonce
        obtain ⟨old, holdmem, hid, hsame, -⟩ := hold row hrow
        obtain ⟨old', holdmem', hid', hsame', -⟩ := hold row' hrow'
        rw [hid, hid']
        exact h.apart old holdmem old' holdmem' (by rw [← hsame, ← hsame', hnonce])
  · exact ⟨h.issued, h.apart⟩

theorem requestsInv_issue (h : RequestsInv runtime d) {new : QrIssue} {d' : QrTables}
    (hissue : issue runtime d new = some d') : RequestsInv runtime d' := by
  unfold issue at hissue
  obtain ⟨amountMinor, hamount, hissue⟩ := Option.bind_eq_some_iff.mp hissue
  split_ifs at hissue with htaken
  obtain ⟨requests, hinsert, hissue⟩ := Option.bind_eq_some_iff.mp hissue
  cases hissue
  have hrows := (Table.insert_some hinsert).2
  have hfree : ∀ request ∈ d.requests.rows, request.nonceHash ≠ runtime.sha256 new.nonce := by
    simpa using htaken
  constructor
  · intro request hrequest
    rcases List.mem_append.mp (hrows ▸ hrequest) with hold | hlast
    · exact h.issued request hold
    · rw [List.mem_singleton.mp hlast]
      exact ⟨new, amountMinor, hamount, rfl⟩
  · intro request hrequest other hother hnonce
    rcases List.mem_append.mp (hrows ▸ hrequest) with hold | hlast
    · rcases List.mem_append.mp (hrows ▸ hother) with hold' | hlast'
      · exact h.apart request hold other hold' hnonce
      · rw [List.mem_singleton.mp hlast'] at hnonce
        exact absurd hnonce (hfree request hold)
    · rcases List.mem_append.mp (hrows ▸ hother) with hold' | hlast'
      · rw [List.mem_singleton.mp hlast] at hnonce
        exact absurd hnonce.symm (hfree other hold')
      · rw [List.mem_singleton.mp hlast, List.mem_singleton.mp hlast']

theorem requestsInv_reachable (h : (qrService runtime).machine.Reachable C s) :
    RequestsInv runtime s.shared.side := by
  refine side_reachable ?_ ?_ ?_ h
  · rintro d ⟨hrows, -⟩
    constructor <;> simp [hrows]
  · exact fun d note hd => requestsInv_apply hd note
  · exact fun d x d' hd hissue => requestsInv_issue hd hissue

/-- A request has one redemption at most. -/
theorem redemptions_apart (h : (qrService runtime).machine.Reachable C s) :
    ∀ id id' row row', s.shared.rows.find id = some row → s.shared.rows.find id' = some row' →
      row.qrPaymentRequestId = row'.qrPaymentRequestId → id = id' := by
  refine Machine.invariant (I := fun s : QrState =>
    ∀ id id' row row', s.shared.rows.find id = some row → s.shared.rows.find id' = some row' →
      row.qrPaymentRequestId = row'.qrPaymentRequestId → id = id') ?_ ?_ h
  · rintro s ⟨⟨hrows, -⟩, -⟩ id id' row row' hrow
    have hmem := (Table.find_some hrow).1
    rw [hrows] at hmem
    cases hmem
  · intro s a t hs hC hstep
    cases a with
    | start call =>
      rw [Pool.step_start hstep]
      exact hs
    | env x =>
      obtain ⟨s', henv, rfl⟩ := Pool.step_env hstep
      show ∀ id id' row row', s'.rows.find id = some row → s'.rows.find id' = some row' → _
      rw [(env_spec henv).1]
      exact hs
    | next n x =>
      obtain ⟨call, s', call', -, hnext, rfl⟩ := Pool.step_next hstep
      refine (move_of_next hnext).unique QrRedemptionRow.qrPaymentRequestId ?_ ?_ ?_ hs
      · intro new row hsame
        show qrConflicts new row = true
        simp [qrConflicts, hsame]
      · intro row k h now
        rfl
      · intro current outcome updated hsettles
        cases hsettles with
        | completed | failed => rfl

end Invariants

/-! ## What the Ledger executes -/

/-- The Ledger executes a command under a key only when it has been sent one that its
    controller's schema accepts (`customer-transfer.controller.ts`, line 26). -/
def ledgerParses (zod : Zod) (s : QrState) : QrAction → Prop
  | .env (.post idempotencyKey) => ∃ command ∈ s.shared.remote.commands,
      command.idempotencyKey = idempotencyKey ∧
        internalLedgerTransferCommandSchema zod command.body = true
  | _ => True

/-- Each of the payers has a COMPLETED redemption of the request. -/
def PaidBy (s : QrState) (id : String) (payers : List String) : Prop :=
  ∀ payer ∈ payers, ∃ row ∈ s.shared.rows.rows, row.qrPaymentRequestId = id ∧
    row.senderCustomerId = payer ∧ row.status = .COMPLETED

/-- The Ledger refuses every command that has been sent and has executed none, no call has a
    result to write, and no redemption is COMPLETED. -/
structure Unsettled (zod : Zod) (s : QrState) : Prop where
  refused : ∀ command ∈ s.shared.remote.commands,
    internalLedgerTransferCommandSchema zod command.body = false
  journals : s.shared.remote.journals = []
  results : ∀ call ∈ s.calls, ∀ input row result, call ≠ .answered input row (.result result)
  incomplete : ∀ id row, s.shared.rows.find id = some row → row.status ≠ .COMPLETED

section Executed

variable {zod : Zod} {s : QrState} {C : QrState → QrAction → Prop}

/-- The references of stored redemptions, and of those about to be settled. -/
theorem qr_reference (h : (qrService runtime).machine.Reachable C s) :
    (∀ id row, s.shared.rows.find id = some row →
      ∃ bytes, row.displayReference = newQrPaymentReference bytes) ∧
    ∀ call ∈ s.calls, ∀ input row, call = .settling input row →
      ∃ bytes, row.displayReference = newQrPaymentReference bytes := by
  refine row_reachable (P := fun row => ∃ bytes, row.displayReference = newQrPaymentReference bytes)
    ?_ ?_ ?_ h
  · intro draft e row notes hcreate
    have hcreate : qrCreate runtime draft e = .ok (row, notes) := hcreate
    unfold qrCreate at hcreate
    split at hcreate
    · cases hcreate
      exact ⟨e.random, rfl⟩
    · cases hcreate
    · cases hcreate
  · exact fun row k requestHash now h => h
  · intro current outcome updated hsettles h
    cases hsettles with
    | completed | failed => exact h

theorem schema_qrCommand {d : QrTables} {row : QrRedemptionRow}
    (h : ∃ bytes, row.displayReference = newQrPaymentReference bytes) :
    internalLedgerTransferCommandSchema zod (qrCommand d row).body = false := by
  obtain ⟨bytes, hreference⟩ := h
  have hrefused : transferDisplayReferenceSchema.accepts row.displayReference = false := by
    rw [hreference]
    exact not_accepts_newQrPaymentReference bytes
  exact schema_of_reference rfl hrefused

theorem status_of_settlement {status : QrPaymentStatus} (h : status.settlement = none) :
    status ≠ .COMPLETED := by
  rintro rfl
  cases h

variable {s' : ChannelShared QrRedemptionRow QrTables}
  {call call' : ChannelCall QrRedemptionRow QrNote QrPreviewInput QrDraft} {x : ChannelInput}

/-- A step of a call sends the command of a redemption at most. -/
theorem commands_move (hmove : Move runtime.toRuntime (qrChannel runtime) s.shared call x s' call') :
    s'.remote.commands = s.shared.remote.commands ∨ ∃ input row, call = .settling input row ∧
      s'.remote.commands = s.shared.remote.commands ++ [qrCommand s.shared.side row] := by
  cases hmove with
  | sent => exact .inr ⟨_, _, rfl, rfl⟩
  | answered hanswer hwrites => exact .inl (Remote.kept_by_answer hanswer).2
  | _ => exact .inl rfl

/-- It gets a result for a journal only. -/
theorem results_move (hjournals : s.shared.remote.journals = [])
    (hmove : Move runtime.toRuntime (qrChannel runtime) s.shared call x s' call')
    {input : ConfirmInput} {row : QrRedemptionRow} {result : InternalLedgerTransferResult} :
    call' ≠ .answered input row (.result result) := by
  rintro rfl
  cases hmove with
  | answered hanswer hwrites =>
    have hmem := Remote.mem_journals_of_result hanswer
    rw [(Remote.kept_by_answer hanswer).1, hjournals] at hmem
    exact absurd hmem List.not_mem_nil

theorem unsettled_next (hs : (qrService runtime).machine.Reachable C s) (h : Unsettled zod s)
    {n : ℕ} (hcall : s.calls[n]? = some call)
    (hmove : Move runtime.toRuntime (qrChannel runtime) s.shared call x s' call') :
    Unsettled zod { shared := s', calls := s.calls.set n call' } where
  refused command hcommand := by
    rcases commands_move hmove with hkept | ⟨input, row, rfl, hsent⟩
    · exact h.refused command (hkept ▸ hcommand)
    · rcases List.mem_append.mp (hsent ▸ hcommand) with hold | hnew
      · exact h.refused command hold
      · rw [List.mem_singleton.mp hnew]
        exact schema_qrCommand
          ((qr_reference hs).2 _ (Pool.mem_of_getElem? hcall) input row rfl)
  journals := (journals_move hmove).trans h.journals
  results other hother input row result := by
    rcases List.mem_or_eq_of_mem_set hother with hold | rfl
    · exact h.results other hold input row result
    · exact results_move h.journals hmove
  incomplete id row hrow := by
    rcases hmove.row_cases hrow with ⟨hold, -⟩ |
      ⟨-, -, draft, origin, e, notes, -, -, hcreate, -⟩ |
      ⟨confirm, claimed, current, e, -, -, -, hfind, -, rfl, -, -⟩ |
      ⟨confirm, settled, current, outcome, notes, rfl, -, -, -, hsettles, -⟩
    · exact h.incomplete id row hold
    · exact status_of_settlement ((qrChannel runtime).create_settlement _ _ _ _ hcreate)
    · exact h.incomplete id current hfind
    · cases hsettles with
      | completed result now =>
        exact absurd rfl (h.results _ (Pool.mem_of_getElem? hcall) confirm settled result)
      | failed status code now => rintro ⟨⟩

/-- The Ledger executes nothing. -/
theorem not_ledgerParses (h : Unsettled zod s) (idempotencyKey : String) :
    ¬ ledgerParses zod s (.env (.post idempotencyKey)) := by
  rintro ⟨command, hcommand, -, haccepted⟩
  rw [h.refused command hcommand] at haccepted
  cases haccepted

theorem unsettled_reachable (h : (qrService runtime).machine.Reachable (ledgerParses zod) s) :
    Unsettled zod s := by
  refine Machine.invariant_of_reachable (I := Unsettled zod) ?_ ?_ h
  · rintro s ⟨⟨hrows, -, hremote, -⟩, hcalls⟩
    refine ⟨?_, ?_, ?_, ?_⟩
    · rw [hremote]
      exact fun _ hmem => absurd hmem List.not_mem_nil
    · rw [hremote]
    · rw [hcalls]
      exact fun _ hmem => absurd hmem List.not_mem_nil
    · intro id row hrow
      have hmem := (Table.find_some hrow).1
      rw [hrows] at hmem
      cases hmem
  · intro s a t hs hinv hparses hstep
    cases a with
    | start call =>
      rw [Pool.step_start hstep]
      refine ⟨hinv.refused, hinv.journals, fun other hother => ?_, hinv.incomplete⟩
      rcases List.mem_append.mp hother with hold | hnew
      · exact hinv.results other hold
      · rw [List.mem_singleton.mp hnew]
        cases call with
        | preview | confirm => exact fun _ _ _ h => by cases h
    | env x =>
      obtain ⟨s', henv, rfl⟩ := Pool.step_env hstep
      cases x with
      | post idempotencyKey => exact absurd hparses (not_ledgerParses hinv idempotencyKey)
      | other new =>
        obtain ⟨side, -, rfl⟩ := Option.map_eq_some_iff.mp henv
        exact ⟨hinv.refused, hinv.journals, hinv.results, hinv.incomplete⟩
    | next n x =>
      obtain ⟨call, s', call', hcall, hnext, rfl⟩ := Pool.step_next hstep
      exact unsettled_next hs hinv hcall (move_of_next hnext)

/-- No payer pays. -/
theorem paidBy_iff (hs : (qrService runtime).machine.Reachable (ledgerParses zod) s) {id : String}
    {payers : List String} :
    (∃ t, (qrService runtime).machine.Path (ledgerParses zod) s t ∧ PaidBy t id payers) ↔
      payers = [] := by
  constructor
  · rintro ⟨t, hpath, hpaid⟩
    refine List.eq_nil_iff_forall_not_mem.mpr fun payer hpayer => ?_
    obtain ⟨row, hrow, -, -, hcompleted⟩ := hpaid payer hpayer
    exact (unsettled_reachable (hs.path hpath)).incomplete _ row (Table.find_of_mem hrow) hcompleted
  · rintro rfl
    exact ⟨s, .refl, fun payer hpayer => absurd hpayer List.not_mem_nil⟩

end Executed

/-! ## Main results -/

section Main

variable {s : QrState} {new : QrIssue}
  {request : QrPaymentRequestRow} {payer account : String} {e₁ e₂ : Env}

/-- What a preview of a code knows before its transaction. -/
def codeDraft (runtime : QrRuntime) (new : QrIssue) (request : QrPaymentRequestRow)
    (payer account : String) : QrDraft where
  input := ⟨new.code runtime, payer, account⟩
  record := request
  decoded := new.payload runtime

/-- The draft of a preview of an ACTIVE, unexpired code. -/
theorem qrDraft_code {d : QrTables} {now : ℕ} {draft : QrDraft} (hinv : RequestsInv runtime d)
    (hmem : request ∈ d.requests.rows) (hissued : IssuedAs runtime new request)
    (hreadable : Readable runtime new) (hactive : request.status = .ACTIVE)
    (hunexpired : now < request.expiresAt) (hpayer : payer ≠ request.recipientCustomerId) :
    qrDraft runtime d ⟨new.code runtime, payer, account⟩ now = .ok draft ↔
      (request.currency = "LKR" ∧ Payable request) ∧
        draft = codeDraft runtime new request payer account := by
  have hnonce : request.nonceHash = runtime.sha256 (new.payload runtime).nonce := by
    obtain ⟨amountMinor, -, hrow⟩ := hissued
    exact (congrArg QrPaymentRequestRow.nonceHash hrow).symm
  have hfind : d.requests.rows.find? (fun r =>
      r.nonceHash = runtime.sha256 (new.payload runtime).nonce) = some request := by
    cases hfind : d.requests.rows.find? fun r =>
        r.nonceHash = runtime.sha256 (new.payload runtime).nonce with
    | none =>
      have hnot := List.find?_eq_none.mp hfind request hmem
      simp [hnonce] at hnot
    | some other =>
      have hother := List.mem_of_find?_eq_some hfind
      have hsame : other.nonceHash = runtime.sha256 (new.payload runtime).nonce := by
        simpa using List.find?_some hfind
      have hid : key other = key request :=
        hinv.apart other hother request hmem (hsame.trans hnonce.symm)
      have hstored := Table.find_of_mem hother
      rw [hid, Table.find_of_mem hmem] at hstored
      rw [Option.some.inj hstored]
  rw [qrDraft_eq_ok]
  constructor
  · rintro ⟨decoded, record, hdecode, hpayload, hrecord, -, rfl⟩
    rw [decode_code hreadable] at hdecode
    cases hdecode
    rw [hfind] at hrecord
    cases hrecord
    exact ⟨(checkPayload_payload hissued hreadable hunexpired).mp hpayload, rfl⟩
  · rintro ⟨hpayable, rfl⟩
    exact ⟨_, _, decode_code hreadable,
      (checkPayload_payload hissued hreadable hunexpired).mpr hpayable, hfind,
      checkRecord_active hactive hpayer, rfl⟩

/-- What a preview inserts, once the account is found. -/
theorem qrCreate_found (runtime : QrRuntime) (draft : QrDraft) {e : Env}
    (h : ∃ customerId accountId masked, e.account = .found customerId accountId masked) :
    ∃ row notes, qrCreate runtime draft e = .ok (row, notes) ∧ row.id = e.uuid ∧
      row.qrPaymentRequestId = draft.record.id ∧
      row.senderCustomerId = draft.input.senderCustomerId ∧
      row.displayReference = newQrPaymentReference e.random ∧
      row.intentTokenHash = runtime.sha256 e.token ∧
      row.idempotencyKeyHash = runtime.sha256 ("temp-" ++ e.token) := by
  obtain ⟨customerId, accountId, masked, haccount⟩ := h
  unfold qrCreate
  rw [haccount]
  exact ⟨_, _, rfl, rfl, rfl, rfl, rfl, rfl, rfl⟩

/-- The insert of a preview with new values. -/
theorem insertRow_fresh {redemptions : Table QrRedemptionRow} {row : QrRedemptionRow}
    (hfresh : Fresh runtime redemptions row.senderCustomerId e₂) (hid : row.id = e₂.uuid)
    (hreference : row.displayReference = newQrPaymentReference e₂.random)
    (htoken : row.intentTokenHash = runtime.sha256 e₂.token)
    (hkey : row.idempotencyKeyHash = runtime.sha256 ("temp-" ++ e₂.token)) :
    (∃ rows, insertRow (qrChannel runtime) redemptions row = some rows) ↔
      ∀ other ∈ redemptions.rows, other.qrPaymentRequestId ≠ row.qrPaymentRequestId := by
  have hconflicts : ∀ other ∈ redemptions.rows, (qrChannel runtime).conflicts row other =
      decide (other.qrPaymentRequestId = row.qrPaymentRequestId) := by
    intro other hother
    show qrConflicts row other = _
    have hkeyHash : ¬ (other.senderCustomerId = row.senderCustomerId ∧
        other.idempotencyKeyHash = runtime.sha256 ("temp-" ++ e₂.token)) :=
      fun h => hfresh.keyHash other hother h.1 h.2
    simp [qrConflicts, hreference, htoken, hkey, hfresh.reference other hother,
      hfresh.token other hother, hkeyHash]
  have hany : redemptions.rows.any ((qrChannel runtime).conflicts row) = true ↔
      ¬ ∀ other ∈ redemptions.rows, other.qrPaymentRequestId ≠ row.qrPaymentRequestId := by
    rw [List.any_eq_true]
    push Not
    constructor
    · rintro ⟨other, hother, h⟩
      exact ⟨other, hother, of_decide_eq_true (hconflicts other hother ▸ h)⟩
    · rintro ⟨other, hother, h⟩
      exact ⟨other, hother, (hconflicts other hother).trans (decide_eq_true h)⟩
  unfold insertRow
  constructor
  · rintro ⟨rows, hinsert⟩
    split_ifs at hinsert with hconflict
    exact not_not.mp fun h => hconflict (hany.mpr h)
  · intro hfree
    have hnone : redemptions.find (key row) = none := by
      show redemptions.find row.id = none
      rw [hid]
      exact hfresh.id
    obtain ⟨rows, hrows, -⟩ := Table.insert_of_find_none hnone
    refine ⟨rows, ?_⟩
    rw [if_neg fun h => hany.mp h hfree, hrows]

/-- An ACTIVE, unexpired code can be previewed by a payer who is not its owner exactly when it
    has no redemption, is in LKR and has no amount that is not positive. It is paid by one payer
    at most, whatever the Ledger executes; and as the Ledger refuses each command of a redemption,
    no payer pays it in a run in which the Ledger executes what it accepts. -/
theorem qr_availability (runtime : QrRuntime) :
    (∀ (s : QrState) (request : QrPaymentRequestRow) (new : QrIssue) (payer account : String) (e₁ e₂ : Env),
      (qrService runtime).machine.Reachable Machine.always s →
      request ∈ s.shared.side.requests.rows → IssuedAs runtime new request → Readable runtime new →
      request.status = .ACTIVE → e₁.now < request.expiresAt →
      payer ≠ request.recipientCustomerId →
      (∃ customerId accountId masked, e₂.account = .found customerId accountId masked) →
      Fresh runtime s.shared.rows payer e₂ →
      (Previews runtime s ⟨new.code runtime, payer, account⟩ request e₁ e₂ ↔
        (∀ row ∈ s.shared.rows.rows, row.qrPaymentRequestId ≠ request.id) ∧
          request.currency = "LKR" ∧ Payable request)) ∧
    (∀ (s : QrState) (request : QrPaymentRequestRow),
      (qrService runtime).machine.Reachable Machine.always s →
      request ∈ s.shared.side.requests.rows → ∃ new, IssuedAs runtime new request) ∧
    (∀ (s : QrState) (id : String) (payers : List String),
      (qrService runtime).machine.Reachable Machine.always s → payers.Nodup →
      PaidBy s id payers → payers.length ≤ 1) ∧
    ∀ (zod : Zod) (s : QrState) (id : String) (payers : List String),
      (qrService runtime).machine.Reachable (ledgerParses zod) s → payers.Nodup →
      ((∃ t, (qrService runtime).machine.Path (ledgerParses zod) s t ∧ PaidBy t id payers) ↔
        payers = []) := by
  refine ⟨?_, ?_, ?_, fun _ _ _ _ hs _ => paidBy_iff hs⟩
  · intro s request new payer account e₁ e₂ hs hmem hissued hreadable hactive hunexpired hpayer
      haccount hfresh
    have hdraft : ∀ draft, qrDraft runtime s.shared.side ⟨new.code runtime, payer, account⟩ e₁.now =
        .ok draft ↔ (request.currency = "LKR" ∧ Payable request) ∧
          draft = codeDraft runtime new request payer account := fun draft =>
      qrDraft_code (requestsInv_reachable hs) hmem hissued hreadable hactive hunexpired hpayer
    obtain ⟨row, notes, hcreate, hid, hrequest, hsender, hreference, htoken, hkey⟩ :=
      qrCreate_found runtime (codeDraft runtime new request payer account) haccount
    have hpayer' : row.senderCustomerId = payer := hsender
    rw [← hpayer'] at hfresh
    have hinsert := insertRow_fresh hfresh hid hreference htoken hkey
    rw [hrequest] at hinsert
    constructor
    · rintro ⟨t, row', hrun, hcall, -, -, -⟩
      obtain ⟨draft, notes', rows, hok, hcreate', hinsert', -⟩ := preview_run.mp ⟨hrun, hcall⟩
      obtain ⟨hpayable, rfl⟩ := (hdraft draft).mp hok
      rw [show qrCreate runtime _ e₂ = _ from hcreate'] at hcreate
      cases hcreate
      exact ⟨hinsert.mp ⟨rows, hinsert'⟩, hpayable⟩
    · rintro ⟨hfree, hpayable⟩
      obtain ⟨rows, hrows⟩ := hinsert.mpr hfree
      obtain ⟨hrun, hcall⟩ := preview_run.mpr
        ⟨_, notes, rows, (hdraft _).mpr ⟨hpayable, rfl⟩, hcreate, hrows, rfl⟩
      refine ⟨_, row, hrun, hcall, ?_, hrequest, hsender⟩
      have hfind : rows.find (key row) = some row := (find_insertRow hrows).trans (if_pos rfl)
      exact (Table.find_some hfind).1
  · intro s request hs hmem
    exact (requestsInv_reachable hs).issued request hmem
  · intro s id payers hs hnodup hpaid
    match payers, hnodup, hpaid with
    | [], _, _ => exact Nat.zero_le _
    | [_], _, _ => exact le_rfl
    | payer :: payer' :: rest, hnodup, hpaid =>
      obtain ⟨row, hrow, hid, hsender, -⟩ := hpaid payer List.mem_cons_self
      obtain ⟨row', hrow', hid', hsender', -⟩ :=
        hpaid payer' (List.mem_cons_of_mem _ List.mem_cons_self)
      have hfind := Table.find_of_mem hrow
      have hfind' := Table.find_of_mem hrow'
      have hkey := redemptions_apart hs _ _ _ _ hfind hfind' (hid.trans hid'.symm)
      rw [hkey, hfind'] at hfind
      cases hfind
      rw [← hsender, ← hsender'] at hnodup
      simp at hnodup

end Main

/-! ## An abandoned preview -/

/-- The call has created a row. -/
def ChannelCall.isPreviewed {Row N I D : Type} : ChannelCall Row N I D → Bool
  | .previewed _ => true
  | _ => false

/-- The shop's static code over five rupees. -/
def shopRequest : QrPaymentRequestRow := (fiveRupeeIssue .STATIC).row plainQrRuntime (some 500)

theorem shopRequest_issued : IssuedAs plainQrRuntime (fiveRupeeIssue .STATIC) shopRequest :=
  ⟨some 500, rfl, rfl⟩

theorem shopRequest_readable : Readable plainQrRuntime (fiveRupeeIssue .STATIC) where
  decodes := rfl
  dates := rfl
  digests := by decide

/-- The values of a first preview are new. -/
def isFresh (redemptions : Table QrRedemptionRow) (e : Env) : Bool :=
  decide (redemptions.find e.uuid = none) &&
    redemptions.rows.all fun row => decide (row.displayReference ≠ newQrPaymentReference e.random) &&
      decide (row.intentTokenHash ≠ plainQrRuntime.sha256 e.token) &&
      decide (row.idempotencyKeyHash ≠ plainQrRuntime.sha256 ("temp-" ++ e.token))

theorem fresh_of_isFresh {redemptions : Table QrRedemptionRow} {payer : String} {e : Env}
    (h : isFresh redemptions e = true) : Fresh plainQrRuntime redemptions payer e := by
  simp only [isFresh, Bool.and_eq_true, decide_eq_true_eq, List.all_eq_true] at h
  exact ⟨h.1, fun row hrow => (h.2 row hrow).1.1, fun row hrow => (h.2 row hrow).1.2,
    fun row hrow _ => (h.2 row hrow).2⟩

/-- Not in every reachable state: after Alice's preview, which she never confirms, Bob cannot
    preview the code. -/
theorem abandoned_preview_blocks : ¬ ∀ (runtime : QrRuntime) (s : QrState)
    (request : QrPaymentRequestRow) (new : QrIssue) (payer account : String) (e₁ e₂ : Env),
    (qrService runtime).machine.Reachable Machine.always s →
    request ∈ s.shared.side.requests.rows → IssuedAs runtime new request → Readable runtime new →
    request.status = .ACTIVE → e₁.now < request.expiresAt →
    (∀ row ∈ s.shared.rows.rows, row.qrPaymentRequestId = request.id → row.status ≠ .COMPLETED) →
    payer ≠ request.recipientCustomerId →
    (∃ customerId accountId masked, e₂.account = .found customerId accountId masked) →
    Fresh runtime s.shared.rows payer e₂ →
    Previews runtime s ⟨new.code runtime, payer, account⟩ request e₁ e₂ := by
  intro h
  have hrun : ((qrService plainQrRuntime).machine.run noQrPayments [
      .env (.other (fiveRupeeIssue .STATIC)),
      .start (.preview ⟨"STATIC", "alice", "account-alice"⟩),
      .next 0 (.run (plainEnv 0 "pay-1" "t-1" 0)),
      .next 0 (.run (plainEnv 0 "pay-1" "t-1" 0))]).any (fun s =>
        decide (s.calls.length = 1) && decide (shopRequest ∈ s.shared.side.requests.rows) &&
        decide (∀ row ∈ s.shared.rows.rows, row.status ≠ .COMPLETED) &&
        isFresh s.shared.rows (plainEnv 0 "pay-2" "t-2" 1) &&
        ((qrService plainQrRuntime).machine.run s [
          .start (.preview ⟨(fiveRupeeIssue .STATIC).code plainQrRuntime, "bob", "account-bob"⟩),
          .next 1 (.run (plainEnv 0 "pay-2" "t-2" 1)),
          .next 1 (.run (plainEnv 0 "pay-2" "t-2" 1))]).all fun t =>
            !(t.calls[1]?).any ChannelCall.isPreviewed) = true := by decide
  obtain ⟨s, hs, hp⟩ := Machine.reachable_of_run _ _ (noQrPayments_init plainQrRuntime) hrun
  simp only [Bool.and_eq_true, decide_eq_true_eq] at hp
  obtain ⟨⟨⟨⟨hlength, hmem⟩, hopen⟩, hfresh⟩, hblocked⟩ := hp
  obtain ⟨t, row, hrun, hcall, -⟩ := h plainQrRuntime s shopRequest (fiveRupeeIssue .STATIC) "bob"
    "account-bob" (plainEnv 0 "pay-2" "t-2" 1) (plainEnv 0 "pay-2" "t-2" 1) hs hmem
    shopRequest_issued shopRequest_readable rfl (by decide) (fun row hrow _ => hopen row hrow)
    (by decide) ⟨_, _, _, rfl⟩ (fresh_of_isFresh hfresh)
  rw [hlength] at hrun hcall
  rw [hrun] at hblocked
  simp [hcall, ChannelCall.isPreviewed] at hblocked

/-- Before any preview, Bob can preview the code, but not pay it. -/
theorem qr_availability_bob : ∃ s : QrState,
    Previews plainQrRuntime s ⟨(fiveRupeeIssue .STATIC).code plainQrRuntime, "bob", "account-bob"⟩
      shopRequest (plainEnv 0 "pay-2" "t-2" 1) (plainEnv 0 "pay-2" "t-2" 1) ∧
    ¬ ∃ t, (qrService plainQrRuntime).machine.Path (ledgerParses plainZod) s t ∧
      PaidBy t shopRequest.id ["bob"] := by
  have hrun : ((qrService plainQrRuntime).machine.run noQrPayments [
      .env (.other (fiveRupeeIssue .STATIC))]).any (fun s =>
        decide (s.shared.rows.rows = []) && decide (shopRequest ∈ s.shared.side.requests.rows) &&
        isFresh s.shared.rows (plainEnv 0 "pay-2" "t-2" 1)) = true := by decide
  obtain ⟨s, hstep, hp⟩ := (Option.any_eq_true ..).mp hrun
  have hpath : (qrService plainQrRuntime).machine.Path (ledgerParses plainZod) noQrPayments s :=
    Machine.path_of_run_of_forall (fun a ha s => by rw [List.mem_singleton.mp ha]; trivial) hstep
  have hparsed : (qrService plainQrRuntime).machine.Reachable (ledgerParses plainZod) s :=
    Machine.Reachable.path (.init (noQrPayments_init plainQrRuntime)) hpath
  have hs : (qrService plainQrRuntime).machine.Reachable Machine.always s :=
    hparsed.mono fun _ _ _ => trivial
  simp only [Bool.and_eq_true, decide_eq_true_eq] at hp
  obtain ⟨⟨hnone, hmem⟩, hfresh⟩ := hp
  refine ⟨s, ?_, fun hpaid => List.cons_ne_nil _ _
    (((qr_availability plainQrRuntime).2.2.2 plainZod s shopRequest.id ["bob"] hparsed
      (List.nodup_singleton _)).mp hpaid)⟩
  refine ((qr_availability plainQrRuntime).1 s shopRequest (fiveRupeeIssue .STATIC) "bob"
    "account-bob" _ _ hs hmem shopRequest_issued shopRequest_readable rfl (by decide) (by decide)
    ⟨_, _, _, rfl⟩ (fresh_of_isFresh hfresh)).mpr ⟨?_, rfl, ?_⟩
  · rw [hnone]
    intro row hrow
    cases hrow
  · intro amount hamount
    cases hamount
    decide

end AegisShield.Payments
