import AegisShield.Common.JsonText
import AegisShield.Payments.AgentLimit
import AegisShield.Payments.Availability
import AegisShield.Payments.IntentSteps
import AegisShield.Payments.UssdPayment

/-!
# The commands that Payments sends to the Ledger

Four services build the body of `POST /internal/customer-transfers`, and the Ledger parses
it with `internalLedgerTransferCommandSchema` (`contracts/payments/v1.ts`).

Results:
* `command_shape`: the schema accepts the commands of stored transfers, and no other.
* `agent_command_refused`: that of an agent's operation is one it refuses.
-/

namespace AegisShield.Payments

open Common

/-! ## The builders -/

/-- The call paths that reach `LedgerClient.transfer`. -/
inductive CommandPath where
  /-- `TransfersService.settle`, from `confirm` and from `recover`. -/
  | transfers
  /-- `QrService.settle`. -/
  | qr
  /-- `AgentService.settle`. -/
  | agent
  /-- `UssdService.handleWebhook`. -/
  | ussd
  deriving DecidableEq

/-- What the controller's schema (`internalTransferIntentRequestSchema`) and that of a preview
    (`internalTransferPreviewResultSchema`) check, and what the database client generates. -/
def parsed (zod : Zod) (_ : IntentState) : IntentAction → Bool
  | .start (.createIntent request) => zod.isUuid request.senderCustomerId &&
      Ledger.publicAccountReferenceSchema.accepts request.recipientReference
  | .next _ (.run e) => zod.isUuid e.uuid &&
      match e.preview with
      | .found preview =>
        zod.isUuid preview.sourceAccountId && currencyFormat.accepts preview.currency
      | .callError | .unavailable | .invalid => true
  | _ => true

/-- The commands that the services can build: for each stored row, and for each call that is
    about to send one. `recover` settles a stored transfer as later writes have left it. -/
inductive Built (zod : Zod) (runtime : QrRuntime) (ussd : UssdRuntime) (limits : PaymentsLimits) :
    CommandPath → CommandBody → Prop
  | storedTransfer {p id row row'} (hp : (intentService runtime.toRuntime limits).machine.Reachable
        (fun p a => parsed zod p a = true) p)
      (hrow : p.shared.transfers.find id = some row) (hdata : row'.data = row.data) :
      Built zod runtime ussd limits .transfers (settleCommand row').body
  | transfer {p c row} (hp : (intentService runtime.toRuntime limits).machine.Reachable
        (fun p a => parsed zod p a = true) p)
      (hcall : .settling c row ∈ p.calls) :
      Built zod runtime ussd limits .transfers (settleCommand row).body
  | storedRedemption {p id row} (hp : (qrService runtime).machine.Reachable Machine.always p)
      (hrow : p.shared.rows.find id = some row) :
      Built zod runtime ussd limits .qr (qrCommand p.shared.side row).body
  | redemption {p input row} (hp : (qrService runtime).machine.Reachable Machine.always p)
      (hcall : .settling input row ∈ p.calls) :
      Built zod runtime ussd limits .qr (qrCommand p.shared.side row).body
  | storedOperation {p id op}
      (hp : (agentService runtime.toRuntime limits).machine.Reachable Machine.always p)
      (hop : p.shared.rows.find id = some op) :
      Built zod runtime ussd limits .agent (agentCommand op).body
  | operation {p input op}
      (hp : (agentService runtime.toRuntime limits).machine.Reachable Machine.always p)
      (hcall : .settling input op ∈ p.calls) :
      Built zod runtime ussd limits .agent (agentCommand op).body
  | session {p request session e} (hp : (ussdService zod ussd).machine.Reachable Machine.always p)
      (hcall : .paying request session ∈ p.calls) :
      Built zod runtime ussd limits .ussd (ussdCommand request session e).body

/-! ## Texts -/

variable {c : Char}

theorem toNat_of_isUpper (h : c.isUpper = true) : 65 ≤ c.toNat ∧ c.toNat ≤ 90 := by
  simp only [Char.isUpper, decide_eq_true_eq, UInt32.le_iff_toNat_le, ge_iff_le] at h
  exact h

theorem not_isSpace_of_isUpper (h : c.isUpper = true) : ¬isSpace c = true := by
  obtain ⟨hlow, hhigh⟩ := toNat_of_isUpper h
  unfold isSpace
  simp only [Bool.or_eq_true, decide_eq_true_eq, List.mem_cons, List.not_mem_nil, or_false, not_or]
  omega

theorem trim_of_fits {text : String} (h : currencyFormat.accepts text = true) : trim text = text := by
  obtain ⟨-, hupper⟩ := Format.fits_replicate.mp h
  have hkeep : ∀ cs : List Char, (∀ c ∈ cs, c.isUpper = true) → cs.dropWhile isSpace = cs := by
    intro cs hcs
    cases cs with
    | nil => rfl
    | cons c cs =>
      exact List.dropWhile_cons_of_neg (not_isSpace_of_isUpper (hcs c List.mem_cons_self))
  unfold trim
  rw [hkeep _ hupper, hkeep _ fun c hc => hupper c (List.mem_reverse.mp hc), List.reverse_reverse,
    String.ofList_toList]

theorem positiveMinorUnits_toString {n : ℕ} (hpos : 0 < n) (hlt : n < 10 ^ 24) :
    positiveMinorUnitsSchema (toString (n : ℤ)) = true := by
  have htext : (toString (n : ℤ)).toList = Nat.toDigits 10 n := Nat.toList_repr
  have hlength := (Nat.length_toDigits_le_iff (by omega) (by omega)).mpr hlt
  have hhead := JsonText.head_toDigits hpos
  have hdigits : ∀ c ∈ Nat.toDigits 10 n, c.isDigit = true := fun c hc =>
    Nat.isDigit_of_mem_toDigits (by omega) (by omega) hc
  have hnonempty : 0 < (Nat.toDigits 10 n).length := Nat.length_toDigits_pos
  unfold positiveMinorUnitsSchema
  rw [htext]
  generalize Nat.toDigits 10 n = digits at hlength hhead hdigits hnonempty ⊢
  cases digits with
  | nil => cases hnonempty
  | cons c cs =>
    rw [List.length_cons] at hlength
    simp only [Bool.and_eq_true, decide_eq_true_eq, List.all_eq_true]
    refine ⟨⟨⟨?_, hdigits c List.mem_cons_self⟩, fun d hd => ?_⟩, by omega⟩
    · rintro rfl
      exact hhead rfl
    · exact hdigits d (List.mem_cons_of_mem _ hd)

theorem accepts_newTransferReference (bytes : Vector UInt8 12) :
    transferDisplayReferenceSchema.accepts (newTransferReference bytes) = true := by
  obtain ⟨groups, htext, hgroups⟩ := toList_newReference "TRF" bytes
  have hprefix : ("AEGIS-" ++ "TRF" ++ "-").toList = "AEGIS-TRF-".toList := by decide
  unfold transferDisplayReferenceSchema Format.accepts newTransferReference
  rw [htext, hprefix, Format.fits_append (Format.fits_literal _)]
  exact hgroups

/-- The key of a transfer. -/
theorem idempotencyKey_transfer {zod : Zod} {id : String} (h : zod.isUuid id = true) :
    idempotencyKeySchema ("transfer:" ++ id) = true := by
  obtain ⟨hlength, hchars⟩ := zod.uuid_text id h
  have htext : ("transfer:" ++ id).toList = "transfer:".toList ++ id.toList :=
    String.toList_append
  have hprefix : "transfer:".toList.length = 9 ∧ "transfer:".toList.all isKeyCharacter = true := by
    decide
  unfold idempotencyKeySchema
  rw [htext, List.length_append, hlength, hprefix.1, List.all_append, hprefix.2, Bool.true_and]
  refine Bool.and_eq_true_iff.mpr ⟨by decide, List.all_eq_true.mpr fun c hc => ?_⟩
  have hchar := hchars c hc
  unfold isKeyCharacter
  rcases Bool.or_eq_true_iff.mp hchar with halnum | hdash
  · rw [halnum, Bool.true_or]
  · rw [of_decide_eq_true hdash]
    decide

/-! ## Stored transfers -/

section Transfers

variable (zod : Zod) {runtime : Runtime} {limits : PaymentsLimits}

/-- What the schema asks of an intent. -/
structure IntentShaped (intent : TransferIntentRow) : Prop where
  sender : zod.isUuid intent.senderCustomerId = true
  source : zod.isUuid intent.sourceAccountId = true
  recipient : Ledger.publicAccountReferenceSchema.accepts intent.recipientPublicReference = true
  currency : currencyFormat.accepts intent.currency = true
  positive : 0 < intent.amountMinor
  short : intent.amountMinor < 10 ^ 24

/-- What it asks of a transfer. -/
structure TransferShaped (new : NewTransfer) : Prop where
  id : zod.isUuid new.id = true
  sender : zod.isUuid new.senderCustomerId = true
  source : zod.isUuid new.senderAccountId = true
  reference : transferDisplayReferenceSchema.accepts new.displayReference = true
  recipient : Ledger.publicAccountReferenceSchema.accepts new.recipientPublicReference = true
  currency : currencyFormat.accepts new.currency = true
  positive : 0 < new.amountMinor
  short : new.amountMinor < 10 ^ 24

/-- What a call knows of the data it carries. -/
def ShapedCall : IntentCall → Prop
  | .drafting request => zod.isUuid request.senderCustomerId = true ∧
      Ledger.publicAccountReferenceSchema.accepts request.recipientReference = true
  | .inserting request preview => (zod.isUuid request.senderCustomerId = true ∧
      Ledger.publicAccountReferenceSchema.accepts request.recipientReference = true) ∧
      (zod.isUuid preview.sourceAccountId = true ∧ currencyFormat.accepts preview.currency = true) ∧
      0 < request.amountMinor ∧ request.amountMinor < 10 ^ 24
  | .dating c intent | .waiting c intent _ | .inTx c intent _ _ =>
      IntentShaped zod intent ∧ intent.senderCustomerId = c.senderCustomerId
  | .settling _ row => TransferShaped zod row.data.1
  | _ => True

/-- What the tables hold. -/
structure ShapedTables (s : IntentShared) : Prop where
  intents : ∀ id intent, s.intents.find id = some intent → IntentShaped zod intent
  transfers : ∀ id row, s.transfers.find id = some row → TransferShaped zod row.data.1

variable {zod} {s s' : IntentShared} {call call' : IntentCall} {x : IntentInput}

variable {intent : TransferIntentRow} {e : IntentEnv} {p : IntentState}

theorem IntentShaped.congr {intent' : TransferIntentRow} (h : IntentShaped zod intent)
    (hterms : intent'.terms = intent.terms) : IntentShaped zod intent' := by
  simp only [TransferIntentRow.terms, TransferIntentRow.mk.injEq] at hterms
  obtain ⟨-, -, hsender, hsource, hreference, -, -, hcurrency, hamount, -⟩ := hterms
  exact ⟨hsender ▸ h.sender, hsource ▸ h.source, hreference ▸ h.recipient, hcurrency ▸ h.currency,
    hamount ▸ h.positive, hamount ▸ h.short⟩

theorem shaped_newTransfer {c : Confirmation}
    (h : IntentShaped zod intent) (hsender : intent.senderCustomerId = c.senderCustomerId)
    (huuid : zod.isUuid e.uuid = true) : TransferShaped zod (newTransfer runtime c intent e) where
  id := huuid
  sender := by
    show zod.isUuid c.senderCustomerId = true
    rw [← hsender]
    exact h.sender
  source := h.source
  reference := accepts_newTransferReference e.random
  recipient := h.recipient
  currency := h.currency
  positive := h.positive
  short := h.short

/-- What `parsed` says of a statement. -/
def ParsedEnv (zod : Zod) (e : IntentEnv) : Prop :=
  zod.isUuid e.uuid = true ∧ ∀ preview, e.preview = .found preview →
    zod.isUuid preview.sourceAccountId = true ∧ currencyFormat.accepts preview.currency = true

theorem parsedEnv_of_parsed {n : ℕ}
    (h : parsed zod p (.next n (.run e)) = true) : ParsedEnv zod e := by
  obtain ⟨huuid, hpreview⟩ := Bool.and_eq_true_iff.mp h
  refine ⟨huuid, fun preview hfound => ?_⟩
  rw [hfound] at hpreview
  exact Bool.and_eq_true_iff.mp hpreview

/-- A step keeps the shapes of the tables. -/
theorem shapedTables_move (hmove : IntentMove runtime limits s call x s' call')
    (htables : ShapedTables zod s) (hknown : ShapedCall zod call)
    (hparsed : ∀ e, x = .run e → ParsedEnv zod e) : ShapedTables zod s' := by
  constructor
  · intro id intent hfind
    rcases hmove.tables.intent_of hfind with ⟨old, hold, hterms, -⟩ |
      ⟨request, preview, e, rfl, rfl, -, -⟩
    · exact (htables.intents id old hold).congr hterms
    · obtain ⟨⟨hsender, hreference⟩, ⟨hsource, hcurrency⟩, hpositive, hshort⟩ := hknown
      exact ⟨hsender, hsource, hreference, hcurrency, hpositive, hshort⟩
  · intro id row hfind
    cases hmove with
    | created hcreate hcurrent =>
      have hfind' := ((createTransfer_some hcreate).2 id).symm.trans hfind
      split_ifs at hfind' with hid
      · cases hfind'
        exact shaped_newTransfer hknown.1 hknown.2 (hparsed _ rfl).1
      · exact htables.transfers id row hfind'
    | @settled c settled outcome e transfers hwrite =>
      have hdata := @data_settleWrite id _ _ _ _ _ hwrite
      have hfind' : transfers.find id = some row := hfind
      rw [hfind'] at hdata
      obtain ⟨old, hold, hsame⟩ := Option.map_eq_some_iff.mp hdata.symm
      rw [← hsame]
      exact htables.transfers id old hold
    | _ => exact htables.transfers id row hfind

/-- What a call carries after its step. -/
theorem shapedCall_move (hmove : IntentMove runtime limits s call x s' call')
    (htables : ShapedTables zod s) (hknown : ShapedCall zod call)
    (hparsed : ∀ e, x = .run e → ParsedEnv zod e) : ShapedCall zod call' := by
  cases hmove with
  | drafted hdraft =>
    obtain ⟨hanswer, hmin, hmax⟩ := intentDraft_ok hdraft
    have hpositive := limits.min_pos
    have hdaily := limits.max_le_daily
    have hshort := limits.daily_lt
    exact ⟨hknown, (hparsed _ rfl).2 _ hanswer, by omega, by omega⟩
  | begun hfind =>
    have hmatch := List.find?_some hfind
    rw [Bool.and_eq_true] at hmatch
    exact ⟨htables.intents _ _ (Table.find_of_mem (List.mem_of_find?_eq_some hfind)),
      of_decide_eq_true hmatch.2⟩
  | dated | locked | unseen | valid | reserved => exact hknown
  | created hcreate hcurrent => exact shaped_newTransfer hknown.1 hknown.2 (hparsed _ rfl).1
  | _ => trivial

theorem shaped_reachable
    (h : (intentService runtime limits).machine.Reachable (fun p a => parsed zod p a = true) p) :
    ShapedTables zod p.shared ∧ ∀ call ∈ p.calls, ShapedCall zod call := by
  refine Pool.invariant_of_start (A := fun _ => ShapedCall zod) ?_ ?_ ?_ ?_ h
  · rintro s rfl
    constructor
    · rintro id intent ⟨⟩
    · rintro id row ⟨⟩
  · intro p start _ hparsed
    cases start with
    | createIntent request => exact Bool.and_eq_true_iff.mp hparsed
    | authorize | confirm => trivial
  · intro p n x call s' call' htables hcalls hparsed hcall hnext
    have hmove := intentMove_of_next hnext
    have hknown := hcalls call (Pool.mem_of_getElem? hcall)
    have henv : ∀ e, x = .run e → ParsedEnv zod e := by
      rintro e rfl
      exact parsedEnv_of_parsed hparsed
    have hafter : ShapedTables zod (p.shared.after x) := by
      cases x <;> exact ⟨htables.intents, htables.transfers⟩
    exact ⟨shapedTables_move hmove hafter hknown henv, shapedCall_move hmove hafter hknown henv,
      fun m other _ hother => hcalls other (Pool.mem_of_getElem? hother)⟩
  · exact fun p x => x.elim

/-- The schema accepts the command of a transfer of this shape. -/
theorem schema_settleCommand {row : TransferRow} (h : TransferShaped zod row.data.1) :
    internalLedgerTransferCommandSchema zod (settleCommand row).body = true := by
  have hamount : positiveMinorUnitsSchema (toString row.amountMinor) = true := by
    obtain ⟨n, hn⟩ := Int.eq_ofNat_of_zero_le h.positive.le
    have hpositive : 0 < row.amountMinor := h.positive
    have hshort : row.amountMinor < 10 ^ 24 := h.short
    have hcast : row.amountMinor = (n : ℤ) := hn
    rw [hcast]
    exact positiveMinorUnits_toString (by omega) (by omega)
  have hcurrency : currencyCodeSchema row.currency = true := by
    have htrim : trim row.currency = row.currency := trim_of_fits h.currency
    unfold currencyCodeSchema
    rw [htrim]
    exact h.currency
  simp only [internalLedgerTransferCommandSchema, InternalLedgerTransferCommand.body,
    Option.any_some, Bool.and_eq_true]
  exact ⟨⟨⟨⟨⟨⟨⟨h.sender, h.source⟩, h.recipient⟩, hamount⟩, hcurrency⟩, h.id⟩, h.reference⟩,
    idempotencyKey_transfer h.id⟩

end Transfers

/-! ## Main results -/

theorem schema_agentCommand (zod : Zod) (op : AgentCashOperationRow) :
    internalLedgerTransferCommandSchema zod (agentCommand op).body = false := by
  have hagent : zod.isUuid "agent" = false := by
    refine Bool.eq_false_iff.mpr fun h => ?_
    exact absurd (zod.uuid_text _ h).1 (by decide)
  unfold internalLedgerTransferCommandSchema
  show ((some "agent").any zod.isUuid && _ && _ && _ && _ && _ && _ && _) = false
  rw [Option.any_some, hagent]
  rfl

/-- The Ledger's schema accepts a command that Payments builds exactly when
    `TransfersService.settle` builds it. -/
theorem command_shape (zod : Zod) (runtime : QrRuntime) (ussd : UssdRuntime)
    (limits : PaymentsLimits) (path : CommandPath) (body : CommandBody)
    (h : Built zod runtime ussd limits path body) :
    internalLedgerTransferCommandSchema zod body = true ↔ path = .transfers := by
  cases h with
  | storedTransfer hp hrow hdata =>
    refine iff_of_true (schema_settleCommand ?_) rfl
    rw [hdata]
    exact (shaped_reachable hp).1.transfers _ _ hrow
  | transfer hp hcall => exact iff_of_true (schema_settleCommand ((shaped_reachable hp).2 _ hcall)) rfl
  | storedRedemption hp hrow =>
    obtain ⟨bytes, hreference⟩ := (qr_reference hp).1 _ _ hrow
    have hrefused := not_accepts_newQrPaymentReference bytes
    rw [schema_of_reference (congrArg some hreference) hrefused]
    simp
  | redemption hp hcall =>
    obtain ⟨bytes, hreference⟩ := (qr_reference hp).2 _ hcall _ _ rfl
    have hrefused := not_accepts_newQrPaymentReference bytes
    rw [schema_of_reference (congrArg some hreference) hrefused]
    simp
  | storedOperation | operation =>
    rw [schema_agentCommand]
    simp
  | @session p request session e hp hcall =>
    rw [schema_ussdCommand]
    simp

def plainUuid : String := "11111111-1111-4111-8111-111111111111"

/-- What a step gets when every identifier is the same. -/
def uuidInput : IntentInput :=
  .run { now := 0, uuid := plainUuid, token := "t-1", random := .replicate 12 1,
         preview := .found ⟨plainUuid, plainUuid, "", "LKR"⟩, risk := none }

/-- The command of a confirmed transfer has the shape. -/
theorem command_shape_transfer : ∃ body,
    Built plainZod plainQrRuntime plainUssdRuntime defaultLimits .transfers body ∧
      internalLedgerTransferCommandSchema plainZod body = true := by
  have hrun : ((intentService plainQrRuntime.toRuntime defaultLimits).machine.runUnder
      (parsed plainZod) noIntents
      (.start (.createIntent ⟨plainUuid, plainUuid, "AEGIS-2222-2222-2222", 500⟩) ::
        statements 0 2 uuidInput ++
        .start (.authorize plainUuid "t-1") :: statements 1 2 uuidInput ++
        .start (.confirm ⟨plainUuid, "t-1", "k-1", ""⟩) :: statements 2 10 uuidInput)).any (fun p =>
          (p.shared.transfers.find plainUuid).isSome) = true := by decide
  obtain ⟨p, hp, hfound⟩ := Machine.reachable_of_runUnder _ _ _ (fun _ _ h => h)
    (noIntents_init plainQrRuntime.toRuntime defaultLimits) hrun
  obtain ⟨row, hrow⟩ := Option.isSome_iff_exists.mp hfound
  have hbuilt : Built plainZod plainQrRuntime plainUssdRuntime defaultLimits .transfers _ :=
    .storedTransfer hp hrow rfl
  exact ⟨_, hbuilt, (command_shape plainZod plainQrRuntime plainUssdRuntime defaultLimits _ _
    hbuilt).mpr rfl⟩

/-- The call has claimed its row and not sent the command. -/
def ChannelCall.isSettling {Row N I D : Type} : ChannelCall Row N I D → Bool
  | .settling _ _ => true
  | _ => false

/-- Not every command has it: that of an agent's confirmed operation. -/
theorem agent_command_refused : ¬ ∀ (zod : Zod) (runtime : QrRuntime) (ussd : UssdRuntime)
    (limits : PaymentsLimits) (path : CommandPath) (body : CommandBody),
    Built zod runtime ussd limits path body →
      internalLedgerTransferCommandSchema zod body = true := by
  intro h
  have hrun : ((agentService plainQrRuntime.toRuntime defaultLimits).machine.run noOperations
      (previewOf 500 0 "op-1" "t-1" 1 ++ claimOf 1 "t-1" "k-1")).any
        (fun p => p.calls.any ChannelCall.isSettling) = true := by decide
  obtain ⟨p, hp, hany⟩ := Machine.reachable_of_run _ _
    (noOperations_init plainQrRuntime.toRuntime defaultLimits) hrun
  obtain ⟨call, hcall, hsettling⟩ := List.any_eq_true.mp hany
  cases call with
  | settling input op =>
    have haccepted := h plainZod plainQrRuntime plainUssdRuntime defaultLimits .agent _
      (.operation hp hcall)
    rw [schema_agentCommand] at haccepted
    cases haccepted
  | _ => cases hsettling

end AegisShield.Payments
