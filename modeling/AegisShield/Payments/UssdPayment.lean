import AegisShield.Payments.CommandSchema
import AegisShield.Payments.Ussd

/-!
# USSD payments

Any number of deliveries at once (`ussd.service.ts`, lines 15-172). A delivery that reads a
session in `SEND_MONEY_PIN` with the right PIN sends a command under a new identifier, and
deletes the session afterwards, so deliveries that overlap send two commands. The Ledger parses
a command before it executes it (`customer-transfer.controller.ts`, line 26).

Results:
* `ussd_pays_once`: no more transfers of a session take effect than it has reached
  `SEND_MONEY_PIN`. None does: the reference of every command is eight hexadecimal digits, which
  the Ledger's schema refuses.
-/

namespace AegisShield.Payments

open Common

/-! ## The Ledger -/

/-- The JSON of a command. -/
def UssdTransferCommand.body (command : UssdTransferCommand) : CommandBody where
  senderCustomerId := some command.senderCustomerId
  sourceAccountId := some command.sourceAccountId
  recipientReference := command.recipientReference
  amountMinor := command.amountMinor
  currency := some command.currency
  transferId := some command.transferId
  transferReference := some command.transferReference
  idempotencyKey := some command.idempotencyKey

/-- The Ledger executes a transfer that has been sent, once, if its controller's schema accepts
    the command. That it may refuse it later on, or never get it, is the absence of this step. -/
def postTransfer (zod : Zod) (s : UssdShared) (idempotencyKey : String) : Option UssdShared :=
  if s.sent.any (fun transfer => decide (transfer.command.idempotencyKey = idempotencyKey) &&
      internalLedgerTransferCommandSchema zod transfer.command.body) &&
      !s.journals.contains idempotencyKey then
    some { s with journals := idempotencyKey :: s.journals }
  else none

/-! ## All interleavings -/

/-- `UssdService` with any number of calls, from no sessions. -/
def ussdService (zod : Zod) (runtime : UssdRuntime) :
    Pool UssdShared UssdCall UssdRequest UssdInput String where
  init s := s = .empty
  start _ request := .loading request
  next := ussdNext runtime
  env := postTransfer zod

abbrev UssdState := Pool.State UssdShared UssdCall
abbrev UssdAction := Pool.Action UssdRequest UssdInput String

/-- The transfers from sessions of an id. -/
def sentFrom (s : UssdShared) (id : String) : List UssdTransfer :=
  s.sent.filter fun transfer => transfer.request.sessionId = id

/-- Those that have taken effect. -/
def paidFrom (s : UssdShared) (id : String) : List UssdTransfer :=
  (sentFrom s id).filter fun transfer => transfer.command.idempotencyKey ∈ s.journals

/-! ## What the Ledger executes -/

section Steps

variable {zod : Zod} {runtime : UssdRuntime} {s s' : UssdShared} {call call' : UssdCall}
  {x : UssdInput} {idempotencyKey : String}

/-- The commands that have been sent are refused, and nothing is executed. -/
structure Unpaid (zod : Zod) (s : UssdShared) : Prop where
  refused : ∀ transfer ∈ s.sent,
    internalLedgerTransferCommandSchema zod transfer.command.body = false
  journals : s.journals = []

theorem schema_ussdCommand (request : UssdRequest) (session : UssdSession) (e : UssdEnv) :
    internalLedgerTransferCommandSchema zod (ussdCommand request session e).body = false :=
  schema_of_reference rfl (not_accepts_hexText e.random)

theorem unpaid_move (h : Unpaid zod s) (hmove : UssdMove runtime s call x s' call') :
    Unpaid zod s' := by
  cases hmove with
  | @sent request session e =>
    refine ⟨fun transfer htransfer => ?_, h.journals⟩
    rcases List.mem_append.mp htransfer with htransfer | htransfer
    · exact h.refused transfer htransfer
    · rw [List.mem_singleton.mp htransfer]
      exact schema_ussdCommand request session e
  | loaded | stored | deleted => exact ⟨h.refused, h.journals⟩
  | _ => exact h

/-- A command that the schema refuses is not executed. -/
theorem postTransfer_unpaid (h : Unpaid zod s) : postTransfer zod s idempotencyKey = none := by
  have hnone : s.sent.any (fun transfer =>
      decide (transfer.command.idempotencyKey = idempotencyKey) &&
        internalLedgerTransferCommandSchema zod transfer.command.body) = false := by
    refine List.any_eq_false.mpr fun transfer htransfer => ?_
    rw [h.refused transfer htransfer, Bool.and_false]
    exact Bool.false_ne_true
  unfold postTransfer
  rw [hnone]
  rfl

theorem unpaid_reachable {s : UssdState}
    (h : (ussdService zod runtime).machine.Reachable Machine.always s) : Unpaid zod s.shared := by
  refine Machine.invariant (I := fun s : UssdState => Unpaid zod s.shared) ?_ ?_ h
  · rintro s ⟨hshared, -⟩
    rw [hshared]
    exact ⟨fun _ h => absurd h List.not_mem_nil, rfl⟩
  · intro s a t hs _ hstep
    cases a with
    | start request =>
      rw [Pool.step_start hstep]
      exact hs
    | env idempotencyKey =>
      obtain ⟨s', henv, rfl⟩ := Pool.step_env hstep
      have hpost : postTransfer zod s.shared idempotencyKey = some s' := henv
      rw [postTransfer_unpaid hs] at hpost
      cases hpost
    | next n x =>
      obtain ⟨call, s', call', -, hnext, rfl⟩ := Pool.step_next hstep
      exact unpaid_move hs (ussdMove_of_next hnext)

end Steps

/-! ## Main results -/

/-- In every run, whichever deliveries are repeated, overlap, fail or die, no more transfers of a
    session take effect than the times that it has reached `SEND_MONEY_PIN`; the Ledger refuses
    each command that is sent. -/
theorem ussd_pays_once (zod : Zod) (runtime : UssdRuntime) (s : UssdState)
    (hs : (ussdService zod runtime).machine.Reachable Machine.always s) (id : String) :
    (paidFrom s.shared id).length ≤ s.shared.reached.count id ∧
      ∀ transfer ∈ s.shared.sent,
        internalLedgerTransferCommandSchema zod transfer.command.body = false := by
  have hunpaid := unpaid_reachable hs
  refine ⟨?_, hunpaid.refused⟩
  have hnone : paidFrom s.shared id = [] := by
    refine List.filter_eq_nil_iff.mpr fun transfer _ hpaid => ?_
    rw [hunpaid.journals] at hpaid
    exact absurd (of_decide_eq_true hpaid) List.not_mem_nil
  rw [hnone]
  exact Nat.zero_le _

/-- No session and no delivery. -/
def noDeliveries : UssdState where
  shared := .empty
  calls := []

theorem noDeliveries_init (zod : Zod) (runtime : UssdRuntime) :
    (ussdService zod runtime).machine.init noDeliveries := ⟨rfl, rfl⟩

/-- A delivery of session `s-1` that asks the Ledger nothing, alone. -/
def delivery (n : ℕ) (input : String) : List UssdAction := [
  .start (webhookRequest "s-1" "+94711111111" input),
  .next n (.run (plainUssdEnv 0 "")), .next n (.run (plainUssdEnv 0 ""))]

/-- The deliveries of session `s-1` up to `SEND_MONEY_PIN`. -/
def deliveries : List UssdAction :=
  delivery 0 "*123#" ++ delivery 1 "2" ++
  [.start (webhookRequest "s-1" "+94711111111" "AEGIS-AAAA-BBBB-CCCC"),
    .next 2 (.run (plainUssdEnv 0 "")),
    .next 2 (.resolved (.found "customer-1" "account-1" "AEGIS-****-CCCC")),
    .next 2 (.run (plainUssdEnv 0 ""))] ++
  delivery 3 "500" ++ delivery 4 "1"

/-- A delivery of the PIN, up to the read of the session, and the rest of it. -/
def pinRead (n : ℕ) : List UssdAction := [
  .start (webhookRequest "s-1" "+94711111111" "123456"), .next n (.run (plainUssdEnv 0 ""))]

def pinPaid (n : ℕ) (uuid : String) : List UssdAction := [
  .next n (.run (plainUssdEnv 0 uuid)), .next n (.answered .callError),
  .next n (.run (plainUssdEnv 0 ""))]

/-- Two deliveries of the PIN read the session before either deletes it, and both send. -/
theorem ussd_pays_once_overlap : ∃ s : UssdState, (sentFrom s.shared "s-1").length = 2 ∧
    s.shared.reached.count "s-1" = 1 ∧
    (paidFrom s.shared "s-1").length ≤ s.shared.reached.count "s-1" := by
  have hrun : ((ussdService plainZod plainUssdRuntime).machine.run noDeliveries
      (deliveries ++ pinRead 5 ++ pinRead 6 ++ pinPaid 5 "transfer-1" ++
        pinPaid 6 "transfer-2")).any (fun s =>
          decide ((sentFrom s.shared "s-1").length = 2 ∧ s.shared.reached.count "s-1" = 1)) =
            true := by decide
  obtain ⟨s, hs, hsent⟩ := Machine.reachable_of_run _ _
    (noDeliveries_init plainZod plainUssdRuntime) hrun
  obtain ⟨hsent, hreached⟩ := of_decide_eq_true hsent
  exact ⟨s, hsent, hreached, (ussd_pays_once plainZod plainUssdRuntime s hs "s-1").1⟩

end AegisShield.Payments
