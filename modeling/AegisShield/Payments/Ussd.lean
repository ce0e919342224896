import AegisShield.Common.Expiring
import AegisShield.Common.Pool
import AegisShield.Payments.Security

/-!
# USSD sessions

`UssdService` (`ussd.service.ts`). A delivery is a call: it reads the session of its
session id, moves it on by one menu, which may ask the Ledger for an account or send it
one transfer, and writes the session back or deletes it. Each command to Redis, each
request to the Ledger and its answer is a step of its own. A stored session is a value,
not its JSON text. Times are milliseconds of the Redis server.

Results:
* `ussdMove_of_next`: what one step of a call does.
-/

namespace AegisShield.Payments

open Common

/-! ## Sessions -/

/-- `ussdMenuStateSchema` (`channels/v1.ts`, lines 172-187). -/
inductive UssdMenuState where
  | WELCOME
  | AUTH
  | AUTH_PIN
  | MAIN_MENU
  | BALANCE
  | HISTORY
  | SEND_MONEY_RECIPIENT
  | SEND_MONEY_AMOUNT
  | SEND_MONEY_CONFIRM
  | SEND_MONEY_PIN
  | SEND_MONEY_RESULT
  | CANCELLED
  | TIMEOUT
  | ERROR
  deriving DecidableEq

/-- The stored state of `handleWebhook` (lines 28-36). -/
structure UssdSession where
  state : UssdMenuState
  msisdn : String
  customerId : String
  recipientReference : Option String
  recipientAccountId : Option String
  amountMinor : Option String
  deriving DecidableEq

/-- The input of `handleWebhook`, with its active customer. -/
structure UssdRequest where
  sessionId : String
  msisdn : String
  input : String
  activeCustomerId : String
  deriving DecidableEq

/-- `customerId || '00000000-0000-0000-0000-000000000000'` (lines 22-24). -/
def activeCustomer (customerId : Option String) : String :=
  match customerId with
  | none | some "" => "00000000-0000-0000-0000-000000000000"
  | some customerId => customerId

/-- The call of `webhook` (`ussd.controller.ts`). -/
def webhookRequest (sessionId msisdn input : String) : UssdRequest where
  sessionId := sessionId
  msisdn := msisdn
  input := input
  activeCustomerId := activeCustomer none

/-- The call of `handleSimulate` (lines 174-191); `uuid` is the generated session id. -/
def simulateRequest (sessionId : Option String) (uuid input : String)
    (customerId : Option String) : UssdRequest where
  sessionId := sessionId.getD uuid
  msisdn := "+94770000000"
  input := input
  activeCustomerId := activeCustomer customerId

/-- The session of a request that finds none (line 46). -/
def opened (request : UssdRequest) : UssdSession where
  state := .WELCOME
  msisdn := request.msisdn
  customerId := request.activeCustomerId
  recipientReference := none
  recipientAccountId := none
  amountMinor := none

/-! ## The menu -/

/-- `/^\d+(\.\d{1,2})?$/`. -/
def isUssdAmount (text : String) : Bool :=
  text.toList.head?.any Char.isDigit &&
    match text.toList.dropWhile Char.isDigit with
    | [] => true
    | '.' :: cents => decide (cents.length = 1 ∨ cents.length = 2) && cents.all Char.isDigit
    | _ => false

/-- What the menu takes from JavaScript's floating point numbers. -/
structure UssdRuntime where
  /-- `Math.floor(parseFloat(userInput) * 100).toString()`. -/
  amountText : String → String

/-- How a turn of the menu goes on: the session is stored or deleted, with a message, or the
    Ledger is asked first. -/
inductive UssdTurn where
  | respond (session : UssdSession) (message : String)
  | release (message : String)
  | resolve
  | pay
  deriving DecidableEq

/-- The main menu. -/
def welcomeMessage : String := "Welcome to AEGIS USSD Banking\n1. Balance\n2. Send Money\n3. Exit"

/-- The `switch` of `handleWebhook` (lines 51-155), up to its calls of the Ledger. -/
def ussdMenu (runtime : UssdRuntime) (session : UssdSession) (input : String) : UssdTurn :=
  match session.state with
  | .WELCOME => .respond { session with state := .MAIN_MENU } welcomeMessage
  | .MAIN_MENU =>
    if input = "1" then
      .respond { session with state := .BALANCE }
        "Your balance request is being processed.\n1. Back to menu"
    else if input = "2" then
      .respond { session with state := .SEND_MONEY_RECIPIENT }
        "Enter recipient account public reference:"
    else .release "Thank you for using AEGIS."
  | .BALANCE => .respond { session with state := .MAIN_MENU } welcomeMessage
  | .SEND_MONEY_RECIPIENT => .resolve
  | .SEND_MONEY_AMOUNT =>
    if isUssdAmount input then
      .respond { session with
        state := .SEND_MONEY_CONFIRM
        amountMinor := some (runtime.amountText input) }
        ("Send " ++ input ++ " LKR to " ++ session.recipientReference.getD "undefined" ++
          "?\n1. Confirm\n2. Cancel")
    else .respond session "Invalid amount. Enter amount in LKR:"
  | .SEND_MONEY_CONFIRM =>
    if input = "1" then
      .respond { session with state := .SEND_MONEY_PIN } "Enter your 6-digit PIN to confirm:"
    else .release "Transfer cancelled."
  | .SEND_MONEY_PIN =>
    if input ≠ "123456" then .release "Invalid PIN. Session ended." else .pay
  | .AUTH | .AUTH_PIN | .HISTORY | .SEND_MONEY_RESULT | .CANCELLED | .TIMEOUT | .ERROR =>
    .release "Session ended due to an error."

/-- The rest of `SEND_MONEY_RECIPIENT` after the answer of `resolveAccountByReference`. -/
def recipientTurn (session : UssdSession) (input : String) (answer : AccountAnswer) :
    UssdSession × String :=
  match answer with
  | .found _ accountId _ => ({ session with
      state := .SEND_MONEY_AMOUNT
      recipientReference := some input
      recipientAccountId := some accountId }, "Enter amount in LKR:")
  | .callError _ | .unavailable =>
    (session, "Account not found. Enter recipient account public reference:")

/-! ## The transfer -/

/-- The generated values and the clock reading that a step gets. -/
structure UssdEnv where
  now : ℕ
  uuid : String
  random : Vector UInt8 4

/-- The command of `handleWebhook` (lines 126-138), as it is sent: what is undefined is
    left out of its JSON. -/
structure UssdTransferCommand where
  transferId : String
  transferReference : String
  senderCustomerId : String
  sourceAccountId : String
  recipientReference : Option String
  amountMinor : Option String
  currency : String
  idempotencyKey : String
  deriving DecidableEq

def ussdCommand (request : UssdRequest) (session : UssdSession) (e : UssdEnv) :
    UssdTransferCommand where
  transferId := e.uuid
  transferReference := String.ofList (hexText e.random.toList)
  senderCustomerId := request.activeCustomerId
  sourceAccountId := request.activeCustomerId
  recipientReference := session.recipientReference
  amountMinor := session.amountMinor
  currency := "LKR"
  idempotencyKey := "ussd-pay:" ++ e.uuid

/-- How `LedgerClient.transfer` ends (`ledger.client.ts`): with a result, a `LedgerCallError`,
    its own error on a lost answer, or that of a result of the wrong shape. -/
inductive UssdAnswer where
  | result
  | callError
  | unavailable
  | invalid (message : String)
  deriving DecidableEq

/-- The message of `SEND_MONEY_PIN` (lines 141-147). -/
def transferMessage (transferId : String) : UssdAnswer → String
  | .result => "Transfer successful. Reference: " ++
      (String.ofList (transferId.toList.take 8)).toUpper
  | .callError => "Transfer failed. Ledger request failed."
  | .unavailable => "Transfer failed. The transfer is processing."
  | .invalid message =>
    "Transfer failed. " ++ if message = "" then "Please try again later." else message

/-! ## Calls -/

/-- What `handleWebhook` returns: `type` is `release` when the session has ended. -/
structure UssdReply where
  sessionId : String
  message : String
  ended : Bool
  deriving DecidableEq

/-- Where a call stands. -/
inductive UssdCall where
  /-- Before it reads the session. -/
  | loading (request : UssdRequest)
  /-- Before the answer of `resolveAccountByReference`. -/
  | resolving (request : UssdRequest) (session : UssdSession)
  /-- Before it sends the transfer. -/
  | paying (request : UssdRequest) (session : UssdSession)
  | awaiting (request : UssdRequest) (transferId : String)
  /-- Before it writes the session back. -/
  | storing (request : UssdRequest) (session : UssdSession) (message : String)
  /-- Before it deletes the session; `sent` says whether it has sent a transfer. -/
  | deleting (request : UssdRequest) (message : String) (sent : Bool)
  | ended (reply : UssdReply)
  | thrown
  deriving DecidableEq

/-- What a step gets from outside. -/
inductive UssdInput where
  /-- The next command or request is carried out. -/
  | run (e : UssdEnv)
  | resolved (answer : AccountAnswer)
  | answered (answer : UssdAnswer)
  /-- Redis refuses the command. -/
  | fail
  /-- The process dies. -/
  | crash

/-- A transfer that has been sent: for which request, from which session, and the command. -/
structure UssdTransfer where
  request : UssdRequest
  session : UssdSession
  command : UssdTransferCommand
  deriving DecidableEq

/-- The sessions, the keys of the journals that the Ledger has committed, the time, and a
    history: the transfers sent, and the session ids stored in `SEND_MONEY_PIN`. -/
structure UssdShared where
  sessions : String → Cell UssdSession
  journals : List String
  clock : ℕ
  sent : List UssdTransfer
  reached : List String

/-- How a call goes on after it has read its session. -/
def afterMenu (runtime : UssdRuntime) (request : UssdRequest) (session : UssdSession) : UssdCall :=
  match ussdMenu runtime session request.input with
  | .respond session message => .storing request session message
  | .release message => .deleting request message false
  | .resolve => .resolving request session
  | .pay => .paying request session

/-- The session that a request reads. -/
def loadSession (s : UssdShared) (request : UssdRequest) (now : ℕ) : UssdSession :=
  (Cell.get now (s.sessions request.sessionId)).getD (opened request)

/-- `redis.set(redisKey, JSON.stringify(state), 300)` (line 164). -/
def storeSession (s : UssdShared) (sessionId : String) (session : UssdSession) (now : ℕ) :
    UssdShared :=
  { s with
    sessions := Function.update s.sessions sessionId (Cell.setEx now session 300)
    clock := now
    reached := if session.state = .SEND_MONEY_PIN then s.reached ++ [sessionId] else s.reached }

/-- `redis.delete(redisKey)` (line 162). -/
def deleteSession (s : UssdShared) (sessionId : String) : UssdShared :=
  { s with sessions := Function.update s.sessions sessionId Cell.del }

theorem storeSession_self (s : UssdShared) (id : String) (session : UssdSession) (now : ℕ) :
    (storeSession s id session now).sessions id = Cell.setEx now session 300 :=
  Function.update_self _ _ _

theorem storeSession_of_ne {id other : String} (h : other ≠ id) (s : UssdShared)
    (session : UssdSession) (now : ℕ) :
    (storeSession s id session now).sessions other = s.sessions other :=
  Function.update_of_ne h _ _

theorem deleteSession_self (s : UssdShared) (id : String) :
    (deleteSession s id).sessions id = none := Function.update_self _ _ _

theorem deleteSession_of_ne {id other : String} (h : other ≠ id) (s : UssdShared) :
    (deleteSession s id).sessions other = s.sessions other := Function.update_of_ne h _ _

/-- One step of a call. The clock of Redis does not go back. -/
def ussdNext (runtime : UssdRuntime) (s : UssdShared) (call : UssdCall) (input : UssdInput) :
    Option (UssdShared × UssdCall) :=
  match call, input with
  | .loading request, .run e =>
    if s.clock ≤ e.now then
      some ({ s with clock := e.now }, afterMenu runtime request (loadSession s request e.now))
    else none
  | .resolving request session, .resolved answer =>
    let turn := recipientTurn session request.input answer
    some (s, .storing request turn.1 turn.2)
  | .paying request session, .run e =>
    some ({ s with sent := s.sent ++ [⟨request, session, ussdCommand request session e⟩] },
      .awaiting request e.uuid)
  | .awaiting request transferId, .answered answer =>
    some (s, .deleting request (transferMessage transferId answer) true)
  | .storing request session message, .run e =>
    if s.clock ≤ e.now then
      some (storeSession s request.sessionId session e.now,
        .ended { sessionId := request.sessionId, message := message, ended := false })
    else none
  | .deleting request message _, .run _ =>
    some (deleteSession s request.sessionId,
      .ended { sessionId := request.sessionId, message := message, ended := true })
  | .loading _, .fail | .storing _ _ _, .fail | .deleting _ _ _, .fail => some (s, .thrown)
  | .ended _, .crash | .thrown, .crash => none
  | _, .crash => some (s, .thrown)
  | _, _ => none

/-! ## Steps of a call -/

/-- The steps of a call, one constructor for each way it goes on. -/
inductive UssdMove (runtime : UssdRuntime) (s : UssdShared) :
    UssdCall → UssdInput → UssdShared → UssdCall → Prop
  | loaded {request e} (hclock : s.clock ≤ e.now) :
      UssdMove runtime s (.loading request) (.run e) { s with clock := e.now }
        (afterMenu runtime request (loadSession s request e.now))
  | resolved {request session answer} :
      UssdMove runtime s (.resolving request session) (.resolved answer) s
        (.storing request (recipientTurn session request.input answer).1
          (recipientTurn session request.input answer).2)
  | sent {request session e} : UssdMove runtime s (.paying request session) (.run e)
        { s with sent := s.sent ++ [⟨request, session, ussdCommand request session e⟩] }
        (.awaiting request e.uuid)
  | answered {request transferId answer} :
      UssdMove runtime s (.awaiting request transferId) (.answered answer) s
        (.deleting request (transferMessage transferId answer) true)
  | stored {request session message e} (hclock : s.clock ≤ e.now) :
      UssdMove runtime s (.storing request session message) (.run e)
        (storeSession s request.sessionId session e.now)
        (.ended { sessionId := request.sessionId, message := message, ended := false })
  | deleted {request message sent e} : UssdMove runtime s (.deleting request message sent) (.run e)
        (deleteSession s request.sessionId)
        (.ended { sessionId := request.sessionId, message := message, ended := true })
  | stopped {call x} (hx : x = .fail ∨ x = .crash)
      (hstops : ∀ t, ussdNext runtime t call x = some (t, .thrown)) :
      UssdMove runtime s call x s .thrown

section Moves

variable {runtime : UssdRuntime} {s s' : UssdShared} {call call' : UssdCall} {x : UssdInput}

theorem ussdMove_of_next (h : ussdNext runtime s call x = some (s', call')) :
    UssdMove runtime s call x s' call' := by
  unfold ussdNext at h
  split at h
  · split_ifs at h with hclock
    cases h
    exact .loaded hclock
  · cases h
    exact .resolved
  · cases h
    exact .sent
  · cases h
    exact .answered
  · split_ifs at h with hclock
    cases h
    exact .stored hclock
  · cases h
    exact .deleted
  iterate 3
    · cases h
      exact .stopped (.inl rfl) fun t => rfl
  · cases h
  · cases h
  next hended hthrown =>
    cases h
    refine .stopped (.inr rfl) fun t => ?_
    cases call with
    | ended reply => exact absurd rfl (hended reply)
    | thrown => exact absurd rfl hthrown
    | _ => rfl
  · cases h

end Moves

/-! ## Runs -/

/-- No session, and nothing sent. -/
def UssdShared.empty : UssdShared where
  sessions _ := none
  journals := []
  clock := 0
  sent := []
  reached := []

/-- A readable stand-in for concrete runs: whole rupees. -/
def plainUssdRuntime : UssdRuntime where
  amountText text := text ++ "00"

/-- What a step of a concrete run gets, at time `now`. -/
def plainUssdEnv (now : ℕ) (uuid : String) : UssdEnv where
  now := now
  uuid := uuid
  random := Vector.replicate 4 0

end AegisShield.Payments
