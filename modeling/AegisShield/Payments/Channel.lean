import AegisShield.Common.Pool
import AegisShield.Payments.Security

/-!
# Payment channels: preview, confirm, settle

`QrService` and `AgentService` have one design. A preview creates a row under an intent
token. A confirm looks up its idempotency key, then the token, checks the row and claims
it by writing its key; it then sends one command to the Ledger and writes the outcome to
the row, followed by writes to other tables. What the services do differently is a
`Channel`.

Any number of calls are interleaved. Each read, each transaction from its first write to
its commit, the sending of a command, its answer and each later write is a step of its
own, and a call may die before any of them. The Ledger is what its clients see of it:
attempts that are under way, and the keys under which it has committed a journal.
-/

namespace AegisShield.Payments

open Common

/-! ## The Ledger as its clients see it -/

/-- The commands sent, the keys of the attempts that the Ledger may still execute, and
    the keys of the journals it has committed. -/
structure Remote where
  commands : List InternalLedgerTransferCommand
  pending : List String
  journals : List String

namespace Remote

/-- A command is sent. -/
def send (r : Remote) (command : InternalLedgerTransferCommand) : Remote :=
  { r with
    commands := r.commands ++ [command]
    pending := command.idempotencyKey :: r.pending }

/-- The Ledger executes an attempt: it commits the journal of its key, or finds it. -/
def post (r : Remote) (key : String) : Option Remote :=
  if key ∈ r.pending then
    some { r with
      pending := r.pending.erase key
      journals := if key ∈ r.journals then r.journals else key :: r.journals }
  else none

/-- The client gets an answer: a result is that of a committed journal, and an error
    below 500 is that of an attempt that has committed nothing. -/
def answer (r : Remote) (key : String) (outcome : LedgerOutcome) : Option Remote :=
  match outcome with
  | .result _ => if key ∈ r.journals then some r else none
  | .callError status _ =>
    if status < 500 then
      if key ∈ r.pending then some { r with pending := r.pending.erase key } else none
    else some r
  | .unavailable => some r

/-- An answer leaves the journals and the commands as they are. -/
theorem kept_by_answer {r r' : Remote} {key : String} {outcome : LedgerOutcome}
    (h : r.answer key outcome = some r') : r'.journals = r.journals ∧ r'.commands = r.commands := by
  unfold answer at h
  split at h
  · split_ifs at h
    cases h
    exact ⟨rfl, rfl⟩
  · split_ifs at h
    · cases h
      exact ⟨rfl, rfl⟩
    · cases h
      exact ⟨rfl, rfl⟩
  · cases h
    exact ⟨rfl, rfl⟩

end Remote

/-! ## Model -/

/-- The body of a confirm, with the customer or agent that sends it. -/
structure ConfirmInput where
  caller : String
  intentToken : String
  idempotencyKey : String
  deriving DecidableEq

/-- The outcome written to a row. -/
inductive Settlement where
  | completed
  | failed
  deriving DecidableEq

/-- What a row keeps from its preview: who it was made for, its token, and the account that pays. -/
structure Terms where
  owner : String
  tokenHash : String
  sourceAccountId : String
  deriving DecidableEq

/-- What `QrService` and `AgentService` do differently: their rows, their other tables
    `S` with writes `N` to them, and the input and the draft of a preview. -/
structure Channel (Row S N I D : Type) [Keyed Row String] where
  terms : Row → Terms
  keyHash : Row → String
  requestHash : Row → String
  settlement : Row → Option Settlement
  /-- Whether the unique constraints keep the second row out beside the first. -/
  conflicts : Row → Row → Bool
  /-- Whether the row has the journal. -/
  hasJournal : String → Row → Bool
  /-- The preview up to its last read. -/
  draft : Table Row → S → I → Env → Except Thrown D
  /-- The row that the preview inserts, with the writes of the same transaction. -/
  create : D → Env → Except Thrown (Row × List N)
  /-- The error of a confirm whose token names no row. -/
  unknownToken : PaymentsError
  /-- The hash of a confirm, and what stands in its place before one. -/
  hash : ConfirmInput → String
  pendingHash : String
  /-- The checks of the row in a confirm. -/
  confirmable : S → Row → ℕ → Except PaymentsError Unit
  /-- The claim of a row, and the writes of the same transaction. -/
  claim : Row → String → String → ℕ → Row
  claimNotes : Row → ℕ → List N
  /-- The command of `settle`. -/
  command : S → Row → InternalLedgerTransferCommand
  /-- The write of `settle` on a result, and the writes after it. -/
  complete : Row → InternalLedgerTransferResult → ℕ → Row
  completeNotes : Row → List (ℕ → N)
  /-- The write of `settle` on a `LedgerCallError` below 500, and the writes after it. -/
  fail : Row → ℕ → Row
  failNotes : Row → Option String → List (ℕ → N)
  apply : S → N → S
  idempotencyKey : String → String
  key_injective : Function.Injective idempotencyKey
  conflicts_key : ∀ new row, (terms row).owner = (terms new).owner → keyHash row = keyHash new →
    conflicts new row = true
  create_settlement : ∀ d e row notes, create d e = .ok (row, notes) → settlement row = none
  create_requestHash : ∀ d e row notes, create d e = .ok (row, notes) → requestHash row = pendingHash
  claim_key : ∀ row k h now, key (claim row k h now) = key row := by intros; rfl
  claim_terms : ∀ row k h now, terms (claim row k h now) = terms row := by intros; rfl
  claim_keyHash : ∀ row k h now, keyHash (claim row k h now) = k := by intros; rfl
  claim_requestHash : ∀ row k h now, requestHash (claim row k h now) = h := by intros; rfl
  claim_settlement : ∀ row k h now, settlement row = none → settlement (claim row k h now) = none
  complete_key : ∀ row result now, key (complete row result now) = key row := by intros; rfl
  complete_terms : ∀ row result now, terms (complete row result now) = terms row := by intros; rfl
  complete_keyHash : ∀ row result now, keyHash (complete row result now) = keyHash row := by
    intros; rfl
  complete_requestHash : ∀ row result now, requestHash (complete row result now) = requestHash row := by
    intros; rfl
  complete_settlement : ∀ row result now, settlement (complete row result now) = some .completed := by
    intros; rfl
  fail_key : ∀ row now, key (fail row now) = key row := by intros; rfl
  fail_terms : ∀ row now, terms (fail row now) = terms row := by intros; rfl
  fail_keyHash : ∀ row now, keyHash (fail row now) = keyHash row := by intros; rfl
  fail_requestHash : ∀ row now, requestHash (fail row now) = requestHash row := by intros; rfl
  fail_settlement : ∀ row now, settlement (fail row now) = some .failed := by intros; rfl
  command_key : ∀ s row, (command s row).idempotencyKey = idempotencyKey (key row) := by intros; rfl
  command_source : ∀ s row, (command s row).sourceAccountId = (terms row).sourceAccountId := by
    intros; rfl

/-- When a preview read the tables: the time, and how many claims had been made. -/
structure Origin where
  readAt : ℕ
  claimsSeen : ℕ
  deriving DecidableEq

/-- Where a call stands. -/
inductive ChannelCall (Row N I D : Type) where
  /-- `preview` before its reads. -/
  | previewing (input : I)
  /-- `preview` before its insert. -/
  | creating (draft : D) (origin : Origin)
  | previewed (row : Row)
  /-- `confirm` before the lookup of the key. -/
  | confirming (input : ConfirmInput)
  /-- Before the lookup of the token. -/
  | searching (input : ConfirmInput)
  /-- Before the claim of the row it found. -/
  | claiming (input : ConfirmInput) (row : Row)
  /-- `settle` before it sends the command for the row. -/
  | settling (input : ConfirmInput) (row : Row)
  | awaiting (input : ConfirmInput) (row : Row)
  /-- Before the write of the outcome. -/
  | answered (input : ConfirmInput) (row : Row) (outcome : LedgerOutcome)
  /-- Before the writes that follow it. -/
  | noting (input : ConfirmInput) (row updated : Row) (outcome : LedgerOutcome)
      (notes : List (ℕ → N))
  | confirmed (input : ConfirmInput) (row : Row)
  | thrown (e : Thrown)

/-- What a step gets from outside. -/
inductive ChannelInput where
  /-- The next statement runs. -/
  | run (e : Env)
  /-- How the call to the Ledger ends. -/
  | reply (outcome : LedgerOutcome)
  /-- The database refuses the next statement. -/
  | fail
  /-- The process dies. -/
  | crash

/-- What may happen beside the calls: the Ledger executes an attempt, or the other tables
    get a row (`X` says which). -/
inductive Outside (X : Type) where
  | post (key : String)
  | other (x : X)

/-- The tables, the Ledger, and a history: the claims made so far with the row and the
    confirm of each, and when the preview of each row read the tables. -/
structure ChannelShared (Row S : Type) [Keyed Row String] where
  rows : Table Row
  side : S
  remote : Remote
  claims : List (String × ConfirmInput)
  origins : List (String × Origin)

/-- The tables and the calls. -/
abbrev ChannelState (Row S N I D : Type) [Keyed Row String] :=
  Pool.State (ChannelShared Row S) (ChannelCall Row N I D)

section Steps

variable {Row S N I D : Type} [Keyed Row String] (runtime : Runtime) (channel : Channel Row S N I D)

/-- The insert of a row; `none` on a unique violation. -/
def insertRow (rows : Table Row) (row : Row) : Option (Table Row) :=
  if rows.rows.any (channel.conflicts row) then none else rows.insert row

/-- The row of an idempotency key. -/
def findByKey (rows : Table Row) (input : ConfirmInput) : Option Row :=
  rows.rows.find? fun row => decide ((channel.terms row).owner = input.caller) &&
    decide (channel.keyHash row = runtime.sha256 input.idempotencyKey)

/-- The row of an intent token. -/
def findByToken (rows : Table Row) (input : ConfirmInput) : Option Row :=
  rows.rows.find? fun row =>
    decide ((channel.terms row).tokenHash = runtime.sha256 input.intentToken)

/-- Another row of the owner has the key hash. -/
def keyTaken (rows : Table Row) (row : Row) : Bool :=
  rows.rows.any fun other => decide (key other ≠ key row) &&
    decide ((channel.terms other).owner = (channel.terms row).owner) &&
    decide (channel.keyHash other = channel.keyHash row)

/-- Another row has the journal. -/
def journalOfOther (rows : Table Row) (id journalId : String) : Bool :=
  rows.rows.any fun other => decide (key other ≠ id) && channel.hasJournal journalId other

/-- The claim of the row `id`. -/
def claimRow (s : ChannelShared Row S) (id : String) (input : ConfirmInput) (updated : Row)
    (now : ℕ) : ChannelShared Row S :=
  { s with
    rows := s.rows.put updated
    side := (channel.claimNotes updated now).foldl channel.apply s.side
    claims := s.claims ++ [(id, input)] }

/-- `settle` returns the row as it was when a write after a result fails, and throws when
    one after an error does. -/
def afterFailure (input : ConfirmInput) (row : Row) (outcome : LedgerOutcome) :
    ChannelCall Row N I D :=
  match outcome with
  | .result _ => .confirmed input row
  | .callError _ _ | .unavailable => .thrown .other

/-- One step of a call. -/
def channelNext (s : ChannelShared Row S) (call : ChannelCall Row N I D) (input : ChannelInput) :
    Option (ChannelShared Row S × ChannelCall Row N I D) :=
  match call, input with
  | .previewing input, .run e =>
    match channel.draft s.rows s.side input e with
    | .error e => some (s, .thrown e)
    | .ok draft =>
      some (s, .creating draft { readAt := e.now, claimsSeen := s.claims.length })
  | .creating draft origin, .run e =>
    match channel.create draft e with
    | .error e => some (s, .thrown e)
    | .ok (row, notes) =>
      match insertRow channel s.rows row with
      | none => some (s, .thrown .other)
      | some rows => some ({ s with
          rows := rows
          side := notes.foldl channel.apply s.side
          origins := s.origins ++ [(key row, origin)] }, .previewed row)
  | .confirming input, .run _ =>
    match findByKey runtime channel s.rows input with
    | none => some (s, .searching input)
    | some existing =>
      if channel.requestHash existing ≠ channel.hash input then
        some (s, .thrown (.payments (paymentError "IDEMPOTENCY_CONFLICT")))
      else some (s, .confirmed input existing)
  | .searching input, .run e =>
    match findByToken runtime channel s.rows input with
    | none => some (s, .thrown (.payments channel.unknownToken))
    | some row =>
      match channel.confirmable s.side row e.now with
      | .error e => some (s, .thrown (.payments e))
      | .ok () => some (s, .claiming input row)
  | .claiming input row, .run e =>
    match s.rows.find (key row) with
    | none => some (s, .thrown .other)
    | some current =>
      let updated := channel.claim current (runtime.sha256 input.idempotencyKey)
        (channel.hash input) e.now
      if keyTaken channel s.rows updated then some (s, .thrown .other)
      else some (claimRow channel s (key row) input updated e.now, .settling input updated)
  | .settling input row, .run _ =>
    some ({ s with remote := s.remote.send (channel.command s.side row) }, .awaiting input row)
  | .awaiting input row, .reply outcome =>
    match s.remote.answer (channel.idempotencyKey (key row)) outcome with
    | none => none
    | some remote => some ({ s with remote := remote },
        if outcome.writes then .answered input row outcome else .confirmed input row)
  | .answered input row outcome, .run e =>
    match s.rows.find (key row), outcome with
    | some current, .result result =>
      if journalOfOther channel s.rows (key row) result.journalId then
        some (s, .confirmed input row)
      else
        let updated := channel.complete current result e.now
        some ({ s with rows := s.rows.put updated },
          .noting input row updated outcome (channel.completeNotes row))
    | some current, .callError _ code =>
      let updated := channel.fail current e.now
      some ({ s with rows := s.rows.put updated },
        .noting input row updated outcome (channel.failNotes row code))
    | _, _ => some (s, afterFailure input row outcome)
  | .answered input row outcome, .fail => some (s, afterFailure input row outcome)
  | .noting input _ updated _ [], .run _ => some (s, .confirmed input updated)
  | .noting input row updated outcome (note :: notes), .run e =>
    some ({ s with side := channel.apply s.side (note e.now) },
      .noting input row updated outcome notes)
  | .noting input row _ outcome (_ :: _), .fail => some (s, afterFailure input row outcome)
  | .previewing _, .fail | .creating _ _, .fail | .confirming _, .fail | .searching _, .fail
  | .claiming _ _, .fail => some (s, .thrown .other)
  | .previewed _, .crash | .confirmed _ _, .crash | .thrown _, .crash => none
  | _, .crash => some (s, .thrown .other)
  | _, _ => none

end Steps

/-- A call starts. -/
inductive ChannelStart (I : Type) where
  | preview (input : I)
  | confirm (input : ConfirmInput)

/-- A service of previews and confirms. -/
abbrev ChannelPool (Row S N I D X : Type) [Keyed Row String] :=
  Pool (ChannelShared Row S) (ChannelCall Row N I D) (ChannelStart I) ChannelInput (Outside X)

section Service

variable {Row S N I D X : Type} [Keyed Row String] (runtime : Runtime)
  (channel : Channel Row S N I D)

/-- All interleavings of previews and confirms, from an empty table: `initial` says how
    the other tables start, and `other` how they change beside the calls. -/
def channelService (initial : S → Prop) (other : S → X → Option S) :
    ChannelPool Row S N I D X where
  init s := s.rows.rows = [] ∧ initial s.side ∧
    s.remote = { commands := [], pending := [], journals := [] } ∧ s.claims = [] ∧ s.origins = []
  start _ call :=
    match call with
    | .preview input => .previewing input
    | .confirm input => .confirming input
  next := channelNext runtime channel
  env s x :=
    match x with
    | .post key => (s.remote.post key).map fun remote => { s with remote := remote }
    | .other x => (other s.side x).map fun side => { s with side := side }

end Service

end AegisShield.Payments
