import AegisShield.Common.Table
import AegisShield.Identity.Basic

/-!
# Passkey authentication

Concurrent calls of `PasskeyService.verifyAuthentication` (`passkey.service.ts`, lines 153-212),
with the challenges that `authenticationOptions` (lines 130-151) issues and time that passes. The
`GETDEL` of the challenge, the query of the credential with its verification, the update of the
counter, the event and the session are one step each. A step may fail, or take effect although its
answer is lost.

Results:
* `accepted_once`: in every run a challenge is accepted at most once.
* `counters_ordered`: in every run in which no verification stores a counter over one as large that
  another has stored since the credential was read, counters never decrease, and an assertion with
  a positive counter is accepted only if it is greater than all accepted before.
* `counter_decreases`: two assertions in flight store their counters in either order.
-/

namespace AegisShield.Identity.Passkey

open Common

/-! ## The tables and the library -/

/-- A row of `passkey_credentials` (`schema.prisma`, lines 58-75), without what only registration
    writes. -/
structure PasskeyCredential where
  id : String
  userId : String
  credentialId : String
  publicKey : String
  counter : ℕ
  transports : List String
  lastUsedAt : Option ℕ
  revokedAt : Option ℕ
  deriving DecidableEq

instance : Keyed PasskeyCredential String := ⟨PasskeyCredential.id⟩

/-- The credential of the options of `verifyAuthenticationResponse` (lines 182-187). -/
structure WebAuthnCredential where
  id : String
  publicKey : String
  counter : ℕ
  transports : List String
  deriving DecidableEq

/-- The library with the configured origin and relying party: the id in an assertion, the counter
    that the authenticator reports in it, and whether it is verified against a challenge and a
    credential. A counter that is not greater than the stored one is rejected, unless both are
    zero. -/
structure WebAuthnAdapter (Assertion : Type) where
  credentialId : Assertion → String
  newCounter : Assertion → ℕ
  verified : Assertion → String → WebAuthnCredential → Bool
  newCounter_of_verified : ∀ assertion challenge credential,
    verified assertion challenge credential = true →
    credential.counter < newCounter assertion ∨
      (credential.counter = 0 ∧ newCounter assertion = 0)

/-- `PasskeyAuthenticationVerificationInput`, with the caller's address. -/
structure VerificationInput (Assertion : Type) where
  challenge : String
  credential : Assertion
  ipHash : String

/-- A record for the statements: the counter of an accepted assertion is stored. -/
structure Acceptance where
  challenge : String
  credential : String
  counter : ℕ
  deriving DecidableEq

/-- The clock of Redis and its challenge keys with the `ipHash` of each, the credentials, and two
    records for the statements: the keys of the challenges that were issued, and the assertions
    that were accepted, in order. -/
structure Shared where
  now : ℕ
  challenges : String → Cell String
  credentials : Table PasskeyCredential
  issued : List String
  accepted : List Acceptance

/-! ## The calls -/

/-- What a call throws: an `AuthError`, or the error of a store. -/
inductive Failure where
  | auth (error : AuthError)
  | unavailable
  deriving DecidableEq

/-- `invalidPasskey` (lines 214-220). -/
def invalidPasskey : Failure := .auth {
  code := "PASSKEY_FAILED"
  message := "Passkey verification could not be completed."
  status := 401 }

/-- A call, by the step that it is about to take. -/
inductive Call (Assertion : Type) where
  /-- Lines 158-167. -/
  | taking (input : VerificationInput Assertion)
  /-- Lines 169-195. -/
  | reading (input : VerificationInput Assertion)
  /-- Lines 196-202. -/
  | updating (input : VerificationInput Assertion) (credential : PasskeyCredential)
  /-- Lines 203-210. -/
  | recording (userId : String)
  /-- Line 211. -/
  | opening (userId : String)
  /-- The user of the new session. -/
  | done (result : Except Failure String)

/-- How a step runs, at a time: its answer may be lost. -/
structure StepEnv where
  now : ℕ
  answered : Bool

/-- What happens between the steps of the calls. -/
inductive Event where
  | passes (elapsed : ℕ)
  /-- `authenticationOptions` stores a challenge. -/
  | issues (challenge ipHash : String)

/-- `Number.MAX_SAFE_INTEGER`. -/
def MAX_SAFE_INTEGER : ℕ := 2 ^ 53 - 1

/-- `challengeTtlSeconds` (line 33). -/
def challengeTtlSeconds : ℕ := 300

section Calls

variable {Assertion : Type} (digests : Digests) (adapter : WebAuthnAdapter Assertion)

/-- `redis.set` of `authenticationOptions` (lines 145-149); the library never generates a challenge
    twice. -/
def issue (s : Shared) (challenge ipHash : String) : Option Shared :=
  if digests.sha256 challenge ∈ s.issued then none
  else some { s with
    challenges := Function.update s.challenges (digests.sha256 challenge)
      (Cell.setEx s.now ipHash challengeTtlSeconds)
    issued := digests.sha256 challenge :: s.issued }

/-- The store after the `GETDEL` of a challenge. -/
def take (s : Shared) (challenge : String) : Shared :=
  { s with challenges := Function.update s.challenges (digests.sha256 challenge) Cell.del }

/-- The check of the stored challenge (lines 164-167). -/
def checkChallenge (stored : Option String) (input : VerificationInput Assertion) :
    Call Assertion :=
  match stored with
  | none => .done (.error invalidPasskey)
  | some ipHash =>
    if timingSafeStringEqual ipHash input.ipHash then .reading input
    else .done (.error invalidPasskey)

/-- `passkeyCredential.findUnique({ where: { credentialId } })`. -/
def findCredential (s : Shared) (credentialId : String) : Option PasskeyCredential :=
  s.credentials.rows.find? fun row => row.credentialId = credentialId

/-- The credential that is given to the library (lines 182-187). -/
def PasskeyCredential.given (row : PasskeyCredential) : WebAuthnCredential where
  id := row.credentialId
  publicKey := row.publicKey
  counter := row.counter
  transports := row.transports

/-- The checks of the credential and of the assertion (lines 172-195). -/
def checkAssertion (credential : Option PasskeyCredential) (input : VerificationInput Assertion) :
    Call Assertion :=
  match credential with
  | none => .done (.error invalidPasskey)
  | some row =>
    if row.revokedAt.isSome then .done (.error invalidPasskey)
    else if MAX_SAFE_INTEGER < row.counter then .done (.error invalidPasskey)
    else if !adapter.verified input.credential input.challenge row.given ||
        (decide (0 < row.counter) &&
          decide (adapter.newCounter input.credential < row.counter)) then
      .done (.error invalidPasskey)
    else .updating input row

/-- The update of the credential (lines 196-202), with its record; an update of no row fails. -/
def storeCounter (s : Shared) (input : VerificationInput Assertion) (id : String) (now : ℕ) :
    Option Shared :=
  (s.credentials.find id).map fun row => { s with
    credentials := s.credentials.put
      { row with counter := adapter.newCounter input.credential, lastUsedAt := some now }
    accepted := s.accepted ++ [{
      challenge := input.challenge
      credential := id
      counter := adapter.newCounter input.credential }] }

/-- A call goes on if the answer arrives. -/
def answer (e : StepEnv) (call : Call Assertion) : Call Assertion :=
  if e.answered then call else .done (.error .unavailable)

/-- The next step of a call; `e` is `none` when it fails. -/
def verifyNext (s : Shared) (call : Call Assertion) (e : Option StepEnv) :
    Option (Shared × Call Assertion) :=
  match call, e with
  | .done _, _ => none
  | _, none => some (s, .done (.error .unavailable))
  | .taking input, some e =>
    some (take digests s input.challenge,
      answer e (checkChallenge ((s.challenges (digests.sha256 input.challenge)).get s.now) input))
  | .reading input, some e =>
    some (s, answer e
      (checkAssertion adapter (findCredential s (adapter.credentialId input.credential)) input))
  | .updating input credential, some e =>
    match storeCounter adapter s input credential.id e.now with
    | none => some (s, .done (.error .unavailable))
    | some s' => some (s', answer e (.recording credential.userId))
  | .recording userId, some e => some (s, answer e (.opening userId))
  | .opening userId, some e => some (s, answer e (.done (.ok userId)))

/-- Concurrent verifications. -/
def pool : Pool Shared (Call Assertion) (VerificationInput Assertion) (Option StepEnv) Event where
  init s := s.accepted = [] ∧ ∀ key, (s.challenges key).isSome → key ∈ s.issued
  start _ input := .taking input
  next := verifyNext digests adapter
  env s
    | .passes elapsed => some { s with now := s.now + elapsed }
    | .issues challenge ipHash => issue digests s challenge ipHash

end Calls

abbrev State (Assertion : Type) := Pool.State Shared (Call Assertion)

abbrev Action (Assertion : Type) :=
  Pool.Action (VerificationInput Assertion) (Option StepEnv) Event

/-! ## The property -/

/-- Each challenge is accepted at most once, and an assertion with a positive counter only if that
    is greater than every counter that was accepted before for the credential. -/
structure AcceptedInOrder (s : Shared) : Prop where
  once : (s.accepted.map Acceptance.challenge).Nodup
  increasing : s.accepted.Pairwise fun before after =>
    before.credential = after.credential → 0 < after.counter → before.counter < after.counter

/-- No stored counter has become smaller. -/
def CountersKept (s t : Shared) : Prop := ∀ row ∈ s.credentials.rows, ∃ row',
  t.credentials.find row.id = some row' ∧ row.counter ≤ row'.counter

/-- A counter is stored while the stored one is still the one that was read, or is smaller than
    it. -/
def storesNewest {Assertion : Type} (adapter : WebAuthnAdapter Assertion) (s : State Assertion) :
    Action Assertion → Bool
  | .next n (some _) =>
    match s.calls[n]? with
    | some (.updating input credential) => (s.shared.credentials.find credential.id).all fun row =>
        decide (row.counter = credential.counter) ||
          decide (row.counter < adapter.newCounter input.credential)
    | _ => true
  | _ => true

section Steps

variable {Assertion : Type} {digests : Digests} {adapter : WebAuthnAdapter Assertion}
  {s s' : Shared} {call call' : Call Assertion} {e : Option StepEnv}
  {input : VerificationInput Assertion} {credential : PasskeyCredential}

/-! ## Challenges -/

/-- A call has taken the challenge of a key, and may accept it. -/
def Call.holds (digests : Digests) (key : String) : Call Assertion → Bool
  | .reading input => digests.sha256 input.challenge = key
  | .updating input _ => digests.sha256 input.challenge = key
  | _ => false

/-- How often the challenge of a key is stored or has been accepted. -/
def Shared.uses (digests : Digests) (key : String) (s : Shared) : ℕ :=
  s.accepted.countP (fun a => digests.sha256 a.challenge = key) + (s.challenges key).isSome.toNat

variable (digests) in
theorem holds_answer (key : String) (e : StepEnv) (call : Call Assertion) :
    ((answer e call).holds digests key).toNat ≤ (call.holds digests key).toNat := by
  unfold answer
  split_ifs
  · exact le_refl _
  · exact Nat.zero_le _

theorem holds_checkAssertion (key : String) (credential : Option PasskeyCredential) :
    ((checkAssertion adapter credential input).holds digests key).toNat ≤
      ((Call.reading input).holds digests key).toNat := by
  unfold checkAssertion
  split
  · exact Nat.zero_le _
  · split_ifs
    · exact Nat.zero_le _
    · exact Nat.zero_le _
    · exact Nat.zero_le _
    · exact le_refl _

/-- A challenge is held only when it was stored, and then it is stored no more. -/
theorem uses_take (key : String) (e : StepEnv) :
    (take digests s input.challenge).uses digests key +
        ((answer e (checkChallenge ((s.challenges (digests.sha256 input.challenge)).get s.now)
          input)).holds digests key).toNat ≤ s.uses digests key := by
  have hanswer := holds_answer digests key e
    (checkChallenge ((s.challenges (digests.sha256 input.challenge)).get s.now) input)
  unfold Shared.uses
  by_cases hkey : digests.sha256 input.challenge = key
  · have htaken : (take digests s input.challenge).challenges key = none := by
      rw [← hkey]
      exact Function.update_self _ _ _
    cases hget : (s.challenges (digests.sha256 input.challenge)).get s.now with
    | none =>
      rw [hget] at hanswer
      have hnone : ((checkChallenge none input).holds digests key).toNat = 0 := rfl
      rw [htaken]
      show s.accepted.countP _ + 0 + _ ≤ _
      omega
    | some ipHash =>
      obtain ⟨entry, hentry, -⟩ := Cell.get_eq_some.mp hget
      rw [hkey] at hentry
      have hone := Bool.toNat_le
        ((answer e (checkChallenge (some ipHash) input)).holds digests key)
      rw [htaken, hentry]
      show s.accepted.countP _ + 0 + _ ≤ s.accepted.countP _ + 1
      omega
  · have hsame : (take digests s input.challenge).challenges key = s.challenges key :=
      Function.update_of_ne (Ne.symm hkey) _ _
    have hnone : ∀ stored, ((checkChallenge stored input).holds digests key).toNat = 0 := by
      intro stored
      unfold checkChallenge
      split
      · rfl
      · split_ifs
        · show (decide (digests.sha256 input.challenge = key)).toNat = 0
          rw [decide_eq_false hkey]
          rfl
        · rfl
    rw [hnone] at hanswer
    rw [hsame]
    show s.accepted.countP _ + _ + _ ≤ _
    omega

variable {id : String} {now : ℕ} {row : PasskeyCredential}

/-- What the update of a counter writes. -/
theorem storeCounter_some (h : storeCounter adapter s input id now = some s') :
    ∃ row, s.credentials.find id = some row ∧
      s'.credentials = s.credentials.put
        { row with counter := adapter.newCounter input.credential, lastUsedAt := some now } ∧
      s'.accepted = s.accepted ++ [⟨input.challenge, id, adapter.newCounter input.credential⟩] ∧
      s'.challenges = s.challenges ∧ s'.issued = s.issued := by
  obtain ⟨row, hrow, rfl⟩ := Option.map_eq_some_iff.mp h
  exact ⟨row, hrow, rfl, rfl, rfl, rfl⟩

variable (digests credential) in
/-- An update turns a challenge that is held into one that was accepted. -/
theorem uses_storeCounter (key : String) (h : storeCounter adapter s input id now = some s') :
    s'.uses digests key =
      s.uses digests key + ((Call.updating input credential).holds digests key).toNat := by
  obtain ⟨row, -, -, haccepted, hchallenges, -⟩ := storeCounter_some h
  unfold Shared.uses
  rw [haccepted, hchallenges, List.countP_append, List.countP_singleton, Call.holds]
  by_cases hkey : digests.sha256 input.challenge = key
  · simp [hkey]
    omega
  · simp [hkey]

/-- A step uses no challenge more often than it is held. -/
theorem uses_next (key : String) (h : verifyNext digests adapter s call e = some (s', call')) :
    s'.issued = s.issued ∧ s'.uses digests key + (call'.holds digests key).toNat ≤
      s.uses digests key + (call.holds digests key).toNat := by
  unfold verifyNext at h
  split at h
  · cases h
  · cases h
    exact ⟨rfl, Nat.add_le_add_left (Nat.zero_le _) _⟩
  · cases h
    exact ⟨rfl, uses_take key _⟩
  next input e' =>
    cases h
    exact ⟨rfl, Nat.add_le_add_left
      ((holds_answer digests key e' _).trans (holds_checkAssertion key _)) _⟩
  next input credential e' =>
    split at h
    · cases h
      exact ⟨rfl, Nat.add_le_add_left (Nat.zero_le _) _⟩
    next stored hstored =>
      cases h
      have huses := uses_storeCounter digests credential key hstored
      have hanswer := holds_answer digests key e' (.recording credential.userId : Call Assertion)
      have hnone : ((.recording credential.userId : Call Assertion).holds digests key).toNat = 0 :=
        rfl
      obtain ⟨row, -, -, -, -, hissued⟩ := storeCounter_some hstored
      exact ⟨hissued, by omega⟩
  next userId e' =>
    cases h
    exact ⟨rfl, Nat.add_le_add_left (holds_answer digests key e' _) _⟩
  next userId e' =>
    cases h
    exact ⟨rfl, Nat.add_le_add_left (holds_answer digests key e' _) _⟩

/-! ## Counters -/

/-- The reported counter is greater than the one that was read, or both are zero. -/
def Verified (adapter : WebAuthnAdapter Assertion) : Call Assertion → Prop
  | .updating input credential => credential.counter < adapter.newCounter input.credential ∨
      (credential.counter = 0 ∧ adapter.newCounter input.credential = 0)
  | _ => True

theorem verified_answer (e : StepEnv) (h : Verified adapter call) :
    Verified adapter (answer e call) := by
  unfold answer
  split_ifs
  · exact h
  · trivial

theorem verified_checkAssertion (credential : Option PasskeyCredential)
    (input : VerificationInput Assertion) :
    Verified adapter (checkAssertion adapter credential input) := by
  unfold checkAssertion
  split
  · trivial
  next row =>
    split_ifs with hrevoked hsafe hrejected
    · trivial
    · trivial
    · trivial
    · rw [Bool.not_eq_true, Bool.or_eq_false_iff, Bool.not_eq_false'] at hrejected
      exact adapter.newCounter_of_verified _ _ _ hrejected.1

/-- A step stores nothing, or the counter of a call that has verified its assertion. -/
theorem next_cases (h : verifyNext digests adapter s call e = some (s', call')) :
    Verified adapter call' ∧
      ((s'.credentials = s.credentials ∧ s'.accepted = s.accepted) ∨
        ∃ input credential e', e = some e' ∧ call = .updating input credential ∧
          storeCounter adapter s input credential.id e'.now = some s') := by
  unfold verifyNext at h
  split at h
  · cases h
  · cases h
    exact ⟨trivial, .inl ⟨rfl, rfl⟩⟩
  next input e' =>
    cases h
    refine ⟨verified_answer e' ?_, .inl ⟨rfl, rfl⟩⟩
    unfold checkChallenge
    split
    · trivial
    · split_ifs <;> trivial
  next input e' =>
    cases h
    exact ⟨verified_answer e' (verified_checkAssertion _ input), .inl ⟨rfl, rfl⟩⟩
  next input credential e' =>
    split at h
    · cases h
      exact ⟨trivial, .inl ⟨rfl, rfl⟩⟩
    next stored hstored =>
      cases h
      exact ⟨verified_answer e' trivial, .inr ⟨input, credential, e', rfl, rfl, hstored⟩⟩
  next userId e' =>
    cases h
    exact ⟨verified_answer e' trivial, .inl ⟨rfl, rfl⟩⟩
  next userId e' =>
    cases h
    exact ⟨verified_answer e' trivial, .inl ⟨rfl, rfl⟩⟩

/-- The stored counter is not smaller than the one that replaces it, or is that counter. -/
theorem stored_le (hverified : Verified adapter (.updating input credential))
    (hnewest : (decide (row.counter = credential.counter) ||
      decide (row.counter < adapter.newCounter input.credential)) = true) :
    row.counter < adapter.newCounter input.credential ∨
      (row.counter = 0 ∧ adapter.newCounter input.credential = 0) := by
  rw [Bool.or_eq_true, decide_eq_true_eq, decide_eq_true_eq] at hnewest
  rw [Verified] at hverified
  omega

/-- The accepted counters increase, and none is greater than the stored counter. -/
structure Increasing (s : Shared) : Prop where
  pairwise : s.accepted.Pairwise fun before after =>
    before.credential = after.credential → 0 < after.counter → before.counter < after.counter
  stored : ∀ a ∈ s.accepted, ∃ row, s.credentials.find a.credential = some row ∧
    a.counter ≤ row.counter

/-- What an update does to the rows: each keeps its counter, or is the updated one. -/
theorem countersKept_put {row' : PasskeyCredential} {k : String}
    (hput : s'.credentials = s.credentials.put row')
    (hrow : s.credentials.find row'.id = some row) (hle : row.counter ≤ row'.counter)
    {x : PasskeyCredential} (hx : s.credentials.find k = some x) :
    ∃ x', s'.credentials.find k = some x' ∧ x.counter ≤ x'.counter := by
  have hfind : s'.credentials.find k = if row'.id = k then some row' else s.credentials.find k := by
    rw [hput]
    exact Table.find_put hrow
  by_cases hk : row'.id = k
  · rw [if_pos hk] at hfind
    rw [hk, hx, Option.some_inj] at hrow
    exact ⟨row', hfind, hrow ▸ hle⟩
  · rw [if_neg hk] at hfind
    exact ⟨x, hfind.trans hx, le_refl _⟩

/-- A counter that is stored over a smaller one, or over zero by zero, keeps the order. -/
theorem increasing_storeCounter
    (hs : Increasing s) (hstored : storeCounter adapter s input id now = some s')
    (hrow : s.credentials.find id = some row)
    (hlt : row.counter < adapter.newCounter input.credential ∨
      (row.counter = 0 ∧ adapter.newCounter input.credential = 0)) :
    Increasing s' ∧ ∀ k x, s.credentials.find k = some x →
      ∃ x', s'.credentials.find k = some x' ∧ x.counter ≤ x'.counter := by
  obtain ⟨row', hrow', hput, haccepted, -, -⟩ := storeCounter_some hstored
  cases hrow.symm.trans hrow'
  have hid : row.id = id := Table.key_of_find hrow
  have hkept : ∀ k x, s.credentials.find k = some x →
      ∃ x', s'.credentials.find k = some x' ∧ x.counter ≤ x'.counter := by
    intro k x hx
    have hfind : s.credentials.find row.id = some row :=
      (congrArg s.credentials.find hid).trans hrow
    refine countersKept_put hput hfind ?_ hx
    show row.counter ≤ adapter.newCounter input.credential
    omega
  refine ⟨⟨?_, ?_⟩, hkept⟩
  · rw [haccepted, List.pairwise_append]
    refine ⟨hs.pairwise, List.pairwise_singleton _ _, ?_⟩
    intro a ha b hb hsame hpos
    cases List.mem_singleton.mp hb
    obtain ⟨x, hx, hle⟩ := hs.stored a ha
    rw [show a.credential = id from hsame, hrow, Option.some_inj] at hx
    subst hx
    have hpos' : 0 < adapter.newCounter input.credential := hpos
    show a.counter < adapter.newCounter input.credential
    omega
  · intro a ha
    rw [haccepted, List.mem_append, List.mem_singleton] at ha
    rcases ha with ha | rfl
    · obtain ⟨x, hx, hle⟩ := hs.stored a ha
      obtain ⟨x', hx', hle'⟩ := hkept _ x hx
      exact ⟨x', hx', hle.trans hle'⟩
    · refine ⟨{ row with counter := adapter.newCounter input.credential, lastUsedAt := some now },
        ?_, le_refl _⟩
      rw [hput]
      exact Table.find_put_of_find (x := row) rfl hrow

end Steps

/-! ## Runs -/

section Runs

variable {Assertion : Type} {digests : Digests} {adapter : WebAuthnAdapter Assertion}
  {s t : State Assertion} {C : State Assertion → Action Assertion → Prop}

/-- How many calls hold the challenge of a key, and how often it is stored or accepted. -/
def State.uses (digests : Digests) (key : String) (s : State Assertion) : ℕ :=
  s.calls.countP (Call.holds digests key) + s.shared.uses digests key

/-- A challenge is used once if it was issued, and else not at all. -/
def UsedOnce (digests : Digests) (s : State Assertion) : Prop :=
  ∀ key, s.uses digests key ≤ if key ∈ s.shared.issued then 1 else 0

variable {sh sh' : Shared} {n : ℕ}

theorem usedOnce_issue {key challenge ipHash : String}
    {calls : List (Call Assertion)} (h : issue digests sh challenge ipHash = some sh')
    (hs : State.uses digests key ⟨sh, calls⟩ ≤ if key ∈ sh.issued then 1 else 0) :
    State.uses digests key ⟨sh', calls⟩ ≤ if key ∈ sh'.issued then 1 else 0 := by
  unfold issue at h
  split_ifs at h with hfresh
  cases h
  unfold State.uses Shared.uses at hs ⊢
  by_cases hkey : key = digests.sha256 challenge
  · rw [if_neg (hkey ▸ hfresh)] at hs
    have hone : ((Function.update sh.challenges (digests.sha256 challenge)
      (Cell.setEx sh.now ipHash challengeTtlSeconds)) key).isSome.toNat ≤ 1 := Bool.toNat_le _
    rw [if_pos (hkey ▸ List.mem_cons_self)]
    dsimp only at hs hone ⊢
    omega
  · have hmem : key ∈ digests.sha256 challenge :: sh.issued ↔ key ∈ sh.issued := by
      rw [List.mem_cons, or_iff_right hkey]
    dsimp only at hs ⊢
    rw [Function.update_of_ne hkey, if_congr hmem rfl rfl]
    exact hs

/-- In every run each challenge is stored, held by a call or accepted at most once. -/
theorem usedOnce (h : (pool digests adapter).machine.Reachable C s) : UsedOnce digests s := by
  refine Machine.invariant (I := UsedOnce digests) ?_ ?_ h
  · rintro ⟨sh, calls⟩ ⟨⟨haccepted, hissued⟩, hcalls⟩ key
    cases hcalls
    unfold State.uses Shared.uses
    rw [haccepted]
    split_ifs with hmem
    · have hone := Bool.toNat_le (sh.challenges key).isSome
      simpa using hone
    · have hnone : (sh.challenges key).isSome = false :=
        Bool.eq_false_iff.mpr fun hsome => hmem (hissued key hsome)
      simp [hnone]
  · rintro s a t hs - hstep key
    have hkey := hs key
    cases a with
    | start input =>
      cases Pool.step_start hstep
      unfold State.uses at hkey ⊢
      rw [List.countP_append]
      exact hkey
    | next n e =>
      obtain ⟨call, s', call', hcall, hnext, rfl⟩ := Pool.step_next hstep
      obtain ⟨hissued, huses⟩ := uses_next key hnext
      have hcount := Pool.countP_next (f := Call.holds digests key) call' hcall
      unfold State.uses at hkey ⊢
      show _ ≤ if key ∈ s'.issued then 1 else 0
      rw [hissued]
      dsimp only at hcount ⊢
      omega
    | env x =>
      obtain ⟨s', henv, rfl⟩ := Pool.step_env hstep
      cases x with
      | passes elapsed =>
        cases henv
        exact hkey
      | issues challenge ipHash => exact usedOnce_issue henv hkey

/-- In every run a challenge is accepted at most once. -/
theorem accepted_once (h : (pool digests adapter).machine.Reachable C s) :
    (s.shared.accepted.map Acceptance.challenge).Nodup := by
  refine List.Nodup.of_map digests.sha256 (List.nodup_iff_count_le_one.mpr fun key => ?_)
  have hused := usedOnce h key
  have hcount : ((s.shared.accepted.map Acceptance.challenge).map digests.sha256).count key =
      s.shared.accepted.countP fun a => digests.sha256 a.challenge = key := by
    rw [List.map_map, List.count, List.countP_map]
    rfl
  unfold State.uses Shared.uses at hused
  split_ifs at hused <;> omega

/-- The condition holds of the call at hand. -/
theorem storesNewest_updating {e : StepEnv} {input : VerificationInput Assertion}
    {credential row : PasskeyCredential} (h : storesNewest adapter s (.next n (some e)) = true)
    (hcall : s.calls[n]? = some (.updating input credential))
    (hrow : s.shared.credentials.find credential.id = some row) :
    (decide (row.counter = credential.counter) ||
      decide (row.counter < adapter.newCounter input.credential)) = true := by
  simp only [storesNewest, hcall, hrow, Option.all_some] at h
  exact h

/-- A step that meets the condition keeps the order of the accepted counters and every stored
    counter. -/
theorem next_increasing {e : Option StepEnv} {call call' : Call Assertion} {s' : Shared}
    (hs : Increasing s.shared) (hverified : Verified adapter call)
    (hnewest : storesNewest adapter s (.next n e) = true) (hcall : s.calls[n]? = some call)
    (hnext : verifyNext digests adapter s.shared call e = some (s', call')) :
    Increasing s' ∧ ∀ k x, s.shared.credentials.find k = some x →
      ∃ x', s'.credentials.find k = some x' ∧ x.counter ≤ x'.counter := by
  rcases (next_cases hnext).2 with ⟨hcredentials, haccepted⟩ | ⟨input, credential, e', rfl, rfl, h⟩
  · refine ⟨⟨?_, ?_⟩, ?_⟩
    · rw [haccepted]
      exact hs.pairwise
    · rw [haccepted, hcredentials]
      exact hs.stored
    · intro k x hx
      rw [hcredentials]
      exact ⟨x, hx, le_refl _⟩
  · obtain ⟨row, hrow, -⟩ := storeCounter_some h
    exact increasing_storeCounter hs h hrow
      (stored_le hverified (storesNewest_updating hnewest hcall hrow))

/-- The environment changes no credential and accepts nothing. -/
theorem env_kept {x : Event} (h : (pool digests adapter).env sh x = some sh') :
    sh'.credentials = sh.credentials ∧ sh'.accepted = sh.accepted := by
  cases x with
  | passes elapsed =>
    cases h
    exact ⟨rfl, rfl⟩
  | issues challenge ipHash =>
    change issue digests sh challenge ipHash = some sh' at h
    unfold issue at h
    split_ifs at h
    cases h
    exact ⟨rfl, rfl⟩

theorem increasing (h : (pool digests adapter).machine.Reachable
    (fun s a => storesNewest adapter s a = true) s) :
    Increasing s.shared ∧ ∀ call ∈ s.calls, Verified adapter call := by
  refine Pool.invariant (G := Increasing) (A := fun _ => Verified adapter) ?_ ?_ ?_ ?_ h
  · rintro s ⟨haccepted, -⟩
    refine ⟨?_, ?_⟩
    · rw [haccepted]
      exact List.Pairwise.nil
    · rw [haccepted]
      intro a ha
      cases ha
  · intro s input hs
    trivial
  · intro s n e call s' call' hs hverified hnewest hcall hnext
    have hmine := hverified call (Pool.mem_of_getElem? hcall)
    exact ⟨(next_increasing hs hmine hnewest hcall hnext).1, (next_cases hnext).1,
      fun m q _ hq => hverified q (Pool.mem_of_getElem? hq)⟩
  · rintro s x s' hs - henv
    obtain ⟨hcredentials, haccepted⟩ := env_kept henv
    refine ⟨⟨?_, ?_⟩, fun q hq => hq⟩
    · rw [haccepted]
      exact hs.pairwise
    · rw [haccepted, hcredentials]
      exact hs.stored

theorem CountersKept.refl (s : Shared) : CountersKept s s :=
  fun row hrow => ⟨row, Table.find_of_mem hrow, le_refl _⟩

theorem countersKept (hs : (pool digests adapter).machine.Reachable
      (fun s a => storesNewest adapter s a = true) s)
    (hpath : (pool digests adapter).machine.Path (fun s a => storesNewest adapter s a = true) s t) :
    CountersKept s.shared t.shared := by
  refine Machine.Path.stable (P := fun t => CountersKept s.shared t.shared) hs ?_ hpath
    (CountersKept.refl _)
  intro u a v hu hnewest hstep hkept row hrow
  obtain ⟨x, hx, hle⟩ := hkept row hrow
  cases a with
  | start input =>
    cases Pool.step_start hstep
    exact ⟨x, hx, hle⟩
  | next n e =>
    obtain ⟨call, s', call', hcall, hnext, rfl⟩ := Pool.step_next hstep
    obtain ⟨hincreasing, hverified⟩ := increasing hu
    obtain ⟨x', hx', hle'⟩ := (next_increasing hincreasing
      (hverified call (Pool.mem_of_getElem? hcall)) hnewest hcall hnext).2 _ x hx
    exact ⟨x', hx', hle.trans hle'⟩
  | env event =>
    obtain ⟨s', henv, rfl⟩ := Pool.step_env hstep
    refine ⟨x, ?_, hle⟩
    rw [(env_kept henv).1]
    exact hx

end Runs

/-- In every run in which a counter is stored only while the stored one is still the one that was
    read or is smaller, each challenge is accepted once, no stored counter decreases, and an
    assertion with a positive counter is accepted only if that is greater than every one before. -/
theorem counters_ordered {Assertion : Type} (digests : Digests)
    (adapter : WebAuthnAdapter Assertion) (s t : State Assertion)
    (hs : (pool digests adapter).machine.Reachable (fun s a => storesNewest adapter s a = true) s)
    (hpath : (pool digests adapter).machine.Path (fun s a => storesNewest adapter s a = true) s t) :
    AcceptedInOrder t.shared ∧ CountersKept s.shared t.shared :=
  ⟨⟨accepted_once (hs.path hpath), (increasing (hs.path hpath)).1.pairwise⟩, countersKept hs hpath⟩

/-! ## Concrete runs -/

/-- An assertion for concrete runs, signed by the authenticator of its credential. -/
structure SignedAssertion where
  credentialId : String
  counter : ℕ

/-- The library for concrete runs. -/
def signedAdapter : WebAuthnAdapter SignedAssertion where
  credentialId := SignedAssertion.credentialId
  newCounter := SignedAssertion.counter
  verified assertion _ credential := decide (credential.id = assertion.credentialId) &&
    (decide (credential.counter < assertion.counter) ||
      (decide (credential.counter = 0) && decide (assertion.counter = 0)))
  newCounter_of_verified assertion challenge credential h := by
    simpa using (Bool.and_eq_true_iff.mp h).2

/-- A credential whose authenticator has counted to five. -/
def storedPasskey : PasskeyCredential where
  id := "5d0f7c1e-8a42-4b6f-9c39-2f6a1c7be001"
  userId := "5d0f7c1e-8a42-4b6f-9c39-2f6a1c7be002"
  credentialId := "passkey"
  publicKey := "key"
  counter := 5
  transports := ["internal"]
  lastUsedAt := none
  revokedAt := none

/-- The stores before any challenge is issued. -/
def registered : State SignedAssertion where
  shared := { now := 0, challenges := fun _ => none, credentials := Table.empty.add storedPasskey,
              issued := [], accepted := [] }
  calls := []

/-- A verification of an assertion of the credential. -/
def assertion (challenge : String) (counter : ℕ) : VerificationInput SignedAssertion :=
  ⟨challenge, ⟨"passkey", counter⟩, "127.0.0.1"⟩

/-- Two verifications of two challenges start, with counters six and seven. -/
def bothStart : List (Action SignedAssertion) :=
  [.env (.issues "first" "127.0.0.1"), .env (.issues "second" "127.0.0.1"),
    .start (assertion "first" 6), .start (assertion "second" 7)]

/-- The next three steps of a call. -/
def threeSteps (n : ℕ) : List (Action SignedAssertion) :=
  List.replicate 3 (.next n (some ⟨1000, true⟩))

/-- Both calls read counter five, and the second stores seven. -/
def sevenStored : List (Action SignedAssertion) :=
  bothStart ++ (threeSteps 0).tail ++ threeSteps 1

/-- The state at the end of a run. -/
def ranTo (as : List (Action SignedAssertion)) : State SignedAssertion :=
  ((pool plainDigests signedAdapter).machine.run registered as).getD registered

theorem counters_ordered_sequential :
    let t := ranTo (bothStart ++ threeSteps 0 ++ threeSteps 1)
    t.shared.accepted.map Acceptance.counter = [6, 7] ∧
      AcceptedInOrder t.shared ∧ CountersKept registered.shared t.shared :=
  ⟨by decide, counters_ordered plainDigests signedAdapter registered _
    (.init ⟨⟨rfl, fun key h => by cases h⟩, rfl⟩)
    (Machine.path_of_runUnder (fun _ _ h => h) (bothStart ++ threeSteps 0 ++ threeSteps 1)
      registered rfl)⟩

/-- Not in every run: two calls that have read counter five store theirs in either order, and six
    is accepted and stored after seven. -/
theorem counter_decreases : ¬ ∀ (Assertion : Type) (digests : Digests)
    (adapter : WebAuthnAdapter Assertion) (s t : State Assertion),
    (pool digests adapter).machine.Reachable Machine.always s →
      (pool digests adapter).machine.Path Machine.always s t →
      AcceptedInOrder t.shared ∧ CountersKept s.shared t.shared := by
  intro h
  have hseven : (pool plainDigests signedAdapter).machine.Path Machine.always registered
      (ranTo sevenStored) := @Machine.path_of_run _ _ _ _ _ sevenStored rfl
  have hsix : (pool plainDigests signedAdapter).machine.Path Machine.always (ranTo sevenStored)
      (ranTo (sevenStored ++ [.next 0 (some ⟨1000, true⟩)])) :=
    @Machine.path_of_run _ _ _ _ _ [.next 0 (some ⟨1000, true⟩)] rfl
  have hreachable : (pool plainDigests signedAdapter).machine.Reachable Machine.always
      (ranTo sevenStored) :=
    .path (.init ⟨⟨rfl, fun key h => by cases h⟩, rfl⟩) hseven
  obtain ⟨-, hkept⟩ := h _ _ _ _ _ hreachable hsix
  obtain ⟨row, hrow, hle⟩ := hkept { storedPasskey with counter := 7, lastUsedAt := some 1000 }
    (by decide)
  have hsmaller : (ranTo (sevenStored ++ [.next 0 (some ⟨1000, true⟩)])).shared.credentials.find
      storedPasskey.id = some { storedPasskey with counter := 6, lastUsedAt := some 1000 } := by
    decide
  cases hsmaller.symm.trans hrow
  exact absurd hle (by decide)

end AegisShield.Identity.Passkey
