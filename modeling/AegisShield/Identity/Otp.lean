import AegisShield.Identity.Basic

/-!
# One-time codes: `OtpService.verify` under concurrent calls

`verify` (`otp.service.ts`, lines 106-148) reads a challenge from Redis, compares
the phone, the purpose and the code, and then writes back the attempt counter or
deletes the challenge. The read and the write are two commands, and the calls on
one challenge may interleave between them.

Results:
* `verify_attempts_bounded`: in every run in which a challenge is read only while no other call is
  between its read and its write, at most `otpMaxAttempts` codes are compared without success and at
  most one call succeeds.
* `verify_attempts_unbounded`: without that, two calls that share one reading
  both succeed, and two wrong codes are compared where one is allowed.
-/

namespace AegisShield.Identity.Otp

open Common

/-! ## Model of `OtpService` -/

/-- `OtpPurpose` (`otp.service.ts`, line 15). -/
inductive OtpPurpose where
  | ONBOARDING
  | FALLBACK
  deriving DecidableEq

/-- `StoredOtpChallenge` (`otp.service.ts`, lines 17-24). -/
structure StoredOtpChallenge where
  phoneHash : String
  codeHash : String
  purpose : OtpPurpose
  attempts : ℕ
  preferredLanguage : Option String
  consentAcceptedAt : Option String
  deriving DecidableEq

/-- The arguments of `verify` besides the challenge id. -/
structure VerifyInput where
  phone : String
  otp : String
  purpose : OtpPurpose
  deriving DecidableEq

variable (digests : Digests) (config : IdentityConfig)

/-- `phoneHash` (`otp.service.ts`, lines 40-42). -/
def phoneHash (phone : String) : String := digests.keyedDigest phone config.internalToken

/-- The challenge that `request` stores for a fresh challenge id (`otp.service.ts`, lines 80-88). -/
def newChallenge (phone code : String) (purpose : OtpPurpose)
    (preferredLanguage consentAcceptedAt : Option String) : StoredOtpChallenge where
  phoneHash := phoneHash digests config phone
  codeHash := digests.keyedDigest code config.internalToken
  purpose := purpose
  attempts := 0
  preferredLanguage := preferredLanguage
  consentAcceptedAt := consentAcceptedAt

/-- The negation of the test of line 132. -/
def codeAccepted (input : VerifyInput) (challenge : StoredOtpChallenge) : Bool :=
  let phoneMatches := timingSafeStringEqual challenge.phoneHash (phoneHash digests config input.phone)
  let codeMatches := timingSafeStringEqual challenge.codeHash
    (digests.keyedDigest input.otp config.internalToken)
  !(!phoneMatches || decide (challenge.purpose ≠ input.purpose) || !codeMatches)

/-- Where a call of `verify` stands: before `GET`, after it with the challenge
    it read (compared at once), or finished. -/
inductive VerifyCall where
  | ready (input : VerifyInput)
  | fetched (input : VerifyInput) (challenge : StoredOtpChallenge)
  | missing (error : AuthError)
  | mismatch (error : AuthError)
  | verified (challenge : StoredOtpChallenge)
  deriving DecidableEq

/-- The clock of Redis and the entry of the challenge. -/
structure Shared where
  now : ℕ
  cell : Cell StoredOtpChallenge

/-- The Redis commands of a call: `GET` (lines 113-120), and `DEL` or
    `SET KEEPTTL` (lines 132-147). -/
def verifyNext (s : Shared) : VerifyCall → Option (Shared × VerifyCall)
  | .ready input =>
    match s.cell.get s.now with
    | none => some (s, .missing invalidOtp)
    | some challenge => some (s, .fetched input challenge)
  | .fetched input challenge =>
    if codeAccepted digests config input challenge then
      some ({ s with cell := Cell.del }, .verified challenge)
    else
      let challenge := { challenge with attempts := challenge.attempts + 1 }
      if challenge.attempts ≥ config.otpMaxAttempts then
        some ({ s with cell := Cell.del }, .mismatch invalidOtp)
      else
        some ({ s with cell := s.cell.setKeepTtl s.now challenge }, .mismatch invalidOtp)
  | .missing _ | .mismatch _ | .verified _ => none

/-- Any number of `verify` calls on one challenge that `request` stored
    (`otp.service.ts`, lines 89-93), with time passing in between. -/
def pool : Pool Shared VerifyCall VerifyInput Unit ℕ where
  init s := ∃ phone code purpose lang consent,
    s.cell = Cell.setEx s.now (newChallenge digests config phone code purpose lang consent)
      config.otpTtlSeconds
  start _ input := .ready input
  next s call _ := verifyNext digests config s call
  env s elapsed := some { s with now := s.now + elapsed }

abbrev State := Pool.State Shared VerifyCall
abbrev Action := Pool.Action VerifyInput Unit ℕ

/-! ## What is bounded -/

namespace VerifyCall

/-- The call has read the challenge and not yet written. -/
def isFetched : VerifyCall → Bool
  | .fetched .. => true
  | _ => false

/-- The call ended with a mismatch. -/
def isMismatch : VerifyCall → Bool
  | .mismatch _ => true
  | _ => false

/-- The call succeeded. -/
def isVerified : VerifyCall → Bool
  | .verified _ => true
  | _ => false

/-- The call compared its code with the stored one without success. -/
def comparedInVain : VerifyCall → Bool
  | .fetched input challenge => !codeAccepted digests config input challenge
  | .mismatch _ => true
  | _ => false

end VerifyCall

/-- The number of submitted codes compared without success. -/
def failures (calls : List VerifyCall) : ℕ :=
  calls.countP (VerifyCall.comparedInVain digests config)

/-- The number of calls that returned a challenge. -/
def successes (calls : List VerifyCall) : ℕ := calls.countP VerifyCall.isVerified

/-- The number of calls between their read and their write. -/
def readers (calls : List VerifyCall) : ℕ := calls.countP VerifyCall.isFetched

/-- The number of calls that wrote a mismatch. -/
def mismatches (calls : List VerifyCall) : ℕ := calls.countP VerifyCall.isMismatch

/-- A `GET` runs only while no other call is between its `GET` and its write. -/
def soleReader (s : State) : Action → Bool
  | .next n _ =>
    match s.calls[n]? with
    | some (.ready _) => readers s.calls == 0
    | _ => true
  | _ => true

/-! ## Counting calls -/

variable {digests config} {calls : List VerifyCall}

variable (digests config) in
/-- Each code compared in vain belongs to a call that ended with a mismatch or is about to. -/
theorem failures_le (calls : List VerifyCall) :
    failures digests config calls ≤ mismatches calls + readers calls := by
  unfold failures mismatches readers
  induction calls with
  | nil => simp
  | cons call calls ih =>
    cases call <;>
      simp [List.countP_cons, VerifyCall.comparedInVain, VerifyCall.isMismatch,
        VerifyCall.isFetched] <;> (try split) <;> omega

/-- What one step of a call does to the three counters. -/
theorem counts_set {n : ℕ} {call : VerifyCall} (call' : VerifyCall) (hn : calls[n]? = some call) :
    mismatches (calls.set n call') + call.isMismatch.toNat =
      mismatches calls + call'.isMismatch.toNat ∧
    successes (calls.set n call') + call.isVerified.toNat =
      successes calls + call'.isVerified.toNat ∧
    readers (calls.set n call') + call.isFetched.toNat =
      readers calls + call'.isFetched.toNat :=
  ⟨Pool.countP_next call' hn, Pool.countP_next call' hn, Pool.countP_next call' hn⟩

theorem counts_start (calls : List VerifyCall) (input : VerifyInput) :
    mismatches (calls ++ [.ready input]) = mismatches calls ∧
    successes (calls ++ [.ready input]) = successes calls ∧
    readers (calls ++ [.ready input]) = readers calls := by
  simp [mismatches, successes, readers, VerifyCall.isMismatch, VerifyCall.isVerified,
    VerifyCall.isFetched]

theorem fetched_of_readers (h : readers calls = 0) {input : VerifyInput}
    {challenge : StoredOtpChallenge} : .fetched input challenge ∉ calls := by
  intro hmem
  exact absurd rfl (List.countP_eq_zero.mp h _ hmem)

/-! ## The invariant -/

variable (config) in
/-- The entry holds the number of mismatches so far and every call that has read it read that
    number; or the entry was deleted, by the last allowed mismatch or by a success. -/
inductive Inv (shared : Shared) (calls : List VerifyCall) : Prop
  | stored (e : Entry StoredOtpChallenge)
      (cell : shared.cell = some e)
      (attempts : e.value.attempts = mismatches calls)
      (allowed : mismatches calls < config.otpMaxAttempts)
      (unverified : successes calls = 0)
      (reader : readers calls ≤ 1)
      (read : ∀ input challenge, .fetched input challenge ∈ calls → challenge = e.value)
  | consumed
      (cell : shared.cell = none)
      (allowed : mismatches calls ≤ config.otpMaxAttempts)
      (once : successes calls ≤ 1)
      (reader : readers calls = 0)

variable {shared shared' : Shared} {n : ℕ} {input : VerifyInput}
  {challenge : StoredOtpChallenge} {call' : VerifyCall}

theorem Inv.bounds (h : Inv config shared calls) :
    failures digests config calls ≤ config.otpMaxAttempts ∧ successes calls ≤ 1 := by
  have hf := failures_le digests config calls
  cases h with
  | stored | consumed => omega

theorem inv_init {s : State} (h : (pool digests config).machine.init s) :
    Inv config s.shared s.calls := by
  obtain ⟨⟨phone, code, purpose, lang, consent, hcell⟩, hcalls⟩ := h
  have hpos := config.otpMaxAttempts_pos
  rw [hcalls]
  refine .stored _ hcell rfl ?_ rfl ?_ ?_
  · show 0 < config.otpMaxAttempts; omega
  · show 0 ≤ 1; omega
  · simp

theorem inv_start (h : Inv config shared calls) (input : VerifyInput) :
    Inv config shared (calls ++ [.ready input]) := by
  obtain ⟨hm, hv, hf⟩ := counts_start calls input
  cases h with
  | stored e cell attempts allowed unverified reader read =>
    refine .stored e cell (by omega) (by omega) (by omega) (by omega) ?_
    intro input' challenge hmem
    exact read input' challenge (by simpa using hmem)
  | consumed cell allowed once reader =>
    exact .consumed cell (by omega) (by omega) (by omega)

/-- `GET` by a call that no other call overlaps. -/
theorem inv_get (h : Inv config shared calls) (hn : calls[n]? = some (.ready input))
    (hsole : readers calls = 0)
    (hstep : verifyNext digests config shared (.ready input) = some (shared', call')) :
    Inv config shared' (calls.set n call') := by
  obtain ⟨hm, hv, hf⟩ := counts_set call' hn
  simp only [verifyNext] at hstep
  split at hstep
  · cases hstep
    simp only [VerifyCall.isMismatch, VerifyCall.isVerified, VerifyCall.isFetched] at hm hv hf
    cases h with
    | stored e cell attempts allowed unverified reader read =>
      refine .stored e cell (by omega) (by omega) (by omega) (by omega) ?_
      intro input' challenge hmem
      rcases List.mem_or_eq_of_mem_set hmem with hmem | heq
      · exact read input' challenge hmem
      · cases heq
    | consumed cell allowed once reader =>
      exact .consumed cell (by omega) (by omega) (by omega)
  next challenge hget =>
    cases hstep
    simp only [VerifyCall.isMismatch, VerifyCall.isVerified, VerifyCall.isFetched,
      Bool.toNat_true, Bool.toNat_false] at hm hv hf
    obtain ⟨e, he, -, hval⟩ := Cell.get_eq_some.mp hget
    cases h with
    | stored e' cell attempts allowed unverified reader read =>
      obtain rfl : e = e' := Option.some.inj (he.symm.trans cell)
      refine .stored e cell (by omega) (by omega) (by omega) (by omega) ?_
      intro input' challenge' hmem
      rcases List.mem_or_eq_of_mem_set hmem with hmem | heq
      · exact read input' challenge' hmem
      · cases heq; exact hval.symm
    | consumed cell allowed once reader => rw [cell] at he; cases he

/-- `DEL` or `SET KEEPTTL` by the one call that has read the challenge. -/
theorem inv_write (h : Inv config shared calls)
    (hn : calls[n]? = some (.fetched input challenge))
    (hstep : verifyNext digests config shared (.fetched input challenge) =
      some (shared', call')) :
    Inv config shared' (calls.set n call') := by
  obtain ⟨hm, hv, hf⟩ := counts_set call' hn
  have hmem := Pool.mem_of_getElem? hn
  cases h with
  | consumed cell allowed once reader => exact absurd hmem (fetched_of_readers reader)
  | stored e cell attempts allowed unverified reader read =>
    obtain rfl := read input challenge hmem
    simp only [verifyNext] at hstep
    split_ifs at hstep with hacc hmax <;> cases hstep <;>
      simp only [VerifyCall.isMismatch, VerifyCall.isVerified, VerifyCall.isFetched,
        Bool.toNat_true, Bool.toNat_false] at hm hv hf
    · exact .consumed rfl (by omega) (by omega) (by omega)
    · exact .consumed rfl (by omega) (by omega) (by omega)
    · refine .stored _ rfl ?_ (by omega) (by omega) (by omega) ?_
      · show e.value.attempts + 1 = _; omega
      · intro input' challenge' hmem'
        exact absurd hmem' (fetched_of_readers (by omega))

theorem inv_step {s t : State} {a : Action} (h : Inv config s.shared s.calls)
    (hsole : soleReader s a = true)
    (hstep : (pool digests config).machine.step s a = some t) :
    Inv config t.shared t.calls := by
  cases a with
  | start input =>
    cases Pool.step_start hstep
    exact inv_start h input
  | next n e =>
    obtain ⟨call, s', call', hn, hnext, rfl⟩ := Pool.step_next hstep
    change verifyNext digests config s.shared call = _ at hnext
    cases call with
    | ready input =>
      refine inv_get h hn ?_ hnext
      simpa [soleReader, hn] using hsole
    | fetched input challenge => exact inv_write h hn hnext
    | missing | mismatch | verified => cases hnext
  | env elapsed =>
    obtain ⟨s', hs', rfl⟩ := Pool.step_env hstep
    cases hs'
    cases h with
    | stored e cell attempts allowed unverified reader read =>
      exact .stored e cell attempts allowed unverified reader read
    | consumed cell allowed once reader => exact .consumed cell allowed once reader

/-! ## Main results -/

/-- In a run in which every `GET` is issued while no other call is between its `GET` and its write,
    at most `otpMaxAttempts` codes are compared without success and at most one call succeeds. -/
theorem verify_attempts_bounded (digests : Digests) (config : IdentityConfig) (s : State)
    (h : (pool digests config).machine.Reachable (fun s a => soleReader s a = true) s) :
    failures digests config s.calls ≤ config.otpMaxAttempts ∧ successes s.calls ≤ 1 :=
  (Machine.invariant (I := fun s => Inv config s.shared s.calls)
    (fun _ hs => inv_init hs) (fun _ _ _ hs hsole hstep => inv_step hs hsole hstep) h).bounds

/-! ## Two calls that share one reading -/

/-- `OTP_MAX_ATTEMPTS=1`. -/
def oneAttemptConfig : IdentityConfig :=
  { defaultConfig "internal-token" with otpMaxAttempts := 1, otpMaxAttempts_pos := by decide }

/-- The challenge with code `123456` right after `request` stored it. -/
def freshChallenge : State where
  shared := { now := 0,
              cell := Cell.setEx 0 (newChallenge plainDigests oneAttemptConfig "+94771234567"
                "123456" .FALLBACK none none) oneAttemptConfig.otpTtlSeconds }
  calls := []

/-- Two calls with the code `otp` that both read before either writes. -/
def overlapping (otp : String) : List Action :=
  [.start ⟨"+94771234567", otp, .FALLBACK⟩, .start ⟨"+94771234567", otp, .FALLBACK⟩,
    .next 0 (), .next 1 (), .next 0 (), .next 1 ()]

theorem freshChallenge_init : (pool plainDigests oneAttemptConfig).machine.init freshChallenge :=
  ⟨⟨_, _, _, _, _, rfl⟩, rfl⟩

/-- Neither bound holds of every run: with one attempt allowed two wrong codes
    are compared, and two calls with the right code both succeed. -/
theorem verify_attempts_unbounded :
    (¬ ∀ (digests : Digests) (config : IdentityConfig) (s : State),
      (pool digests config).machine.Reachable Machine.always s →
        failures digests config s.calls ≤ config.otpMaxAttempts) ∧
    (¬ ∀ (digests : Digests) (config : IdentityConfig) (s : State),
      (pool digests config).machine.Reachable Machine.always s → successes s.calls ≤ 1) := by
  constructor
  · intro h
    obtain ⟨s, hs, hp⟩ := Machine.reachable_of_run (overlapping "000000")
      (fun s => decide (failures plainDigests oneAttemptConfig s.calls = 2))
      freshChallenge_init (by decide)
    have := h _ _ s hs
    have h2 := of_decide_eq_true hp
    have hmax : oneAttemptConfig.otpMaxAttempts = 1 := rfl
    omega
  · intro h
    obtain ⟨s, hs, hp⟩ := Machine.reachable_of_run (overlapping "123456")
      (fun s => decide (successes s.calls = 2)) freshChallenge_init (by decide)
    have := h _ _ s hs
    have h2 := of_decide_eq_true hp
    omega

/-- Two calls one after the other meet the condition of `verify_attempts_bounded`. -/
theorem verify_attempts_bounded_sequential :
    ∃ s : State, s.calls.length = 2 ∧
      failures plainDigests oneAttemptConfig s.calls ≤ oneAttemptConfig.otpMaxAttempts ∧
      successes s.calls ≤ 1 := by
  obtain ⟨s, hs, hp⟩ := Machine.reachable_of_runUnder
    [.start ⟨"+94771234567", "000000", .FALLBACK⟩, .next 0 (), .next 0 (),
      .start ⟨"+94771234567", "123456", .FALLBACK⟩, .next 1 ()]
    soleReader (fun s => decide (s.calls.length = 2)) (fun _ _ h => h) freshChallenge_init
    (by decide)
  exact ⟨s, of_decide_eq_true hp,
    verify_attempts_bounded plainDigests oneAttemptConfig s hs⟩

end AegisShield.Identity.Otp
