import AegisShield.Identity.Basic

/-!
# Step-up authorization: `TransferStepUpService` under concurrent calls

`verify` (`transfer-step-up.service.ts`, lines 29-96) reads the lock of the user, then the
user's row, verifies the PIN, and counts a failure in Redis (`INCR`, and `EXPIRE` after the
first one); the last failure allowed sets the lock. A success deletes the counter. Each Redis
command, the query and the verification are steps of their own.

Results:
* `step_up_attempts_bounded`: in every run in which a lock is read only while no other call is
  between that read and its last write, before a lock that was there at the call's start
  expires, and in which the counter does not expire while there is no lock, at most
  `transferStepUpMaxAttempts` wrong PINs are verified between two clearings, and no PIN by a
  call that starts while the lock is there.
* `step_up_attempts_unbounded`: without that, two calls that find no lock both verify a wrong
  PIN where one is allowed.
-/

namespace AegisShield.Identity.StepUp

open Common

/-! ## Model of `TransferStepUpService` -/

/-- The settings of `IdentityConfig` that the service reads, as `createIdentityConfig`
    accepts them. -/
structure StepUpConfig where
  transferStepUpMaxAttempts : ℕ
  transferStepUpLockSeconds : ℕ
  transferStepUpMaxAttempts_pos : 1 ≤ transferStepUpMaxAttempts
  transferStepUpLockSeconds_pos : 1 ≤ transferStepUpLockSeconds

theorem defaultStepUpMaxAttempts_pos : 1 ≤ 5 := by decide

theorem defaultStepUpLockSeconds_pos : 1 ≤ 300 := by decide

/-- The defaults of `createIdentityConfig` (`identity.config.ts`, lines 127-134). -/
def defaultStepUp : StepUpConfig where
  transferStepUpMaxAttempts := 5
  transferStepUpLockSeconds := 300
  transferStepUpMaxAttempts_pos := defaultStepUpMaxAttempts_pos
  transferStepUpLockSeconds_pos := defaultStepUpLockSeconds_pos

/-- The error of lines 44-48. -/
def stepUpLocked : AuthError :=
  { code := "TRANSFER_STEP_UP_LOCKED", message := "Authorization is unavailable.", status := 429 }

/-- The error of lines 80-84. -/
def stepUpFailed : AuthError :=
  { code := "TRANSFER_STEP_UP_FAILED", message := "Authorization failed.", status := 401 }

/-- Where a call stands. -/
inductive Stage where
  /-- Before `sessions.subject` returns. -/
  | resolving
  /-- Before the `GET` of the lock. -/
  | checking
  /-- Before the query of the user. -/
  | looking
  /-- Before the verification of the PIN. -/
  | found (user : Option User)
  /-- A success, before the `DEL` of the counter. -/
  | clearing
  /-- A failure, before the `INCR` of the counter. -/
  | failing
  /-- After the first `INCR`, before the `EXPIRE`. -/
  | expiring (count : ℕ)
  /-- Before the `SET` of the lock. -/
  | locking
  | rejected (error : AuthError)
  | verified
  deriving DecidableEq

/-- A call with its PIN. For the statements it records whether the lock was there when it
    started, and whether it has verified the PIN. -/
structure Call where
  pin : String
  late : Bool
  compared : Bool
  stage : Stage
  deriving DecidableEq

/-- The clock of Redis, the two keys and the row of the user; `wrong` counts the wrong PINs
    verified since the attempt state was last cleared. -/
structure Shared where
  now : ℕ
  attempts : Cell ℕ
  lock : Cell Unit
  user : Option User
  wrong : ℕ

/-- `user?.status === 'ACTIVE' && user.pinCredential` (lines 55-56). -/
def activePin (user : Option User) : Option String :=
  user.bind fun user => if user.status = .ACTIVE then user.pinHash else none

variable (config : StepUpConfig) (verifyPin : String → String → Bool)

/-- The test of line 65 and what follows it; the dummy verification before it has no effect. -/
def afterCount (count : ℕ) : Stage :=
  if count ≥ config.transferStepUpMaxAttempts then .locking else .rejected stepUpFailed

/-- One step of a call; `external` is the error of `sessions.subject`, if it throws. -/
def stepUpNext (s : Shared) (call : Call) (external : Option AuthError) :
    Option (Shared × Call) :=
  match call.stage with
  | .resolving =>
    match external with
    | some error => some (s, { call with stage := .rejected error })
    | none => some (s, { call with stage := .checking })
  | .checking =>
    match s.lock.get s.now with
    | some () => some (s, { call with stage := .rejected stepUpLocked })
    | none => some (s, { call with stage := .looking })
  | .looking => some (s, { call with stage := .found s.user })
  | .found user =>
    match activePin user with
    | none => some (s, { call with stage := .failing })
    | some pinHash =>
      if verifyPin pinHash call.pin then
        some (s, { call with compared := true, stage := .clearing })
      else
        some ({ s with wrong := s.wrong + 1 }, { call with compared := true, stage := .failing })
  | .clearing =>
    some ({ s with attempts := Cell.del, wrong := 0 }, { call with stage := .verified })
  | .failing =>
    -- `incrementWithTtl` (`redis.service.ts`): `INCR`, and `EXPIRE` when it returns 1
    let count := (s.attempts.get s.now).getD 0 + 1
    some ({ s with attempts := Cell.incr s.now s.attempts },
      { call with stage := if count = 1 then .expiring count else afterCount config count })
  | .expiring count =>
    some ({ s with attempts := Cell.expire s.now config.transferStepUpLockSeconds s.attempts },
      { call with stage := afterCount config count })
  | .locking =>
    some ({ s with lock := Cell.setEx s.now () config.transferStepUpLockSeconds },
      { call with stage := .rejected stepUpFailed })
  | .rejected _ | .verified => none

/-- What happens around the calls. -/
inductive Env where
  | tick (elapsed : ℕ)
  | setUser (user : Option User)
  deriving DecidableEq

/-- Time passes; the attempt state is cleared when the lock expires. -/
def Shared.tick (s : Shared) (elapsed : ℕ) : Shared :=
  let expires := (s.lock.get s.now).isSome && (s.lock.get (s.now + elapsed)).isNone
  { s with now := s.now + elapsed, wrong := if expires then 0 else s.wrong }

/-- Any number of calls for one user, from no attempts and no lock. -/
def pool : Pool Shared Call String (Option AuthError) Env where
  init s := s.attempts = none ∧ s.lock = none ∧ s.wrong = 0
  start s pin :=
    { pin := pin, late := (s.lock.get s.now).isSome, compared := false, stage := .resolving }
  next := stepUpNext config verifyPin
  env s
    | .tick elapsed => some (s.tick elapsed)
    | .setUser user => some { s with user := user }

abbrev State := Pool.State Shared Call
abbrev Action := Pool.Action String (Option AuthError) Env

/-! ## What is bounded, and when -/

/-- The attempts are bounded, and a call that starts while the lock is there verifies no PIN. -/
structure Bounded (s : State) : Prop where
  attempts : s.shared.wrong ≤ config.transferStepUpMaxAttempts
  locked : ∀ call ∈ s.calls, call.late = true → call.compared = false

/-- The call has found no lock and has Redis commands left. -/
def Call.working (call : Call) : Bool :=
  match call.stage with
  | .looking | .found _ | .clearing | .failing | .expiring _ | .locking => true
  | .resolving | .checking | .rejected _ | .verified => false

/-- The number of such calls. -/
def workers (calls : List Call) : ℕ := calls.countP Call.working

/-- The counter expires while there is no lock. -/
def Shared.lapses (s : Shared) (elapsed : ℕ) : Bool :=
  (s.attempts.get s.now).isSome && (s.attempts.get (s.now + elapsed)).isNone &&
    (s.lock.get s.now).isNone

/-- A lock is read only while no other call is working, and while a lock that was there at the
    call's start still is; the counter does not expire without a lock. -/
def undisturbed (s : State) : Action → Bool
  | .next n _ =>
    match s.calls[n]? with
    | some { stage := .checking, late, .. } =>
      workers s.calls == 0 && (!late || (s.shared.lock.get s.shared.now).isSome)
    | _ => true
  | .env (.tick elapsed) => !s.shared.lapses elapsed
  | _ => true

/-! ## The invariant -/

namespace Shared

/-- What `GET` of the counter would return, 0 without an entry. -/
def count (s : Shared) : ℕ := (s.attempts.get s.now).getD 0

/-- The counter expires before a lock that is set now. -/
def Expiring (s : Shared) : Prop :=
  ∀ e, s.attempts = some e →
    ∃ t, e.expiresAt = some t ∧ t ≤ s.now + config.transferStepUpLockSeconds * 1000

/-- There is no lock, and every wrong PIN has been counted. -/
structure Settled (s : Shared) : Prop where
  counted : s.wrong ≤ s.count
  allowed : s.count < config.transferStepUpMaxAttempts
  expiring : s.Expiring config

/-- There is a lock, which the counter does not outlive. -/
structure Locked (s : Shared) (e : Entry Unit) (expiry : ℕ) : Prop where
  entry : s.lock = some e
  expiresAt : e.expiresAt = some expiry
  live : s.now ≤ expiry
  bound : s.wrong ≤ config.transferStepUpMaxAttempts
  counter : ∀ a, s.attempts = some a → ∃ t, a.expiresAt = some t ∧ t ≤ expiry

end Shared

/-- What is known at a stage of the one call that works. -/
def Stage.Holds (s : Shared) : Stage → Prop
  | .failing => s.wrong ≤ s.count + 1 ∧ s.count < config.transferStepUpMaxAttempts ∧
      s.Expiring config
  | .expiring count => s.wrong ≤ 1 ∧ s.count = 1 ∧ count = 1
  | .locking => s.wrong ≤ config.transferStepUpMaxAttempts ∧ s.Expiring config
  | _ => s.Settled config

/-- No call works, and the state is settled or locked; or one works, and there is no lock. -/
structure Inv (s : State) : Prop where
  sole : workers s.calls ≤ 1
  idle : workers s.calls = 0 →
    (s.shared.lock.get s.shared.now = none ∧ s.shared.Settled config) ∨
      ∃ e t, s.shared.Locked config e t
  busy : ∀ call ∈ s.calls, call.working = true →
    s.shared.lock.get s.shared.now = none ∧ call.stage.Holds config s.shared
  late : ∀ call ∈ s.calls, call.late = true → call.compared = false ∧ call.working = false

variable {config verifyPin} {s s' : Shared} {call call' : Call} {external : Option AuthError}

/-! ## Time -/

section Tick

variable {elapsed : ℕ}

/-- Without a lock the counter is kept. -/
theorem count_tick (hlock : s.lock.get s.now = none) (h : s.lapses elapsed = false) :
    (s.tick elapsed).count = s.count := by
  show (s.attempts.get (s.now + elapsed)).getD 0 = (s.attempts.get s.now).getD 0
  cases hnow : s.attempts.get s.now with
  | none => rw [Cell.get_none_mono hnow (Nat.le_add_right _ _)]
  | some v =>
    obtain ⟨e, he, -, rfl⟩ := Cell.get_eq_some.mp hnow
    unfold Shared.lapses at h
    rw [hnow, hlock] at h
    cases hlater : s.attempts.get (s.now + elapsed) with
    | none =>
      rw [hlater] at h
      cases h
    | some w =>
      obtain ⟨e', he', -, rfl⟩ := Cell.get_eq_some.mp hlater
      cases he.symm.trans he'
      rfl

theorem wrong_tick (hlock : s.lock.get s.now = none) : (s.tick elapsed).wrong = s.wrong := by
  show (if (s.lock.get s.now).isSome && _ then 0 else s.wrong) = s.wrong
  rw [hlock]
  rfl

theorem Shared.Expiring.tick (h : s.Expiring config) : (s.tick elapsed).Expiring config := by
  intro e he
  obtain ⟨t, ht, hle⟩ := h e he
  refine ⟨t, ht, ?_⟩
  show t ≤ s.now + elapsed + _
  omega

theorem Shared.Settled.tick (hlock : s.lock.get s.now = none) (hlapse : s.lapses elapsed = false)
    (h : s.Settled config) : (s.tick elapsed).Settled config := by
  have hcount := count_tick hlock hlapse
  refine ⟨?_, ?_, h.expiring.tick⟩
  · rw [wrong_tick hlock, hcount]
    exact h.counted
  · rw [hcount]
    exact h.allowed

theorem Stage.Holds.tick {stage : Stage} (hlock : s.lock.get s.now = none)
    (hlapse : s.lapses elapsed = false) (h : stage.Holds config s) :
    stage.Holds config (s.tick elapsed) := by
  have hcount := count_tick hlock hlapse
  have hwrong : (s.tick elapsed).wrong = s.wrong := wrong_tick hlock
  cases stage with
  | failing =>
    obtain ⟨hcounted, hallowed, hexpiring⟩ := h
    refine ⟨?_, ?_, hexpiring.tick⟩ <;> omega
  | expiring count =>
    obtain ⟨hcounted, hone, rfl⟩ := h
    refine ⟨?_, ?_, rfl⟩ <;> omega
  | locking =>
    obtain ⟨hbound, hexpiring⟩ := h
    refine ⟨?_, hexpiring.tick⟩
    omega
  | _ => exact Shared.Settled.tick hlock hlapse h

/-- A lock stays, or expires after the counter. -/
theorem Shared.Locked.tick {e : Entry Unit} {t : ℕ} (h : s.Locked config e t) :
    (s.tick elapsed).Locked config e t ∨
      ((s.tick elapsed).lock.get (s.tick elapsed).now = none ∧ (s.tick elapsed).Settled config) := by
  have hlive : ∀ now, e.live now = decide (now ≤ t) := by
    intro now
    unfold Entry.live
    rw [h.expiresAt]
  have hget : ∀ now, (s.lock.get now).isSome = decide (now ≤ t) := by
    intro now
    rw [Cell.get, h.entry, Option.isSome_map, Cell.find, Option.isSome_filter, ← hlive]
    rfl
  by_cases hlater : s.now + elapsed ≤ t
  · refine .inl ⟨h.entry, h.expiresAt, hlater, ?_, h.counter⟩
    show (if _ then 0 else s.wrong) ≤ _
    have hbound := h.bound
    split <;> omega
  · have hgone : s.lock.get (s.now + elapsed) = none := by
      rw [← Option.isNone_iff_eq_none, ← Option.not_isSome, hget, decide_eq_false hlater]
      rfl
    have hwrong : (s.tick elapsed).wrong = 0 := by
      show (if (s.lock.get s.now).isSome && (s.lock.get (s.now + elapsed)).isNone then 0
        else s.wrong) = 0
      rw [hget, hgone, decide_eq_true h.live]
      rfl
    have hcount : (s.tick elapsed).count = 0 := by
      show (s.attempts.get (s.now + elapsed)).getD 0 = 0
      cases hlater' : s.attempts.get (s.now + elapsed) with
      | none => rfl
      | some v =>
        obtain ⟨a, ha, hlivea, -⟩ := Cell.get_eq_some.mp hlater'
        obtain ⟨ta, hta, hle⟩ := h.counter a ha
        rw [Entry.live, hta] at hlivea
        have := of_decide_eq_true hlivea
        omega
    refine .inr ⟨hgone, ?_, ?_, ?_⟩
    · omega
    · have := config.transferStepUpMaxAttempts_pos
      omega
    · intro a ha
      obtain ⟨ta, hta, hle⟩ := h.counter a ha
      refine ⟨ta, hta, ?_⟩
      show ta ≤ s.now + elapsed + _
      omega

end Tick

/-! ## Steps -/

variable (config) in
/-- What a step of the working call leaves. -/
def Kept (s : Shared) (call : Call) : Prop :=
  if call.working then s.lock.get s.now = none ∧ call.stage.Holds config s
  else (s.lock.get s.now = none ∧ s.Settled config) ∨ ∃ e t, s.Locked config e t

/-- What follows the count of a failure. -/
theorem kept_afterCount {count : ℕ} (hlock : s.lock.get s.now = none) (hcount : s.count = count)
    (hwrong : s.wrong ≤ count) (hmax : count ≤ config.transferStepUpMaxAttempts)
    (hexpiring : s.Expiring config) :
    Kept config s { call with stage := afterCount config count } := by
  unfold afterCount
  split_ifs with hlast
  · exact ⟨hlock, by omega, hexpiring⟩
  · exact .inl ⟨hlock, by omega, by omega, hexpiring⟩

theorem kept_next (hworking : call.working = true) (hlock : s.lock.get s.now = none)
    (h : call.stage.Holds config s)
    (hstep : stepUpNext config verifyPin s call external = some (s', call')) :
    Kept config s' call' := by
  obtain ⟨pin, late, compared, stage⟩ := call
  cases stage with
  | resolving | checking | rejected | verified => cases hworking
  | looking =>
    cases hstep
    exact ⟨hlock, h⟩
  | found user =>
    have hfailing : s.wrong ≤ s.count + 1 := Nat.le_succ_of_le h.counted
    simp only [stepUpNext] at hstep
    split at hstep
    · cases hstep
      exact ⟨hlock, hfailing, h.allowed, h.expiring⟩
    · split_ifs at hstep
      · cases hstep
        exact ⟨hlock, h⟩
      · cases hstep
        exact ⟨hlock, Nat.succ_le_succ h.counted, h.allowed, h.expiring⟩
  | clearing =>
    cases hstep
    exact .inl ⟨hlock, Nat.le_refl _, config.transferStepUpMaxAttempts_pos, fun e he => by cases he⟩
  | failing =>
    obtain ⟨hcounted, hallowed, hexpiring⟩ := h
    cases hstep
    have hcount : Shared.count { s with attempts := Cell.incr s.now s.attempts } = s.count + 1 := by
      show ((Cell.incr s.now s.attempts).get s.now).getD 0 = _
      rw [Cell.get_incr]
      rfl
    show Kept config _ { Call.mk pin late compared _ with
      stage := if s.count + 1 = 1 then .expiring (s.count + 1) else afterCount config (s.count + 1) }
    split_ifs with hone
    · refine ⟨hlock, ?_, ?_, hone⟩
      · show s.wrong ≤ 1
        omega
      · rw [hcount, hone]
    · refine kept_afterCount hlock hcount hcounted hallowed ?_
      -- the counter was there, so that it keeps its expiry
      have hsome : s.attempts.get s.now ≠ none := by
        intro hnone
        apply hone
        rw [Shared.count, hnone]
        rfl
      obtain ⟨v, hv⟩ := Option.ne_none_iff_exists'.mp hsome
      obtain ⟨e, he, hlive, -⟩ := Cell.get_eq_some.mp hv
      intro e' he'
      cases he'
      obtain ⟨t, ht, hle⟩ := hexpiring e he
      refine ⟨t, ?_, hle⟩
      rw [he, Cell.find_of_live hlive]
      exact ht
  | expiring count =>
    obtain ⟨hcounted, hone, rfl⟩ := h
    cases hstep
    refine kept_afterCount hlock ?_ hcounted config.transferStepUpMaxAttempts_pos ?_
    · show ((Cell.expire s.now _ s.attempts).get s.now).getD 0 = 1
      rw [Cell.get_expire]
      exact hone
    · intro e he
      obtain ⟨e', -, rfl⟩ := Option.map_eq_some_iff.mp he
      exact ⟨_, rfl, Nat.le_refl _⟩
  | locking =>
    obtain ⟨hbound, hexpiring⟩ := h
    cases hstep
    exact .inr ⟨_, _, rfl, rfl, Nat.le_add_right _ _, hbound, hexpiring⟩

/-- A call keeps its record of the lock, and verifies a PIN only while it works. -/
theorem late_next (hstep : stepUpNext config verifyPin s call external = some (s', call')) :
    call'.late = call.late ∧ (call.working = false → call'.compared = call.compared) := by
  obtain ⟨pin, late, compared, stage⟩ := call
  cases stage with
  | found user =>
    -- the only step that compares a PIN
    refine ⟨?_, fun h => by cases h⟩
    simp only [stepUpNext] at hstep
    split at hstep
    · cases hstep
      rfl
    · split_ifs at hstep <;> cases hstep <;> rfl
  | resolving | checking =>
    simp only [stepUpNext] at hstep
    split at hstep <;> cases hstep <;> exact ⟨rfl, fun _ => rfl⟩
  | looking | clearing | failing | expiring count | locking =>
    cases hstep
    exact ⟨rfl, fun _ => rfl⟩
  | rejected error | verified => cases hstep

/-- The steps of a call that does not work leave the state as it is; it starts to work when it
    finds no lock. -/
theorem waiting_next (hworking : call.working = false)
    (hstep : stepUpNext config verifyPin s call external = some (s', call')) :
    s' = s ∧ (call'.working = true →
      call.stage = .checking ∧ call'.stage = .looking ∧ s.lock.get s.now = none) := by
  obtain ⟨pin, late, compared, stage⟩ := call
  cases stage with
  | resolving =>
    simp only [stepUpNext] at hstep
    split at hstep <;> cases hstep <;> exact ⟨rfl, nofun⟩
  | checking =>
    simp only [stepUpNext] at hstep
    split at hstep
    · cases hstep
      exact ⟨rfl, nofun⟩
    next hnone =>
      cases hstep
      exact ⟨rfl, fun _ => ⟨rfl, rfl, hnone⟩⟩
  | rejected | verified => cases hstep
  | _ => cases hworking

/-! ## Runs -/

section Runs

variable {p : State} {n : ℕ}

theorem Inv.bounded (h : Inv config p) : Bounded config p where
  attempts := by
    rcases Nat.eq_zero_or_pos (workers p.calls) with hidle | hbusy
    · rcases h.idle hidle with ⟨-, hsettled⟩ | ⟨e, t, hlocked⟩
      · exact Nat.le_of_lt (Nat.lt_of_le_of_lt hsettled.counted hsettled.allowed)
      · exact hlocked.bound
    · obtain ⟨call, hcall, hworking⟩ := List.countP_pos_iff.mp hbusy
      obtain ⟨-, hholds⟩ := h.busy call hcall hworking
      obtain ⟨pin, late, compared, stage⟩ := call
      have hpos := config.transferStepUpMaxAttempts_pos
      cases stage with
      | failing =>
        obtain ⟨hcounted, hallowed, -⟩ := hholds
        omega
      | expiring count =>
        obtain ⟨hcounted, -, -⟩ := hholds
        omega
      | locking => exact hholds.1
      | _ => exact Nat.le_of_lt (Nat.lt_of_le_of_lt hholds.counted hholds.allowed)
  locked call hcall hlate := (h.late call hcall hlate).1

/-- While one call works, the others do not. -/
theorem Inv.others (h : Inv config p) (hn : p.calls[n]? = some call) (hworking : call.working = true)
    {m : ℕ} {other : Call} (hmn : m ≠ n) (hm : p.calls[m]? = some other) :
    other.working = false := by
  by_contra hother
  have htwo := Pool.two_le_countP hmn hn hm hworking (Bool.not_eq_false _ |>.mp hother)
  have hsole := h.sole
  unfold workers at hsole
  omega

theorem inv_next (h : Inv config p) (hn : p.calls[n]? = some call)
    (hcond : undisturbed p (.next n external) = true)
    (hstep : stepUpNext config verifyPin p.shared call external = some (s', call')) :
    Inv config { shared := s', calls := p.calls.set n call' } := by
  have hcount := Pool.countP_next (f := Call.working) call' hn
  have hmem := Pool.mem_of_getElem? hn
  obtain ⟨hlate, hcompared⟩ := late_next hstep
  cases hworking : call.working with
  | true =>
    obtain ⟨hlock, hholds⟩ := h.busy call hmem hworking
    have hkept := kept_next hworking hlock hholds hstep
    have hothers : ∀ m other, m ≠ n → p.calls[m]? = some other → other.working = false :=
      fun m other hmn hm => h.others hn hworking hmn hm
    have hsole := h.sole
    unfold workers at hsole
    rw [hworking, Bool.toNat_true] at hcount
    unfold Kept at hkept
    refine ⟨?_, fun hidle => ?_, ?_, ?_⟩
    · show List.countP _ (p.calls.set n call') ≤ 1
      cases hworking' : call'.working with
      | true => rw [hworking', Bool.toNat_true] at hcount; omega
      | false => rw [hworking', Bool.toNat_false] at hcount; omega
    · have hworking' : call'.working = false := by
        by_contra hne
        rw [Bool.not_eq_false _ |>.mp hne, Bool.toNat_true] at hcount
        have hzero : List.countP Call.working (p.calls.set n call') = 0 := hidle
        have hpos := List.countP_pos_iff.mpr ⟨call, hmem, hworking⟩
        omega
      rwa [hworking', if_neg Bool.false_ne_true] at hkept
    · refine Pool.forall_set (fun m other hmn hm hother => ?_) fun hworking' => ?_
      · rw [hothers m other hmn hm] at hother
        cases hother
      · rwa [if_pos hworking'] at hkept
    · refine Pool.forall_set (fun m other hmn hm => h.late other (Pool.mem_of_getElem? hm)) ?_
      intro hlate'
      have hwaiting := (h.late call hmem (hlate ▸ hlate')).2
      rw [hworking] at hwaiting
      cases hwaiting
  | false =>
    obtain ⟨rfl, hstarts⟩ := waiting_next hworking hstep
    rw [hworking, Bool.toNat_false] at hcount
    cases hworking' : call'.working with
    | false =>
      have hworkers : workers (p.calls.set n call') = workers p.calls := by
        rw [hworking', Bool.toNat_false] at hcount
        exact hcount
      refine ⟨hworkers ▸ h.sole, fun hidle => h.idle (hworkers ▸ hidle), ?_, ?_⟩
      · refine Pool.forall_set (fun m other _ hm => h.busy other (Pool.mem_of_getElem? hm)) ?_
        intro hne
        rw [hworking'] at hne
        cases hne
      · refine Pool.forall_set (fun m other _ hm => h.late other (Pool.mem_of_getElem? hm)) ?_
        intro hlate'
        exact ⟨(hcompared hworking).trans (h.late call hmem (hlate ▸ hlate')).1, hworking'⟩
    | true =>
      obtain ⟨hchecking, hlooking, hnone⟩ := hstarts hworking'
      obtain ⟨pin, late, compared, stage⟩ := call
      cases hchecking
      simp only [undisturbed, hn, Bool.and_eq_true, beq_iff_eq] at hcond
      obtain ⟨hidle, hfresh⟩ := hcond
      rw [hworking', Bool.toNat_true] at hcount
      have hsettled : p.shared.Settled config := by
        rcases h.idle hidle with ⟨-, hsettled⟩ | ⟨e, t, hlocked⟩
        · exact hsettled
        · have hsome : p.shared.lock.get p.shared.now = some () := by
            refine Cell.get_eq_some.mpr ⟨e, hlocked.entry, ?_, rfl⟩
            rw [Entry.live, hlocked.expiresAt]
            exact decide_eq_true hlocked.live
          rw [hnone] at hsome
          cases hsome
      refine ⟨?_, fun hzero => ?_, ?_, ?_⟩
      · show List.countP _ (p.calls.set n call') ≤ 1
        unfold workers at hidle
        omega
      · have : List.countP Call.working (p.calls.set n call') = 0 := hzero
        unfold workers at hidle
        omega
      · refine Pool.forall_set (fun m other _ hm hother => ?_) fun _ => ⟨hnone, ?_⟩
        · have hzero := List.countP_eq_zero.mp hidle other (Pool.mem_of_getElem? hm)
          exact absurd hother hzero
        · rw [hlooking]
          exact hsettled
      · refine Pool.forall_set (fun m other _ hm => h.late other (Pool.mem_of_getElem? hm)) ?_
        intro hlate'
        rw [show late = true from hlate.symm.trans hlate', hnone] at hfresh
        cases hfresh

theorem inv_reachable
    (h : (pool config verifyPin).machine.Reachable (fun s a => undisturbed s a = true) p) :
    Inv config p := by
  refine Machine.invariant (I := Inv config) ?_ ?_ h
  · rintro s ⟨⟨hattempts, hlock, hwrong⟩, hcalls⟩
    have hcount : s.shared.count = 0 := by
      rw [Shared.count, hattempts]
      rfl
    have hnil : ∀ call ∈ s.calls, False := by simp [hcalls]
    refine ⟨by simp [hcalls, workers], fun _ => .inl ⟨by rw [hlock]; rfl, ?_, ?_, ?_⟩,
      fun call hcall => (hnil call hcall).elim, fun call hcall => (hnil call hcall).elim⟩
    · omega
    · have := config.transferStepUpMaxAttempts_pos
      omega
    · intro e he
      rw [hattempts] at he
      cases he
  · intro s a t hinv hcond hstep
    cases a with
    | start pin =>
      cases Pool.step_start hstep
      have hworkers : workers (s.calls ++ [(pool config verifyPin).start s.shared pin]) =
          workers s.calls := by
        simp [workers, pool, Call.working]
      have hcalls : ∀ call ∈ s.calls ++ [(pool config verifyPin).start s.shared pin],
          call ∈ s.calls ∨ (call.compared = false ∧ call.working = false) := by
        intro call hcall
        rcases List.mem_append.mp hcall with hold | hnew
        · exact .inl hold
        · cases List.mem_singleton.mp hnew
          exact .inr ⟨rfl, rfl⟩
      refine ⟨hworkers ▸ hinv.sole, fun hidle => hinv.idle (hworkers ▸ hidle), ?_, ?_⟩
      · intro call hcall hworking
        rcases hcalls call hcall with hold | ⟨-, hwaiting⟩
        · exact hinv.busy call hold hworking
        · rw [hwaiting] at hworking
          cases hworking
      · intro call hcall hlate
        rcases hcalls call hcall with hold | hnew
        · exact hinv.late call hold hlate
        · exact hnew
    | next n external =>
      obtain ⟨call, s', call', hn, hnext, rfl⟩ := Pool.step_next hstep
      exact inv_next hinv hn hcond hnext
    | env x =>
      obtain ⟨s', hs', rfl⟩ := Pool.step_env hstep
      cases x with
      | setUser user =>
        cases hs'
        refine ⟨hinv.sole, fun hidle => ?_, fun call hcall hworking => ?_, hinv.late⟩
        · rcases hinv.idle hidle with ⟨hlock, hsettled⟩ | ⟨e, t, hlocked⟩
          · exact .inl ⟨hlock, hsettled.counted, hsettled.allowed, hsettled.expiring⟩
          · exact .inr ⟨e, t, hlocked.entry, hlocked.expiresAt, hlocked.live, hlocked.bound,
              hlocked.counter⟩
        · obtain ⟨hlock, hholds⟩ := hinv.busy call hcall hworking
          refine ⟨hlock, ?_⟩
          cases hstage : call.stage <;> rw [hstage] at hholds
          case failing => exact hholds
          case expiring => exact hholds
          case locking => exact hholds
          all_goals exact ⟨hholds.counted, hholds.allowed, hholds.expiring⟩
      | tick elapsed =>
        cases hs'
        have hlapse : s.shared.lapses elapsed = false := by
          simpa [undisturbed] using hcond
        refine ⟨hinv.sole, fun hidle => ?_, fun call hcall hworking => ?_, hinv.late⟩
        · rcases hinv.idle hidle with ⟨hlock, hsettled⟩ | ⟨e, t, hlocked⟩
          · exact .inl ⟨Cell.get_none_mono hlock (Nat.le_add_right _ _),
              hsettled.tick hlock hlapse⟩
          · rcases hlocked.tick with hstays | hcleared
            · exact .inr ⟨e, t, hstays⟩
            · exact .inl hcleared
        · obtain ⟨hlock, hholds⟩ := hinv.busy call hcall hworking
          exact ⟨Cell.get_none_mono hlock (Nat.le_add_right _ _), hholds.tick hlock hlapse⟩

end Runs

/-! ## Main results -/

/-- In a run in which a lock is read only while no other call works, and while a lock that was
    there at the call's start still is, and in which the counter does not expire without a lock,
    at most `transferStepUpMaxAttempts` wrong PINs are verified between two clearings of the
    attempt state, and no PIN by a call that starts while the lock is there. -/
theorem step_up_attempts_bounded (config : StepUpConfig) (verifyPin : String → String → Bool)
    (s : State)
    (h : (pool config verifyPin).machine.Reachable (fun s a => undisturbed s a = true) s) :
    Bounded config s :=
  (inv_reachable h).bounded

/-! ## Two calls that find no lock -/

theorem oneAttempt_pos : 1 ≤ 1 := Nat.le_refl 1

/-- `TRANSFER_STEP_UP_MAX_ATTEMPTS=1`. -/
def oneAttempt : StepUpConfig :=
  { defaultStepUp with
    transferStepUpMaxAttempts := 1
    transferStepUpMaxAttempts_pos := oneAttempt_pos }

/-- An active user with the PIN `482913` and no attempts. -/
def noAttempts : State where
  shared := { now := 0, attempts := none, lock := none, wrong := 0,
              user := some { id := "user-1", phoneE164 := "+94771234567", preferredLanguage := .EN,
                             kycTier := 1, status := .ACTIVE, phoneVerifiedAt := some 0,
                             lastAuthenticatedAt := some 0, failedLoginCount := 0,
                             lockedUntil := none, pinHash := some "482913" } }
  calls := []

/-- The verification of a PIN that is stored as it is. -/
def samePin (pinHash pin : String) : Bool := pinHash == pin

theorem noAttempts_init (config : StepUpConfig) :
    (pool config samePin).machine.init noAttempts := ⟨⟨rfl, rfl, rfl⟩, rfl⟩

/-- The steps of call `n`. -/
def steps (n k : ℕ) : List Action := List.replicate k (.next n none)

/-- Two calls with a wrong PIN that both read the lock before either counts its failure. -/
def overlapping : List Action :=
  [.start "000000", .start "111111"] ++ steps 0 2 ++ steps 1 2 ++ steps 0 2 ++ steps 1 2

/-- The bound does not hold of every run: where one attempt is allowed, two wrong PINs are
    verified. -/
theorem step_up_attempts_unbounded : ¬ ∀ (config : StepUpConfig)
    (verifyPin : String → String → Bool) (s : State),
    (pool config verifyPin).machine.Reachable Machine.always s → Bounded config s := by
  intro h
  obtain ⟨s, hs, hp⟩ := Machine.reachable_of_run overlapping
    (fun s : State => decide (s.shared.wrong = 2)) (noAttempts_init oneAttempt) (by decide)
  have hbound := (h _ _ s hs).attempts
  have htwo := of_decide_eq_true hp
  have hone : oneAttempt.transferStepUpMaxAttempts = 1 := rfl
  omega

/-- A wrong PIN, a call that the lock refuses, its expiry, and a right PIN meet the condition
    of `step_up_attempts_bounded`. -/
theorem step_up_attempts_bounded_sequential :
    ∃ s : State, s.calls.length = 3 ∧ Bounded oneAttempt s := by
  obtain ⟨s, hs, hp⟩ := Machine.reachable_of_runUnder
    ([.start "000000"] ++ steps 0 7 ++ [.start "482913"] ++ steps 1 2 ++
      [.env (.tick 300001), .start "482913"] ++ steps 2 5)
    undisturbed (fun s => decide (s.calls.length = 3)) (fun _ _ h => h)
    (noAttempts_init oneAttempt) (by decide)
  exact ⟨s, of_decide_eq_true hp, step_up_attempts_bounded oneAttempt samePin s hs⟩

end AegisShield.Identity.StepUp
