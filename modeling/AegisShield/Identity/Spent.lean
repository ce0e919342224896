import AegisShield.Identity.Otp

/-!
# Spent one-time codes

A challenge is spent when a call of `verify` deletes it (after a success or the last
allowed mismatch) or when it is older than `otpTtlSeconds`. Its death is only the
absence of the Redis entry, and a mismatch writes the counter back with `SET KEEPTTL`,
which creates an absent entry.

Results:
* `spent_stays_spent`: where the counter is written back only while the entry is there,
  no call that starts after the challenge is spent succeeds.
* `spent_accepted`: without that, one does.
-/

namespace AegisShield.Identity.Otp

open Common

section Definitions

variable (digests : Digests) (config : IdentityConfig)

/-- The step deletes the challenge: the code is accepted, or the attempts are exhausted. -/
def spends (s : State) : Action → Bool
  | .next n _ =>
    match s.calls[n]? with
    | some (.fetched input challenge) => codeAccepted digests config input challenge ||
        decide (challenge.attempts + 1 ≥ config.otpMaxAttempts)
    | _ => false
  | _ => false

/-- The step writes no counter back (`SET KEEPTTL`), or the entry is still there. -/
def rewritesPresent (s : State) (a : Action) : Bool :=
  match a with
  | .next n _ =>
    match s.calls[n]? with
    | some (.fetched _ _) =>
      spends digests config s a || (s.shared.cell.get s.shared.now).isSome
    | _ => true
  | _ => true

/-- In a run from `s₀`, where `request` has just stored the challenge, it is spent in `s`. -/
inductive Spent (C : State → Action → Prop) (s₀ s : State) : Prop
  | deleted {t u : State} {a : Action} (before : (pool digests config).machine.Path C s₀ t)
      (condition : C t a) (step : (pool digests config).machine.step t a = some u)
      (spent : spends digests config t a = true)
      (after : (pool digests config).machine.Path C u s)
  | old (path : (pool digests config).machine.Path C s₀ s)
      (age : s₀.shared.now + config.otpTtlSeconds * 1000 < s.shared.now)

end Definitions

variable {digests : Digests} {config : IdentityConfig} {s t : State} {a : Action} {n : ℕ}

/-! ## The entry of a challenge -/

/-- The entry expires when the challenge is `otpTtlSeconds` old. -/
def Expires (config : IdentityConfig) (created : ℕ) (shared : Shared) : Prop :=
  ∀ e, shared.cell = some e → e.expiresAt = some (created + config.otpTtlSeconds * 1000)

theorem get_of_expires {created : ℕ} (h : Expires config created s.shared)
    (hage : created + config.otpTtlSeconds * 1000 < s.shared.now) :
    s.shared.cell.get s.shared.now = none := by
  rw [Option.eq_none_iff_forall_ne_some]
  intro challenge hget
  obtain ⟨e, he, hlive, -⟩ := Cell.get_eq_some.mp hget
  unfold Entry.live at hlive
  rw [h e he] at hlive
  have hle := of_decide_eq_true hlive
  omega

/-- What a step does to the clock and the entry: time passes, a call reads, the entry
    is deleted, or a counter is written back. -/
theorem shared_step (hstep : (pool digests config).machine.step s a = some t) :
    t.shared = s.shared ∨ (∃ elapsed, t.shared = { s.shared with now := s.shared.now + elapsed }) ∨
      t.shared = { s.shared with cell := Cell.del } ∨
      (∃ challenge, t.shared =
          { s.shared with cell := s.shared.cell.setKeepTtl s.shared.now challenge }) ∧
        (rewritesPresent digests config s a = true →
          (s.shared.cell.get s.shared.now).isSome = true) := by
  cases a with
  | start input =>
    rw [Pool.step_start hstep]
    exact .inl rfl
  | env elapsed =>
    obtain ⟨s', hs', rfl⟩ := Pool.step_env hstep
    cases hs'
    exact .inr (.inl ⟨elapsed, rfl⟩)
  | next n e =>
    obtain ⟨call, s', call', hn, hnext, rfl⟩ := Pool.step_next hstep
    change verifyNext digests config s.shared call = _ at hnext
    cases call with
    | ready input =>
      simp only [verifyNext] at hnext
      split at hnext
      · cases hnext
        exact .inl rfl
      · cases hnext
        exact .inl rfl
    | fetched input challenge =>
      simp only [verifyNext] at hnext
      split_ifs at hnext with haccepted hattempts
      · cases hnext
        exact .inr (.inr (.inl rfl))
      · cases hnext
        exact .inr (.inr (.inl rfl))
      · cases hnext
        refine .inr (.inr (.inr ⟨⟨_, rfl⟩, fun h => ?_⟩))
        simpa [rewritesPresent, spends, hn, haccepted, hattempts] using h
    | missing | mismatch | verified => cases hnext

/-- Under the condition no step brings an absent entry back. -/
theorem get_step (hrewrites : rewritesPresent digests config s a = true)
    (hstep : (pool digests config).machine.step s a = some t)
    (hnone : s.shared.cell.get s.shared.now = none) : t.shared.cell.get t.shared.now = none := by
  rcases shared_step hstep with hsame | ⟨elapsed, htime⟩ | hdel | ⟨⟨challenge, hset⟩, hpresent⟩
  · rw [hsame, hnone]
  · rw [htime, Option.eq_none_iff_forall_ne_some]
    intro challenge hget
    obtain ⟨e, he, hlive, hvalue⟩ := Cell.get_eq_some.mp hget
    have hnow : e.live s.shared.now = true := Entry.live_mono hlive (Nat.le_add_right _ _)
    have hsome := Cell.get_eq_some.mpr ⟨e, he, hnow, hvalue⟩
    rw [hnone] at hsome
    cases hsome
  · rw [hdel]
    rfl
  · have hsome := hpresent hrewrites
    rw [hnone] at hsome
    cases hsome

theorem expires_step {created : ℕ} (hrewrites : rewritesPresent digests config s a = true)
    (hstep : (pool digests config).machine.step s a = some t)
    (h : Expires config created s.shared) : Expires config created t.shared := by
  rcases shared_step hstep with hsame | ⟨elapsed, htime⟩ | hdel | ⟨⟨challenge, hset⟩, hpresent⟩
  · rw [hsame]
    exact h
  · rw [htime]
    exact h
  · rw [hdel]
    intro e he
    cases he
  · obtain ⟨value, hvalue⟩ := Option.isSome_iff_exists.mp (hpresent hrewrites)
    obtain ⟨e, he, hlive, -⟩ := Cell.get_eq_some.mp hvalue
    rw [hset]
    intro e' he'
    cases he'
    -- the counter keeps the expiry of the entry that is there
    have hfind : Cell.find s.shared.now s.shared.cell = some e := by
      rw [Cell.find, he, Option.filter_some, if_pos hlive]
    show (Cell.find s.shared.now s.shared.cell).bind Entry.expiresAt = _
    rw [hfind]
    exact h e he

/-- The step that spends the challenge leaves no entry. -/
theorem get_of_spends (hspends : spends digests config s a = true)
    (hstep : (pool digests config).machine.step s a = some t) :
    t.shared.cell.get t.shared.now = none := by
  cases a with
  | start | env => cases hspends
  | next n e =>
    obtain ⟨call, s', call', hn, hnext, rfl⟩ := Pool.step_next hstep
    change verifyNext digests config s.shared call = _ at hnext
    simp only [spends, hn] at hspends
    cases call with
    | ready input => cases hspends
    | missing error => cases hspends
    | mismatch error => cases hspends
    | verified challenge => cases hspends
    | fetched input challenge =>
      simp only [Bool.or_eq_true, decide_eq_true_eq] at hspends
      simp only [verifyNext] at hnext
      split_ifs at hnext with haccepted hattempts
      · cases hnext
        rfl
      · cases hnext
        rfl
      · rcases hspends with haccepts | hexhausted
        · exact absurd haccepts haccepted
        · exact absurd hexhausted hattempts

/-! ## Calls that start later -/

/-- The calls from number `k` on have read nothing. -/
def NothingRead (k : ℕ) (calls : List VerifyCall) : Prop :=
  ∀ m call, k ≤ m → calls[m]? = some call →
    (∃ input, call = .ready input) ∨ ∃ error, call = .missing error

theorem nothingRead_step {k : ℕ} (hstep : (pool digests config).machine.step s a = some t)
    (hnone : s.shared.cell.get s.shared.now = none) (h : NothingRead k s.calls) :
    NothingRead k t.calls := by
  cases a with
  | start input =>
    rw [Pool.step_start hstep]
    intro m call hkm hm
    rw [List.getElem?_append] at hm
    split_ifs at hm with hlt
    · exact h m call hkm hm
    · exact .inl ⟨input, List.mem_singleton.mp (List.mem_of_getElem? hm)⟩
  | env elapsed =>
    obtain ⟨s', -, rfl⟩ := Pool.step_env hstep
    exact h
  | next n e =>
    obtain ⟨call, s', call', hn, hnext, rfl⟩ := Pool.step_next hstep
    intro m q hkm hm
    rw [List.getElem?_set] at hm
    split_ifs at hm with hnm hlt
    · subst hnm
      cases hm
      change verifyNext digests config s.shared call = _ at hnext
      rcases h n call hkm hn with ⟨input, rfl⟩ | ⟨error, rfl⟩
      · simp only [verifyNext, hnone] at hnext
        cases hnext
        exact .inr ⟨_, rfl⟩
      · cases hnext
    · exact h m q hkm hm

/-! ## Main results -/

/-- In a run in which a counter is written back only while the entry is there, no call of `verify`
    that starts after the challenge was spent succeeds. -/
theorem spent_stays_spent {s₀ : State} (hinit : (pool digests config).machine.init s₀)
    (hspent : Spent digests config (fun s a => rewritesPresent digests config s a = true) s₀ s)
    (hpath : (pool digests config).machine.Path
      (fun s a => rewritesPresent digests config s a = true) s t)
    (hn : s.calls.length ≤ n) (challenge : StoredOtpChallenge) :
    t.calls[n]? ≠ some (.verified challenge) := by
  have hreach := Machine.Reachable.init
    (C := fun s a => rewritesPresent digests config s a = true) hinit
  -- the entry is gone where the challenge is spent
  have hgone : (pool digests config).machine.Reachable
      (fun s a => rewritesPresent digests config s a = true) s ∧
      s.shared.cell.get s.shared.now = none := by
    cases hspent with
    | deleted before condition step spent after =>
      have hu := (hreach.path before).step condition step
      refine ⟨hu.path after, ?_⟩
      exact Machine.Path.stable (P := fun s => s.shared.cell.get s.shared.now = none) hu
        (fun _ _ _ _ hrewrites hstep => get_step hrewrites hstep) after (get_of_spends spent step)
    | old path age =>
      refine ⟨hreach.path path, get_of_expires ?_ age⟩
      refine Machine.Path.stable (P := fun s => Expires config s₀.shared.now s.shared) hreach
        (fun _ _ _ _ hrewrites hstep => expires_step hrewrites hstep) path ?_
      obtain ⟨⟨phone, code, purpose, lang, consent, hcell⟩, -⟩ := hinit
      intro e he
      rw [hcell] at he
      cases he
      rfl
  -- and stays gone, so that the calls that start there read nothing
  have hlater : t.shared.cell.get t.shared.now = none ∧ NothingRead s.calls.length t.calls := by
    refine Machine.Path.stable (P := fun t => t.shared.cell.get t.shared.now = none ∧
      NothingRead s.calls.length t.calls) hgone.1 ?_ hpath ⟨hgone.2, fun m call hkm hm => ?_⟩
    · rintro t a u - hrewrites hstep ⟨hnone, hread⟩
      exact ⟨get_step hrewrites hstep hnone, nothingRead_step hstep hnone hread⟩
    · have hlt := (List.getElem?_eq_some_iff.mp hm).1
      omega
  intro hverified
  rcases hlater.2 n _ hn hverified with ⟨input, heq⟩ | ⟨error, heq⟩
  · cases heq
  · cases heq

/-- The challenge with code `123456` and five attempts right after `request` stored it. -/
def storedChallenge : State where
  shared := { now := 0,
              cell := Cell.setEx 0 (newChallenge plainDigests (defaultConfig "internal-token")
                "+94771234567" "123456" .FALLBACK none none) 300 }
  calls := []

/-- The state at the end of a run from `storedChallenge`. -/
def ranTo (as : List Action) : State :=
  ((pool plainDigests (defaultConfig "internal-token")).machine.run storedChallenge as).getD
    storedChallenge

/-- A call with a wrong code and one with the right code both read the challenge. -/
def bothRead : List Action :=
  [.start ⟨"+94771234567", "000000", .FALLBACK⟩, .start ⟨"+94771234567", "123456", .FALLBACK⟩,
    .next 0 (), .next 1 ()]

/-- The wrong code's counter is written, and a third call follows. -/
def thirdCall : List Action :=
  [.next 0 (), .start ⟨"+94771234567", "123456", .FALLBACK⟩, .next 2 (), .next 2 ()]

/-- Not in every run: a counter written after a success brings the challenge back, and a
    call that starts later succeeds again. -/
theorem spent_accepted : ¬ ∀ (digests : Digests) (config : IdentityConfig) (s₀ s t : State)
    (n : ℕ) (challenge : StoredOtpChallenge), (pool digests config).machine.init s₀ →
      Spent digests config Machine.always s₀ s →
      (pool digests config).machine.Path Machine.always s t → s.calls.length ≤ n →
      t.calls[n]? ≠ some (.verified challenge) := by
  intro h
  have hbefore : (pool plainDigests (defaultConfig "internal-token")).machine.Path Machine.always
      storedChallenge (ranTo bothRead) := @Machine.path_of_run _ _ _ _ _ bothRead rfl
  have hspent : Spent plainDigests (defaultConfig "internal-token") Machine.always storedChallenge
      (ranTo (bothRead ++ [.next 1 ()])) :=
    .deleted (a := .next 1 ()) hbefore trivial rfl (by decide) .refl
  have hafter : (pool plainDigests (defaultConfig "internal-token")).machine.Path Machine.always
      (ranTo (bothRead ++ [.next 1 ()])) (ranTo (bothRead ++ [.next 1 ()] ++ thirdCall)) :=
    @Machine.path_of_run _ _ _ _ _ thirdCall rfl
  exact h _ _ _ _ _ 2 _ ⟨⟨_, _, _, _, _, rfl⟩, rfl⟩ hspent hafter (by decide) rfl

/-- One call succeeds, and a second one that starts then does not. -/
theorem spent_stays_spent_sequential :
    let first : List Action := [.start ⟨"+94771234567", "123456", .FALLBACK⟩, .next 0 ()]
    let second : List Action := [.start ⟨"+94771234567", "123456", .FALLBACK⟩, .next 1 ()]
    successes (ranTo (first ++ [.next 0 ()])).calls = 1 ∧
      (ranTo (first ++ [.next 0 ()] ++ second)).calls[1]? ≠ some (.verified (newChallenge
        plainDigests (defaultConfig "internal-token") "+94771234567" "123456" .FALLBACK none none)) := by
  intro first second
  refine ⟨by decide, ?_⟩
  have hbefore := Machine.path_of_runUnder (t := ranTo first)
    (M := (pool plainDigests (defaultConfig "internal-token")).machine)
    (c := rewritesPresent plainDigests (defaultConfig "internal-token"))
    (fun _ _ hc => hc) first storedChallenge rfl
  have hafter := Machine.path_of_runUnder (t := ranTo (first ++ [.next 0 ()] ++ second))
    (M := (pool plainDigests (defaultConfig "internal-token")).machine)
    (c := rewritesPresent plainDigests (defaultConfig "internal-token"))
    (fun _ _ hc => hc) second (ranTo (first ++ [.next 0 ()])) rfl
  exact spent_stays_spent ⟨⟨_, _, _, _, _, rfl⟩, rfl⟩
    (.deleted (a := .next 0 ()) hbefore (by decide) rfl (by decide) .refl) hafter (by decide) _

end AegisShield.Identity.Otp
