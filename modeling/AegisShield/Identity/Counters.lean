import AegisShield.Common.Pool
import AegisShield.Common.Expiring

/-!
# Counters with a lifetime: `incrementWithTtl`

`incrementWithTtl` (`redis.service.ts`, lines 60-64) sends `INCR`, and `EXPIRE` when the count is
1. It counts the OTP requests of a phone and of an address (`otp.service.ts`, lines 44-60), and
the failed attempts of a transfer step-up (`transfer-step-up.service.ts`, lines 59-70), which a
success deletes (line 86).

Results:
* `counters_expire`: in every run in which no call is cut off between the `INCR` that creates the
  counter and its `EXPIRE`, a counter that no call works on expires.
* `counter_left_for_ever`: one call that is cut off leaves a counter that only a `DEL` removes.
-/

namespace AegisShield.Identity.Counters

open Common

/-! ## Model -/

/-- What becomes of a command. -/
inductive Outcome where
  /-- Redis applies it and the caller reads the reply. -/
  | done
  /-- Redis applies it, but the reply does not arrive or the caller crashes. -/
  | lost
  /-- Redis does not apply it: it fails, or the caller has crashed before. -/
  | failed
  deriving DecidableEq

/-- Where a call stands: before `INCR`, after the count of 1 and before `EXPIRE`, or ended with a
    count or without one. -/
inductive Call where
  | ready (ttlSeconds : ℕ)
  | first (ttlSeconds : ℕ)
  | returned (count : ℕ)
  | stopped
  deriving DecidableEq

/-- The call sends no further command. -/
def Call.ended : Call → Bool
  | .ready _ | .first _ => false
  | .returned _ | .stopped => true

/-- The clock of Redis and the key. -/
structure Shared where
  now : ℕ
  counter : Cell ℕ
  deriving DecidableEq

/-- The count that an `INCR` returns. -/
def Shared.count (s : Shared) : ℕ := (s.counter.get s.now).getD 0 + 1

def Shared.incr (s : Shared) : Shared := { s with counter := s.counter.incr s.now }

def Shared.expire (s : Shared) (ttlSeconds : ℕ) : Shared :=
  { s with counter := s.counter.expire s.now ttlSeconds }

/-- The next command of a call. -/
def incrementWithTtl (s : Shared) : Call → Outcome → Option (Shared × Call)
  | .ready ttlSeconds, .done =>
    some (s.incr, if s.count = 1 then .first ttlSeconds else .returned s.count)
  | .ready _, .lost => some (s.incr, .stopped)
  | .ready _, .failed => some (s, .stopped)
  | .first ttlSeconds, .done => some (s.expire ttlSeconds, .returned 1)
  | .first ttlSeconds, .lost => some (s.expire ttlSeconds, .stopped)
  | .first _, .failed => some (s, .stopped)
  | .returned _, _ | .stopped, _ => none

/-- What happens around the calls. -/
inductive Env where
  | tick (elapsed : ℕ)
  /-- The `DEL` after a successful step-up. -/
  | delete
  deriving DecidableEq

/-- Any number of calls on one key, which is absent at first. -/
def pool : Pool Shared Call ℕ Outcome Env where
  init s := s.counter = none
  start _ ttlSeconds := .ready ttlSeconds
  next := incrementWithTtl
  env s
    | .tick elapsed => some { s with now := s.now + elapsed }
    | .delete => some { s with counter := Cell.del }

abbrev State := Pool.State Shared Call
abbrev Action := Pool.Action ℕ Outcome Env

/-! ## What expires, and when -/

/-- Once no call is in progress, a counter that is present has an expiry. -/
def Expires (s : State) : Prop :=
  (∀ call ∈ s.calls, call.ended = true) →
    ∀ e, s.shared.counter.find s.shared.now = some e → e.expiresAt.isSome = true

/-- The step cuts no call off between the `INCR` that creates the counter and its `EXPIRE`. -/
def completes (s : State) : Action → Bool
  | .next n .lost =>
    match s.calls[n]? with
    | some (.ready _) => (s.shared.counter.find s.shared.now).isSome
    | _ => true
  | .next n .failed =>
    match s.calls[n]? with
    | some (.first _) => false
    | _ => true
  | .next _ .done | .start _ | .env _ => true

/-- A counter without an expiry has a call that is about to set it. -/
def Guarded (s : State) : Prop :=
  ∀ e, s.shared.counter.find s.shared.now = some e → e.expiresAt = none →
    ∃ ttlSeconds, .first ttlSeconds ∈ s.calls

theorem Guarded.expires {s : State} (h : Guarded s) : Expires s := by
  intro hended e he
  cases hexpires : e.expiresAt with
  | some t => rfl
  | none =>
    obtain ⟨ttlSeconds, hfirst⟩ := h e he hexpires
    cases hended _ hfirst

/-! ## What commands do to the entry -/

section Entries

variable {now later ttlSeconds : ℕ} {c : Cell ℕ} {e : Entry ℕ}

/-- An entry that is found later is found now. -/
theorem find_of_later (hle : now ≤ later) (h : c.find later = some e) : c.find now = some e := by
  obtain ⟨rfl, hlive⟩ := Option.filter_eq_some_iff.mp h
  exact Cell.find_of_live (Entry.live_mono hlive hle)

/-- `INCR` keeps the expiry of an entry, and a new entry has none. -/
theorem find_incr (h : (c.incr now).find now = some e) :
    e.expiresAt = (c.find now).bind Entry.expiresAt := by
  obtain ⟨hentry, -⟩ := Option.filter_eq_some_iff.mp h
  rw [← Option.some.inj hentry]

/-- After `EXPIRE` an entry has an expiry. -/
theorem find_expire (h : (c.expire now ttlSeconds).find now = some e) :
    e.expiresAt = some (now + ttlSeconds * 1000) := by
  obtain ⟨hentry, -⟩ := Option.filter_eq_some_iff.mp h
  obtain ⟨old, -, rfl⟩ := Option.map_eq_some_iff.mp hentry
  rfl

end Entries

/-! ## Steps and runs -/

variable {calls : List Call} {n : ℕ} {p q : Call} {t : State} {a : Action}

theorem mem_set_of_ne {call : Call} (hp : calls[n]? = some p)
    (hcall : call ∈ calls) (hne : call ≠ p) : call ∈ calls.set n q := by
  obtain ⟨m, hm⟩ := List.mem_iff_getElem?.mp hcall
  have hmn : n ≠ m := by
    rintro rfl
    exact hne (Option.some.inj (hm.symm.trans hp))
  exact List.mem_iff_getElem?.mpr ⟨m, (List.getElem?_set_ne hmn).trans hm⟩

theorem mem_set_self (hp : calls[n]? = some p) :
    q ∈ calls.set n q := by
  obtain ⟨hn, -⟩ := List.getElem?_eq_some_iff.mp hp
  exact List.mem_iff_getElem?.mpr ⟨n, List.getElem?_set_self hn⟩

/-- A call that only found the counter there leaves it guarded. -/
theorem Guarded.incr {s : State} {ttlSeconds : ℕ} (h : Guarded s)
    (hn : s.calls[n]? = some (.ready ttlSeconds))
    (hfound : (s.shared.counter.find s.shared.now).isSome = true) :
    Guarded { shared := s.shared.incr, calls := s.calls.set n q } := by
  intro e he hexpires
  obtain ⟨old, hold⟩ := Option.isSome_iff_exists.mp hfound
  have hkept : e.expiresAt = (s.shared.counter.find s.shared.now).bind Entry.expiresAt :=
    find_incr he
  rw [hold, Option.bind_some, hexpires] at hkept
  obtain ⟨ttl, hfirst⟩ := h old hold hkept.symm
  exact ⟨ttl, mem_set_of_ne hn hfirst (by simp)⟩

theorem guarded_expire {s : State} {ttlSeconds : ℕ} :
    Guarded { shared := s.shared.expire ttlSeconds, calls := s.calls.set n q } := by
  intro e he hexpires
  rw [find_expire he] at hexpires
  cases hexpires

/-- A count of 1 is that of a counter that was absent. -/
theorem isSome_find_of_count {s : Shared} (h : s.count ≠ 1) :
    (s.counter.find s.now).isSome = true := by
  unfold Shared.count Cell.get at h
  cases hfind : s.counter.find s.now with
  | some e => rfl
  | none => simp [hfind] at h

theorem Guarded.step {s : State} (h : Guarded s) (hC : completes s a = true)
    (hstep : pool.machine.step s a = some t) : Guarded t := by
  cases a with
  | start i =>
    cases Pool.step_start hstep
    intro e he hexpires
    obtain ⟨ttl, hfirst⟩ := h e he hexpires
    exact ⟨ttl, List.mem_append_left _ hfirst⟩
  | env x =>
    obtain ⟨s', hs', rfl⟩ := Pool.step_env hstep
    cases x with
    | tick elapsed =>
      cases hs'
      intro e he hexpires
      exact h e (find_of_later (Nat.le_add_right _ _) he) hexpires
    | delete =>
      cases hs'
      intro e he
      cases he
  | next n outcome =>
    obtain ⟨p, s', p', hn, hnext, rfl⟩ := Pool.step_next hstep
    cases p with
    | ready ttlSeconds =>
      cases outcome with
      | done =>
        cases hnext
        by_cases hcount : s.shared.count = 1
        · intro e _ _
          rw [if_pos hcount]
          exact ⟨ttlSeconds, mem_set_self hn⟩
        · exact h.incr hn (isSome_find_of_count hcount)
      | lost =>
        cases hnext
        simp only [completes, hn] at hC
        exact h.incr hn hC
      | failed =>
        cases hnext
        intro e he hexpires
        obtain ⟨ttl, hfirst⟩ := h e he hexpires
        exact ⟨ttl, mem_set_of_ne hn hfirst (by simp)⟩
    | first ttlSeconds =>
      cases outcome with
      | done =>
        cases hnext
        exact guarded_expire
      | lost =>
        cases hnext
        exact guarded_expire
      | failed => simp [completes, hn] at hC
    | returned | stopped => cases hnext

theorem guarded_of_reachable {s : State}
    (h : pool.machine.Reachable (fun s a => completes s a = true) s) :
    Guarded s := by
  refine Machine.invariant ?_ (fun s a t hs hC hstep => hs.step hC hstep) h
  rintro s ⟨hnone, -⟩ e he
  rw [show s.shared.counter = none from hnone] at he
  cases he

/-- An entry with an expiry is gone after it. -/
theorem gone_of_expires {s : Shared}
    (h : ∀ e, s.counter.find s.now = some e → e.expiresAt.isSome = true) :
    ∃ last, ∀ later, last < later → s.counter.get later = none := by
  cases hfind : s.counter.find s.now with
  | none =>
    have hnone : s.counter.get s.now = none := by
      rw [Cell.get, hfind]
      rfl
    exact ⟨s.now, fun later hlater => Cell.get_none_mono hnone hlater.le⟩
  | some e =>
    obtain ⟨last, hlast⟩ := Option.isSome_iff_exists.mp (h e hfind)
    obtain ⟨hcell, -⟩ := Option.filter_eq_some_iff.mp hfind
    refine ⟨last, fun later hlater => ?_⟩
    have hdead : e.live later = false := by
      unfold Entry.live
      rw [hlast]
      simpa using hlater
    rw [hcell, Cell.get, Cell.find_of_dead hdead]
    rfl

/-- In every run in which no call is cut off between the `INCR` that creates the counter and its
    `EXPIRE`, a counter on which no call works has an expiry, and is gone after it. -/
theorem counters_expire {s : State}
    (h : pool.machine.Reachable (fun s a => completes s a = true) s) :
    Expires s ∧ ((∀ call ∈ s.calls, call.ended = true) →
      ∃ last, ∀ later, last < later → s.shared.counter.get later = none) := by
  have hexpires := (guarded_of_reachable h).expires
  exact ⟨hexpires, fun hended => gone_of_expires (hexpires hended)⟩

/-- No call has been made. -/
def noCounter : State := ⟨⟨0, none⟩, []⟩

theorem noCounter_init : pool.machine.init noCounter := ⟨rfl, rfl⟩

/-- Two calls, of which the second one loses its reply: the counter of two requests expires. -/
theorem counters_expire_two : ∃ s : State, s.shared.counter.get s.shared.now = some 2 ∧
    Expires s ∧ ((∀ call ∈ s.calls, call.ended = true) →
      ∃ last, ∀ later, last < later → s.shared.counter.get later = none) := by
  obtain ⟨s, hs, hp⟩ := Machine.reachable_of_runUnder
    [.start 3600, .start 3600, .next 0 .done, .next 1 .lost, .next 0 .done]
    completes (fun s => decide (s.shared.counter.get s.shared.now = some 2)) (fun _ _ h => h)
    noCounter_init (by decide)
  exact ⟨s, of_decide_eq_true hp, counters_expire hs⟩

/-! ## A call that is cut off -/

/-- The counter is there without an expiry, and no call is about to set one. -/
def Left (s : State) : Prop :=
  (∃ v, s.shared.counter = some { value := v + 1, expiresAt := none }) ∧
    ∀ ttlSeconds, .first ttlSeconds ∉ s.calls

theorem not_mem_set {ttlSeconds : ℕ} (h : .first ttlSeconds ∉ calls) (hq : q ≠ .first ttlSeconds) :
    .first ttlSeconds ∉ calls.set n q := by
  intro hmem
  rcases List.mem_or_eq_of_mem_set hmem with hmem | heq
  · exact h hmem
  · exact hq heq.symm

/-- Only a `DEL` removes it: later calls count on, and send no `EXPIRE`. -/
theorem Left.step {s : State} (h : Left s) (ha : a ≠ .env .delete)
    (hstep : pool.machine.step s a = some t) : Left t := by
  obtain ⟨⟨v, hv⟩, hfirst⟩ := h
  have hfind : s.shared.counter.find s.shared.now =
      some { value := v + 1, expiresAt := none } := by
    rw [hv]
    rfl
  cases a with
  | start i =>
    cases Pool.step_start hstep
    refine ⟨⟨v, hv⟩, fun ttlSeconds hmem => ?_⟩
    rcases List.mem_append.mp hmem with hmem | hmem
    · exact hfirst ttlSeconds hmem
    · cases List.mem_singleton.mp hmem
  | env x =>
    obtain ⟨s', hs', rfl⟩ := Pool.step_env hstep
    cases x with
    | tick elapsed =>
      cases hs'
      exact ⟨⟨v, hv⟩, hfirst⟩
    | delete => exact absurd rfl ha
  | next n outcome =>
    obtain ⟨p, s', p', hn, hnext, rfl⟩ := Pool.step_next hstep
    have hincr : s.shared.incr.counter = some { value := v + 1 + 1, expiresAt := none } := by
      show Cell.incr s.shared.now s.shared.counter = _
      rw [Cell.incr, Cell.get, hfind]
      rfl
    have hcount : s.shared.count ≠ 1 := by
      rw [Shared.count, Cell.get, hfind]
      simp
    cases p with
    | ready ttlSeconds =>
      cases outcome with
      | done =>
        cases hnext
        rw [if_neg hcount]
        exact ⟨⟨v + 1, hincr⟩, fun ttl => not_mem_set (hfirst ttl) (by simp)⟩
      | lost =>
        cases hnext
        exact ⟨⟨v + 1, hincr⟩, fun ttl => not_mem_set (hfirst ttl) (by simp)⟩
      | failed =>
        cases hnext
        exact ⟨⟨v, hv⟩, fun ttl => not_mem_set (hfirst ttl) (by simp)⟩
    | first ttlSeconds => exact absurd (Pool.mem_of_getElem? hn) (hfirst ttlSeconds)
    | returned | stopped => cases hnext

/-- A caller that crashes after its `INCR` leaves a counter that no later request makes expire. -/
theorem counter_left_for_ever : ∃ s : State, pool.machine.Reachable Machine.always s ∧
    ¬ Expires s ∧ ∀ t, pool.machine.Path (fun _ a => a ≠ .env .delete) s t →
      ∃ v, t.shared.counter = some { value := v + 1, expiresAt := none } := by
  obtain ⟨s, hs, hp⟩ := Machine.reachable_of_run [.start 3600, .next 0 .lost]
    (fun s : State => decide (s.calls = [.stopped] ∧
      s.shared.counter = some { value := 1, expiresAt := none })) noCounter_init (by decide)
  obtain ⟨hcalls, hcounter⟩ := of_decide_eq_true hp
  refine ⟨s, hs, fun hexpires => ?_, fun t hpath => ?_⟩
  · have hended : ∀ call ∈ s.calls, call.ended = true := by
      rw [hcalls]
      simp [Call.ended]
    have hfound := hexpires hended { value := 1, expiresAt := none } (by rw [hcounter]; rfl)
    cases hfound
  · have hleft : Left s := ⟨⟨0, hcounter⟩, by simp [hcalls]⟩
    have hstays : Left t := by
      induction hpath with
      | refl => exact hleft
      | tail _ ha hstep ih => exact ih.step ha hstep
    exact hstays.1

end AegisShield.Identity.Counters
