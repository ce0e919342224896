import AegisShield.Common.Machine

/-!
# Pools of concurrent calls

Calls in progress against one shared state: a call may start at any moment, and
each next atomic step of a call is chosen by the scheduler. What a step reads
from outside (a clock, a reply, a failure) is the argument `e` of the step; what
changes the shared state without belonging to a call is an `env` action.

Results:
* `Pool.invariant`: the rely-guarantee rule. An assertion about each call holds in every reachable
  state if the call's own steps establish it and no step of another call destroys it.
* `Pool.path_call`: what is known of one call along a run.
* `Pool.countP_next`: how the number of calls with a property changes when one call takes a step.
-/

namespace AegisShield.Common

/-- The atomic steps of calls against a shared state: `S` is the shared state,
    `P` the local state of a call, `ι` the input a call starts with, `ε` what the
    environment supplies to a step and `η` the actions of the environment. -/
structure Pool (S P ι ε η : Type*) where
  /-- The shared states a run may start in. -/
  init : S → Prop
  /-- The local state of a call that starts in a shared state. -/
  start : S → ι → P
  /-- The next atomic step of a call. -/
  next : S → P → ε → Option (S × P)
  /-- What the environment does to the shared state. -/
  env : S → η → Option S

namespace Pool

/-- The shared state and the local states of the calls started so far. -/
structure State (S P : Type*) where
  shared : S
  calls : List P

/-- A call starts, call `n` takes its next step, or the environment acts. -/
inductive Action (ι ε η : Type*) where
  | start (i : ι)
  | next (n : ℕ) (e : ε)
  | env (x : η)

variable {S P ι ε η : Type*} (L : Pool S P ι ε η)

/-- The transition system of all interleavings of the calls. -/
def machine : Machine (State S P) (Action ι ε η) where
  init s := L.init s.shared ∧ s.calls = []
  step s
    | .start i => some { s with calls := s.calls ++ [L.start s.shared i] }
    | .next n e =>
      match s.calls[n]? with
      | none => none
      | some p =>
        (L.next s.shared p e).map fun r => { shared := r.1, calls := s.calls.set n r.2 }
    | .env x => (L.env s.shared x).map fun t => { s with shared := t }

variable {L} {s t : State S P}

theorem step_start {i : ι} (h : L.machine.step s (.start i) = some t) :
    t = { s with calls := s.calls ++ [L.start s.shared i] } := by
  simpa [machine] using h.symm

theorem step_next {n : ℕ} {e : ε} (h : L.machine.step s (.next n e) = some t) :
    ∃ p s' p', s.calls[n]? = some p ∧ L.next s.shared p e = some (s', p') ∧
      t = { shared := s', calls := s.calls.set n p' } := by
  simp only [machine] at h
  split at h
  · cases h
  next p hp =>
    obtain ⟨⟨s', p'⟩, hn, rfl⟩ := Option.map_eq_some_iff.mp h
    exact ⟨p, s', p', hp, hn, rfl⟩

theorem step_env {x : η} (h : L.machine.step s (.env x) = some t) :
    ∃ s', L.env s.shared x = some s' ∧ t = { s with shared := s' } := by
  obtain ⟨s', hs, rfl⟩ := Option.map_eq_some_iff.mp h
  exact ⟨s', hs, rfl⟩

/-! ## Building runs -/

section Runs

variable {sh sh' : S} {calls : List P}

end Runs

/-! ## Calls that run alone -/

/-- The next steps of one call, with no step of another between them. -/
def runAlone (L : Pool S P ι ε η) : S → P → List ε → Option (S × P)
  | s, p, [] => some (s, p)
  | s, p, e :: es => (L.next s p e).bind fun r => runAlone L r.1 r.2 es

theorem runAlone_cons {sh sh' : S} {p p' : P} {e : ε} {es : List ε} :
    L.runAlone sh p (e :: es) = some (sh', p') ↔
      ∃ sh₁ p₁, L.next sh p e = some (sh₁, p₁) ∧ L.runAlone sh₁ p₁ es = some (sh', p') := by
  show (L.next sh p e).bind _ = _ ↔ _
  rw [Option.bind_eq_some_iff, Prod.exists]

/-! ## Replacing one call -/

theorem mem_of_getElem? {calls : List P} {n : ℕ} {p : P} (h : calls[n]? = some p) :
    p ∈ calls := List.mem_of_getElem? h

/-- The calls after one of them took a step: itself, and the others as before. -/
theorem forall_set {Q : P → Prop} {calls : List P} {n : ℕ} {p' : P}
    (h : ∀ (m : ℕ) (q : P), m ≠ n → calls[m]? = some q → Q q) (hp : Q p') :
    ∀ q ∈ calls.set n p', Q q := by
  intro q hq
  obtain ⟨m, hm⟩ := List.mem_iff_getElem?.mp hq
  rw [List.getElem?_set] at hm
  split_ifs at hm with hnm hlt
  · cases hm; exact hp
  · exact h m q (Ne.symm hnm) hm

/-- Replacing call `n` changes the number of calls with a property by its own
    contribution before and after. -/
theorem countP_next {f : P → Bool} {calls : List P} {n : ℕ} {p : P} (p' : P)
    (h : calls[n]? = some p) :
    (calls.set n p').countP f + (f p).toNat = calls.countP f + (f p').toNat := by
  obtain ⟨hn, rfl⟩ := List.getElem?_eq_some_iff.mp h
  have hpos : (f calls[n]).toNat ≤ calls.countP f := by
    cases hf : f calls[n] with
    | false => simp
    | true => exact List.countP_pos_iff.mpr ⟨_, List.getElem_mem hn, hf⟩
  rw [List.countP_set hn]
  generalize calls.countP f = k at hpos ⊢
  generalize f calls[n] = b at hpos ⊢
  cases b <;> cases f p' <;> simp at hpos ⊢ <;> omega

/-- Replacing call `n` changes a sum over the calls by its own contribution before and after. -/
theorem sum_next {f : P → ℕ} {calls : List P} {n : ℕ} {p : P} (p' : P)
    (h : calls[n]? = some p) :
    ((calls.set n p').map f).sum + f p = (calls.map f).sum + f p' := by
  induction calls generalizing n with
  | nil => simp at h
  | cons q calls ih =>
    cases n with
    | zero =>
      obtain rfl : q = p := by simpa using h
      simp only [List.set_cons_zero, List.map_cons, List.sum_cons]
      omega
    | succ n =>
      have hrest := ih (by simpa using h)
      simp only [List.set_cons_succ, List.map_cons, List.sum_cons]
      omega

/-- Two calls with a property are counted twice. -/
theorem two_le_countP {f : P → Bool} {calls : List P} {m n : ℕ} {p q : P} (hmn : m ≠ n)
    (hp : calls[n]? = some p) (hq : calls[m]? = some q) (hfp : f p = true) (hfq : f q = true) :
    2 ≤ calls.countP f := by
  induction calls generalizing m n with
  | nil => simp at hp
  | cons r calls ih =>
    cases n with
    | zero =>
      obtain ⟨m, rfl⟩ := Nat.exists_eq_succ_of_ne_zero hmn
      obtain rfl : r = p := by simpa using hp
      have hmem : q ∈ calls := mem_of_getElem? (by simpa using hq)
      have hpos := List.countP_pos_iff.mpr ⟨q, hmem, hfq⟩
      rw [List.countP_cons_of_pos hfp]
      omega
    | succ n =>
      cases m with
      | zero =>
        obtain rfl : r = q := by simpa using hq
        have hmem : p ∈ calls := mem_of_getElem? (by simpa using hp)
        have hpos := List.countP_pos_iff.mpr ⟨p, hmem, hfp⟩
        rw [List.countP_cons_of_pos hfq]
        omega
      | succ m =>
        rw [List.getElem?_cons_succ] at hp hq
        have hrest := ih (by omega) hp hq
        rw [List.countP_cons]
        omega

/-! ## The rely-guarantee rule -/

variable {C : State S P → Action ι ε η → Prop} {G : S → Prop} {A : S → P → Prop}

/-- `G` about the shared state and `A` about each call hold in every state reachable under `C` if
    the start of a call establishes `A`, a step of a call keeps `G`, re-establishes the call's own
    `A` and keeps the `A` of every other call, and so does the environment. -/
theorem invariant_of_start (hinit : ∀ s, L.init s → G s)
    (hstart : ∀ (s : State S P) (i : ι), G s.shared → C s (.start i) →
      A s.shared (L.start s.shared i))
    (hnext : ∀ (s : State S P) (n : ℕ) (e : ε) (p : P) (s' : S) (p' : P),
      G s.shared → (∀ q ∈ s.calls, A s.shared q) → C s (.next n e) → s.calls[n]? = some p →
      L.next s.shared p e = some (s', p') →
      G s' ∧ A s' p' ∧ ∀ (m : ℕ) (q : P), m ≠ n → s.calls[m]? = some q → A s' q)
    (henv : ∀ (s : State S P) (x : η) (s' : S),
      G s.shared → C s (.env x) → L.env s.shared x = some s' → G s' ∧ ∀ q, A s.shared q → A s' q)
    (h : L.machine.Reachable C s) :
    G s.shared ∧ ∀ q ∈ s.calls, A s.shared q := by
  refine Machine.invariant (I := fun s => G s.shared ∧ ∀ q ∈ s.calls, A s.shared q)
    ?_ ?_ h
  · rintro s ⟨hs, hcalls⟩
    exact ⟨hinit _ hs, by simp [hcalls]⟩
  · rintro s a t ⟨hG, hA⟩ hC hstep
    cases a with
    | start i =>
      cases step_start hstep
      refine ⟨hG, fun q hq => ?_⟩
      rcases List.mem_append.mp hq with hq | hq
      · exact hA q hq
      · cases List.mem_singleton.mp hq
        exact hstart s i hG hC
    | next n e =>
      obtain ⟨p, s', p', hp, hn, rfl⟩ := step_next hstep
      obtain ⟨hG', hp', hothers⟩ := hnext s n e p s' p' hG hA hC hp hn
      exact ⟨hG', forall_set hothers hp'⟩
    | env x =>
      obtain ⟨s', hs', rfl⟩ := step_env hstep
      obtain ⟨hG', hA'⟩ := henv s x s' hG hC hs'
      exact ⟨hG', fun q hq => hA' q (hA q hq)⟩

/-- `invariant_of_start` when every start establishes `A`. -/
theorem invariant (hinit : ∀ s, L.init s → G s) (hstart : ∀ s i, G s → A s (L.start s i))
    (hnext : ∀ (s : State S P) (n : ℕ) (e : ε) (p : P) (s' : S) (p' : P),
      G s.shared → (∀ q ∈ s.calls, A s.shared q) → C s (.next n e) → s.calls[n]? = some p →
      L.next s.shared p e = some (s', p') →
      G s' ∧ A s' p' ∧ ∀ (m : ℕ) (q : P), m ≠ n → s.calls[m]? = some q → A s' q)
    (henv : ∀ (s : State S P) (x : η) (s' : S),
      G s.shared → C s (.env x) → L.env s.shared x = some s' → G s' ∧ ∀ q, A s.shared q → A s' q)
    (h : L.machine.Reachable C s) :
    G s.shared ∧ ∀ q ∈ s.calls, A s.shared q :=
  invariant_of_start hinit (fun s i hG _ => hstart s.shared i hG) hnext henv h

/-! ## One call along a run -/

/-- `R` about the shared state and call `n` holds along a path if the steps of the call
    establish it again and no step of another call or of the environment destroys it. -/
theorem path_call {R : S → P → Prop} {n : ℕ} {p : P}
    (hr : L.machine.Reachable C s) (hpath : L.machine.Path C s t)
    (hown : ∀ (u : State S P) (e : ε) (p : P) (s' : S) (p' : P), L.machine.Reachable C u →
      p ∈ u.calls → R u.shared p → L.next u.shared p e = some (s', p') → R s' p')
    (hother : ∀ (u : State S P) (e : ε) (p q : P) (s' : S) (q' : P), L.machine.Reachable C u →
      q ∈ u.calls → R u.shared p → L.next u.shared q e = some (s', q') → R s' p)
    (henv : ∀ (u : State S P) (x : η) (p : P) (s' : S), L.machine.Reachable C u →
      R u.shared p → L.env u.shared x = some s' → R s' p)
    (hn : s.calls[n]? = some p) (hR : R s.shared p) :
    ∃ q, t.calls[n]? = some q ∧ R t.shared q := by
  refine Machine.Path.stable (P := fun u => ∃ q, u.calls[n]? = some q ∧ R u.shared q) hr ?_ hpath
    ⟨p, hn, hR⟩
  rintro u a v hu hC hstep ⟨q, hq, hRq⟩
  cases a with
  | start i =>
    cases step_start hstep
    exact ⟨q, (List.getElem?_append_left (List.getElem?_eq_some_iff.mp hq).1).trans hq, hRq⟩
  | next m e =>
    obtain ⟨r, s', r', hr', hnext, rfl⟩ := step_next hstep
    by_cases hmn : m = n
    · subst hmn
      cases hr'.symm.trans hq
      exact ⟨r', List.getElem?_set_self (List.getElem?_eq_some_iff.mp hq).1,
        hown u e q s' r' hu (mem_of_getElem? hq) hRq hnext⟩
    · exact ⟨q, (List.getElem?_set_ne hmn).trans hq,
        hother u e q r s' r' hu (mem_of_getElem? hr') hRq hnext⟩
  | env x =>
    obtain ⟨s', henv', rfl⟩ := step_env hstep
    exact ⟨q, hq, henv u x q s' hu hRq henv'⟩

end Pool

end AegisShield.Common
