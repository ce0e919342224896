import Mathlib

/-!
# Executable transition systems

A `Machine` is a set of initial states and a partial step function. A run is a
list of actions, so a particular schedule can be evaluated; the reachable states
are those that some run leads to.

A run may be restricted to the steps that meet a condition `C` on the state
before the step and the action. `Machine.always` is the condition that every
step meets.

Results:
* `Machine.invariant`: what holds initially and is kept by every step that
  meets `C` holds in every state reachable under `C`.
* `Machine.Path.stable`: what every step from a reachable state keeps, once
  true, stays true along the rest of the run.
* `Machine.reachable_of_run`: the state at the end of an evaluated run is reachable.
* `Machine.Reachable.simulated`: a map under which every step of one system is a step of
  another or leaves the image alone takes reachable states to reachable states.
* `Machine.run_filter`: a run without the actions of others, when a relation
  between its states and those of the whole run says what they have in common.
-/

namespace AegisShield.Common

/-- A transition system with named actions and a computable step. -/
structure Machine (σ : Type*) (α : Type*) where
  /-- The states a run may start in. -/
  init : σ → Prop
  /-- The state after an action, `none` when the action is not enabled. -/
  step : σ → α → Option σ

namespace Machine

variable {σ α : Type*} (M : Machine σ α) {C D : σ → α → Prop} {s t u : σ}

/-- The condition that every step meets. -/
def always (_ : σ) (_ : α) : Prop := True

/-- The steps of a run from `s` to `t`, each of which meets `C`. -/
inductive Path (C : σ → α → Prop) (s : σ) : σ → Prop
  | refl : Path C s s
  | tail {t u : σ} {a : α} : Path C s t → C t a → M.step t a = some u → Path C s u

/-- `s` ends a run from an initial state whose steps all meet `C`. -/
inductive Reachable (C : σ → α → Prop) : σ → Prop
  | init {s : σ} : M.init s → Reachable C s
  | step {s t : σ} {a : α} : Reachable C s → C s a → M.step s a = some t → Reachable C t

variable {M}

theorem Path.trans (h : M.Path C s t) (h' : M.Path C t u) : M.Path C s u := by
  induction h' with
  | refl => exact h
  | tail _ hc hs ih => exact ih.tail hc hs

theorem Path.mono (hCD : ∀ s a, C s a → D s a) (h : M.Path C s t) : M.Path D s t := by
  induction h with
  | refl => exact .refl
  | tail _ hc hs ih => exact ih.tail (hCD _ _ hc) hs

theorem Reachable.path (h : M.Reachable C s) (h' : M.Path C s t) : M.Reachable C t := by
  induction h' with
  | refl => exact h
  | tail _ hc hs ih => exact .step ih hc hs

theorem Reachable.mono (hCD : ∀ s a, C s a → D s a) (h : M.Reachable C s) :
    M.Reachable D s := by
  induction h with
  | init h => exact .init h
  | step _ hc hs ih => exact .step ih (hCD _ _ hc) hs

/-! ## The invariant rule -/

/-- What holds initially and is kept by every step that meets `C` holds in every
    state reachable under `C`. -/
theorem invariant {I : σ → Prop} (hinit : ∀ s, M.init s → I s)
    (hstep : ∀ s a t, I s → C s a → M.step s a = some t → I t)
    (h : M.Reachable C s) : I s := by
  induction h with
  | init h => exact hinit _ h
  | step _ hc hs ih => exact hstep _ _ _ ih hc hs

/-- The invariant rule with the reachability of the state before the step at
    hand, for an invariant that rests on others. -/
theorem invariant_of_reachable {I : σ → Prop} (hinit : ∀ s, M.init s → I s)
    (hstep : ∀ s a t, M.Reachable C s → I s → C s a → M.step s a = some t → I t)
    (h : M.Reachable C s) : I s := by
  induction h with
  | init h => exact hinit _ h
  | step hr hc hs ih => exact hstep _ _ _ hr ih hc hs

/-- What every step from a reachable state keeps stays true along a path. -/
theorem Path.stable {P : σ → Prop} (hr : M.Reachable C s)
    (hstep : ∀ s a t, M.Reachable C s → C s a → M.step s a = some t → P s → P t)
    (h : M.Path C s t) (hP : P s) : P t := by
  induction h with
  | refl => exact hP
  | tail hp hc hs ih => exact hstep _ _ _ (hr.path hp) hc hs ih

/-- Under `f`, every step is a step of `N` or leaves the image alone. -/
theorem Reachable.simulated {τ β : Type*} {N : Machine τ β} {f : σ → τ}
    {D : τ → β → Prop} (hinit : ∀ s, M.init s → N.init (f s))
    (hstep : ∀ s a t, C s a → M.step s a = some t →
      f t = f s ∨ ∃ b, D (f s) b ∧ N.step (f s) b = some (f t))
    (h : M.Reachable C s) : N.Reachable D (f s) := by
  induction h with
  | init h => exact .init (hinit _ h)
  | step _ hc hs ih =>
    rcases hstep _ _ _ hc hs with heq | ⟨b, hb, hb'⟩
    · rw [heq]
      exact ih
    · exact .step ih hb hb'

/-! ## Evaluating runs -/

variable (M)

/-- The state after the actions of a list, `none` when one of them is not enabled. -/
def run : σ → List α → Option σ
  | s, [] => some s
  | s, a :: as => (M.step s a).bind fun t => run t as

/-- `run`, stopping at a step that does not meet the decidable condition `c`. -/
def runUnder (c : σ → α → Bool) : σ → List α → Option σ
  | s, [] => some s
  | s, a :: as => if c s a then (M.step s a).bind fun t => runUnder c t as else none

variable {M}

theorem run_singleton (a : α) : M.run s [a] = M.step s a := by
  simp [run]

theorem run_append {as bs : List α} (h : M.run s as = some t) (h' : M.run t bs = some u) :
    M.run s (as ++ bs) = some u := by
  induction as generalizing s with
  | nil =>
    cases h
    exact h'
  | cons a as ih =>
    obtain ⟨v, hv, hrest⟩ := Option.bind_eq_some_iff.mp h
    exact Option.bind_eq_some_iff.mpr ⟨v, hv, ih hrest⟩

theorem path_of_runUnder {c : σ → α → Bool} (hc : ∀ s a, c s a = true → C s a) :
    ∀ (as : List α) (s : σ), M.runUnder c s as = some t → M.Path C s t := by
  intro as
  induction as with
  | nil => intro s h; cases h; exact .refl
  | cons a as ih =>
    intro s h
    rw [runUnder] at h
    split_ifs at h with hca
    obtain ⟨u, hu, ht⟩ := Option.bind_eq_some_iff.mp h
    exact (Path.refl.tail (hc s a hca) hu).trans (ih u ht)

theorem run_eq_runUnder (as : List α) (s : σ) :
    M.run s as = M.runUnder (fun _ _ => true) s as := by
  induction as generalizing s with
  | nil => rfl
  | cons a as ih => simp only [run, runUnder, if_true]; congr 1; funext t; exact ih t

theorem path_of_run {as : List α} (h : M.run s as = some t) : M.Path always s t := by
  rw [run_eq_runUnder] at h
  exact path_of_runUnder (fun _ _ _ => trivial) as s h

/-- A run of actions that meet `C` in every state. -/
theorem path_of_run_of_forall {as : List α} (hC : ∀ a ∈ as, ∀ s, C s a)
    (h : M.run s as = some t) : M.Path C s t := by
  induction as generalizing s with
  | nil => cases h; exact .refl
  | cons a as ih =>
    obtain ⟨u, hu, ht⟩ := Option.bind_eq_some_iff.mp h
    exact (Path.refl.tail (hC a List.mem_cons_self s) hu).trans
      (ih (fun b hb => hC b (List.mem_cons_of_mem a hb)) ht)

/-- The state at the end of an evaluated run satisfies what was evaluated there and is reachable. -/
theorem reachable_of_run (as : List α) (p : σ → Bool) (hs : M.init s)
    (h : (M.run s as).any p = true) : ∃ t, M.Reachable always t ∧ p t = true := by
  obtain ⟨t, ht, hp⟩ := (Option.any_eq_true _ _).mp h
  exact ⟨t, (Reachable.init hs).path (path_of_run ht), hp⟩

/-- `reachable_of_run` for a run whose steps all meet `C`. -/
theorem reachable_of_runUnder (as : List α) (c : σ → α → Bool) (p : σ → Bool)
    (hc : ∀ s a, c s a = true → C s a) (hs : M.init s)
    (h : (M.runUnder c s as).any p = true) : ∃ t, M.Reachable C t ∧ p t = true := by
  obtain ⟨t, ht, hp⟩ := (Option.any_eq_true _ _).mp h
  exact ⟨t, (Reachable.init hs).path (path_of_runUnder hc as s ht), hp⟩

/-! ## Runs without the actions of others -/

/-- An own action from related states leads to related states, and another one from a state to one
    that is still related. Then the own actions of a run are a run, to a related state. -/
theorem run_filter {c : σ → α → Bool} (own : α → Bool) {R : σ → σ → Prop}
    (hown : ∀ s s' t a, own a = true → c s a = true → R s t → M.step s a = some s' →
      ∃ t', M.step t a = some t' ∧ R s' t')
    (hother : ∀ s s' t a, own a = false → c s a = true → R s t → M.step s a = some s' → R s' t) :
    ∀ (as : List α) (s s' t : σ), R s t → M.runUnder c s as = some s' →
      ∃ t', M.run t (as.filter own) = some t' ∧ R s' t' := by
  intro as
  induction as with
  | nil => intro s s' t hR h; cases h; exact ⟨t, rfl, hR⟩
  | cons a as ih =>
    intro s s' t hR h
    rw [runUnder] at h
    split_ifs at h with hca
    obtain ⟨u, hu, hs'⟩ := Option.bind_eq_some_iff.mp h
    cases ha : own a with
    | true =>
      obtain ⟨v, hv, hRv⟩ := hown s u t a ha hca hR hu
      obtain ⟨t', ht', hR'⟩ := ih u s' v hRv hs'
      refine ⟨t', ?_, hR'⟩
      rw [List.filter_cons_of_pos ha, run, hv]
      exact ht'
    | false =>
      rw [List.filter_cons_of_neg (Bool.eq_false_iff.mp ha)]
      exact ih u s' t (hother s u t a ha hca hR hu) hs'

end Machine

end AegisShield.Common
