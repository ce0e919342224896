import Mathlib

/-!
# One key of a store with expiry

The atomic commands that programs issue on one key of a key-value store whose
entries may carry an expiry time: `GET`, `DEL`, `INCR`, `INCRBY`, `EXPIRE`, and the variants of
`SET` with `EX`, `KEEPTTL` and `NX`. Times are milliseconds of the store's clock, lifetimes
are seconds. An entry is gone at the first millisecond after its expiry time,
and an expired entry counts as absent for every command.
-/

namespace AegisShield.Common

/-- A stored value and the last millisecond at which it is present; `none` when
    the entry has no expiry. -/
structure Entry (V : Type*) where
  value : V
  expiresAt : Option ℕ
  deriving DecidableEq

/-- What a key holds. -/
abbrev Cell (V : Type*) := Option (Entry V)

namespace Entry

variable {V : Type*}

/-- Whether the entry is still present at `now`. -/
def live (now : ℕ) (e : Entry V) : Bool :=
  match e.expiresAt with
  | none => true
  | some t => decide (now ≤ t)

theorem live_mono {e : Entry V} {now later : ℕ} (h : e.live later = true) (hle : now ≤ later) :
    e.live now = true := by
  unfold live at h ⊢
  split at h
  · rfl
  · simp only [decide_eq_true_eq] at h ⊢; omega

end Entry

namespace Cell

variable {V : Type*}

variable (now : ℕ)

/-- The entry a command at `now` finds. -/
def find (c : Cell V) : Cell V := c.filter (Entry.live now)

/-- `GET`. -/
def get (c : Cell V) : Option V := (find now c).map Entry.value

/-- `SET key v EX ttl`. -/
def setEx (v : V) (ttl : ℕ) : Cell V :=
  some { value := v, expiresAt := some (now + ttl * 1000) }

/-- `SET key v KEEPTTL`: on an absent key the new entry has no expiry. -/
def setKeepTtl (v : V) (c : Cell V) : Cell V :=
  some { value := v, expiresAt := (find now c).bind Entry.expiresAt }

/-- `SET key v NX EX ttl`: the new entry when the key was absent. -/
def setNxEx (v : V) (ttl : ℕ) (c : Cell V) : Option (Cell V) :=
  if (find now c).isSome then none else some (setEx now v ttl)

/-- `DEL`. -/
def del : Cell V := none

/-- `INCR`: an absent key counts from 0 and gets no expiry. -/
def incr (c : Cell ℕ) : Cell ℕ :=
  some { value := (get now c).getD 0 + 1, expiresAt := (find now c).bind Entry.expiresAt }

/-- `INCRBY n`. -/
def incrBy (now n : ℕ) (c : Cell ℕ) : Cell ℕ :=
  some { value := (get now c).getD 0 + n, expiresAt := (find now c).bind Entry.expiresAt }

/-- `EXPIRE key ttl`: an absent key stays absent. -/
def expire (now ttl : ℕ) (c : Cell V) : Cell V :=
  (find now c).map fun e => { e with expiresAt := some (now + ttl * 1000) }

/-- `EXPIRE key ttl NX`: an expiry that is there stays. -/
def expireNx (now ttl : ℕ) (c : Cell V) : Cell V :=
  (find now c).map fun e => { e with expiresAt := some (e.expiresAt.getD (now + ttl * 1000)) }

theorem get_eq_some {now : ℕ} {c : Cell V} {v : V} :
    get now c = some v ↔ ∃ e, c = some e ∧ e.live now = true ∧ e.value = v := by
  simp [get, find, Option.map_eq_some_iff, Option.filter_eq_some_iff, and_assoc]

@[simp] theorem get_none : get now (none : Cell V) = none := rfl

/-- An entry that is gone stays gone. -/
theorem get_none_mono {now later : ℕ} {c : Cell V} (h : get now c = none) (hle : now ≤ later) :
    get later c = none := by
  cases hlater : get later c with
  | none => rfl
  | some v =>
    obtain ⟨e, he, hlive, hv⟩ := get_eq_some.mp hlater
    rw [get_eq_some.mpr ⟨e, he, Entry.live_mono hlive hle, hv⟩] at h
    cases h

theorem find_of_live {now : ℕ} {e : Entry V} (h : e.live now = true) :
    find now (some e) = some e := by
  simp [find, h]

theorem find_of_dead {now : ℕ} {e : Entry V} (h : e.live now = false) :
    find now (some e) = none := by
  simp [find, h]

/-- The counter after `INCR`. -/
theorem get_incr (c : Cell ℕ) : get now (incr now c) = some ((get now c).getD 0 + 1) := by
  refine get_eq_some.mpr ⟨_, rfl, ?_, rfl⟩
  cases c with
  | none => rfl
  | some e =>
    cases hlive : e.live now with
    | false =>
      rw [find_of_dead hlive]
      rfl
    | true =>
      rw [find_of_live hlive]
      exact hlive

/-- A counter of a window that starts with its first increment. -/
theorem expireNx_incrBy_of_absent {now ttl n : ℕ} {c : Cell ℕ} (h : find now c = none) :
    expireNx now ttl (incrBy now n c) =
      some { value := n, expiresAt := some (now + ttl * 1000) } := by
  rw [incrBy, get, h, expireNx, find_of_live]
  · show some (Entry.mk (0 + n) _) = _
    rw [Nat.zero_add]
    rfl
  · rfl

/-- Later increments keep the end of the window. -/
theorem expireNx_incrBy_of_live {now ttl n v last : ℕ} (h : now ≤ last) :
    expireNx now ttl (incrBy now n (some { value := v, expiresAt := some last })) =
      some { value := v + n, expiresAt := some last } := by
  have hlive : ∀ v : ℕ, Entry.live now { value := v, expiresAt := some last } = true :=
    fun _ => decide_eq_true h
  rw [incrBy, get, find_of_live (hlive v), expireNx, find_of_live]
  · rfl
  · exact hlive _

/-- `EXPIRE` keeps the value. -/
theorem get_expire (now ttl : ℕ) (c : Cell V) : get now (expire now ttl c) = get now c := by
  cases c with
  | none => rfl
  | some e =>
    cases hlive : e.live now with
    | false => rw [expire, get, get, find_of_dead hlive, Option.map_none, find, Option.filter_none]
    | true =>
      rw [expire, get, get, find_of_live hlive, Option.map_some, find_of_live]
      · rfl
      · simp [Entry.live]

/-- A key that `SET NX` finds free holds no entry that is still present. -/
theorem setNxEx_eq_some {now ttl : ℕ} {v : V} {c c' : Cell V} :
    setNxEx now v ttl c = some c' ↔
      (∀ e, c = some e → e.live now = false) ∧ c' = setEx now v ttl := by
  unfold setNxEx find
  cases c with
  | none => simpa using ⟨Eq.symm, Eq.symm⟩
  | some e =>
    cases hl : e.live now with
    | true => simp [hl]
    | false => simpa [hl] using ⟨Eq.symm, Eq.symm⟩

end Cell

end AegisShield.Common
