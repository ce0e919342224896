import Mathlib

/-!
# Replacing every match

A global replacement: the text is read from the left, a match is replaced by a text of its own, and
reading goes on behind it. A matcher sees the text and the element in front of it.

Results:
* `replaceFrom_none`, `replaceFrom_some`: one step of the reading.
* `replaceFrom_append`: what a text contributes when no match in it depends on what follows it.
* `replaceFrom_verbatim`: a text in which nothing matches stays.
-/

namespace AegisShield.Common

variable {α : Type*}

/-- What a pattern matches at the beginning of a text: its replacement, and its length. -/
abbrev Matcher (α : Type*) := Option α → List α → Option (List α × ℕ)

/-- The replacement of every match; the first `skip` elements belong to a match. -/
def replaceFrom (m : Matcher α) : Option α → ℕ → List α → List α
  | _, _, [] => []
  | _, skip + 1, a :: rest => replaceFrom m (some a) skip rest
  | prev, 0, a :: rest =>
    match m prev (a :: rest) with
    | some (replacement, n) => replacement ++ replaceFrom m (some a) (n - 1) rest
    | none => a :: replaceFrom m (some a) 0 rest

/-- `text.replace(pattern, replacement)`, for a global pattern. -/
def replaceAll (m : Matcher α) (text : List α) : List α := replaceFrom m none 0 text

section

variable {m : Matcher α} {prev : Option α} {a : α} {front rest replacement : List α} {n : ℕ}

/-- The element in front of what follows a text. -/
def lastOr (prev : Option α) (front : List α) : Option α := front.getLast?.or prev

@[simp] theorem lastOr_nil : lastOr prev [] = prev := rfl

@[simp] theorem lastOr_cons : lastOr prev (a :: front) = lastOr (some a) front := by
  unfold lastOr
  cases front with
  | nil => rfl
  | cons b front =>
    rw [List.getLast?_cons_cons, List.getLast?_eq_some_getLast (List.cons_ne_nil b front)]
    rfl

@[simp] theorem lastOr_append : lastOr prev (front ++ rest) = lastOr (lastOr prev front) rest := by
  induction front generalizing prev with
  | nil => rfl
  | cons a front ih => rw [List.cons_append, lastOr_cons, ih, lastOr_cons]

theorem replaceFrom_skip :
    replaceFrom m prev front.length (front ++ rest) = replaceFrom m (lastOr prev front) 0 rest := by
  induction front generalizing prev with
  | nil => rfl
  | cons a front ih =>
    rw [List.length_cons, List.cons_append, replaceFrom, ih, lastOr_cons]

theorem replaceFrom_none (h : m prev (a :: rest) = none) :
    replaceFrom m prev 0 (a :: rest) = a :: replaceFrom m (some a) 0 rest := by
  rw [replaceFrom, h]

/-- A match is replaced, and reading goes on behind it. -/
theorem replaceFrom_some (hne : front ≠ [])
    (h : m prev (front ++ rest) = some (replacement, front.length)) :
    replaceFrom m prev 0 (front ++ rest) =
      replacement ++ replaceFrom m (lastOr prev front) 0 rest := by
  cases front with
  | nil => exact absurd rfl hne
  | cons a front =>
    rw [List.cons_append] at h
    rw [List.cons_append, replaceFrom, h]
    dsimp only
    rw [List.length_cons, Nat.add_sub_cancel, replaceFrom_skip, lastOr_cons]

/-- What a text contributes when the matches that begin in it are matches of it. -/
theorem replaceFrom_append {skip : ℕ} (hskip : skip ≤ front.length)
    (hlength : ∀ prev text replacement n, m prev text = some (replacement, n) →
      0 < n ∧ n ≤ text.length)
    (hlocal : ∀ x a y, front = x ++ a :: y → ∀ prev, m prev (a :: y ++ rest) = m prev (a :: y)) :
    replaceFrom m prev skip (front ++ rest) =
      replaceFrom m prev skip front ++ replaceFrom m (lastOr prev front) 0 rest := by
  induction front generalizing prev skip with
  | nil =>
    obtain rfl : skip = 0 := Nat.le_zero.mp hskip
    simp only [replaceFrom, List.nil_append, lastOr_nil]
  | cons a front ih =>
    have htail : ∀ x b y, front = x ++ b :: y →
        ∀ prev, m prev (b :: y ++ rest) = m prev (b :: y) := by
      intro x b y heq
      exact hlocal (a :: x) b y (by rw [heq]; rfl)
    have hsame : m prev (a :: (front ++ rest)) = m prev (a :: front) := hlocal [] a front rfl prev
    rw [List.length_cons] at hskip
    cases skip with
    | succ skip =>
      rw [List.cons_append, replaceFrom, replaceFrom, ih (Nat.le_of_succ_le_succ hskip) htail,
        lastOr_cons]
    | zero =>
      rw [List.cons_append, replaceFrom, replaceFrom, hsame]
      cases hmatch : m prev (a :: front) with
      | none => simp only [ih (Nat.zero_le _) htail, List.cons_append, lastOr_cons]
      | some found =>
        obtain ⟨replacement, n⟩ := found
        have hn := (hlength _ _ _ _ hmatch).2
        rw [List.length_cons] at hn
        have hrest : n - 1 ≤ front.length := by omega
        simp only [ih hrest htail, List.append_assoc, lastOr_cons]

/-- A text in which nothing matches stays. -/
theorem replaceFrom_verbatim
    (h : ∀ x a y, front = x ++ a :: y → m (lastOr prev x) (a :: y ++ rest) = none) :
    replaceFrom m prev 0 (front ++ rest) = front ++ replaceFrom m (lastOr prev front) 0 rest := by
  induction front generalizing prev with
  | nil => rfl
  | cons a front ih =>
    have hnone : m prev (a :: (front ++ rest)) = none := h [] a front rfl
    have htail : ∀ x b y, front = x ++ b :: y →
        m (lastOr (some a) x) (b :: y ++ rest) = none := by
      intro x b y heq
      have hone : lastOr (some a) x = lastOr prev (a :: x) := lastOr_cons.symm
      rw [hone]
      exact h (a :: x) b y (by rw [heq]; rfl)
    rw [List.cons_append, replaceFrom_none hnone, ih htail, lastOr_cons, List.cons_append]

end

end AegisShield.Common
