import Mathlib

/-!
# Texts of a fixed format

Regular expressions that are a sequence of character classes, each for one character
(`^AB-[A-Z0-9]{4}$`).

Results:
* `Format.fits_append`: a text that starts with a match of the first part.
* `Format.fits_replicate`: the texts of one repeated class.
* `Format.forall_of_fits`: what every class implies.
* `forall_mem_of_all`: a check of every character of a text, by evaluation.
-/

namespace AegisShield.Common

/-- What holds of each character of a text, if the check of all of them evaluates to true. -/
theorem forall_mem_of_all {cs : List Char} {P : Char → Prop} [DecidablePred P]
    (h : (cs.all fun c => decide (P c)) = true) : ∀ c ∈ cs, P c :=
  fun c hc => of_decide_eq_true (List.all_eq_true.mp h c hc)

/-- A sequence of character classes. -/
abbrev Format := List (Char → Bool)

namespace Format

/-- The format of one text. -/
def literal (text : String) : Format := text.toList.map fun c x => decide (x = c)

/-- The characters are one for each class, and in it. -/
def fits : Format → List Char → Bool
  | [], [] => true
  | p :: ps, c :: cs => p c && fits ps cs
  | [], _ :: _ => false
  | _ :: _, [] => false

/-- The text has the format. -/
def accepts (format : Format) (text : String) : Bool := format.fits text.toList

variable {f g : Format} {p : Char → Bool} {cs ds : List Char} {n : ℕ}

theorem fits_cons (c : Char) : fits (p :: f) (c :: cs) = (p c && f.fits cs) := rfl

theorem length_of_fits (h : f.fits cs = true) : cs.length = f.length := by
  induction f generalizing cs with
  | nil =>
    cases cs with
    | nil => rfl
    | cons c cs => cases h
  | cons p f ih =>
    cases cs with
    | nil => cases h
    | cons c cs =>
      rw [fits_cons, Bool.and_eq_true] at h
      rw [List.length_cons, List.length_cons, ih h.2]

/-- After a match of the first part, the rest decides. -/
theorem fits_append (h : f.fits cs = true) : (f ++ g).fits (cs ++ ds) = g.fits ds := by
  induction f generalizing cs with
  | nil =>
    cases cs with
    | nil => rfl
    | cons c cs => cases h
  | cons p f ih =>
    cases cs with
    | nil => cases h
    | cons c cs =>
      rw [fits_cons, Bool.and_eq_true] at h
      rw [List.cons_append, List.cons_append, fits_cons, h.1, Bool.true_and, ih h.2]

/-- A match of both parts starts with a match of the first one. -/
theorem fits_of_append (hlength : cs.length = f.length) (h : (f ++ g).fits (cs ++ ds) = true) :
    f.fits cs = true := by
  induction f generalizing cs with
  | nil =>
    rw [List.eq_nil_of_length_eq_zero hlength]
    rfl
  | cons p f ih =>
    cases cs with
    | nil => cases hlength
    | cons c cs =>
      rw [List.cons_append, List.cons_append, fits_cons, Bool.and_eq_true] at h
      rw [fits_cons, h.1, Bool.true_and]
      exact ih (Nat.succ.inj hlength) h.2

@[simp] theorem fits_literal (text : String) : (literal text).fits text.toList = true := by
  unfold literal
  induction text.toList with
  | nil => rfl
  | cons c cs ih =>
    rw [List.map_cons, fits_cons, ih]
    simp

theorem eq_of_fits_literal {text : String} (h : (literal text).fits cs = true) :
    cs = text.toList := by
  unfold literal at h
  generalize text.toList = ts at h ⊢
  induction ts generalizing cs with
  | nil =>
    cases cs with
    | nil => rfl
    | cons c cs => cases h
  | cons t ts ih =>
    cases cs with
    | nil => cases h
    | cons c cs =>
      rw [List.map_cons, fits_cons, Bool.and_eq_true] at h
      rw [of_decide_eq_true h.1, ih h.2]

theorem fits_replicate : (fits (List.replicate n p) cs = true) ↔
    cs.length = n ∧ ∀ c ∈ cs, p c = true := by
  induction n generalizing cs with
  | zero =>
    cases cs with
    | nil | cons => simp [fits]
  | succ n ih =>
    cases cs with
    | nil => simp [fits, List.replicate_succ]
    | cons c cs =>
      rw [List.replicate_succ, fits_cons, Bool.and_eq_true, ih]
      simp only [List.length_cons, Nat.add_right_cancel_iff, List.forall_mem_cons]
      tauto

/-- What every class of a format implies holds of every character. -/
theorem forall_of_fits {P : Char → Prop} (h : f.fits cs = true)
    (hf : ∀ p ∈ f, ∀ c, p c = true → P c) : ∀ c ∈ cs, P c := by
  induction f generalizing cs with
  | nil =>
    cases cs with
    | nil =>
      intro c hc
      cases hc
    | cons c cs => cases h
  | cons p f ih =>
    cases cs with
    | nil => cases h
    | cons c cs =>
      rw [fits_cons, Bool.and_eq_true] at h
      rw [List.forall_mem_cons] at hf ⊢
      exact ⟨hf.1 c h.1, ih h.2 hf.2⟩

end Format

end AegisShield.Common
