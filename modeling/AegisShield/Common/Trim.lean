import Mathlib

/-!
# Trimming

A list without the elements of a kind at its ends, and the white space of ECMAScript, which
`String.prototype.trim` removes and `\s` matches.
-/

namespace AegisShield.Common

variable {α : Type*} {p : α → Bool} {text before after : List α}

/-- The list without the elements at its ends that satisfy `p`. -/
def trimBy (p : α → Bool) (text : List α) : List α := (text.dropWhile p).rdropWhile p

theorem dropWhile_append_of_forall (h : ∀ a ∈ before, p a = true) :
    (before ++ text).dropWhile p = text.dropWhile p := by
  induction before with
  | nil => rfl
  | cons a before ih =>
    rw [List.cons_append, List.dropWhile_cons_of_pos (h a List.mem_cons_self)]
    exact ih fun b hb => h b (List.mem_cons_of_mem a hb)

theorem rdropWhile_append_of_forall (h : ∀ a ∈ after, p a = true) :
    (text ++ after).rdropWhile p = text.rdropWhile p := by
  unfold List.rdropWhile
  rw [List.reverse_append, dropWhile_append_of_forall fun a ha => h a (List.mem_reverse.mp ha)]

theorem trimBy_of_forall (h : ∀ a ∈ text, p a = true) : trimBy p text = [] := by
  unfold trimBy
  rw [List.dropWhile_eq_nil_iff.mpr h]
  rfl

/-- Elements at the ends that satisfy `p` do not count. -/
theorem trimBy_append (hbefore : ∀ a ∈ before, p a = true) (hafter : ∀ a ∈ after, p a = true) :
    trimBy p (before ++ text ++ after) = trimBy p text := by
  unfold trimBy
  rw [List.append_assoc, dropWhile_append_of_forall hbefore]
  by_cases htext : ∀ a ∈ text, p a = true
  · rw [dropWhile_append_of_forall htext, List.dropWhile_eq_nil_iff.mpr hafter,
      List.dropWhile_eq_nil_iff.mpr htext]
  · rw [List.dropWhile_append, if_neg, rdropWhile_append_of_forall hafter]
    simpa using htext

/-- A list that has no such element at its ends stays. -/
theorem trimBy_eq_self (hhead : ∀ a, text.head? = some a → p a = false)
    (hlast : ∀ a, text.getLast? = some a → p a = false) : trimBy p text = text := by
  unfold trimBy
  have hdrop : text.dropWhile p = text := by
    cases text with
    | nil => rfl
    | cons a text => exact List.dropWhile_cons_of_neg (by simp [hhead a rfl])
  rw [hdrop]
  refine List.rdropWhile_eq_self_iff.mpr fun hne => ?_
  rw [hlast _ (List.getLast?_eq_some_getLast hne)]
  exact Bool.false_ne_true

theorem trimBy_eq_self_of_forall (h : ∀ a ∈ text, p a = false) : trimBy p text = text :=
  trimBy_eq_self (fun a ha => h a (List.mem_of_head? ha)) fun a ha => h a (List.mem_of_getLast? ha)

/-- What is left has no such element at its ends. -/
theorem trimBy_head {a : α} (h : (trimBy p text).head? = some a) : p a = false := by
  have hprefix : trimBy p text <+: text.dropWhile p := List.rdropWhile_prefix p _
  obtain ⟨rest, hrest⟩ := hprefix
  cases htrim : trimBy p text with
  | nil => rw [htrim] at h; cases h
  | cons b trimmed =>
    rw [htrim] at h hrest
    obtain rfl : b = a := Option.some.inj h
    have hne : text.dropWhile p ≠ [] := by rw [← hrest]; simp
    have hhead := List.head_dropWhile_not p hne
    have hsame : (text.dropWhile p).head hne = b := by
      simp only [← hrest, List.cons_append, List.head_cons]
    rw [hsame] at hhead
    simpa using hhead

theorem trimBy_last {a : α} (h : (trimBy p text).getLast? = some a) : p a = false := by
  unfold trimBy at h
  cases hlast : (text.dropWhile p).rdropWhile p with
  | nil => rw [hlast] at h; cases h
  | cons b trimmed =>
    have hne : (text.dropWhile p).rdropWhile p ≠ [] := by rw [hlast]; simp
    have hnot := List.rdropWhile_last_not p (text.dropWhile p) hne
    rw [List.getLast?_eq_some_getLast hne] at h
    rw [Option.some.inj h] at hnot
    simpa using hnot

/-- A list is what is left of it between elements that satisfy `p`. -/
theorem trimBy_between (p : α → Bool) (text : List α) : ∃ before after,
    text = before ++ trimBy p text ++ after ∧ (∀ a ∈ before, p a = true) ∧
      ∀ a ∈ after, p a = true := by
  refine ⟨text.takeWhile p, (text.dropWhile p).rtakeWhile p, ?_, fun a ha => ?_, fun a ha => ?_⟩
  · rw [List.append_assoc, trimBy, List.rdropWhile_append_rtakeWhile,
      List.takeWhile_append_dropWhile]
  · exact List.mem_takeWhile_imp ha
  · exact List.mem_rtakeWhile_imp ha

theorem trimBy_sublist : (trimBy p text).Sublist text :=
  (List.rdropWhile_prefix p _).sublist.trans (List.dropWhile_sublist p)

/-! ## The first elements of a kind -/

/-- What follows a text does not prolong its first run, when its last element ends each run. -/
theorem runs_append (hne : text ≠ []) (hlast : ∀ a, text.getLast? = some a → p a = false) :
    (text ++ after).takeWhile p = text.takeWhile p ∧
      (text ++ after).dropWhile p = text.dropWhile p ++ after ∧ text.dropWhile p ≠ [] := by
  have hsome : ¬ ∀ a ∈ text, p a = true := by
    intro h
    have hp := h _ (List.getLast_mem hne)
    rw [hlast _ (List.getLast?_eq_some_getLast hne)] at hp
    cases hp
  have hdrop : text.dropWhile p ≠ [] := fun h => hsome (List.dropWhile_eq_nil_iff.mp h)
  refine ⟨?_, ?_, hdrop⟩
  · rw [List.takeWhile_append, if_neg]
    intro h
    have hsplit := congrArg List.length (List.takeWhile_append_dropWhile (p := p) (l := text))
    rw [List.length_append] at hsplit
    exact hdrop (List.eq_nil_of_length_eq_zero (by omega))
  · rw [List.dropWhile_append, if_neg]
    simpa using hsome

/-! ## White space -/

/-- White space and line terminators. -/
def isWhiteSpace (c : Char) : Bool :=
  decide (9 ≤ c.toNat ∧ c.toNat ≤ 13) || decide (0x2000 ≤ c.toNat ∧ c.toNat ≤ 0x200A) ||
    [32, 0xA0, 0x1680, 0x2028, 0x2029, 0x202F, 0x205F, 0x3000, 0xFEFF].contains c.toNat

/-- Visible ASCII characters are not white space. -/
theorem isWhiteSpace_visible {c : Char} (hlow : 0x21 ≤ c.toNat) (hhigh : c.toNat < 0x7F) :
    isWhiteSpace c = false := by
  unfold isWhiteSpace
  rw [← Bool.not_eq_true]
  simp only [Bool.or_eq_true, decide_eq_true_eq, List.contains_eq_mem, List.mem_cons,
    List.not_mem_nil, or_false]
  omega

end AegisShield.Common
