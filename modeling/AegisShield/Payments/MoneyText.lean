import AegisShield.Payments.UssdAmount

/-!
# Amounts as texts

The amount that a customer types, its minor units and their display: `humanLkrAmountSchema` and
`lkrAmountToMinorUnits` (`payments/v1.ts`, lines 18-38), `formatMinorUnits` (`accounts/v1.ts`,
lines 453-469).

Results:
* `filter_grouped`: grouping adds separators and nothing else.
* `money_text_exact`: the minor units of an accepted amount are the numeral of one hundred times
  its value, and their display is the amount with two decimals.
-/

namespace AegisShield.Payments

/-! ## The display -/

/-- `\w`. -/
def isWordChar (c : Char) : Bool := c.isAlphanum || c = '_'

/-- `.replace(/\B(?=(\d{3})+(?!\d))/gu, ',')` on what follows a character. -/
def grouped : Option Char → List Char → List Char
  | _, [] => []
  | previous, c :: rest =>
    let run := ((c :: rest).takeWhile Char.isDigit).length
    let inside := previous.any isWordChar == isWordChar c
    (if 0 < run ∧ run % 3 = 0 ∧ inside = true then [','] else []) ++ c :: grouped (some c) rest

/-- `padStart(length, '0')`. -/
def padStart (length : ℕ) (text : List Char) : List Char :=
  List.replicate (length - text.length) '0' ++ text

/-- `formatMinorUnits`. -/
def formatMinorUnits (minorUnits : String) (fractionDigits : ℕ) : String :=
  let negative := minorUnits.toList.head? == some '-'
  let digits := padStart (fractionDigits + 1)
    (if negative then minorUnits.toList.drop 1 else minorUnits.toList)
  let whole := digits.take (digits.length - fractionDigits)
  let fraction := if 0 < fractionDigits then '.' :: digits.drop (digits.length - fractionDigits)
    else []
  String.ofList ((if negative then ['-'] else []) ++
    grouped none (if whole = [] then ['0'] else whole) ++ fraction)

/-- An amount with two decimals. -/
def normalised (value : String) : List Char :=
  wholeDigits value ++ '.' :: padEnd (decimalDigits value)

/-! ## Grouping -/

/-- Grouping adds separators and nothing else. -/
theorem filter_grouped (previous : Option Char) (text : List Char) :
    (grouped previous text).filter (fun c => c ≠ ',') = text.filter fun c => c ≠ ',' := by
  induction text generalizing previous with
  | nil => rfl
  | cons c rest ih =>
    unfold grouped
    dsimp only
    rw [List.filter_append, List.filter_cons, List.filter_cons, ih]
    split_ifs <;> simp_all

theorem filter_digits {text : List Char} (h : ∀ c ∈ text, c.isDigit = true) :
    text.filter (fun c => c ≠ ',') = text := by
  refine List.filter_eq_self.mpr fun c hc => decide_eq_true ?_
  rintro rfl
  exact absurd (h ',' hc) (by decide)

/-! ## Accepted amounts -/

variable {value : String}

theorem isUssdAmount_of_human (h : isHumanAmount value.toList = true) :
    isUssdAmount value = true := by
  have htail : ∀ rest, isDecimalTail rest = true → rest.dropWhile Char.isDigit = rest := by
    intro rest hrest
    unfold isDecimalTail at hrest
    split at hrest
    · rfl
    · rfl
    · cases hrest
  have hshape : ∃ c rest, value.toList = c :: rest ∧ c.isDigit = true ∧
      isDecimalTail (rest.dropWhile Char.isDigit) = true := by
    unfold isHumanAmount at h
    split at h
    · cases h
    next rest hvalue =>
      refine ⟨'0', rest, hvalue, rfl, ?_⟩
      rw [htail rest h]
      exact h
    next c rest _ hvalue =>
      rw [Bool.and_eq_true] at h
      exact ⟨c, rest, hvalue, h.1, h.2⟩
  obtain ⟨c, rest, hvalue, hdigit, hdecimal⟩ := hshape
  unfold isUssdAmount
  rw [hvalue, List.dropWhile_cons_of_pos hdigit]
  simp only [List.head?_cons, Option.any_some, hdigit, Bool.true_and]
  exact hdecimal

/-- The digits before the point have no leading zero, apart from a single one. -/
theorem wholeDigits_of_human (h : isHumanAmount value.toList = true) :
    wholeDigits value = ['0'] ∨ (wholeDigits value).head? ≠ some '0' := by
  unfold isHumanAmount at h
  unfold wholeDigits
  split at h
  · cases h
  next rest hvalue =>
    left
    rw [hvalue, List.takeWhile_cons_of_pos (by decide)]
    unfold isDecimalTail at h
    split at h
    · rfl
    · rfl
    · cases h
  next c rest hzero hvalue =>
    right
    rw [hvalue]
    rw [Bool.and_eq_true] at h
    rw [List.takeWhile_cons_of_pos h.1]
    intro hhead
    exact hzero (Option.some.inj hhead)

/-- Digits of the value zero are zeros. -/
theorem eq_replicate_of_ofDigitChars {digits : List Char} (h : ∀ c ∈ digits, c.isDigit = true)
    (hzero : Nat.ofDigitChars 10 digits 0 = 0) : digits = List.replicate digits.length '0' := by
  induction digits with
  | nil => rfl
  | cons c digits ih =>
    obtain ⟨d, hd, hc, hvalue⟩ := exists_digitChar (h c List.mem_cons_self)
    rw [Nat.ofDigitChars_cons, hvalue, Nat.ofDigitChars_eq_ofDigitChars_zero] at hzero
    have hd0 : d = 0 := by
      have hpos : 0 < 10 ^ digits.length := by positivity
      have hmul : 10 ^ digits.length * (10 * 0 + d) = 0 := by omega
      rcases Nat.mul_eq_zero.mp hmul with h10 | hsum
      · omega
      · omega
    subst hd0
    rw [List.length_cons, List.replicate_succ, hc]
    refine congrArg _ (ih (fun x hx => h x (List.mem_cons_of_mem c hx)) ?_)
    omega

/-- An accepted amount is positive. -/
theorem cents_pos (h : humanLkrAmountSchema value = true) : 0 < cents value := by
  unfold humanLkrAmountSchema at h
  rw [Bool.and_eq_true, decide_eq_true_iff] at h
  obtain ⟨hhuman, hzero⟩ := h
  have haccepted := accepted_of_isUssdAmount (isUssdAmount_of_human hhuman)
  by_contra hcents
  have hdigits := eq_replicate_of_ofDigitChars (digits_of_accepted haccepted)
    (Nat.eq_zero_of_not_pos hcents)
  have hall : ∀ c ∈ wholeDigits value ++ padEnd (decimalDigits value), c = '0' := by
    intro c hc
    rw [hdigits] at hc
    exact List.eq_of_mem_replicate hc
  have hwhole : wholeDigits value = ['0'] := by
    rcases wholeDigits_of_human hhuman with hwhole | hhead
    · exact hwhole
    · rcases hcase : wholeDigits value with _ | ⟨c, rest⟩
      · exact absurd hcase haccepted.whole.1
      · rw [hcase] at hhead hall
        exact absurd (congrArg some (hall c (by simp))) hhead
  have hdecimal : decimalDigits value = List.replicate (decimalDigits value).length '0' := by
    refine List.eq_replicate_iff.mpr ⟨rfl, fun c hc => hall c ?_⟩
    exact List.mem_append_right _ (List.mem_append_left _ hc)
  have hlength := haccepted.decimal.1
  rcases haccepted.text with ⟨htext, -⟩ | htext
  · rw [hwhole] at htext
    exact hzero.1 (String.toList_injective htext)
  · rw [hwhole, hdecimal] at htext
    generalize (decimalDigits value).length = length at htext hlength
    interval_cases length
    · rw [htext] at hhuman
      exact absurd hhuman (by decide)
    · exact hzero.2.1 (String.toList_injective htext)
    · exact hzero.2.2 (String.toList_injective htext)

/-! ## The digits of the minor units -/

theorem stripZeros_of_head {text : List Char} (h : text.head? ≠ some '0') :
    stripZeros text = text := by
  fun_cases stripZeros text with
  | case1 c rest hdigit => exact absurd rfl h
  | case2 c rest hdigit => rfl
  | case3 => rfl

theorem length_padEnd {digits : List Char} (h : digits.length ≤ 2) :
    (padEnd digits).length = 2 := by
  unfold padEnd
  rw [List.length_append, List.length_replicate]
  omega

/-- Zeros in front of the minor units give the digits of the amount. -/
theorem padStart_toDigits (h : humanLkrAmountSchema value = true) :
    padStart 3 (Nat.toDigits 10 (cents value)) =
      wholeDigits value ++ padEnd (decimalDigits value) := by
  unfold humanLkrAmountSchema at h
  rw [Bool.and_eq_true] at h
  have haccepted := accepted_of_isUssdAmount (isUssdAmount_of_human h.1)
  have hdigits := digits_of_accepted haccepted
  have hlength := length_padEnd haccepted.decimal.1
  unfold cents
  rw [← stripZeros_eq hdigits (List.append_ne_nil_of_left_ne_nil haccepted.whole.1 _)]
  rcases wholeDigits_of_human h.1 with hwhole | hhead
  · obtain ⟨a, b, hab⟩ := List.length_eq_two.mp hlength
    rw [hwhole, hab] at hdigits ⊢
    have ha : a.isDigit = true := hdigits a (by simp)
    have hb : b.isDigit = true := hdigits b (by simp)
    have hstrip : stripZeros ['0', a, b] = stripZeros [a, b] := by
      rw [stripZeros, if_pos ha]
    rw [show ['0'] ++ [a, b] = ['0', a, b] from rfl, hstrip]
    by_cases hzero : a = '0'
    · rw [hzero, stripZeros, if_pos hb, stripZeros]
      · rfl
      · simp
    · rw [stripZeros_of_head (by simpa using hzero)]
      rfl
  · rw [stripZeros_of_head]
    · unfold padStart
      rw [List.length_append, hlength]
      have hwhole := List.length_pos_of_ne_nil haccepted.whole.1
      rw [Nat.sub_eq_zero_of_le (by omega)]
      rfl
    · rwa [List.head?_append_of_ne_nil _ haccepted.whole.1]

/-- The display of a numeral of at least three digits, separators aside, puts the point before
    the last two. -/
theorem filter_formatMinorUnits {minorUnits : String} {whole decimal : List Char}
    (hdigits : ∀ c ∈ whole ++ decimal, c.isDigit = true) (hwhole : whole ≠ [])
    (hdecimal : decimal.length = 2) (hpad : padStart 3 minorUnits.toList = whole ++ decimal)
    (hminor : minorUnits.toList.head? ≠ some '-') :
    (formatMinorUnits minorUnits 2).toList.filter (fun c => c ≠ ',') =
      whole ++ '.' :: decimal := by
  have hnegative : (minorUnits.toList.head? == some '-') = false := beq_eq_false_iff_ne.mpr hminor
  have hcut : (whole ++ decimal).length - 2 = whole.length := by
    rw [List.length_append, hdecimal]
    omega
  unfold formatMinorUnits
  rw [hnegative]
  simp only [Bool.false_eq_true, if_false, List.nil_append, Nat.zero_lt_two, if_true]
  rw [hpad, hcut, List.take_left, List.drop_left, if_neg hwhole, String.toList_ofList,
    List.filter_append, filter_grouped, filter_digits (fun c hc => hdigits c (by simp [hc])),
    List.filter_cons_of_pos (by decide), filter_digits (fun c hc => hdigits c (by simp [hc]))]

/-- **Amounts are exact as texts.** -/
theorem money_text_exact (value : String) (h : humanLkrAmountSchema value = true) :
    ∃ n : ℕ, 0 < n ∧ (n : ℚ) = 100 * written value ∧
      lkrAmountToMinorUnits value = some (toString n) ∧
      (formatMinorUnits (toString n) 2).toList.filter (fun c => c ≠ ',') = normalised value := by
  have hhuman := h
  unfold humanLkrAmountSchema at hhuman
  rw [Bool.and_eq_true] at hhuman
  have haccepted := accepted_of_isUssdAmount (isUssdAmount_of_human hhuman.1)
  refine ⟨cents value, cents_pos h, cents_eq haccepted, lkrAmountToMinorUnits_eq haccepted h, ?_⟩
  have htext : (toString (cents value)).toList = Nat.toDigits 10 (cents value) := by
    rw [Nat.toString_eq_ofList_toDigits, String.toList_ofList]
  refine filter_formatMinorUnits (digits_of_accepted haccepted) haccepted.whole.1
    (length_padEnd haccepted.decimal.1) ?_ ?_
  · rw [htext]
    exact padStart_toDigits h
  · rw [htext]
    intro hhead
    have hdigit := Nat.isDigit_of_mem_toDigits (by decide) (by decide)
      (List.mem_of_mem_head? (Option.mem_def.mpr hhead))
    exact absurd hdigit (by decide)

/-- One million two hundred thousand rupees and fifty cents. -/
theorem money_text_exact_grouped :
    humanLkrAmountSchema "1200000.5" = true ∧
    formatMinorUnits "120000050" 2 = "1,200,000.50" ∧
    ∃ n : ℕ, 0 < n ∧ (n : ℚ) = 100 * written "1200000.5" ∧
      lkrAmountToMinorUnits "1200000.5" = some (toString n) ∧
      (formatMinorUnits (toString n) 2).toList.filter (fun c => c ≠ ',') =
        normalised "1200000.5" :=
  ⟨by decide, by decide, money_text_exact "1200000.5" (by decide)⟩

end AegisShield.Payments
