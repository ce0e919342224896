import AegisShield.Common.Binary64
import AegisShield.Payments.Ussd

/-!
# The amount of a USSD payment

The amount step of `UssdService` (`ussd.service.ts`, lines 90-100) computes with binary64
numbers, `lkrAmountToMinorUnits` (`payments/v1.ts`) with the digits.

Results:
* `lkrAmountToMinorUnits_eq`: the digits give one hundred times the value written.
* `ussd_amount_exact`: the amount step does exactly where no rounding moves the cents.
-/

namespace AegisShield.Payments

open Common.Binary64

/-! ## The value written -/

/-- The digits before the point. -/
def wholeDigits (input : String) : List Char := input.toList.takeWhile Char.isDigit

/-- The digits behind the point. -/
def decimalDigits (input : String) : List Char := (input.toList.dropWhile Char.isDigit).drop 1

/-- The value written, in LKR. -/
def written (input : String) : ℚ :=
  Nat.ofDigitChars 10 (wholeDigits input) 0 +
    Nat.ofDigitChars 10 (decimalDigits input) 0 / 10 ^ (decimalDigits input).length

/-- `padEnd(2, '0')`. -/
def padEnd (digits : List Char) : List Char := digits ++ List.replicate (2 - digits.length) '0'

/-- The value written, in cents. -/
def cents (input : String) : ℕ :=
  Nat.ofDigitChars 10 (wholeDigits input ++ padEnd (decimalDigits input)) 0

/-! ## The two conversions -/

/-- `Math.floor(parseFloat(userInput) * 100).toString()`. -/
def binary64Runtime : UssdRuntime where
  amountText input := (((nearest (written input)).times 100).floor).text

/-- `(?:\.\d{1,2})?$`. -/
def isDecimalTail : List Char → Bool
  | [] => true
  | '.' :: cents => decide (cents.length = 1 ∨ cents.length = 2) && cents.all Char.isDigit
  | _ => false

/-- `/^(?:0|[1-9]\d*)(?:\.\d{1,2})?$/u`. -/
def isHumanAmount : List Char → Bool
  | [] => false
  | '0' :: rest => isDecimalTail rest
  | c :: rest => c.isDigit && isDecimalTail (rest.dropWhile Char.isDigit)

/-- `humanLkrAmountSchema` (lines 18-26). -/
def humanLkrAmountSchema (value : String) : Bool :=
  isHumanAmount value.toList && decide (value ≠ "0" ∧ value ≠ "0.0" ∧ value ≠ "0.00")

/-- `.replace(/^0+(?=\d)/u, '')`. -/
def stripZeros : List Char → List Char
  | '0' :: c :: rest => if c.isDigit then stripZeros (c :: rest) else '0' :: c :: rest
  | text => text

/-- `lkrAmountToMinorUnits` (lines 29-38); `none` where the schema throws. -/
def lkrAmountToMinorUnits (value : String) : Option String :=
  if humanLkrAmountSchema value then
    let whole := value.toList.takeWhile (· ≠ '.')
    let decimal := ((value.toList.dropWhile (· ≠ '.')).drop 1).takeWhile (· ≠ '.')
    let normalized := stripZeros (whole ++ padEnd decimal)
    some (if normalized = [] then "0" else String.ofList normalized)
  else none

/-! ## Digits -/

theorem exists_digitChar {c : Char} (h : c.isDigit = true) :
    ∃ d < 10, c = Nat.digitChar d ∧ c.toNat - '0'.toNat = d := by
  have hbounds : 48 ≤ c.toNat ∧ c.toNat ≤ 57 := by
    simpa [Char.isDigit, UInt32.le_iff_toNat_le] using h
  refine ⟨c.toNat - 48, by omega, ?_, rfl⟩
  apply Char.toNat_inj.mp
  rw [Nat.toNat_digitChar_of_lt_ten (by omega)]
  omega

/-- Digits behind a numeral are those of the number they denote. -/
theorem toDigits_ofDigitChars {digits : List Char} (h : ∀ c ∈ digits, c.isDigit = true) {n : ℕ}
    (hn : 0 < n) :
    Nat.toDigits 10 (Nat.ofDigitChars 10 digits n) = Nat.toDigits 10 n ++ digits := by
  induction digits generalizing n with
  | nil => simp
  | cons c digits ih =>
    obtain ⟨d, hd, hc, hvalue⟩ := exists_digitChar (h c List.mem_cons_self)
    rw [Nat.ofDigitChars_cons, hvalue, ih (fun x hx => h x (List.mem_cons_of_mem c hx)) (by omega),
      ← Nat.toDigits_append_toDigits (by omega) hn hd, Nat.toDigits_of_lt_base hd, hc,
      List.append_assoc]
    rfl

/-- Digits without their leading zeros are the numeral of the number they denote. -/
theorem stripZeros_eq {digits : List Char} (h : ∀ c ∈ digits, c.isDigit = true)
    (hne : digits ≠ []) :
    stripZeros digits = Nat.toDigits 10 (Nat.ofDigitChars 10 digits 0) := by
  fun_induction stripZeros digits with
  | case1 c rest hdigit ih =>
    rw [ih (fun x hx => h x (List.mem_cons_of_mem _ hx)) (by simp)]
    rfl
  | case2 c rest hdigit =>
    exact absurd (h c (by simp)) hdigit
  | case3 digits hkeep =>
    rcases digits with _ | ⟨c, digits⟩
    · exact absurd rfl hne
    · obtain ⟨d, hd, hc, hvalue⟩ := exists_digitChar (h c List.mem_cons_self)
      rw [Nat.ofDigitChars_cons, hvalue, Nat.mul_zero, Nat.zero_add]
      rcases Nat.eq_zero_or_pos d with rfl | hpos
      · rcases digits with _ | ⟨e, digits⟩
        · rw [hc]
          rfl
        · exact (hkeep e digits (by rw [hc]; rfl)).elim
      · rw [toDigits_ofDigitChars (fun x hx => h x (List.mem_cons_of_mem c hx)) hpos,
          Nat.toDigits_of_lt_base hd, hc]
        rfl

/-! ## Accepted inputs -/

/-- What the amount step accepts. -/
structure Accepted (input : String) : Prop where
  text : input.toList = wholeDigits input ∧ decimalDigits input = [] ∨
    input.toList = wholeDigits input ++ '.' :: decimalDigits input
  whole : wholeDigits input ≠ [] ∧ ∀ c ∈ wholeDigits input, c.isDigit = true
  decimal : (decimalDigits input).length ≤ 2 ∧ ∀ c ∈ decimalDigits input, c.isDigit = true

theorem accepted_of_isUssdAmount {input : String} (h : isUssdAmount input = true) :
    Accepted input := by
  unfold isUssdAmount at h
  rw [Bool.and_eq_true] at h
  obtain ⟨hhead, htail⟩ := h
  have hsplit : wholeDigits input ++ input.toList.dropWhile Char.isDigit = input.toList :=
    List.takeWhile_append_dropWhile
  have hwhole : wholeDigits input ≠ [] := by
    intro hnil
    unfold wholeDigits at hnil
    rcases hinput : input.toList with _ | ⟨c, rest⟩
    · rw [hinput] at hhead
      cases hhead
    · rw [hinput] at hhead hnil
      have hdigit : c.isDigit = true := hhead
      rw [List.takeWhile_cons_of_pos hdigit] at hnil
      cases hnil
  have hdigits : ∀ c ∈ wholeDigits input, c.isDigit = true := fun c hc => List.mem_takeWhile_imp hc
  have hdecimal : decimalDigits input = (input.toList.dropWhile Char.isDigit).drop 1 := rfl
  generalize input.toList.dropWhile Char.isDigit = rest at htail hsplit hdecimal
  split at htail
  · rw [List.append_nil] at hsplit
    rw [List.drop_nil] at hdecimal
    exact ⟨.inl ⟨hsplit.symm, hdecimal⟩, ⟨hwhole, hdigits⟩, by simp [hdecimal], by simp [hdecimal]⟩
  next cents =>
    rw [List.drop_one, List.tail_cons] at hdecimal
    rw [Bool.and_eq_true, decide_eq_true_eq, List.all_eq_true] at htail
    rw [← hdecimal] at hsplit htail
    exact ⟨.inr hsplit.symm, ⟨hwhole, hdigits⟩, by omega, htail.2⟩
  · cases htail

variable {input : String}

/-- The cents are one hundred times the value written. -/
theorem cents_eq (h : Accepted input) : (cents input : ℚ) = 100 * written input := by
  have hlength := h.decimal.1
  unfold cents padEnd written
  rw [Nat.ofDigitChars_append, Nat.ofDigitChars_append, Nat.ofDigitChars_replicate_zero,
    Nat.ofDigitChars_eq_ofDigitChars_zero (l := decimalDigits input)]
  generalize Nat.ofDigitChars 10 (decimalDigits input) 0 = low
  generalize Nat.ofDigitChars 10 (wholeDigits input) 0 = high
  generalize (decimalDigits input).length = length at hlength
  interval_cases length
  · push_cast
    ring
  · push_cast
    ring
  · push_cast
    ring

theorem digits_of_accepted (h : Accepted input) :
    ∀ c ∈ wholeDigits input ++ padEnd (decimalDigits input), c.isDigit = true := by
  intro c hc
  unfold padEnd at hc
  rw [List.mem_append, List.mem_append, List.mem_replicate] at hc
  rcases hc with hc | hc | ⟨-, rfl⟩
  · exact h.whole.2 c hc
  · exact h.decimal.2 c hc
  · decide

/-- The pieces of `amount.split('.')`. -/
theorem split_of_accepted (h : Accepted input) :
    input.toList.takeWhile (· ≠ '.') = wholeDigits input ∧
      ((input.toList.dropWhile (· ≠ '.')).drop 1).takeWhile (· ≠ '.') = decimalDigits input := by
  have hplain : ∀ c : Char, c.isDigit = true → decide (c ≠ '.') = true := by
    rintro c hc
    refine decide_eq_true ?_
    rintro rfl
    cases hc
  have hwhole : ∀ c ∈ wholeDigits input, decide (c ≠ '.') = true := fun c hc =>
    hplain c (h.whole.2 c hc)
  have hdecimal : ∀ c ∈ decimalDigits input, decide (c ≠ '.') = true := fun c hc =>
    hplain c (h.decimal.2 c hc)
  rcases h.text with ⟨htext, hnone⟩ | htext
  · rw [htext, List.takeWhile_eq_self_iff.mpr hwhole, List.dropWhile_eq_nil_iff.mpr hwhole, hnone]
    exact ⟨rfl, rfl⟩
  · rw [htext, List.takeWhile_append_of_pos hwhole, List.dropWhile_append_of_pos hwhole,
      List.takeWhile_cons_of_neg (by simp), List.dropWhile_cons_of_neg (by simp), List.append_nil,
      List.drop_one, List.tail_cons, List.takeWhile_eq_self_iff.mpr hdecimal]
    exact ⟨rfl, rfl⟩

/-- **The digits give one hundred times the value written.** -/
theorem lkrAmountToMinorUnits_eq (h : Accepted input)
    (hvalid : humanLkrAmountSchema input = true) :
    lkrAmountToMinorUnits input = some (toString (cents input)) := by
  obtain ⟨hwhole, hdecimal⟩ := split_of_accepted h
  have hstrip := stripZeros_eq (digits_of_accepted h) (List.append_ne_nil_of_left_ne_nil h.whole.1 _)
  unfold lkrAmountToMinorUnits
  rw [if_pos hvalid]
  dsimp only
  rw [hwhole, hdecimal, hstrip, if_neg Nat.toDigits_ne_nil, Nat.toString_eq_ofList_toDigits]
  rfl

/-! ## The amount step -/

/-- What the amount step owes an accepted input: the numeral of one hundred times the value,
    positive, and as the digits give it. -/
def ExactAmount (input : String) : Prop :=
  ∀ session : UssdSession, session.state = .SEND_MONEY_AMOUNT →
    ∃ stored message, ussdMenu binary64Runtime session input = .respond stored message ∧
      ∃ n : ℕ, (n : ℚ) = 100 * written input ∧ 0 < n ∧
        stored.amountMinor = some (toString n) ∧
        (humanLkrAmountSchema input = true → stored.amountMinor = lkrAmountToMinorUnits input)

/-- No rounding moves the cents. Below `25 * 2 ^ 48` the product has bits behind the point, and a
    remainder of the scaled count decides; from there on the number nearest to the count prints
    it, and the remainders of the count by its last bit and by one hundred last bits of a
    hundredth of it lie close together. -/
def KeepsCents (n : ℕ) : Prop :=
  if n < 25 * 2 ^ 48 then
    ∀ k, 100 * 2 ^ 52 ≤ n * 2 ^ k → n * 2 ^ k < 2 * (100 * 2 ^ 52) → ¬ losesLast (n * 2 ^ k)
  else (nearest n).text = toString n ∧ keepsPlace n

theorem amountText_small {n k : ℕ} (hpos : 0 < n) (hsmall : n < 25 * 2 ^ 48)
    (hlow : 100 * 2 ^ 52 ≤ n * 2 ^ k) (hhigh : n * 2 ^ k < 2 * (100 * 2 ^ 52)) :
    (((nearest ((n : ℚ) / 100)).times 100).floor).text = toString n ↔
      ¬ losesLast (n * 2 ^ k) := by
  have hk : 7 ≤ k := by
    by_contra hlt
    have hle : n * 2 ^ k ≤ n * 2 ^ 6 := by
      gcongr
      · norm_num
      · omega
    omega
  have hk' : k ≤ 59 := by
    by_contra hlt
    have hle : 1 * 2 ^ 60 ≤ n * 2 ^ k := by
      gcongr
      · exact hpos
      · norm_num
      · omega
    omega
  rw [floor_hundredfold hk hk' hlow hhigh]
  by_cases hlost : losesLast (n * 2 ^ k)
  · rw [if_pos hlost, ← Nat.cast_pred hpos, text_integer (by omega), Nat.toString_eq_repr,
      Nat.toString_eq_repr, Nat.repr_inj]
    exact iff_of_false (by omega) (not_not_intro hlost)
  · rw [if_neg hlost, text_integer (by omega)]
    exact iff_of_true rfl hlost

/-- A number that prints as digits is not infinite. -/
theorem ne_infinity {x : Number} {n : ℕ} (h : x.text = toString n) : x ≠ .infinity := by
  rintro rfl
  exact absurd h (toString_ne (c := 'I') (by decide) (by decide))

theorem amountText_large {n : ℕ} (hlarge : 25 * 2 ^ 48 ≤ n) :
    (((nearest ((n : ℚ) / 100)).times 100).floor).text = toString n ↔
      (nearest n).text = toString n ∧ keepsPlace n := by
  have hn : 2 ^ 52 ≤ n := by omega
  trans (nearest n).text = toString n ∧ (nearest ((n : ℚ) / 100)).times 100 = nearest n
  · rcases hnear : nearest ((n : ℚ) / 100) with q | _
    · rw [and_comm]
      exact text_large_iff hn
    · refine iff_of_false (fun htext => ne_infinity htext rfl) ?_
      rintro ⟨htext, heq⟩
      exact ne_infinity htext heq.symm
  · exact and_congr_right fun htext =>
      times_hundred_large (by exact_mod_cast hn) (ne_infinity htext)

/-- The text of the product, rounded down. -/
theorem amountText_iff (h : Accepted input) (hpos : 0 < cents input) :
    binary64Runtime.amountText input = toString (cents input) ↔ KeepsCents (cents input) := by
  have hwritten : written input = (cents input : ℚ) / 100 := by
    rw [cents_eq h]
    ring
  show (((nearest (written input)).times 100).floor).text = _ ↔ _
  rw [hwritten]
  generalize cents input = n at hpos
  unfold KeepsCents
  by_cases hsmall : n < 25 * 2 ^ 48
  · rw [if_pos hsmall]
    obtain ⟨k, hlow, hhigh⟩ := exists_scale (100 * 2 ^ 52) hpos (by omega)
    rw [amountText_small hpos hsmall hlow hhigh]
    constructor
    · intro hkept j hjlow hjhigh
      rw [scale_unique ⟨hjlow, hjhigh⟩ ⟨hlow, hhigh⟩]
      exact hkept
    · intro hall
      exact hall k hlow hhigh
  · rw [if_neg hsmall]
    exact amountText_large (not_lt.mp hsmall)

/-- The session of an accepted input. -/
theorem ussdMenu_amount (h : isUssdAmount input = true) {session : UssdSession}
    (hstate : session.state = .SEND_MONEY_AMOUNT) :
    ∃ stored message, ussdMenu binary64Runtime session input = .respond stored message ∧
      stored.amountMinor = some (binary64Runtime.amountText input) := by
  have hturn : ussdMenu binary64Runtime session input =
      .respond { session with
        state := .SEND_MONEY_CONFIRM
        amountMinor := some (binary64Runtime.amountText input) }
        ("Send " ++ input ++ " LKR to " ++ session.recipientReference.getD "undefined" ++
          "?\n1. Confirm\n2. Cancel") := by
    unfold ussdMenu
    rw [hstate]
    dsimp only
    rw [if_pos h]
  exact ⟨_, _, hturn, rfl⟩

theorem amountText_of_exact (h : isUssdAmount input = true) (hexact : ExactAmount input) :
    0 < cents input ∧ binary64Runtime.amountText input = toString (cents input) := by
  let session : UssdSession :=
    { opened (webhookRequest "" "" "") with state := .SEND_MONEY_AMOUNT }
  obtain ⟨stored, message, hturn, n, hn, hpos, hamount, -⟩ := hexact session rfl
  obtain ⟨stored', message', hturn', hamount'⟩ :=
    ussdMenu_amount h (show session.state = .SEND_MONEY_AMOUNT from rfl)
  rw [hturn] at hturn'
  obtain ⟨rfl, -⟩ := UssdTurn.respond.inj hturn'
  have hn' : n = cents input := by
    rw [← cents_eq (accepted_of_isUssdAmount h)] at hn
    exact_mod_cast hn
  rw [hamount'] at hamount
  rw [← hn']
  exact ⟨hpos, Option.some.inj hamount⟩

/-- **The amount step is exact just where no rounding moves the cents.** -/
theorem ussd_amount_exact (input : String) (h : isUssdAmount input = true) :
    ExactAmount input ↔ 0 < cents input ∧ KeepsCents (cents input) := by
  have haccepted := accepted_of_isUssdAmount h
  constructor
  · intro hexact
    obtain ⟨hpos, htext⟩ := amountText_of_exact h hexact
    exact ⟨hpos, (amountText_iff haccepted hpos).mp htext⟩
  · rintro ⟨hpos, hkept⟩ session hstate
    obtain ⟨stored, message, hturn, hamount⟩ := ussdMenu_amount h hstate
    rw [(amountText_iff haccepted hpos).mpr hkept] at hamount
    refine ⟨stored, message, hturn, cents input, cents_eq haccepted, hpos, hamount, ?_⟩
    intro hvalid
    rw [hamount, lkrAmountToMinorUnits_eq haccepted hvalid]

/-- One rupee is stored as one hundred cents. -/
theorem one_rupee : ExactAmount "1.00" := by
  refine (ussd_amount_exact "1.00" (by rfl)).mpr ⟨by decide, ?_⟩
  have hcents : cents "1.00" = 100 := by rfl
  rw [hcents]
  unfold KeepsCents
  rw [if_pos (by norm_num)]
  intro k hlow hhigh
  rw [scale_unique ⟨hlow, hhigh⟩ (show 100 * 2 ^ 52 ≤ 100 * 2 ^ 52 ∧ _ by norm_num)]
  decide

/-- Twenty-nine cents are stored as twenty-eight. -/
theorem loses_a_cent : ¬ ∀ input : String, isUssdAmount input = true → ExactAmount input := by
  intro hall
  have haccepted : Accepted "0.29" := accepted_of_isUssdAmount (by rfl)
  obtain ⟨hpos, htext⟩ := amountText_of_exact (by rfl) (hall "0.29" (by rfl))
  have hkept := (amountText_iff haccepted hpos).mp htext
  have hcents : cents "0.29" = 29 := by rfl
  rw [hcents] at hkept
  unfold KeepsCents at hkept
  rw [if_pos (by norm_num)] at hkept
  exact hkept 54 (by norm_num) (by norm_num) (by decide)

end AegisShield.Payments
