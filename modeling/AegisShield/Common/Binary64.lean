import Mathlib

/-!
# Binary64 numbers that are not negative

IEEE 754 binary64 as exact rationals: rounding to nearest with ties to even, the product
with a positive rational, the floor, and the decimal text of an integer (`Number::toString`).

Results:
* `nearest_of_scaled`: rounding when the binary exponent is known.
* `floor_hundredfold`: the nearest number to a count of hundredths, times one hundred,
  rounded down, is the count or its predecessor, and which one is decided by a remainder.
* `text_integer`: integers below `2 ^ 53` have their own decimal text.
* `text_large_iff`: when a number from `2 ^ 52` on prints as a given numeral.
* `nearest_mono`: rounding keeps the order.
* `times_hundred_large`: from `2 ^ 52` on, the product is the number nearest to the count just
  where two remainders of the count are close enough.
-/

namespace AegisShield.Common.Binary64

/-! ## Rounding -/

/-- A binary64 number that is not negative. -/
inductive Number where
  | finite (q : ℚ)
  | infinity
  deriving DecidableEq

/-- The nearest integer, the even one of two. -/
def roundEven (q : ℚ) : ℤ :=
  if q - ⌊q⌋ < 1 / 2 then ⌊q⌋
  else if 1 / 2 < q - ⌊q⌋ then ⌊q⌋ + 1
  else if ⌊q⌋ % 2 = 0 then ⌊q⌋
  else ⌊q⌋ + 1

/-- The exponent of the last bit of the numbers around `q`; `-1074` is that of the
    subnormal numbers. -/
def lastBit (q : ℚ) : ℤ := max (Int.log 2 q - 52) (-1074)

/-- The number nearest to a rational. -/
def nearest (q : ℚ) : Number :=
  if q ≤ 0 then .finite 0
  else
    let rounded : ℚ := roundEven (q / 2 ^ lastBit q) * 2 ^ lastBit q
    if 2 ^ 1024 ≤ rounded then .infinity else .finite rounded

/-- The product with a positive number `k`. -/
def Number.times (x : Number) (k : ℚ) : Number :=
  match x with
  | .finite q => nearest (q * k)
  | .infinity => .infinity

/-- `Math.floor`. -/
def Number.floor : Number → Number
  | .finite q => .finite ⌊q⌋
  | .infinity => .infinity

/-! ## Decimal text -/

/-- The multiples of `10 ^ p` on either side of `x`, the nearer one first. -/
def candidates (x p : ℕ) : List ℕ :=
  let low := x / 10 ^ p
  let below := x - low * 10 ^ p
  let above := (low + 1) * 10 ^ p - x
  if below < above ∨ (below = above ∧ low % 2 = 0) then [low, low + 1] else [low + 1, low]

/-- The fewest digits that denote `x`: a number and the power of ten that follows it. -/
def shortest (x : ℕ) : ℕ × ℕ :=
  ((List.range ((Nat.toDigits 10 x).length + 1)).reverse.findSome? fun p =>
    ((candidates x p).find? fun s : ℕ => nearest (s * 10 ^ p) = .finite x).map fun s => (s, p)).getD
      (x, 0)

/-- The text of an integer: plain up to 21 digits, then with an exponent. -/
def integerText (x : ℕ) : String :=
  let (s, p) := shortest x
  let digits := Nat.toDigits 10 s
  if x = 0 then "0"
  else if digits.length + p ≤ 21 then String.ofList (digits ++ List.replicate p '0')
  else
    String.ofList (digits.take 1 ++ (if digits.length = 1 then [] else '.' :: digits.drop 1)) ++
      "e+" ++ toString (digits.length + p - 1)

/-- `Number::toString` on integers. -/
def Number.text : Number → String
  | .finite q => integerText ⌊q⌋.toNat
  | .infinity => "Infinity"

/-! ## Rounding lemmas -/

/-- An integer within one half is the nearest. -/
theorem roundEven_eq {q : ℚ} {z : ℤ} (h : |q - z| < 1 / 2) : roundEven q = z := by
  obtain ⟨hlow, hhigh⟩ := abs_lt.mp h
  unfold roundEven
  by_cases hz : (z : ℚ) ≤ q
  · have hfloor : ⌊q⌋ = z := Int.floor_eq_iff.mpr ⟨hz, by linarith⟩
    rw [hfloor, if_pos hhigh]
  · have hfloor : ⌊q⌋ = z - 1 := by
      refine Int.floor_eq_iff.mpr ⟨?_, ?_⟩
      · push_cast
        linarith
      · push_cast
        linarith
    rw [hfloor, if_neg, if_pos]
    · omega
    · push_cast
      linarith
    · push_cast
      linarith

/-- Of two nearest integers the even one is taken. -/
theorem roundEven_tie {q : ℚ} {z : ℤ} (h : |q - z| = 1 / 2) (heven : z % 2 = 0) :
    roundEven q = z := by
  unfold roundEven
  rcases (abs_eq (by norm_num)).mp h with hq | hq
  · have hfloor : ⌊q⌋ = z := Int.floor_eq_iff.mpr ⟨by linarith, by linarith⟩
    rw [hfloor, if_neg (by linarith), if_neg (by linarith), if_pos heven]
  · have hfloor : ⌊q⌋ = z - 1 := by
      refine Int.floor_eq_iff.mpr ⟨?_, ?_⟩
      · push_cast
        linarith
      · push_cast
        linarith
    rw [hfloor, if_neg (by push_cast; linarith), if_neg (by push_cast; linarith),
      if_neg (by omega)]
    omega

theorem roundEven_abs (q : ℚ) : |(roundEven q : ℚ) - q| ≤ 1 / 2 := by
  have hlow := Int.floor_le q
  have hhigh := Int.lt_floor_add_one q
  unfold roundEven
  rw [abs_le]
  split_ifs
  · constructor <;> linarith
  · push_cast
    constructor <;> linarith
  · constructor <;> linarith
  · push_cast
    constructor <;> linarith

/-- The nearest integer, by the distance. -/
theorem roundEven_eq_iff {q : ℚ} {z : ℤ} :
    roundEven q = z ↔ |q - z| < 1 / 2 ∨ |q - z| = 1 / 2 ∧ z % 2 = 0 := by
  constructor
  · rintro rfl
    rcases (roundEven_abs q).lt_or_eq with hlt | heq
    · exact .inl (by rwa [abs_sub_comm])
    · rw [abs_sub_comm] at heq
      refine .inr ⟨heq, ?_⟩
      by_contra hodd
      -- the other nearest integer is even
      rcases (abs_eq (by norm_num)).mp heq with hq | hq
      · have hother := roundEven_tie (q := q) (z := roundEven q + 1)
          (by push_cast; rw [show q - (roundEven q + 1) = -(1 / 2) by linarith]; norm_num) (by omega)
        omega
      · have hother := roundEven_tie (q := q) (z := roundEven q - 1)
          (by push_cast; rw [show q - (roundEven q - 1) = 1 / 2 by linarith]; norm_num) (by omega)
        omega
  · rintro (hlt | ⟨heq, heven⟩)
    · exact roundEven_eq hlt
    · exact roundEven_tie heq heven

variable {a : ℤ} {j b : ℕ} {r : ℚ}

/-- The nearest integer to a fraction, by the remainder. -/
theorem roundEven_div {z : ℤ} (hlow : -2 ^ j < 2 * (a - z * 2 ^ j))
    (hhigh : 2 * (a - z * 2 ^ j) < 2 ^ j) : roundEven ((a : ℚ) / 2 ^ j) = z := by
  apply roundEven_eq
  have hdiff : (a : ℚ) / 2 ^ j - z = ((a - z * 2 ^ j : ℤ) : ℚ) / 2 ^ j := by
    push_cast
    field_simp
  have hlow' : (-2 ^ j : ℚ) < 2 * ((a - z * 2 ^ j : ℤ) : ℚ) := by exact_mod_cast hlow
  have hhigh' : (2 * ((a - z * 2 ^ j : ℤ) : ℚ) : ℚ) < 2 ^ j := by exact_mod_cast hhigh
  rw [hdiff, abs_lt, lt_div_iff₀ (by positivity), div_lt_iff₀ (by positivity)]
  constructor <;> linarith

/-- Of two nearest integers to a fraction the even one is taken. -/
theorem roundEven_div_tie {z : ℤ}
    (h : 2 * (a - z * 2 ^ j) = 2 ^ j ∨ 2 * (a - z * 2 ^ j) = -2 ^ j) (heven : z % 2 = 0) :
    roundEven ((a : ℚ) / 2 ^ j) = z := by
  refine roundEven_tie ?_ heven
  have hdiff : (a : ℚ) / 2 ^ j - z = ((a - z * 2 ^ j : ℤ) : ℚ) / 2 ^ j := by
    push_cast
    field_simp
  rw [hdiff, abs_eq (by norm_num), div_eq_iff (by positivity), div_eq_iff (by positivity)]
  rcases h with h | h
  · have h' : (2 * ((a - z * 2 ^ j : ℤ) : ℚ) : ℚ) = 2 ^ j := by exact_mod_cast h
    left
    linarith
  · have h' : (2 * ((a - z * 2 ^ j : ℤ) : ℚ) : ℚ) = -2 ^ j := by exact_mod_cast h
    right
    linarith

theorem roundEven_intCast (z : ℤ) : roundEven z = z :=
  roundEven_eq (by norm_num)

/-- The nearest integer is not below an integer that is not above. -/
theorem le_roundEven {q : ℚ} {z : ℤ} (h : (z : ℚ) ≤ q) : z ≤ roundEven q := by
  have hclose := (abs_le.mp (roundEven_abs q)).1
  have hlt : (z : ℚ) - 1 < roundEven q := by linarith
  have hlt' : z - 1 < roundEven q := by exact_mod_cast hlt
  omega

theorem roundEven_le {q : ℚ} {z : ℤ} (h : q ≤ z) : roundEven q ≤ z := by
  have hclose := (abs_le.mp (roundEven_abs q)).2
  have hlt : (roundEven q : ℚ) < z + 1 := by linarith
  have hlt' : roundEven q < z + 1 := by exact_mod_cast hlt
  omega

section Octave

variable {x : ℚ} {f : ℤ} {j : ℕ}

/-- The last bit of a number of `53 + j` bits before `2 ^ f`. -/
theorem lastBit_mul (hlow : 2 ^ (52 + j) ≤ x) (hhigh : x < 2 ^ (53 + j)) (hf : -1074 ≤ j + f) :
    lastBit (x * 2 ^ f) = j + f := by
  have hpow : (0 : ℚ) < 2 ^ f := by positivity
  have hpos : 0 < x * 2 ^ f := mul_pos (lt_of_lt_of_le (by positivity) hlow) hpow
  have hlog : Int.log 2 (x * 2 ^ f) = (52 + j : ℕ) + f := by
    apply le_antisymm
    · rw [← Int.lt_add_one_iff, ← Int.lt_zpow_iff_log_lt (by norm_num) hpos,
        show ((52 + j : ℕ) : ℤ) + f + 1 = (53 + j : ℕ) + f by omega, zpow_add₀ (by norm_num),
        zpow_natCast]
      exact_mod_cast mul_lt_mul_of_pos_right hhigh hpow
    · rw [← Int.zpow_le_iff_le_log (by norm_num) hpos, zpow_add₀ (by norm_num), zpow_natCast]
      exact_mod_cast mul_le_mul_of_nonneg_right hlow hpow.le
  unfold lastBit
  rw [hlog]
  omega

/-- Rounding to 53 bits. -/
theorem nearest_mul (hlow : 2 ^ (52 + j) ≤ x) (hhigh : x < 2 ^ (53 + j)) (hf : -1074 ≤ j + f) :
    nearest (x * 2 ^ f) = if 2 ^ 1024 ≤ roundEven (x / 2 ^ j) * 2 ^ j * (2 : ℚ) ^ f then .infinity
      else .finite (roundEven (x / 2 ^ j) * 2 ^ j * 2 ^ f) := by
  have hpow : (0 : ℚ) < 2 ^ f := by positivity
  have hpos : 0 < x * 2 ^ f := mul_pos (lt_of_lt_of_le (by positivity) hlow) hpow
  unfold nearest
  rw [if_neg (not_le.mpr hpos), lastBit_mul hlow hhigh hf, zpow_add₀ (by norm_num), zpow_natCast,
    mul_div_mul_right _ _ hpow.ne', mul_assoc]

end Octave

/-- Rounding when the binary exponent is known. -/
theorem nearest_of_scaled {q : ℚ} {t : ℕ} (ht : t ≤ 1074) (hlow : 2 ^ 52 ≤ q * 2 ^ t)
    (hhigh : q * 2 ^ t < 2 ^ 53) : nearest q = .finite (roundEven (q * 2 ^ t) / 2 ^ t) := by
  have hpow : (0 : ℚ) < 2 ^ t := by positivity
  have h := nearest_mul (j := 0) (f := -t) hlow hhigh (by omega)
  rw [pow_zero, div_one, mul_one, zpow_neg, zpow_natCast, mul_inv_cancel_right₀ hpow.ne',
    ← div_eq_mul_inv, if_neg] at h
  · exact h
  rw [not_le, div_lt_iff₀ hpow]
  have hle : roundEven (q * 2 ^ t) ≤ 2 ^ 53 := roundEven_le (by exact_mod_cast hhigh.le)
  have hle' : (roundEven (q * 2 ^ t) : ℚ) ≤ 2 ^ 53 := by exact_mod_cast hle
  have hone : (1 : ℚ) ≤ 2 ^ t := one_le_pow₀ (by norm_num)
  calc (roundEven (q * 2 ^ t) : ℚ) ≤ 2 ^ 53 := hle'
    _ < 2 ^ 1024 * 1 := by
      rw [mul_one]
      exact pow_lt_pow_right₀ (by norm_num) (by norm_num)
    _ ≤ 2 ^ 1024 * 2 ^ t := by gcongr

/-- A positive number can be scaled by a power of two into an octave. -/
theorem exists_scale {n : ℕ} (octave : ℕ) (hn : 0 < n) (h : n < 2 * octave) :
    ∃ t, octave ≤ n * 2 ^ t ∧ n * 2 ^ t < 2 * octave := by
  have hex : ∃ t, octave ≤ n * 2 ^ t :=
    ⟨octave, Nat.lt_two_pow_self.le.trans (Nat.le_mul_of_pos_left _ hn)⟩
  refine ⟨Nat.find hex, Nat.find_spec hex, ?_⟩
  rcases hfind : Nat.find hex with _ | t
  · simpa using h
  · have hmin := Nat.find_min hex (m := t) (by omega)
    rw [pow_succ, ← mul_assoc]
    omega

theorem scale_unique {n octave k : ℕ} (hj : octave ≤ n * 2 ^ j ∧ n * 2 ^ j < 2 * octave)
    (hk : octave ≤ n * 2 ^ k ∧ n * 2 ^ k < 2 * octave) : j = k := by
  have hstep : ∀ a b : ℕ, a < b → 2 * (n * 2 ^ a) ≤ n * 2 ^ b := by
    intro a b hab
    calc 2 * (n * 2 ^ a) = n * 2 ^ (a + 1) := by ring
      _ ≤ n * 2 ^ b := by
        gcongr
        · norm_num
        · omega
  rcases Nat.lt_trichotomy j k with hlt | heq | hlt
  · have := hstep j k hlt
    omega
  · exact heq
  · have := hstep k j hlt
    omega

/-! ## One hundred times a count of hundredths -/

/-- Whether rounding loses the last hundredth of a scaled count of hundredths. -/
def losesLast (scaled : ℕ) : Prop :=
  scaled < 2 ^ 59 ∧ 32 < scaled % 100 ∧ scaled % 100 < 50

instance (scaled : ℕ) : Decidable (losesLast scaled) := inferInstanceAs (Decidable (_ ∧ _))

section Hundredths

variable {n k : ℕ}

/-- The nearest number to `n` hundredths, by its last bit. -/
theorem nearest_hundredths (hk : k ≤ 59) (hlow : 100 * 2 ^ 52 ≤ n * 2 ^ k)
    (hhigh : n * 2 ^ k < 2 * (100 * 2 ^ 52)) :
    nearest ((n : ℚ) / 100) = .finite (roundEven (((n * 2 ^ k : ℕ) : ℚ) / 100) / 2 ^ k) := by
  have hscaled : (n : ℚ) / 100 * 2 ^ k = ((n * 2 ^ k : ℕ) : ℚ) / 100 := by
    push_cast
    ring
  have hlow' : (100 * 2 ^ 52 : ℚ) ≤ ((n * 2 ^ k : ℕ) : ℚ) := by exact_mod_cast hlow
  have hhigh' : ((n * 2 ^ k : ℕ) : ℚ) < 2 * (100 * 2 ^ 52) := by exact_mod_cast hhigh
  rw [nearest_of_scaled (t := k) (by omega), hscaled]
  · rw [hscaled, le_div_iff₀ (by norm_num)]
    linarith
  · rw [hscaled, div_lt_iff₀ (by norm_num)]
    linarith

variable {m : ℤ}

/-- The product of `m / 2 ^ k` and one hundred, by the last bit of the product. -/
theorem times_hundred {j : ℕ} (hk : k ≤ 59) (hj : j ≤ k)
    (hlow : 2 ^ 52 * 2 ^ j ≤ 100 * m) (hhigh : 100 * m < 2 ^ 53 * 2 ^ j) :
    (Number.finite (m / 2 ^ k)).times 100 =
      .finite (roundEven ((100 * m : ℤ) / 2 ^ j) / 2 ^ (k - j)) := by
  have hscaled : (m : ℚ) / 2 ^ k * 100 * 2 ^ (k - j) = ((100 * m : ℤ) : ℚ) / 2 ^ j := by
    have hsplit : (2 : ℚ) ^ k = 2 ^ (k - j) * 2 ^ j := by
      rw [← pow_add, Nat.sub_add_cancel hj]
    rw [hsplit]
    push_cast
    field_simp
  have hlow' : (2 ^ 52 * 2 ^ j : ℚ) ≤ ((100 * m : ℤ) : ℚ) := by exact_mod_cast hlow
  have hhigh' : ((100 * m : ℤ) : ℚ) < 2 ^ 53 * 2 ^ j := by exact_mod_cast hhigh
  show nearest ((m : ℚ) / 2 ^ k * 100) = _
  rw [nearest_of_scaled (t := k - j) (by omega), hscaled]
  · rw [hscaled, le_div_iff₀ (by positivity)]
    exact hlow'
  · rw [hscaled, div_lt_iff₀ (by positivity)]
    exact hhigh'

/-- A whole number and less than one bit of it, rounded down. -/
theorem floor_shift {z d : ℤ} {t : ℕ} (hd : d / 2 ^ t = z) :
    (Number.finite (((2 ^ t * n + d : ℤ) : ℚ) / 2 ^ t)).floor = .finite ((n + z : ℤ) : ℚ) := by
  have hfloor : ⌊((2 ^ t * n + d : ℤ) : ℚ) / 2 ^ t⌋ = n + z := by
    have hdiv := Rat.floor_intCast_div_natCast (2 ^ t * n + d) (2 ^ t)
    rw [Nat.cast_pow, Nat.cast_ofNat] at hdiv
    rw [hdiv, Nat.cast_pow, Nat.cast_ofNat, Int.mul_add_ediv_left _ _ (by positivity), hd]
  show Number.finite (⌊_⌋ : ℤ) = _
  rw [hfloor]

theorem hundredfold_error (x : ℚ) : |(100 * roundEven (x / 100) : ℚ) - x| ≤ 50 := by
  have h := abs_le.mp (roundEven_abs (x / 100))
  exact abs_le.mpr ⟨by linarith, by linarith⟩

/-- **The product of the nearest number to `n` hundredths and one hundred, rounded down.** -/
theorem floor_hundredfold (hk : 7 ≤ k) (hk' : k ≤ 59) (hlow : 100 * 2 ^ 52 ≤ n * 2 ^ k)
    (hhigh : n * 2 ^ k < 2 * (100 * 2 ^ 52)) :
    ((nearest ((n : ℚ) / 100)).times 100).floor =
      .finite (if losesLast (n * 2 ^ k) then (n : ℚ) - 1 else n) := by
  rw [nearest_hundredths hk' hlow hhigh]
  obtain ⟨t, rfl⟩ : ∃ t, k = t + 7 := ⟨k - 7, by omega⟩
  have hwhole : n * 2 ^ (t + 7) = 128 * (n * 2 ^ t) := by
    rw [pow_add]
    ring
  generalize hL : n * 2 ^ t = L at hwhole
  rw [hwhole] at hlow hhigh ⊢
  -- `error` is how far one hundred times the rounded number is off
  obtain ⟨m, hm⟩ : ∃ m, m = roundEven (((128 * L : ℕ) : ℚ) / 100) := ⟨_, rfl⟩
  rw [← hm]
  have herror : -50 ≤ 100 * m - 128 * L ∧ 100 * m - 128 * L ≤ 50 := by
    have h := abs_le.mp (hundredfold_error ((128 * L : ℕ) : ℚ))
    rw [← hm] at h
    push_cast at h
    exact_mod_cast h
  have hbits : (2 * L : ℤ) = 2 ^ (t + 1) * n := by
    rw [← hL]
    push_cast
    ring
  have hshift : t + 7 - 6 = t + 1 := by omega
  have hone : (1 : ℤ) < 2 ^ (t + 1) := by
    rw [pow_succ]
    have := pow_pos (by norm_num : (0 : ℤ) < 2) t
    omega
  by_cases hcase : 100 * m < 2 ^ 59
  · -- the product has one bit fewer behind the point: half a bit is 32 here
    rw [times_hundred (j := 6) hk' (by omega) (by omega) (by omega), hshift]
    by_cases hlost : 100 * m - 128 * L < -32
    · have hround : roundEven ((100 * m : ℤ) / 2 ^ 6) = 2 * L + -1 :=
        roundEven_div (by omega) (by omega)
      have hquotient : ((128 * L / 100 : ℕ) : ℤ) = m := by omega
      have hlast : losesLast (128 * L) := by
        unfold losesLast
        omega
      have hdown : (-1 : ℤ) / 2 ^ (t + 1) = -1 :=
        Int.ediv_eq_neg_one_of_neg_of_le (by norm_num) (by omega)
      rw [hround, hbits, floor_shift hdown, if_pos hlast]
      push_cast
      ring_nf
    · have hlast : ¬ losesLast (128 * L) := by
        rintro ⟨-, habove, hbelow⟩
        have hquotient : ((128 * L / 100 : ℕ) : ℤ) = m := by omega
        omega
      rw [if_neg hlast]
      by_cases hup : 32 < 100 * m - 128 * L
      · have hround : roundEven ((100 * m : ℤ) / 2 ^ 6) = 2 * L + 1 :=
          roundEven_div (by omega) (by omega)
        rw [hround, hbits, floor_shift (z := 0) (Int.ediv_eq_zero_of_lt (by omega) hone)]
        push_cast
        ring_nf
      · have hround : roundEven ((100 * m : ℤ) / 2 ^ 6) = 2 * L + 0 := by
          clear hlow hhigh herror hcase hlast hm
          generalize 100 * m = a at hlost hup ⊢
          by_cases htie : a - 128 * L = 32 ∨ a - 128 * L = -32
          · exact roundEven_div_tie (by omega) (by omega)
          · exact roundEven_div (by omega) (by omega)
        rw [hround, hbits, floor_shift (z := 0) (by simp)]
        push_cast
        ring_nf
  · have hround : roundEven ((100 * m : ℤ) / 2 ^ 7) = L := roundEven_div (by omega) (by omega)
    rw [times_hundred (j := 7) hk' (by omega) (by omega) (by omega), hround, if_neg]
    · have hexact : (L : ℤ) = 2 ^ t * n + 0 := by
        rw [← hL]
        push_cast
        ring
      have hshift' : t + 7 - 7 = t := by omega
      rw [hexact, hshift', floor_shift (z := 0) (by simp)]
      push_cast
      ring_nf
    · unfold losesLast
      omega

end Hundredths

/-! ## From `2 ^ 52` on -/

/-- A number keeps at most 53 bits. -/
theorem roundEven_lastBit_le : roundEven (r / 2 ^ lastBit r) ≤ 2 ^ 53 := by
  have hpow : (0 : ℚ) < 2 ^ lastBit r := by positivity
  have hlog : Int.log 2 r + 1 ≤ 53 + lastBit r := by
    unfold lastBit
    omega
  refine roundEven_le ?_
  rw [div_le_iff₀ hpow]
  calc r ≤ (2 : ℚ) ^ (Int.log 2 r + 1) :=
        (Int.lt_zpow_succ_log_self (b := 2) (by norm_num) r).le
    _ ≤ 2 ^ (53 + lastBit r) := zpow_le_zpow_right₀ (by norm_num) hlog
    _ = (2 ^ 53 : ℤ) * 2 ^ lastBit r := by
      rw [zpow_add₀ (by norm_num)]
      norm_cast

/-- A number that is not subnormal keeps 53 bits. -/
theorem le_roundEven_lastBit (hr : 0 < r) (hnormal : -1022 ≤ Int.log 2 r) :
    2 ^ 52 ≤ roundEven (r / 2 ^ lastBit r) := by
  have hpow : (0 : ℚ) < 2 ^ lastBit r := by positivity
  refine le_roundEven ?_
  rw [le_div_iff₀ hpow]
  refine le_trans (le_of_eq ?_) (Int.zpow_log_le_self (b := 2) (by norm_num) hr)
  rw [show Int.log 2 r = 52 + lastBit r by unfold lastBit; omega, zpow_add₀ (by norm_num)]
  norm_cast

/-- No number is rounded below a power of two that it reaches. -/
theorem le_nearest {q : ℚ} (hj : 52 ≤ j) (hr : 2 ^ j ≤ r) (h : nearest r = .finite q) :
    2 ^ j ≤ q := by
  have hpos : 0 < r := lt_of_lt_of_le (by positivity) hr
  have hlog : j ≤ Int.log 2 r := by
    rw [← Int.zpow_le_iff_le_log (by norm_num) hpos]
    exact_mod_cast hr
  have hbits := le_roundEven_lastBit hpos (by omega)
  have hbits' : (2 ^ 52 : ℚ) ≤ roundEven (r / 2 ^ lastBit r) := by exact_mod_cast hbits
  have hlast : (2 ^ (j - 52) : ℚ) ≤ 2 ^ lastBit r := by
    rw [← zpow_natCast]
    exact zpow_le_zpow_right₀ (by norm_num) (by unfold lastBit; omega)
  unfold nearest at h
  rw [if_neg (not_le.mpr hpos)] at h
  dsimp only at h
  by_cases hlarge : (2 ^ 1024 : ℚ) ≤ roundEven (r / 2 ^ lastBit r) * 2 ^ lastBit r
  · rw [if_pos hlarge] at h
    cases h
  · rw [if_neg hlarge] at h
    have hsplit : (2 ^ j : ℚ) = 2 ^ 52 * 2 ^ (j - 52) := by rw [← pow_add, Nat.add_sub_cancel' hj]
    rw [← Number.finite.inj h, hsplit]
    exact mul_le_mul hbits' hlast (by positivity) (le_trans (by positivity) hbits')

/-- A number of 53 bits with zeros behind them is nearest to itself, where it is not too large. -/
theorem nearest_mul_pow {z : ℤ} (hlow : 2 ^ 52 ≤ z) (hhigh : z ≤ 2 ^ 53)
    (hlarge : ¬ (2 ^ 1024 : ℚ) ≤ z * 2 ^ b) :
    nearest ((z : ℚ) * 2 ^ b) = .finite (z * 2 ^ b) := by
  rcases hhigh.lt_or_eq with hlt | rfl
  · have h := nearest_mul (x := z) (j := 0) (f := b) (by exact_mod_cast hlow)
      (by exact_mod_cast hlt) (by omega)
    rw [pow_zero, div_one, mul_one, roundEven_intCast, zpow_natCast, if_neg hlarge] at h
    exact h
  · have h := nearest_mul (x := (2 ^ 53 : ℤ)) (j := 1) (f := b) (by norm_num) (by norm_num)
      (by omega)
    have hhalf : roundEven (((2 ^ 53 : ℤ) : ℚ) / 2 ^ 1) = 2 ^ 52 :=
      roundEven_div (by norm_num) (by norm_num)
    have hwhole : ((2 ^ 52 : ℤ) : ℚ) * 2 ^ 1 = (2 ^ 53 : ℤ) := by norm_num
    rw [hhalf, hwhole, zpow_natCast, if_neg hlarge] at h
    exact h

/-- A number from `2 ^ 52` on is an integer, and nearest to itself. -/
theorem nearest_large {q : ℚ} (h : nearest r = .finite q) (hq : 2 ^ 52 ≤ q) :
    (∃ x : ℕ, q = x) ∧ nearest q = .finite q := by
  suffices hbits : ∃ (z : ℤ) (b : ℕ), q = z * 2 ^ b ∧ 2 ^ 52 ≤ z ∧ z ≤ 2 ^ 53 ∧
      ¬ (2 ^ 1024 : ℚ) ≤ z * 2 ^ b by
    obtain ⟨z, b, rfl, hlow, hhigh, hlarge⟩ := hbits
    obtain ⟨x, rfl⟩ := Int.eq_ofNat_of_zero_le (le_trans (by norm_num) hlow)
    exact ⟨⟨x * 2 ^ b, by push_cast; rfl⟩, nearest_mul_pow hlow hhigh hlarge⟩
  unfold nearest at h
  by_cases hr : r ≤ 0
  · rw [if_pos hr] at h
    have hzero := Number.finite.inj h
    linarith
  rw [if_neg hr] at h
  dsimp only at h
  by_cases hlarge : (2 ^ 1024 : ℚ) ≤ roundEven (r / 2 ^ lastBit r) * 2 ^ lastBit r
  · rw [if_pos hlarge] at h
    cases h
  rw [if_neg hlarge] at h
  have hvalue := Number.finite.inj h
  have hhigh := roundEven_lastBit_le (r := r)
  have hhigh' : (roundEven (r / 2 ^ lastBit r) : ℚ) ≤ 2 ^ 53 := by exact_mod_cast hhigh
  rcases lt_or_ge (lastBit r) 0 with hneg | hbit
  · -- `2 ^ 52`, with its last bit behind the point
    have hle : q ≤ 2 ^ 52 :=
      calc q = roundEven (r / 2 ^ lastBit r) * 2 ^ lastBit r := hvalue.symm
        _ ≤ 2 ^ 53 * 2 ^ (-1 : ℤ) :=
          mul_le_mul hhigh' (zpow_le_zpow_right₀ (by norm_num) (by omega)) (by positivity)
            (by positivity)
        _ = 2 ^ 52 := by norm_num
    have hpow : (2 ^ 52 : ℚ) < 2 ^ 1024 := pow_lt_pow_right₀ (by norm_num) (by norm_num)
    refine ⟨2 ^ 52, 0, ?_, le_rfl, by norm_num, ?_⟩
    · push_cast
      linarith
    · rw [pow_zero, mul_one, not_le]
      exact_mod_cast hpow
  · obtain ⟨b, hb⟩ := Int.eq_ofNat_of_zero_le hbit
    have hlow := le_roundEven_lastBit (not_le.mp hr) (by unfold lastBit at hbit; omega)
    rw [hb] at hvalue hlarge hlow hhigh
    rw [zpow_natCast] at hvalue hlarge hlow hhigh
    exact ⟨_, b, hvalue.symm, hlow, hhigh, hlarge⟩

/-! ## The text of an integer -/

section Text

variable {n x : ℕ}

/-- Integers below `2 ^ 53` are binary64 numbers. -/
theorem nearest_natCast (h : x < 2 ^ 53) : nearest x = .finite x := by
  rcases Nat.eq_zero_or_pos x with rfl | hpos
  · unfold nearest
    rw [if_pos (by simp), Nat.cast_zero]
  · obtain ⟨t, hlow, hhigh⟩ := exists_scale (2 ^ 52) hpos (by omega)
    have ht : t < 53 := by
      rw [← Nat.pow_lt_pow_iff_right (by norm_num : 1 < 2)]
      have hle : 2 ^ t ≤ x * 2 ^ t := Nat.le_mul_of_pos_left _ hpos
      omega
    have hlow' : (2 ^ 52 : ℚ) ≤ x * 2 ^ t := by exact_mod_cast hlow
    have hhigh' : (x * 2 ^ t : ℚ) < 2 ^ 53 := by exact_mod_cast hhigh
    have hround : roundEven ((x : ℚ) * 2 ^ t) = (x : ℤ) * 2 ^ t := by
      have hcast := roundEven_intCast ((x : ℤ) * 2 ^ t)
      push_cast at hcast
      exact hcast
    rw [nearest_of_scaled (by omega) hlow' hhigh', hround]
    push_cast
    rw [mul_div_assoc, div_self (by positivity), mul_one]

/-- Below `2 ^ 53` a natural number that rounds to `x` is `x`. -/
theorem eq_of_nearest (hx : x < 2 ^ 53) (h : nearest n = .finite x) : n = x := by
  by_cases hn : n < 2 ^ 53
  · rw [nearest_natCast hn] at h
    exact_mod_cast Number.finite.inj h
  · have hle := le_nearest (j := 53) (by norm_num) (by exact_mod_cast not_lt.mp hn) h
    have hle' : 2 ^ 53 ≤ x := by exact_mod_cast hle
    omega

/-- The digits chosen for `x` are read back as `x`, or are those of `x`. -/
theorem nearest_shortest : nearest (((shortest x).1 * 10 ^ (shortest x).2 : ℕ) : ℚ) = .finite x ∨
    (shortest x).1 * 10 ^ (shortest x).2 = x := by
  unfold shortest
  rcases hfound : (List.range ((Nat.toDigits 10 x).length + 1)).reverse.findSome? fun p =>
      ((candidates x p).find? fun s : ℕ => nearest (s * 10 ^ p) = .finite x).map
        fun s => (s, p) with _ | found
  · right
    simp
  · left
    obtain ⟨p, -, hp⟩ := List.exists_of_findSome?_eq_some hfound
    obtain ⟨s, hs, rfl⟩ := Option.map_eq_some_iff.mp hp
    have hround := List.find?_some hs
    rw [decide_eq_true_eq] at hround
    rw [Option.getD_some]
    push_cast
    exact hround

/-- The digits chosen for an integer below `2 ^ 53` are its own. -/
theorem shortest_value (hx : x < 2 ^ 53) : (shortest x).1 * 10 ^ (shortest x).2 = x := by
  rcases nearest_shortest (x := x) with hback | hown
  · exact eq_of_nearest hx hback
  · exact hown

/-- A power of ten puts zeros behind a numeral. -/
theorem toDigits_mul_pow {s : ℕ} (hs : 0 < s) (p : ℕ) :
    Nat.toDigits 10 (s * 10 ^ p) = Nat.toDigits 10 s ++ List.replicate p '0' := by
  induction p with
  | zero => simp
  | succ p ih =>
    rw [show s * 10 ^ (p + 1) = 10 * (s * 10 ^ p) + 0 by ring,
      ← Nat.toDigits_append_toDigits (by omega) (by positivity) (by omega), ih,
      Nat.toDigits_zero, List.append_assoc, List.replicate_succ']

/-- **An integer below `2 ^ 53` has its own decimal text.** -/
theorem text_integer (hx : x < 2 ^ 53) : (Number.finite x).text = toString x := by
  have hfloor : ⌊(x : ℚ)⌋.toNat = x := by simp
  show integerText ⌊(x : ℚ)⌋.toNat = _
  rw [hfloor]
  have hvalue := shortest_value hx
  unfold integerText
  rcases hshort : shortest x with ⟨s, p⟩
  rw [hshort] at hvalue
  dsimp only at hvalue ⊢
  by_cases hzero : x = 0
  · subst hzero
    rw [if_pos rfl]
    decide
  · have hs : 0 < s := by
      rcases Nat.eq_zero_or_pos s with rfl | hs
      · omega
      · exact hs
    have hdigits := toDigits_mul_pow hs p
    rw [hvalue] at hdigits
    have hlength : (Nat.toDigits 10 x).length ≤ 16 := by
      rw [Nat.length_toDigits_le_iff (by omega) (by omega)]
      omega
    rw [hdigits, List.length_append, List.length_replicate] at hlength
    rw [if_neg hzero, if_pos (by omega), ← hdigits, Nat.toString_eq_ofList_toDigits]

theorem toString_ne {text : String} {c : Char} (hc : c ∈ text.toList) (hdigit : c.isDigit = false) :
    text ≠ toString n := by
  rintro rfl
  rw [Nat.toString_eq_ofList_toDigits, String.toList_ofList] at hc
  have hall := Nat.isDigit_of_mem_toDigits (by omega) (by omega) hc
  rw [hdigit] at hall
  cases hall

/-- A numeral that is the text of `x` is read back as `x`. -/
theorem nearest_of_integerText (h : integerText x = toString n) :
    nearest (n : ℚ) = .finite x ∨ n = x := by
  unfold integerText at h
  have hback := nearest_shortest (x := x)
  rcases hshort : shortest x with ⟨s, p⟩
  rw [hshort] at h hback
  dsimp only at h hback
  by_cases hzero : x = 0
  · rw [if_pos hzero] at h
    right
    have hvalue := congrArg (fun text => Nat.ofDigitChars 10 text.toList 0) h
    simp only [Nat.toString_eq_ofList_toDigits, String.toList_ofList,
      Nat.ofDigitChars_ten_toDigits] at hvalue
    rw [hzero, ← hvalue]
    rfl
  · rw [if_neg hzero] at h
    by_cases hplain : (Nat.toDigits 10 s).length + p ≤ 21
    · rw [if_pos hplain] at h
      have hvalue := congrArg (fun text => Nat.ofDigitChars 10 text.toList 0) h
      simp only [Nat.toString_eq_ofList_toDigits, String.toList_ofList,
        Nat.ofDigitChars_append, Nat.ofDigitChars_ten_toDigits,
        Nat.ofDigitChars_replicate_zero] at hvalue
      rw [← hvalue, mul_comm]
      exact hback
    · rw [if_neg hplain] at h
      refine absurd h (toString_ne (c := 'e') ?_ (by decide))
      simp

/-- From `2 ^ 52` on, a number prints the numeral of `n` if it is nearest to `n` and `n`
    survives. -/
theorem text_large_iff {r : ℚ} (hn : 2 ^ 52 ≤ n) :
    (nearest r).floor.text = toString n ↔
      nearest r = nearest n ∧ (nearest n).text = toString n := by
  have hn' : (2 ^ 52 : ℚ) ≤ n := by exact_mod_cast hn
  constructor
  · intro h
    rcases hr : nearest r with q | _
    · rw [hr] at h
      have hback : nearest (n : ℚ) = .finite ⌊q⌋.toNat ∨ n = ⌊q⌋.toNat := by
        have hfloor : (Number.finite q).floor.text = integerText ⌊q⌋.toNat := by
          show integerText ⌊((⌊q⌋ : ℤ) : ℚ)⌋.toNat = _
          rw [Int.floor_intCast]
        rw [hfloor] at h
        exact nearest_of_integerText h
      have hfloor : 2 ^ 52 ≤ ⌊q⌋.toNat := by
        rcases hback with hnear | rfl
        · exact_mod_cast le_nearest le_rfl hn' hnear
        · exact hn
      have hq : (2 ^ 52 : ℚ) ≤ q := by
        refine le_trans ?_ (Int.floor_le q)
        have hcast : (2 ^ 52 : ℤ) ≤ ⌊q⌋ := by omega
        exact_mod_cast hcast
      obtain ⟨⟨x, rfl⟩, hself⟩ := nearest_large hr hq
      have hx : ⌊(x : ℚ)⌋.toNat = x := by simp
      rw [hx] at hback
      have hnear : nearest (n : ℚ) = .finite x := by
        rcases hback with hnear | rfl
        · exact hnear
        · exact hself
      have htext : (Number.finite x).floor = .finite x := by
        show Number.finite (⌊_⌋ : ℤ) = _
        simp
      rw [htext] at h
      exact ⟨hnear.symm, by rw [hnear]; exact h⟩
    · rw [hr] at h
      exact absurd h (toString_ne (c := 'I') (by decide) (by decide))
  · rintro ⟨hr, htext⟩
    rw [hr]
    rcases hnear : nearest (n : ℚ) with q | _
    · obtain ⟨⟨x, rfl⟩, -⟩ := nearest_large hnear (le_nearest le_rfl hn' hnear)
      have hfloor : (Number.finite x).floor = .finite x := by
        show Number.finite (⌊_⌋ : ℤ) = _
        simp
      rw [hfloor, ← hnear]
      exact htext
    · rw [hnear] at htext
      exact htext

end Text

/-! ## Order -/

/-- `x <= y`. -/
def Number.le : Number → Number → Bool
  | .finite x, .finite y => decide (x ≤ y)
  | _, .infinity => true
  | .infinity, .finite _ => false

theorem number_le_trans {x y z : Number} (hxy : x.le y = true) (hyz : y.le z = true) :
    x.le z = true := by
  cases z with
  | infinity => cases x <;> rfl
  | finite c =>
    cases y with
    | infinity => cases hyz
    | finite b =>
      cases x with
      | infinity => cases hxy
      | finite a =>
        exact decide_eq_true ((of_decide_eq_true hxy).trans (of_decide_eq_true hyz))

theorem number_le_total (x y : Number) : x.le y = true ∨ y.le x = true := by
  cases x with
  | infinity =>
    right
    cases y <;> rfl
  | finite a =>
    cases y with
    | infinity => exact .inl rfl
    | finite b =>
      simp only [Number.le, decide_eq_true_eq]
      exact le_total a b

theorem number_le_antisymm {x y : Number} (hxy : x.le y = true) (hyx : y.le x = true) : x = y := by
  cases x with
  | infinity =>
    cases y with
    | infinity => rfl
    | finite b => cases hxy
  | finite a =>
    cases y with
    | infinity => cases hyx
    | finite b =>
      rw [le_antisymm (of_decide_eq_true hxy) (of_decide_eq_true hyx)]

theorem roundEven_mono {q : ℚ} (h : q ≤ r) : roundEven q ≤ roundEven r := by
  by_contra hlt
  have hstep : (roundEven r : ℚ) + 1 ≤ roundEven q := by exact_mod_cast not_le.mp hlt
  have hq := abs_le.mp (roundEven_abs q)
  have hr := abs_le.mp (roundEven_abs r)
  have heq : q = r := by linarith
  rw [heq] at hlt
  exact hlt le_rfl

theorem lastBit_mono {q : ℚ} (hq : 0 < q) (h : q ≤ r) : lastBit q ≤ lastBit r := by
  have hlog : Int.log 2 q ≤ Int.log 2 r := Int.log_mono_right hq h
  unfold lastBit
  omega

/-- Rounding to a number of bits keeps the order, also from one exponent to the next. -/
theorem rounded_mono {q : ℚ} (hq : 0 < q) (h : q ≤ r) :
    (roundEven (q / 2 ^ lastBit q) : ℚ) * 2 ^ lastBit q ≤
      roundEven (r / 2 ^ lastBit r) * 2 ^ lastBit r := by
  have hpow : ∀ e : ℤ, (0 : ℚ) < 2 ^ e := fun e => by positivity
  rcases (lastBit_mono hq h).eq_or_lt with heq | hlt
  · rw [← heq]
    have hdiv : q / 2 ^ lastBit q ≤ r / 2 ^ lastBit q :=
      div_le_div_of_nonneg_right h (hpow _).le
    have hround : (roundEven (q / 2 ^ lastBit q) : ℚ) ≤ roundEven (r / 2 ^ lastBit q) := by
      exact_mod_cast roundEven_mono hdiv
    exact mul_le_mul_of_nonneg_right hround (hpow _).le
  · have hlow : -1074 ≤ lastBit q := le_max_right _ _
    have hnormal : -1022 ≤ Int.log 2 r := by
      unfold lastBit at hlt hlow
      omega
    have hq' : (roundEven (q / 2 ^ lastBit q) : ℚ) ≤ 2 ^ 53 := by
      exact_mod_cast roundEven_lastBit_le (r := q)
    have hr' : (2 ^ 52 : ℚ) ≤ roundEven (r / 2 ^ lastBit r) := by
      exact_mod_cast le_roundEven_lastBit (hq.trans_le h) hnormal
    calc (roundEven (q / 2 ^ lastBit q) : ℚ) * 2 ^ lastBit q
        ≤ 2 ^ 53 * 2 ^ lastBit q := mul_le_mul_of_nonneg_right hq' (hpow _).le
      _ = 2 ^ 52 * 2 ^ (lastBit q + 1) := by
        rw [zpow_add₀ (by norm_num), zpow_one]
        ring
      _ ≤ 2 ^ 52 * 2 ^ lastBit r :=
        mul_le_mul_of_nonneg_left (zpow_le_zpow_right₀ (by norm_num) hlt) (by positivity)
      _ ≤ roundEven (r / 2 ^ lastBit r) * 2 ^ lastBit r :=
        mul_le_mul_of_nonneg_right hr' (hpow _).le

/-- Rounding keeps the order. -/
theorem nearest_mono {q : ℚ} (h : q ≤ r) : (nearest q).le (nearest r) = true := by
  unfold nearest
  by_cases hr : r ≤ 0
  · rw [if_pos hr, if_pos (h.trans hr)]
    exact decide_eq_true (le_refl (0 : ℚ))
  rw [if_neg hr]
  dsimp only
  by_cases hq : q ≤ 0
  · rw [if_pos hq]
    split_ifs with hlarge
    · rfl
    · refine decide_eq_true (mul_nonneg ?_ (by positivity))
      exact_mod_cast le_roundEven (z := 0) (div_nonneg (not_le.mp hr).le (by positivity))
  rw [if_neg hq]
  have hmono := rounded_mono (not_le.mp hq) h
  by_cases hlarge : (2 ^ 1024 : ℚ) ≤ roundEven (q / 2 ^ lastBit q) * 2 ^ lastBit q
  · rw [if_pos hlarge, if_pos (hlarge.trans hmono)]
    rfl
  · rw [if_neg hlarge]
    split_ifs with hlarge'
    · rfl
    · exact decide_eq_true hmono

/-! ## One hundred times a large count of hundredths -/

/-- How far `q` lies above the nearest multiple of `unit`, the even one of two. -/
def excess (q unit : ℚ) : ℚ := q - roundEven (q / unit) * unit

/-- Whether `n` and the nearest multiple of one hundred last bits of `n / 100` round to the same
    multiple of the last bit of `n`. -/
def keepsPlace (n : ℚ) : Prop :=
  let last : ℚ := 2 ^ lastBit n
  let moved := |excess n last - excess n (100 * 2 ^ lastBit (n / 100))|
  2 * moved < last ∨ 2 * moved = last ∧ roundEven (n / last) % 2 = 0

/-- The nearest multiples of a power of two, by the distances. -/
theorem roundEven_iff_moved {j : ℕ} {a x : ℚ} : roundEven (a / 2 ^ j) = roundEven (x / 2 ^ j) ↔
    2 * |a - roundEven (x / 2 ^ j) * 2 ^ j| < 2 ^ j ∨
      2 * |a - roundEven (x / 2 ^ j) * 2 ^ j| = 2 ^ j ∧ roundEven (x / 2 ^ j) % 2 = 0 := by
  have hpow : (0 : ℚ) < 2 ^ j := by positivity
  have hdist : |a / 2 ^ j - roundEven (x / 2 ^ j)| =
      |a - roundEven (x / 2 ^ j) * 2 ^ j| / 2 ^ j := by
    rw [← abs_of_pos hpow, ← abs_div, abs_of_pos hpow, sub_div, mul_div_cancel_right₀ _ hpow.ne']
  rw [roundEven_eq_iff, hdist, div_lt_iff₀ hpow, div_eq_iff hpow.ne']
  constructor
  · rintro (h | ⟨h, heven⟩)
    · exact .inl (by linarith)
    · exact .inr ⟨by linarith, heven⟩
  · rintro (h | ⟨h, heven⟩)
    · exact .inl (by linarith)
    · exact .inr ⟨by linarith, heven⟩

/-- One hundred times a number of 53 bits rounds as if its last bit were that of a number
    within fifty of it. -/
theorem nearest_hundredfold {x : ℚ} {a f : ℤ} {j : ℕ} (hf : -59 ≤ f) (ha : 2 ^ 52 ≤ a)
    (ha' : a ≤ 2 ^ 53) (hclose : |(a * 100 : ℚ) - x| ≤ 50)
    (hj : j = 6 ∧ x < 2 ^ 59 ∨ j = 7 ∧ 2 ^ 59 ≤ x) :
    nearest ((a * 100 : ℤ) * 2 ^ f) =
      if 2 ^ 1024 ≤ roundEven ((a * 100 : ℤ) / 2 ^ j) * 2 ^ j * (2 : ℚ) ^ f then .infinity
      else .finite (roundEven ((a * 100 : ℤ) / 2 ^ j) * 2 ^ j * 2 ^ f) := by
  obtain ⟨hbelow, habove⟩ := abs_le.mp hclose
  have hscale : ∀ k : ℕ, 2 ^ (52 + k) ≤ a * 100 → a * 100 < 2 ^ (53 + k) → _ := fun k hlow hhigh =>
    nearest_mul (x := (a * 100 : ℤ)) (j := k) (f := f) (by exact_mod_cast hlow)
      (by exact_mod_cast hhigh) (by omega)
  rcases hj with ⟨rfl, hx⟩ | ⟨rfl, hx⟩
  · have hlt : a * 100 < 2 ^ 59 + 50 := by
      have : (a * 100 : ℚ) < 2 ^ 59 + 50 := by linarith
      exact_mod_cast this
    by_cases hcross : a * 100 < 2 ^ 59
    · exact hscale 6 (by omega) (by omega)
    · -- the first multiple of one hundred behind `2 ^ 59`
      obtain rfl : a = 5764607523034235 := by omega
      have hsix : roundEven (((5764607523034235 * 100 : ℤ) : ℚ) / 2 ^ 6) = 2 ^ 53 :=
        roundEven_div (by norm_num) (by norm_num)
      have hseven : roundEven (((5764607523034235 * 100 : ℤ) : ℚ) / 2 ^ 7) = 2 ^ 52 :=
        roundEven_div (by norm_num) (by norm_num)
      rw [hscale 7 (by norm_num) (by norm_num), hsix, hseven]
      norm_num
  · have hlt : 2 ^ 59 - 50 ≤ a * 100 := by
      have : (2 ^ 59 - 50 : ℚ) ≤ a * 100 := by linarith
      exact_mod_cast this
    exact hscale 7 (by omega) (by omega)

/-- One hundred times the number nearest to `n / 100`, from `2 ^ 52` on. -/
theorem times_hundred_large {n : ℚ} (hn : 2 ^ 52 ≤ n) (hfinite : nearest n ≠ .infinity) :
    (nearest (n / 100)).times 100 = nearest n ↔ keepsPlace n := by
  have hpos : 0 < n / 100 := by linarith
  obtain ⟨f, hf⟩ : ∃ f, f = Int.log 2 (n / 100) - 52 := ⟨_, rfl⟩
  obtain ⟨x, rfl⟩ : ∃ x, n = x * 2 ^ f := ⟨n / 2 ^ f, by field_simp⟩
  have hpow : (0 : ℚ) < 2 ^ f := by positivity
  have hbase : -7 ≤ f := by
    have : 45 ≤ Int.log 2 (x * 2 ^ f / 100) := by
      rw [← Int.zpow_le_iff_le_log (by norm_num) hpos]
      norm_num
      linarith
    omega
  have hlow : 2 ^ 52 ≤ x / 100 := by
    have h := Int.zpow_log_le_self (b := 2) (by norm_num) hpos
    rw [show Int.log 2 (x * 2 ^ f / 100) = 52 + f by omega, zpow_add₀ (by norm_num), mul_div_right_comm] at h
    exact_mod_cast le_of_mul_le_mul_right h hpow
  have hhigh : x / 100 < 2 ^ 53 := by
    have h := Int.lt_zpow_succ_log_self (b := 2) (by norm_num) (x * 2 ^ f / 100)
    rw [show Int.log 2 (x * 2 ^ f / 100) + 1 = 53 + f by omega, zpow_add₀ (by norm_num), mul_div_right_comm] at h
    exact_mod_cast lt_of_mul_lt_mul_right h hpow.le
  obtain ⟨a, ha⟩ : ∃ a, a = roundEven (x / 100) := ⟨_, rfl⟩
  have hclose : |(a * 100 : ℚ) - x| ≤ 50 := by
    rw [ha, mul_comm]
    exact hundredfold_error x
  obtain ⟨j, hj⟩ : ∃ j : ℕ, j = 6 ∧ x < 2 ^ 59 ∨ j = 7 ∧ 2 ^ 59 ≤ x := by
    rcases lt_or_ge x (2 ^ 59) with hx | hx
    · exact ⟨6, .inl ⟨rfl, hx⟩⟩
    · exact ⟨7, .inr ⟨rfl, hx⟩⟩
  have hoctave : 2 ^ (52 + j) ≤ x ∧ x < 2 ^ (53 + j) ∧ j ≤ 7 ∧ 6 ≤ j := by
    rcases hj with ⟨rfl, hx⟩ | ⟨rfl, hx⟩
    · exact ⟨by norm_num1; linarith, hx, by norm_num⟩
    · exact ⟨hx, by norm_num1; linarith, by norm_num⟩
  have hn' := nearest_mul hoctave.1 hoctave.2.1 (f := f) (by omega)
  have hlarge : ¬ 2 ^ 1024 ≤ roundEven (x / 2 ^ j) * 2 ^ j * (2 : ℚ) ^ f := fun hlarge =>
    hfinite (hn'.trans (if_pos hlarge))
  rw [if_neg hlarge] at hn'
  have hpart : nearest (x * 2 ^ f / 100) = .finite (a * 2 ^ f) := by
    have hmono := nearest_mono (q := x * 2 ^ f / 100) (r := x * 2 ^ f) (by linarith)
    have h := nearest_mul (x := x / 100) (j := 0) (f := f) hlow hhigh (by omega)
    rw [pow_zero, div_one, mul_one, ← ha, ← mul_div_right_comm] at h
    split_ifs at h
    · rw [h, hn'] at hmono
      cases hmono
    · exact h
  have hproduct := nearest_hundredfold (f := f) (by omega) (ha ▸ le_roundEven (by exact_mod_cast hlow))
    (ha ▸ roundEven_le (by exact_mod_cast hhigh.le)) hclose hj
  have hkeeps : keepsPlace (x * 2 ^ f) ↔
      roundEven (((a * 100 : ℤ) : ℚ) / 2 ^ j) = roundEven (x / 2 ^ j) := by
    have hlast : lastBit (x * 2 ^ f) = j + f := lastBit_mul hoctave.1 hoctave.2.1 (by omega)
    have hlast' : lastBit (x * 2 ^ f / 100) = f := by
      unfold lastBit
      omega
    unfold keepsPlace excess
    rw [hlast, hlast', zpow_add₀ (by norm_num), zpow_natCast]
    dsimp only
    rw [mul_div_mul_right _ _ hpow.ne', mul_div_mul_right _ _ hpow.ne', ← ha, roundEven_iff_moved]
    generalize roundEven (x / 2 ^ j) = z
    have hmoved : |x * 2 ^ f - z * (2 ^ j * 2 ^ f) - (x * 2 ^ f - a * (100 * 2 ^ f))| =
        |((a * 100 : ℤ) : ℚ) - z * 2 ^ j| * 2 ^ f := by
      rw [← abs_of_pos hpow, ← abs_mul, abs_of_pos hpow]
      push_cast
      ring_nf
    rw [hmoved, ← mul_assoc, mul_lt_mul_iff_left₀ hpow, mul_left_inj' hpow.ne']
  rw [hpart, hkeeps]
  show nearest (a * 2 ^ f * 100) = _ ↔ _
  rw [mul_right_comm, ← Int.cast_ofNat, ← Int.cast_mul, hproduct, hn']
  constructor
  · intro h
    split_ifs at h
    exact_mod_cast mul_right_cancel₀ (by positivity) (mul_right_cancel₀ hpow.ne' (Number.finite.inj h))
  · intro h
    rw [h, if_neg hlarge]

end AegisShield.Common.Binary64
