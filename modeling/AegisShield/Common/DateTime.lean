import AegisShield.Common.Format

/-!
# Date-times as texts

The texts `YYYY-MM-DDTHH:MM[:SS[.fraction]]Z` of valid dates, the instants they denote and the
order of the texts as texts.

Results:
* `Spells.lt_of_lt`: numerals of the same widths are ordered as the numbers.
* `minutes_lt`: dates and times in order are instants in order.
* `le_iff_instant`: two texts are ordered as their instants just where they are `Comparable`.
-/

namespace AegisShield.Common.DateTime

/-! ## Numerals -/

/-- The value of a digit. -/
def digit (c : Char) : ℕ := c.toNat - '0'.toNat

/-- The value of a numeral. -/
def number : List Char → ℕ
  | [] => 0
  | c :: cs => digit c * 10 ^ cs.length + number cs

/-- The value of the digits behind a point. -/
def fraction : List Char → ℚ
  | [] => 0
  | c :: cs => (digit c + fraction cs) / 10

theorem number_cons (c : Char) (cs : List Char) :
    number (c :: cs) = digit c * 10 ^ cs.length + number cs := rfl

theorem fraction_cons (c : Char) (cs : List Char) :
    fraction (c :: cs) = (digit c + fraction cs) / 10 := rfl

theorem digit_lt {c : Char} (h : c.isDigit = true) : digit c < 10 := by
  have hbounds : 48 ≤ c.toNat ∧ c.toNat ≤ 57 := by
    simpa [Char.isDigit, UInt32.le_iff_toNat_le] using h
  show c.toNat - 48 < 10
  omega

theorem digit_lt_digit {c d : Char} (hc : c.isDigit = true) (h : c < d) : digit c < digit d := by
  have hbounds : 48 ≤ c.toNat ∧ c.toNat ≤ 57 := by
    simpa [Char.isDigit, UInt32.le_iff_toNat_le] using hc
  have hlt : c.toNat < d.toNat := h
  show c.toNat - 48 < d.toNat - 48
  omega

theorem number_lt {cs : List Char} (h : ∀ c ∈ cs, c.isDigit = true) :
    number cs < 10 ^ cs.length := by
  induction cs with
  | nil => exact Nat.one_pos
  | cons c cs ih =>
    have hc := digit_lt (h c List.mem_cons_self)
    have hcs := ih fun x hx => h x (List.mem_cons_of_mem c hx)
    rw [List.length_cons, pow_succ', number_cons]
    nlinarith

/-- Numerals of one length are ordered as the numbers. -/
theorem number_lt_number {cs ds : List Char} (hc : ∀ c ∈ cs, c.isDigit = true)
    (hd : ∀ d ∈ ds, d.isDigit = true) (hlength : cs.length = ds.length) (h : cs < ds) :
    number cs < number ds := by
  induction cs generalizing ds with
  | nil =>
    rw [List.eq_nil_of_length_eq_zero hlength.symm] at h
    exact absurd h (lt_irrefl _)
  | cons c cs ih =>
    rcases ds with _ | ⟨d, ds⟩
    · cases hlength
    · have hlength' := Nat.succ.inj hlength
      have hcs := number_lt fun x hx => hc x (List.mem_cons_of_mem c hx)
      rw [number_cons, number_cons, ← hlength']
      rcases List.cons_lt_cons_iff.mp h with hlt | ⟨rfl, htail⟩
      · have hdigits := digit_lt_digit (hc c List.mem_cons_self) hlt
        nlinarith [Nat.zero_le (number ds)]
      · have htails := ih (fun x hx => hc x (List.mem_cons_of_mem c hx))
          (fun x hx => hd x (List.mem_cons_of_mem c hx)) hlength' htail
        omega

theorem fraction_nonneg (cs : List Char) : 0 ≤ fraction cs := by
  induction cs with
  | nil => exact le_rfl
  | cons c cs ih =>
    rw [fraction_cons]
    positivity

theorem fraction_lt {cs : List Char} (h : ∀ c ∈ cs, c.isDigit = true) : fraction cs < 1 := by
  induction cs with
  | nil => exact one_pos
  | cons c cs ih =>
    have hc : (digit c : ℚ) ≤ 9 := by
      exact_mod_cast Nat.le_of_lt_succ (digit_lt (h c List.mem_cons_self))
    have hcs := ih fun x hx => h x (List.mem_cons_of_mem c hx)
    rw [fraction_cons]
    linarith

theorem digit_eq_zero {c : Char} (h : c.isDigit = true) : digit c = 0 ↔ c = '0' := by
  have hbounds : 48 ≤ c.toNat ∧ c.toNat ≤ 57 := by
    simpa [Char.isDigit, UInt32.le_iff_toNat_le] using h
  constructor
  · intro hzero
    have hcode : c.toNat - 48 = 0 := hzero
    apply Char.toNat_inj.mp
    show c.toNat = 48
    omega
  · rintro rfl
    rfl

theorem fraction_eq_zero {cs : List Char} (h : ∀ c ∈ cs, c.isDigit = true) :
    fraction cs = 0 ↔ ∀ c ∈ cs, c = '0' := by
  induction cs with
  | nil => simp [fraction]
  | cons c cs ih =>
    have hc := digit_eq_zero (h c List.mem_cons_self)
    have hcs := ih fun x hx => h x (List.mem_cons_of_mem c hx)
    have hnonneg := fraction_nonneg cs
    have hdigit : (0 : ℚ) ≤ digit c := Nat.cast_nonneg _
    rw [List.forall_mem_cons, ← hc, ← hcs, fraction_cons, div_eq_zero_iff,
      or_iff_left (by norm_num), add_eq_zero_iff_of_nonneg hdigit hnonneg, Nat.cast_eq_zero]

theorem number_eq_zero {cs : List Char} (h : ∀ c ∈ cs, c.isDigit = true) :
    number cs = 0 ↔ ∀ c ∈ cs, c = '0' := by
  induction cs with
  | nil => simp [number]
  | cons c cs ih =>
    have hc := digit_eq_zero (h c List.mem_cons_self)
    have hcs := ih fun x hx => h x (List.mem_cons_of_mem c hx)
    have hten : 10 ^ cs.length ≠ 0 := pow_ne_zero _ (by norm_num)
    rw [List.forall_mem_cons, ← hc, ← hcs, number_cons, Nat.add_eq_zero_iff, mul_eq_zero,
      or_iff_left hten]

/-! ## Texts in order -/

theorem append_lt_append {p q : List Char} (hlength : p.length = q.length) (h : p < q)
    (x y : List Char) : p ++ x < q ++ y := by
  induction p generalizing q with
  | nil =>
    rw [List.eq_nil_of_length_eq_zero hlength.symm] at h
    exact absurd h (lt_irrefl _)
  | cons c p ih =>
    rcases q with _ | ⟨d, q⟩
    · cases hlength
    · refine List.cons_lt_cons_iff.mpr ((List.cons_lt_cons_iff.mp h).imp_right ?_)
      rintro ⟨hcd, htail⟩
      exact ⟨hcd, ih (Nat.succ.inj hlength) htail⟩

theorem append_lt_append_left_iff (p x y : List Char) : p ++ x < p ++ y ↔ x < y := by
  induction p with
  | nil => exact Iff.rfl
  | cons c p ih => simp [ih]

/-! ## Layouts -/

/-- Numerals of fixed widths, each with the text behind it. -/
abbrev Layout := List (ℕ × List Char)

/-- The numbers at the start of a text, and the rest. -/
def read : Layout → List Char → Option (List ℕ × List Char)
  | [], cs => some ([], cs)
  | (width, mark) :: layout, cs =>
    let numeral := cs.take width
    let rest := cs.drop width
    if numeral.length = width ∧ numeral.all Char.isDigit = true ∧ mark.isPrefixOf rest = true then
      (read layout (rest.drop mark.length)).map fun found => (number numeral :: found.1, found.2)
    else none

/-- A text writes the numbers as the layout says. -/
inductive Spells : Layout → List Char → List ℕ → Prop where
  | nil : Spells [] [] []
  | cons {layout mark numeral cs ns} (h : ∀ c ∈ numeral, c.isDigit = true) :
      Spells layout cs ns →
      Spells ((numeral.length, mark) :: layout) (numeral ++ (mark ++ cs)) (number numeral :: ns)

variable {layout : Layout} {ns ms : List ℕ}

theorem spells_of_read {cs rest : List Char}
    (h : read layout cs = some (ns, rest)) : ∃ head, cs = head ++ rest ∧ Spells layout head ns := by
  induction layout generalizing cs ns with
  | nil =>
    obtain ⟨rfl, rfl⟩ := Prod.mk.inj (Option.some.inj h)
    exact ⟨[], rfl, .nil⟩
  | cons field layout ih =>
    obtain ⟨width, mark⟩ := field
    unfold read at h
    dsimp only at h
    obtain ⟨⟨hwidth, hdigits, hmark⟩, h⟩ := Option.ite_none_right_eq_some.mp h
    obtain ⟨⟨ns', rest'⟩, hread, hfound⟩ := Option.map_eq_some_iff.mp h
    obtain ⟨rfl, rfl⟩ := Prod.mk.inj hfound
    obtain ⟨head, hhead, hspells⟩ := ih hread
    obtain ⟨tail, htail⟩ := List.isPrefixOf_iff_prefix.mp hmark
    rw [← htail, List.drop_left] at hhead
    refine ⟨cs.take width ++ (mark ++ head), ?_, ?_⟩
    · rw [List.append_assoc, List.append_assoc, ← hhead, htail, List.take_append_drop]
    · nth_rewrite 1 [← hwidth]
      exact .cons (List.all_eq_true.mp hdigits) hspells

theorem Spells.length_eq {p q : List Char}
    (hp : Spells layout p ns) (hq : Spells layout q ms) : p.length = q.length := by
  induction hp generalizing q ms with
  | nil =>
    cases hq
    rfl
  | @cons layout mark numeral cs ns hdigits hspells ih =>
    generalize hwidth : numeral.length = width at hq
    cases hq with
    | cons hdigits' hspells' => simp [hwidth, ih hspells']

/-- Texts of one layout are ordered as their numbers. -/
theorem Spells.lt_of_lt {p q : List Char}
    (hp : Spells layout p ns) (hq : Spells layout q ms) (h : p < q) : ns < ms := by
  induction hp generalizing q ms with
  | nil =>
    cases hq
    exact absurd h (lt_irrefl _)
  | @cons layout mark numeral cs ns hdigits hspells ih =>
    generalize hwidth : numeral.length = width at hq
    cases hq with
    | @cons _ _ numeral' cs' ms' hdigits' hspells' =>
      rw [List.cons_lt_cons_iff]
      rcases lt_trichotomy numeral numeral' with hlt | rfl | hgt
      · exact .inl (number_lt_number hdigits hdigits' hwidth hlt)
      · refine .inr ⟨rfl, ih hspells' ?_⟩
        exact (append_lt_append_left_iff mark _ _).mp ((append_lt_append_left_iff numeral _ _).mp h)
      · exact absurd h (append_lt_append hwidth.symm hgt _ _).asymm

theorem Spells.unique {p : List Char}
    (hp : Spells layout p ns) (hq : Spells layout p ms) : ns = ms := by
  induction hp generalizing ms with
  | nil =>
    cases hq
    rfl
  | @cons layout mark numeral cs ns hdigits hspells ih =>
    generalize hwidth : numeral.length = width at hq
    generalize htext : numeral ++ (mark ++ cs) = text at hq
    cases hq with
    | @cons _ _ numeral' cs' ms' hdigits' hspells' =>
      obtain ⟨rfl, hrest⟩ := List.append_inj htext hwidth
      rw [ih (List.append_cancel_left hrest ▸ hspells')]

theorem Spells.forall_mem {p : List Char} {P : Char → Prop}
    (h : Spells layout p ns) (hdigit : ∀ c : Char, c.isDigit = true → P c)
    (hmark : ∀ field ∈ layout, ∀ c ∈ field.2, P c) : ∀ c ∈ p, P c := by
  induction h with
  | nil => simp
  | cons hdigits hspells ih =>
    rw [List.forall_mem_cons] at hmark
    rw [List.forall_mem_append, List.forall_mem_append]
    exact ⟨fun c hc => hdigit c (hdigits c hc), hmark.1, ih hmark.2⟩

/-! ## The calendar -/

/-- Leap years of the Gregorian calendar. -/
def isLeapYear (year : ℕ) : Bool := year % 4 = 0 && (year % 100 ≠ 0 || year % 400 = 0)

/-- The number of days of a month. -/
def monthLength (year month : ℕ) : ℕ :=
  if month = 2 then (if isLeapYear year then 29 else 28)
  else if month ∈ [4, 6, 9, 11] then 30
  else 31

/-- The days of a year in front of a month. -/
def daysBeforeMonth (year month : ℕ) : ℕ :=
  ∑ i ∈ Finset.range (month - 1), monthLength year (i + 1)

/-- The days in front of a year, from the year 0 on. -/
def daysBeforeYear (year : ℕ) : ℕ := ∑ i ∈ Finset.range year, daysBeforeMonth i 13

/-- A minute of the calendar. -/
structure Minute where
  year : ℕ
  month : ℕ
  day : ℕ
  hour : ℕ
  minute : ℕ
  valid : (1 ≤ month ∧ month ≤ 12) ∧ (1 ≤ day ∧ day ≤ monthLength year month) ∧
    hour < 24 ∧ minute < 60

namespace Minute

/-- The numbers of a minute, in the order of the text. -/
def numbers (t : Minute) : List ℕ := [t.year, t.month, t.day, t.hour, t.minute]

/-- The minute with the numbers, if there is one. -/
def ofNumbers : List ℕ → Option Minute
  | [year, month, day, hour, minute] =>
    if h : (1 ≤ month ∧ month ≤ 12) ∧ (1 ≤ day ∧ day ≤ monthLength year month) ∧
        hour < 24 ∧ minute < 60 then
      some ⟨year, month, day, hour, minute, h⟩
    else none
  | _ => none

/-- The days in front of the day of a minute. -/
def days (t : Minute) : ℕ := daysBeforeYear t.year + daysBeforeMonth t.year t.month + (t.day - 1)

/-- The minutes in front of a minute. -/
def count (t : Minute) : ℕ := (t.days * 24 + t.hour) * 60 + t.minute

theorem numbers_of_ofNumbers {ns : List ℕ} {t : Minute} (h : ofNumbers ns = some t) :
    t.numbers = ns := by
  unfold ofNumbers at h
  split at h
  · obtain ⟨hvalid, ht⟩ := Option.dite_none_right_eq_some.mp h
    rw [← Option.some.inj ht]
    rfl
  · cases h

theorem eq_of_numbers {s t : Minute} (h : s.numbers = t.numbers) : s = t := by
  cases s
  cases t
  unfold numbers at h
  simp_all

/-- A day lies before the next month. -/
theorem day_before (t : Minute) {month : ℕ} (h : t.month < month) :
    daysBeforeMonth t.year t.month + (t.day - 1) < daysBeforeMonth t.year month := by
  have hmonth := t.valid.1.1
  have hday := t.valid.2.1
  have hnext : daysBeforeMonth t.year (t.month + 1) =
      daysBeforeMonth t.year t.month + monthLength t.year t.month := by
    obtain ⟨m, hm⟩ := Nat.exists_eq_add_of_le' hmonth
    unfold daysBeforeMonth
    rw [hm, Nat.add_sub_cancel, Nat.add_sub_cancel, Finset.sum_range_succ]
  have hmono : daysBeforeMonth t.year (t.month + 1) ≤ daysBeforeMonth t.year month := by
    unfold daysBeforeMonth
    exact Finset.sum_le_sum_of_subset (Finset.range_subset_range.mpr (by omega))
  omega

theorem days_before_year (t : Minute) {year : ℕ} (h : t.year < year) :
    t.days < daysBeforeYear year := by
  have hday : daysBeforeMonth t.year t.month + (t.day - 1) < daysBeforeMonth t.year 13 :=
    t.day_before (Nat.lt_succ_of_le t.valid.1.2)
  have hnext : daysBeforeYear (t.year + 1) = daysBeforeYear t.year + daysBeforeMonth t.year 13 := by
    unfold daysBeforeYear
    rw [Finset.sum_range_succ]
  have hmono : daysBeforeYear (t.year + 1) ≤ daysBeforeYear year := by
    unfold daysBeforeYear
    exact Finset.sum_le_sum_of_subset (Finset.range_subset_range.mpr h)
  unfold days
  omega

/-- Numbers in order are minutes in order. -/
theorem count_lt {s t : Minute} (h : s.numbers < t.numbers) : s.count < t.count := by
  have hs := s.valid
  have ht := t.valid
  have hdays : s.days < t.days ∨ s.days = t.days ∧
      (s.hour < t.hour ∨ s.hour = t.hour ∧ s.minute < t.minute) := by
    unfold numbers at h
    rcases List.cons_lt_cons_iff.mp h with hyear | ⟨hyear, h⟩
    · left
      have hbefore := s.days_before_year hyear
      unfold days at hbefore ⊢
      omega
    rcases List.cons_lt_cons_iff.mp h with hmonth | ⟨hmonth, h⟩
    · left
      have hbefore := s.day_before hmonth
      unfold days
      rw [← hyear]
      omega
    rcases List.cons_lt_cons_iff.mp h with hday | ⟨hday, h⟩
    · left
      unfold days
      rw [← hyear, ← hmonth]
      omega
    right
    refine ⟨by unfold days; rw [hyear, hmonth, hday], ?_⟩
    rcases List.cons_lt_cons_iff.mp h with hhour | ⟨hhour, h⟩
    · exact .inl hhour
    rcases List.cons_lt_cons_iff.mp h with hminute | ⟨-, h⟩
    · exact .inr ⟨hhour, hminute⟩
    · exact absurd h (lt_irrefl _)
  unfold count
  omega

end Minute

/-! ## The instant of a text -/

/-- `YYYY-MM-DDTHH:MM`. -/
def minuteLayout : Layout := [(4, ['-']), (2, ['-']), (2, ['T']), (2, [':']), (2, [])]

/-- `(\.\d+)?Z`, as a part of a second. -/
def fractionOf : List Char → Option ℚ
  | ['Z'] => some 0
  | '.' :: rest =>
    let digits := rest.takeWhile Char.isDigit
    if digits ≠ [] ∧ rest.dropWhile Char.isDigit = ['Z'] then some (fraction digits) else none
  | _ => none

/-- `(:[0-5]\d(\.\d+)?)?Z`, in seconds. -/
def secondsOf : List Char → Option ℚ
  | ['Z'] => some 0
  | ':' :: a :: b :: rest =>
    if a.isDigit = true ∧ b.isDigit = true ∧ number [a, b] < 60 then
      (fractionOf rest).map fun part => number [a, b] + part
    else none
  | _ => none

/-- The instant that a text denotes, in seconds from the start of the year 0; `none` for other
    texts. -/
def instantOf (text : String) : Option ℚ := do
  let found ← read minuteLayout text.toList
  let minute ← Minute.ofNumbers found.1
  let seconds ← secondsOf found.2
  return 60 * minute.count + seconds

/-- `z.iso.datetime()`: the texts of an instant. -/
def isDateTime (text : String) : Bool := (instantOf text).isSome

/-! ## Comparable texts -/

/-- What two texts without the final letter need to be ordered as their instants: the first
    does not go on where the second ends, and the second ends where the first goes on only if
    that adds nothing. -/
def Comparable (first last : List Char) : Prop :=
  (first <+: last → first = last) ∧
    ∀ rest, first = last ++ rest → ∀ c ∈ rest, c = '0' ∨ c = ':' ∨ c = '.'

/-- Two texts without the final letter are ordered as two instants just where they are
    comparable. -/
def Agree (x y : List Char) (v w : ℚ) : Prop :=
  ((x ++ ['Z'] ≤ y ++ ['Z']) ↔ v ≤ w) ↔ Comparable x y

section Agree

variable {x y p q : List Char} {v w : ℚ} {c : Char}

theorem comparable_append (p : List Char) : Comparable (p ++ x) (p ++ y) ↔ Comparable x y := by
  unfold Comparable
  simp only [List.prefix_append_right_inj, List.append_assoc, List.append_right_inj]

theorem agree_append (h : Agree x y v w) (p : List Char) : Agree (p ++ x) (p ++ y) v w := by
  unfold Agree at h ⊢
  rw [comparable_append, ← h, List.append_assoc, List.append_assoc, ← not_lt (a := p ++ _),
    append_lt_append_left_iff, not_lt]

theorem agree_congr {v' w' : ℚ} (h : Agree x y v w) (hvw : v' ≤ w' ↔ v ≤ w) :
    Agree x y v' w' := by
  unfold Agree at h ⊢
  rw [hvw]
  exact h

theorem agree_self (x : List Char) (v : ℚ) : Agree x x v v := by
  have hcomparable : Comparable x x := by
    refine ⟨fun _ => rfl, fun rest hrest c hc => ?_⟩
    rw [List.self_eq_append_right.mp hrest] at hc
    cases hc
  unfold Agree
  exact iff_of_true (iff_of_true le_rfl le_rfl) hcomparable

theorem comparable_of_ne (hlength : p.length = q.length) (hne : p ≠ q) (x y : List Char) :
    Comparable (p ++ x) (q ++ y) := by
  refine ⟨?_, ?_⟩
  · rintro ⟨rest, hrest⟩
    rw [List.append_assoc] at hrest
    exact absurd (List.append_inj_left hrest hlength) hne
  · intro rest hrest
    rw [List.append_assoc] at hrest
    exact absurd (List.append_inj_left hrest hlength) hne

/-- Different texts of one length decide. -/
theorem agree_of_lt (hlength : p.length = q.length) (h : p < q) (hvw : v < w) (x y : List Char) :
    Agree (p ++ x) (q ++ y) v w := by
  unfold Agree
  refine iff_of_true (iff_of_true ?_ hvw.le) (comparable_of_ne hlength h.ne x y)
  rw [List.append_assoc, List.append_assoc]
  exact (append_lt_append hlength h _ _).le

theorem agree_of_gt (hlength : p.length = q.length) (h : q < p) (hvw : w < v) (x y : List Char) :
    Agree (p ++ x) (q ++ y) v w := by
  unfold Agree
  refine iff_of_true (iff_of_false ?_ hvw.not_ge) (comparable_of_ne hlength h.ne' x y)
  rw [List.append_assoc, List.append_assoc]
  exact (append_lt_append hlength.symm h _ _).not_ge

/-- A text that goes on comes before one that ends, whatever it adds. -/
theorem agree_nil_cons (hc : c < 'Z') (hvw : v ≤ w) : Agree [] (c :: y) v w := by
  unfold Agree
  refine iff_of_false (fun h => ?_) fun h => ?_
  · exact (List.cons_lt_cons_iff.mpr (.inl hc)).not_ge (h.mpr hvw)
  · exact absurd (h.1 (List.nil_prefix)) (List.cons_ne_nil c y).symm

theorem agree_cons_nil (hc : c < 'Z')
    (hvw : v ≤ w ↔ ∀ d ∈ c :: x, d = '0' ∨ d = ':' ∨ d = '.') : Agree (c :: x) [] v w := by
  unfold Agree
  have hle : c :: x ++ ['Z'] ≤ [] ++ ['Z'] := (List.cons_lt_cons_iff.mpr (.inl hc)).le
  rw [iff_true_left hle, hvw]
  constructor
  · intro h
    refine ⟨fun hprefix => List.prefix_nil.mp hprefix, ?_⟩
    rintro rest rfl
    exact h
  · intro h
    exact h.2 (c :: x) rfl

theorem lt_Z {c : Char} (h : c.isDigit = true) : c < 'Z' := by
  have hbounds : 48 ≤ c.toNat ∧ c.toNat ≤ 57 := by
    simpa [Char.isDigit, UInt32.le_iff_toNat_le] using h
  show c.toNat < 90
  omega

/-- A numeral of zeros, among the characters that add nothing. -/
theorem zeros_iff {cs : List Char} (h : ∀ c ∈ cs, c.isDigit = true) :
    (∀ c ∈ cs, c = '0' ∨ c = ':' ∨ c = '.') ↔ ∀ c ∈ cs, c = '0' := by
  refine ⟨fun hall c hc => ?_, fun hall c hc => .inl (hall c hc)⟩
  rcases hall c hc with hzero | rfl | rfl
  · exact hzero
  · exact absurd (h _ hc) (by decide)
  · exact absurd (h _ hc) (by decide)

theorem agree_fraction {f g : List Char} (hf : ∀ c ∈ f, c.isDigit = true)
    (hg : ∀ c ∈ g, c.isDigit = true) : Agree f g (fraction f) (fraction g) := by
  induction f generalizing g with
  | nil =>
    rcases g with _ | ⟨d, g⟩
    · exact agree_self [] _
    · exact agree_nil_cons (lt_Z (hg d List.mem_cons_self)) (fraction_nonneg _)
  | cons c f ih =>
    have hf' : ∀ x ∈ f, x.isDigit = true := fun x hx => hf x (List.mem_cons_of_mem c hx)
    rcases g with _ | ⟨d, g⟩
    · refine agree_cons_nil (lt_Z (hf c List.mem_cons_self)) ?_
      rw [zeros_iff hf, ← fraction_eq_zero hf]
      exact ⟨fun h => le_antisymm h (fraction_nonneg _), fun h => h.le⟩
    · have hg' : ∀ x ∈ g, x.isDigit = true := fun x hx => hg x (List.mem_cons_of_mem d hx)
      have hlow := fraction_nonneg f
      have hhigh := fraction_lt hf'
      have hlow' := fraction_nonneg g
      have hhigh' := fraction_lt hg'
      rw [fraction_cons, fraction_cons]
      rcases lt_trichotomy c d with hlt | rfl | hgt
      · have hdigits : (digit c : ℚ) + 1 ≤ digit d := by
          exact_mod_cast digit_lt_digit (hf c List.mem_cons_self) hlt
        exact agree_of_lt (p := [c]) (q := [d]) rfl (List.cons_lt_cons_iff.mpr (.inl hlt))
          (by linarith) f g
      · refine agree_append (p := [c]) (agree_congr (ih hf' hg') ?_)
        constructor
        · intro h
          linarith
        · intro h
          linarith
      · have hdigits : (digit d : ℚ) + 1 ≤ digit c := by
          exact_mod_cast digit_lt_digit (hg d List.mem_cons_self) hgt
        exact agree_of_gt (p := [c]) (q := [d]) rfl (List.cons_lt_cons_iff.mpr (.inl hgt))
          (by linarith) f g

variable {rest : List Char}

theorem fractionOf_shape {v : ℚ} (h : fractionOf rest = some v) :
    (rest = ['Z'] ∧ v = 0) ∨
      ∃ f, (∀ c ∈ f, c.isDigit = true) ∧ rest = '.' :: f ++ ['Z'] ∧ v = fraction f := by
  unfold fractionOf at h
  split at h
  · exact .inl ⟨rfl, (Option.some.inj h).symm⟩
  next rest =>
    dsimp only at h
    obtain ⟨⟨-, hend⟩, hv⟩ := Option.ite_none_right_eq_some.mp h
    refine .inr ⟨rest.takeWhile Char.isDigit, fun c hc => List.mem_takeWhile_imp hc, ?_,
      (Option.some.inj hv).symm⟩
    rw [← hend, List.cons_append, List.takeWhile_append_dropWhile]
  · cases h

theorem ends_of_fractionOf (h : fractionOf rest = some v) :
    ∃ body, rest = body ++ ['Z'] := by
  rcases fractionOf_shape h with ⟨hrest, -⟩ | ⟨f, -, hrest, -⟩
  · exact ⟨[], hrest⟩
  · exact ⟨_, hrest⟩

theorem agree_fractionOf {first last : List Char} (hfirst : fractionOf (first ++ ['Z']) = some v)
    (hlast : fractionOf (last ++ ['Z']) = some w) : Agree first last v w := by
  have hmark : ('.' : Char) < 'Z' := by decide
  rcases fractionOf_shape hfirst with ⟨hx, rfl⟩ | ⟨f, hf, hx, rfl⟩
  · obtain rfl : first = [] := by simpa using hx
    rcases fractionOf_shape hlast with ⟨hy, rfl⟩ | ⟨g, hg, hy, rfl⟩
    · obtain rfl : last = [] := by simpa using hy
      exact agree_self [] 0
    · obtain rfl := List.append_cancel_right hy
      exact agree_nil_cons hmark (fraction_nonneg g)
  · obtain rfl := List.append_cancel_right hx
    rcases fractionOf_shape hlast with ⟨hy, rfl⟩ | ⟨g, hg, hy, rfl⟩
    · obtain rfl : last = [] := by simpa using hy
      refine agree_cons_nil hmark ?_
      rw [List.forall_mem_cons, zeros_iff hf, ← fraction_eq_zero hf, and_iff_right (by decide)]
      exact ⟨fun h => le_antisymm h (fraction_nonneg f), fun h => h.le⟩
    · obtain rfl := List.append_cancel_right hy
      exact agree_append (agree_fraction hf hg) ['.']

theorem fractionOf_bounds (h : fractionOf rest = some v) : 0 ≤ v ∧ v < 1 := by
  rcases fractionOf_shape h with ⟨-, rfl⟩ | ⟨f, hf, -, rfl⟩
  · norm_num
  · exact ⟨fraction_nonneg f, fraction_lt hf⟩

theorem secondsOf_shape (h : secondsOf rest = some v) :
    (rest = ['Z'] ∧ v = 0) ∨ ∃ a b tail part, (∀ c ∈ [a, b], c.isDigit = true) ∧
      rest = ':' :: a :: b :: tail ++ ['Z'] ∧ fractionOf (tail ++ ['Z']) = some part ∧
      v = number [a, b] + part := by
  unfold secondsOf at h
  split at h
  · exact .inl ⟨rfl, (Option.some.inj h).symm⟩
  next a b tail =>
    obtain ⟨⟨ha, hb, -⟩, hv⟩ := Option.ite_none_right_eq_some.mp h
    obtain ⟨part, hpart, hsum⟩ := Option.map_eq_some_iff.mp hv
    obtain ⟨body, rfl⟩ := ends_of_fractionOf hpart
    exact .inr ⟨a, b, body, part, by simp [ha, hb], rfl, hpart, hsum.symm⟩
  · cases h

theorem secondsOf_lt (h : secondsOf rest = some v) : v < 60 := by
  unfold secondsOf at h
  split at h
  · rw [← Option.some.inj h]
    norm_num
  next a b tail =>
    obtain ⟨⟨-, -, hsixty⟩, hv⟩ := Option.ite_none_right_eq_some.mp h
    obtain ⟨part, hpart, hsum⟩ := Option.map_eq_some_iff.mp hv
    have hnumber : (number [a, b] : ℚ) + 1 ≤ 60 := by exact_mod_cast hsixty
    have hpart := (fractionOf_bounds hpart).2
    linarith
  · cases h

theorem secondsOf_nonneg (h : secondsOf rest = some v) : 0 ≤ v := by
  rcases secondsOf_shape h with ⟨-, rfl⟩ | ⟨a, b, tail, part, -, -, hpart, rfl⟩
  · exact le_rfl
  · exact add_nonneg (Nat.cast_nonneg _) (fractionOf_bounds hpart).1

theorem ends_of_secondsOf (h : secondsOf rest = some v) :
    ∃ body, rest = body ++ ['Z'] := by
  rcases secondsOf_shape h with ⟨hrest, -⟩ | ⟨a, b, tail, part, -, hrest, -, -⟩
  · exact ⟨[], hrest⟩
  · exact ⟨_, hrest⟩

theorem fractionOf_eq_zero {body : List Char} (h : fractionOf (body ++ ['Z']) = some v) :
    v = 0 ↔ ∀ c ∈ body, c = '0' ∨ c = ':' ∨ c = '.' := by
  rcases fractionOf_shape h with ⟨hbody, rfl⟩ | ⟨f, hf, hbody, rfl⟩
  · obtain rfl : body = [] := by simpa using hbody
    simp
  · obtain rfl := List.append_cancel_right hbody
    rw [List.forall_mem_cons, zeros_iff hf, ← fraction_eq_zero hf, and_iff_right (by decide)]

theorem agree_secondsOf {first last : List Char} (hfirst : secondsOf (first ++ ['Z']) = some v)
    (hlast : secondsOf (last ++ ['Z']) = some w) : Agree first last v w := by
  have hmark : (':' : Char) < 'Z' := by decide
  have hv := secondsOf_nonneg hfirst
  have hw := secondsOf_nonneg hlast
  rcases secondsOf_shape hfirst with ⟨hx, rfl⟩ | ⟨a, b, x, part, hab, hx, hpart, rfl⟩
  · obtain rfl : first = [] := by simpa using hx
    rcases secondsOf_shape hlast with ⟨hy, rfl⟩ | ⟨c, d, y, part', hcd, hy, hpart', rfl⟩
    · obtain rfl : last = [] := by simpa using hy
      exact agree_self [] 0
    · obtain rfl := List.append_cancel_right hy
      exact agree_nil_cons hmark hw
  · obtain rfl := List.append_cancel_right hx
    obtain ⟨hlow, hhigh⟩ := fractionOf_bounds hpart
    rcases secondsOf_shape hlast with ⟨hy, rfl⟩ | ⟨c, d, y, part', hcd, hy, hpart', rfl⟩
    · obtain rfl : last = [] := by simpa using hy
      refine agree_cons_nil hmark ?_
      have hnumber : (0 : ℚ) ≤ number [a, b] := Nat.cast_nonneg _
      have hsum : (number [a, b] : ℚ) + part ≤ 0 ↔ number [a, b] = 0 ∧ part = 0 := by
        rw [← Nat.cast_eq_zero (R := ℚ), ← add_eq_zero_iff_of_nonneg hnumber hlow]
        exact ⟨fun h => le_antisymm h hv, fun h => h.le⟩
      rw [hsum, number_eq_zero hab, fractionOf_eq_zero hpart, ← zeros_iff hab,
        ← List.forall_mem_append]
      exact ((and_iff_right (.inr (.inl rfl))).symm.trans List.forall_mem_cons.symm)
    · obtain rfl := List.append_cancel_right hy
      obtain ⟨hlow', hhigh'⟩ := fractionOf_bounds hpart'
      refine agree_append (p := [':']) ?_
      rcases lt_trichotomy [a, b] [c, d] with hlt | heq | hgt
      · have hnumbers : (number [a, b] : ℚ) + 1 ≤ number [c, d] := by
          exact_mod_cast number_lt_number hab hcd rfl hlt
        exact agree_of_lt (p := [a, b]) (q := [c, d]) rfl hlt (by linarith) x y
      · obtain ⟨rfl, htail⟩ := List.cons.inj heq
        obtain ⟨rfl, -⟩ := List.cons.inj htail
        exact agree_append (p := [a, b])
          (agree_congr (agree_fractionOf hpart hpart') (add_le_add_iff_left _))
      · have hnumbers : (number [c, d] : ℚ) + 1 ≤ number [a, b] := by
          exact_mod_cast number_lt_number hcd hab rfl hgt
        exact agree_of_gt (p := [a, b]) (q := [c, d]) rfl hgt (by linarith) x y

end Agree

/-- The body of a text: what stands before the final letter. -/
def body (text : String) : List Char := text.toList.dropLast

theorem shape_of_instantOf {text : String} {v : ℚ} (h : instantOf text = some v) :
    ∃ (t : Minute) (head rest : List Char) (s : ℚ), text.toList = head ++ (rest ++ ['Z']) ∧
      Spells minuteLayout head t.numbers ∧ secondsOf (rest ++ ['Z']) = some s ∧
      v = 60 * t.count + s := by
  obtain ⟨⟨ns, rest⟩, hread, hfound⟩ := Option.bind_eq_some_iff.mp h
  obtain ⟨t, hminute, ht⟩ := Option.bind_eq_some_iff.mp hfound
  obtain ⟨s, hseconds, hs⟩ := Option.bind_eq_some_iff.mp ht
  obtain ⟨head, htext, hspells⟩ := spells_of_read hread
  obtain ⟨rest', rfl⟩ := ends_of_secondsOf hseconds
  have hnumbers : t.numbers = ns := Minute.numbers_of_ofNumbers hminute
  rw [← hnumbers] at hspells
  exact ⟨t, head, rest', s, htext, hspells, hseconds, (Option.some.inj hs).symm⟩

/-- The characters of a text: at most one point, with digits behind it. -/
theorem chars_of_instantOf {text : String} {v : ℚ} (h : instantOf text = some v) :
    ∃ front back, text.toList = front ++ (back ++ ['Z']) ∧
      (∀ c ∈ front, c.isDigit = true ∨ c ∈ ['-', 'T', ':']) ∧
      (back = [] ∨ ∃ f, back = '.' :: f ∧ ∀ c ∈ f, c.isDigit = true) := by
  obtain ⟨t, head, rest, s, htext, hspells, hseconds, -⟩ := shape_of_instantOf h
  have hhead : ∀ c ∈ head, c.isDigit = true ∨ c ∈ ['-', 'T', ':'] :=
    hspells.forall_mem (fun c hc => .inl hc) (by simp [minuteLayout])
  rcases secondsOf_shape hseconds with ⟨hrest, -⟩ | ⟨a, b, tail, part, hab, hrest, hpart, -⟩
  · obtain rfl : rest = [] := by simpa using hrest
    exact ⟨head, [], htext, hhead, .inl rfl⟩
  · obtain rfl := List.append_cancel_right hrest
    have hfront : ∀ c ∈ head ++ [':', a, b], c.isDigit = true ∨ c ∈ ['-', 'T', ':'] := by
      rw [List.forall_mem_append, List.forall_mem_cons]
      exact ⟨hhead, .inr (by decide), fun c hc => .inl (hab c hc)⟩
    rcases fractionOf_shape hpart with ⟨htail, -⟩ | ⟨f, hf, htail, -⟩
    · obtain rfl : tail = [] := by simpa using htail
      exact ⟨head ++ [':', a, b], [], by rw [htext]; simp, hfront, .inl rfl⟩
    · obtain rfl := List.append_cancel_right htail
      exact ⟨head ++ [':', a, b], '.' :: f, by rw [htext]; simp, hfront, .inr ⟨f, rfl, hf⟩⟩

/-- **Two texts are ordered as their instants just where they are comparable.** -/
theorem le_iff_instant {first last : String} {v w : ℚ} (hfirst : instantOf first = some v)
    (hlast : instantOf last = some w) :
    (first ≤ last ↔ v ≤ w) ↔ Comparable (body first) (body last) := by
  obtain ⟨s, p, x, a, hx, hp, ha, rfl⟩ := shape_of_instantOf hfirst
  obtain ⟨t, q, y, b, hy, hq, hb, rfl⟩ := shape_of_instantOf hlast
  have halow := secondsOf_nonneg ha
  have hahigh := secondsOf_lt ha
  have hblow := secondsOf_nonneg hb
  have hbhigh := secondsOf_lt hb
  have hagree : Agree (p ++ x) (q ++ y) (60 * s.count + a) (60 * t.count + b) := by
    rcases lt_trichotomy p q with hlt | rfl | hgt
    · have hcount : (s.count : ℚ) + 1 ≤ t.count := by
        exact_mod_cast Minute.count_lt (hp.lt_of_lt hq hlt)
      exact agree_of_lt (hp.length_eq hq) hlt (by linarith) x y
    · rw [Minute.eq_of_numbers (hp.unique hq)]
      exact agree_append (agree_congr (agree_secondsOf ha hb) (add_le_add_iff_left _)) p
    · have hcount : (t.count : ℚ) + 1 ≤ s.count := by
        exact_mod_cast Minute.count_lt (hq.lt_of_lt hp hgt)
      exact agree_of_gt (hp.length_eq hq) hgt (by linarith) x y
  rw [← List.append_assoc] at hx hy
  have hfirst : body first = p ++ x := by
    unfold body
    rw [hx, List.dropLast_concat]
  have hlast : body last = q ++ y := by
    unfold body
    rw [hy, List.dropLast_concat]
  rw [hfirst, hlast, String.le_iff_toList_le, hx, hy]
  exact hagree

end AegisShield.Common.DateTime
