import Mathlib

/-!
# Numbers as texts

What programs rely on of `String(n)` and of `JSON.stringify(n)`, for finite numbers.

Results:
* `PrintsNumbers.plainNumber`: a readable function with these properties.
-/

namespace AegisShield.Common

/-- Different numbers have different texts, of digits, signs, a point and an exponent. -/
structure PrintsNumbers (text : ℚ → String) : Prop where
  inj : ∀ m n, text m = text n → m = n
  nonempty : ∀ n, (text n).toList ≠ []
  chars : ∀ n, ∀ c ∈ (text n).toList, c.isDigit = true ∨ c ∈ ['-', '+', '.', 'e']

/-- A stand-in for concrete runs: integers as usual, other numbers with a mark for their
    denominator. -/
def plainNumber (q : ℚ) : String := toString q.num ++ String.ofList (List.replicate (q.den - 1) 'e')

theorem toList_repr_digits (n : ℕ) : ∀ c ∈ n.repr.toList, c.isDigit = true := by
  intro c hc
  rw [← Nat.toString_eq_repr, Nat.toString_eq_ofList_toDigits, String.toList_ofList] at hc
  exact Nat.isDigit_of_mem_toDigits (by decide) (by decide) hc

theorem toList_repr_ne_nil (n : ℕ) : n.repr.toList ≠ [] := by
  rw [← Nat.toString_eq_repr, Nat.toString_eq_ofList_toDigits, String.toList_ofList]
  exact Nat.toDigits_ne_nil

/-- The text of an integer: digits, with a sign in front of a negative one. -/
theorem toList_int (z : ℤ) : (0 ≤ z ∧ (toString z).toList = z.toNat.repr.toList) ∨
    (z < 0 ∧ (toString z).toList = '-' :: (-z).toNat.repr.toList) := by
  cases z with
  | ofNat n => exact .inl ⟨Int.natCast_nonneg n, rfl⟩
  | negSucc n =>
    refine .inr ⟨Int.negSucc_lt_zero n, ?_⟩
    show ("-" ++ n.succ.repr).toList = _
    rw [String.toList_append]
    rfl

theorem int_chars (z : ℤ) : ∀ c ∈ (toString z).toList, c.isDigit = true ∨ c = '-' := by
  intro c hc
  rcases toList_int z with ⟨-, htext⟩ | ⟨-, htext⟩
  · rw [htext] at hc
    exact .inl (toList_repr_digits _ c hc)
  · rw [htext] at hc
    rcases List.mem_cons.mp hc with rfl | hc
    · exact .inr rfl
    · exact .inl (toList_repr_digits _ c hc)

theorem int_inj {z w : ℤ} (h : (toString z).toList = (toString w).toList) : z = w := by
  have hsign : ∀ (n : ℕ) (cs : List Char), n.repr.toList ≠ '-' :: cs := by
    intro n cs hn
    exact absurd (toList_repr_digits n '-' (by rw [hn]; simp)) (by decide)
  have hrepr : ∀ m n : ℕ, m.repr.toList = n.repr.toList → m = n := fun m n hmn =>
    Nat.repr_inj.mp (String.toList_injective hmn)
  rcases toList_int z with ⟨hz, hzt⟩ | ⟨hz, hzt⟩
  · rcases toList_int w with ⟨hw, hwt⟩ | ⟨hw, hwt⟩
    · rw [hzt, hwt] at h
      have hnat := hrepr _ _ h
      omega
    · rw [hzt, hwt] at h
      exact absurd h (hsign _ _)
  · rcases toList_int w with ⟨hw, hwt⟩ | ⟨hw, hwt⟩
    · rw [hzt, hwt] at h
      exact absurd h.symm (hsign _ _)
    · rw [hzt, hwt] at h
      have hnat := hrepr _ _ (List.cons.inj h).2
      omega

theorem PrintsNumbers.plainNumber : PrintsNumbers plainNumber where
  inj := by
    intro m n h
    have htext : ∀ q : ℚ, (Common.plainNumber q).toList =
        (toString q.num).toList ++ List.replicate (q.den - 1) 'e' := by
      intro q
      unfold Common.plainNumber
      rw [String.toList_append, String.toList_ofList]
    have hfront : ∀ q : ℚ, (Common.plainNumber q).toList.takeWhile (· ≠ 'e') =
        (toString q.num).toList := by
      intro q
      rw [htext, List.takeWhile_append_of_pos, List.takeWhile_replicate, if_neg (by simp),
        List.append_nil]
      intro c hc
      refine decide_eq_true ?_
      rintro rfl
      rcases int_chars _ _ hc with hc | hc
      · exact absurd hc (by decide)
      · exact absurd hc (by decide)
    have hnum : m.num = n.num := int_inj (by rw [← hfront m, h, hfront n])
    have hlength := congrArg List.length (String.toList_inj.mpr h)
    rw [htext, htext, hnum, List.length_append, List.length_append, List.length_replicate,
      List.length_replicate] at hlength
    have hm := m.pos
    have hn := n.pos
    exact Rat.ext hnum (by omega)
  nonempty := by
    intro n h
    unfold Common.plainNumber at h
    rw [String.toList_append, List.append_eq_nil_iff] at h
    rcases toList_int n.num with ⟨-, htext⟩ | ⟨-, htext⟩
    · rw [htext] at h
      exact toList_repr_ne_nil _ h.1
    · rw [htext] at h
      cases h.1
  chars := by
    intro n c hc
    unfold Common.plainNumber at hc
    rw [String.toList_append, String.toList_ofList, List.mem_append] at hc
    rcases hc with hc | hc
    · rcases int_chars _ _ hc with hc | rfl
      · exact .inl hc
      · exact .inr (by decide)
    · rw [List.eq_of_mem_replicate hc]
      exact .inr (by decide)

end AegisShield.Common
