import Mathlib

/-!
# JSON values and strict object schemas

The values that `JSON.parse` produces and that `JSON.stringify` reads, and the
schema checks that programs make on them: object members looked up by name, no
member outside a given list, strings bounded by their length in UTF-16 code units.
-/

namespace AegisShield.Common

/-- A JavaScript value as JSON sees it; `undefined` occurs only in values that
    were not parsed. The names of the members of an object are distinct. -/
inductive Json where
  | undefined
  | null
  | bool (b : Bool)
  | number (q : ℚ)
  | string (s : String)
  | array (items : List Json)
  | object (members : List (String × Json))

/-- `s.length` in JavaScript: the number of UTF-16 code units. -/
def utf16Length (s : String) : ℕ :=
  (s.toList.map fun c => if c.toNat < 0x10000 then 1 else 2).sum

namespace Json

variable (members : List (String × Json)) (name : String)

/-- The member of an object with a name, `none` when it is absent or `undefined`. -/
def member : Option Json :=
  match members.lookup name with
  | none | some .undefined => none
  | some value => some value

/-- A member that must be a number. -/
def numberMember : Option ℚ :=
  match member members name with
  | some (.number q) => some q
  | _ => none

/-- A member that must be a string. -/
def stringMember : Option String :=
  match member members name with
  | some (.string s) => some s
  | _ => none

/-- A member that must be absent or a string. -/
def optionalMember : Option (Option String) :=
  match member members name with
  | none => some none
  | some (.string s) => some (some s)
  | some _ => none

/-- The members of an object all of whose names are allowed. -/
def strictObject (names : List String) : Json → Option (List (String × Json))
  | .object members => if members.all fun m => names.contains m.1 then some members else none
  | _ => none

/-- A string of `lo` to `hi` UTF-16 code units that satisfies `p`. -/
def boundedString (lo hi : ℕ) (p : String → Bool) : Json → Option String
  | .string s => if lo ≤ utf16Length s ∧ utf16Length s ≤ hi ∧ p s = true then some s else none
  | _ => none

/-- A non-negative integer. -/
def natural : Json → Option ℕ
  | .number q => if q.den = 1 ∧ 0 ≤ q.num then some q.num.toNat else none
  | _ => none

/-- The largest integer that a JavaScript number represents together with its predecessors. -/
def maxSafeInteger : ℕ := 9007199254740991

/-- A non-negative safe integer. -/
def safeNatural (value : Json) : Option ℕ :=
  (natural value).filter fun n => decide (n ≤ maxSafeInteger)

theorem boundedString_eq_some {lo hi : ℕ} {p : String → Bool} {value : Json} {s : String} :
    boundedString lo hi p value = some s ↔
      value = .string s ∧ lo ≤ utf16Length s ∧ utf16Length s ≤ hi ∧ p s = true := by
  unfold boundedString
  split
  next s' =>
    rw [Option.ite_none_right_eq_some, Option.some.injEq, Json.string.injEq]
    constructor
    · rintro ⟨h, rfl⟩
      exact ⟨rfl, h⟩
    · rintro ⟨rfl, h⟩
      exact ⟨h, rfl⟩
  next hvalue =>
    constructor
    · intro h
      cases h
    · rintro ⟨rfl, -⟩
      exact absurd rfl (hvalue s)

theorem safeNatural_le {value : Json} {n : ℕ} (h : safeNatural value = some n) :
    n ≤ maxSafeInteger :=
  of_decide_eq_true (Option.filter_eq_some_iff.mp h).2

/-- A natural number passes if and only if it is safe. -/
theorem safeNatural_natCast {m n : ℕ} :
    safeNatural (.number m) = some n ↔ n = m ∧ m ≤ maxSafeInteger := by
  have hnatural : natural (.number m) = some m := by
    unfold natural
    simp
  unfold safeNatural
  rw [hnatural, Option.filter_some, Option.ite_none_right_eq_some, Option.some.injEq,
    decide_eq_true_iff]
  constructor
  · rintro ⟨h, rfl⟩
    exact ⟨rfl, h⟩
  · rintro ⟨rfl, h⟩
    exact ⟨h, rfl⟩

end Json

end AegisShield.Common
