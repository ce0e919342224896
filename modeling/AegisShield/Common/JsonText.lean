import Mathlib

/-!
# JSON text

`JSON.stringify` and `JSON.parse` on values without `undefined`. A JavaScript
string is the list of its UTF-16 code units, so that it may hold a surrogate
without its other half, which `JSON.stringify` escapes. A text is a list of
characters.

The decimal text of a natural number below `2^53` is its digits; the texts of the
other doubles are a parameter.

* `parse_stringify`: reading what was written gives the value back, for every
  indentation and after any white space at the end, when the numbers of the value
  are safe natural numbers and the names of each object are distinct.
-/

namespace AegisShield.Common

/-! ## Strings -/

/-- A JavaScript string: its UTF-16 code units. -/
abbrev JsString := List UInt16

instance lawfulBEqJsString : LawfulBEq JsString := inferInstance

/-- The code units of one character. -/
def units (c : Char) : JsString :=
  if c.toNat < 0x10000 then [UInt16.ofNat c.toNat]
  else [UInt16.ofNat (0xD800 + (c.toNat - 0x10000) / 0x400),
    UInt16.ofNat (0xDC00 + (c.toNat - 0x10000) % 0x400)]

/-- The JavaScript string of a text. -/
def jsString (text : String) : JsString := text.toList.flatMap units

/-- The first half of a surrogate pair. -/
def isHigh (u : UInt16) : Bool := decide (0xD800 ≤ u.toNat ∧ u.toNat < 0xDC00)

/-- The second half of a surrogate pair. -/
def isLow (u : UInt16) : Bool := decide (0xDC00 ≤ u.toNat ∧ u.toNat < 0xE000)

/-- The character of a surrogate pair. -/
def pairChar (high low : UInt16) : Char :=
  Char.ofNat (0x10000 + (high.toNat - 0xD800) * 0x400 + (low.toNat - 0xDC00))

/-- A character whose code is a code unit. -/
def unitChar (u : UInt16) : Char := Char.ofNat u.toNat

namespace JsonText

/-! ## Values -/

/-- A value as `JSON.parse` returns it. `infinite` is a number beyond the range of doubles. -/
inductive JsonValue where
  | null
  | bool (b : Bool)
  | number (q : ℚ)
  | infinite
  | string (s : JsString)
  | array (items : List JsonValue)
  | object (members : List (JsString × JsonValue))

/-- The decimal texts of doubles other than the natural numbers below `2^53`. -/
structure NumberText where
  print : ℚ → List Char
  /-- The double nearest to a decimal literal, `none` when that is infinite. -/
  read : List Char → Option ℚ

/-- `Number.MAX_SAFE_INTEGER`. -/
def maxSafe : ℕ := 9007199254740991

section
variable (N : NumberText)

/-! ## Writing -/

/-- The text of a number. -/
def numberText (q : ℚ) : List Char :=
  if q.den = 1 ∧ 0 ≤ q.num ∧ q.num.toNat ≤ maxSafe then Nat.toDigits 10 q.num.toNat
  else N.print q

/-- `\u` and four hexadecimal digits. -/
def unicodeEscape (u : UInt16) : List Char :=
  ['\\', 'u', Nat.digitChar (u.toNat / 4096), Nat.digitChar (u.toNat / 256 % 16),
    Nat.digitChar (u.toNat / 16 % 16), Nat.digitChar (u.toNat % 16)]

/-- `QuoteJSONString` on a code unit that is not part of a pair. -/
def quoteUnit (u : UInt16) : List Char :=
  if u = 8 then ['\\', 'b']
  else if u = 9 then ['\\', 't']
  else if u = 10 then ['\\', 'n']
  else if u = 12 then ['\\', 'f']
  else if u = 13 then ['\\', 'r']
  else if u = 34 then ['\\', '"']
  else if u = 92 then ['\\', '\\']
  else if u.toNat < 32 ∨ isHigh u ∨ isLow u then unicodeEscape u
  else [unitChar u]

/-- The text between the quotes. -/
def quoteUnits : JsString → List Char
  | [] => []
  | [u] => quoteUnit u
  | u :: v :: rest =>
    if isHigh u && isLow v then pairChar u v :: quoteUnits rest
    else quoteUnit u ++ quoteUnits (v :: rest)

/-- A string literal. -/
def quote (s : JsString) : List Char := '"' :: (quoteUnits s ++ ['"'])

/-- What separates the items of a list: nothing, or a line break and the indentation of a level. -/
def newline (gap : List Char) (level : ℕ) : List Char :=
  if gap = [] then [] else '\n' :: (List.replicate level gap).flatten

/-- What stands between the name and the value of a member. -/
def colon (gap : List Char) : List Char := if gap = [] then [':'] else [':', ' ']

mutual

/-- `JSON.stringify(value, null, gap)` at a level of indentation. -/
def print (gap : List Char) (level : ℕ) : JsonValue → List Char
  | .null => ['n', 'u', 'l', 'l']
  | .bool true => ['t', 'r', 'u', 'e']
  | .bool false => ['f', 'a', 'l', 's', 'e']
  | .number q => numberText N q
  | .infinite => ['n', 'u', 'l', 'l']
  | .string s => quote s
  | .array [] => ['[', ']']
  | .array (item :: items) =>
    '[' :: (newline gap (level + 1) ++ print gap (level + 1) item ++ printItems gap level items)
  | .object [] => ['{', '}']
  | .object ((name, value) :: members) =>
    '{' :: (newline gap (level + 1) ++ (quote name ++ colon gap ++ print gap (level + 1) value) ++
      printMembers gap level members)

/-- The items after the first and the closing bracket. -/
def printItems (gap : List Char) (level : ℕ) : List JsonValue → List Char
  | [] => newline gap level ++ [']']
  | item :: items =>
    ',' :: (newline gap (level + 1) ++ print gap (level + 1) item ++ printItems gap level items)

/-- The members after the first and the closing brace. -/
def printMembers (gap : List Char) (level : ℕ) : List (JsString × JsonValue) → List Char
  | [] => newline gap level ++ ['}']
  | (name, value) :: members =>
    ',' :: (newline gap (level + 1) ++ (quote name ++ colon gap ++ print gap (level + 1) value) ++
      printMembers gap level members)

end

/-- `JSON.stringify(value, null, gap)`. -/
def stringify (gap : List Char) (value : JsonValue) : List Char := print N gap 0 value

/-! ## Reading -/

/-- White space between tokens. -/
def isBlank (c : Char) : Bool := c = ' ' || c = '\n' || c = '\r' || c = '\t'

/-- Skips white space. -/
def skip (cs : List Char) : List Char := cs.dropWhile isBlank

/-- The value of a hexadecimal digit. -/
def hexValue (c : Char) : Option ℕ :=
  if '0' ≤ c ∧ c ≤ '9' then some (c.toNat - 48)
  else if 'a' ≤ c ∧ c ≤ 'f' then some (c.toNat - 87)
  else if 'A' ≤ c ∧ c ≤ 'F' then some (c.toNat - 55)
  else none

/-- The code unit that four hexadecimal digits name. -/
def fourDigits (a b c d : Char) : Option UInt16 := do
  let a ← hexValue a
  let b ← hexValue b
  let c ← hexValue c
  let d ← hexValue d
  return UInt16.ofNat (((a * 16 + b) * 16 + c) * 16 + d)

/-- The code unit that an escape of one letter names. -/
def escaped (c : Char) : Option UInt16 :=
  if c = '"' then some 34
  else if c = '\\' then some 92
  else if c = '/' then some 47
  else if c = 'b' then some 8
  else if c = 'f' then some 12
  else if c = 'n' then some 10
  else if c = 'r' then some 13
  else if c = 't' then some 9
  else none

/-- Puts code units before a string that was read. -/
def prepend (us : JsString) (read : JsString × List Char) : JsString × List Char :=
  (us ++ read.1, read.2)

/-- The rest of a string literal and what follows it. -/
def readUnits : List Char → Option (JsString × List Char)
  | [] => none
  | '"' :: rest => some ([], rest)
  | '\\' :: 'u' :: a :: b :: c :: d :: rest =>
    (fourDigits a b c d).bind fun u => (readUnits rest).map (prepend [u])
  | '\\' :: c :: rest => (escaped c).bind fun u => (readUnits rest).map (prepend [u])
  | c :: rest => if c.toNat < 32 ∨ c = '\\' then none else (readUnits rest).map (prepend (units c))

/-- A character that a number may contain. -/
def isNumberChar (c : Char) : Bool :=
  c.isDigit || c = '-' || c = '+' || c = '.' || c = 'e' || c = 'E'

/-- One digit or more, then `next`. -/
def someDigits (next : List Char → Bool) : List Char → Bool
  | [] => false
  | c :: cs => c.isDigit && next (cs.dropWhile Char.isDigit)

/-- The exponent of a number, if there is one. -/
def exponentPart : List Char → Bool
  | [] => true
  | c :: cs => (c = 'e' || c = 'E') &&
    (someDigits List.isEmpty cs ||
      (cs.head? = some '+' || cs.head? = some '-') && someDigits List.isEmpty cs.tail)

/-- The fraction of a number, if there is one, and what follows it. -/
def fractionPart : List Char → Bool
  | '.' :: cs => someDigits exponentPart cs
  | cs => exponentPart cs

/-- The integer part of a number and what follows it. -/
def integerPart : List Char → Bool
  | '0' :: cs => fractionPart cs
  | cs => someDigits fractionPart cs

/-- A number of the JSON grammar. -/
def isNumber : List Char → Bool
  | '-' :: cs => integerPart cs
  | cs => integerPart cs

/-- The number that its text denotes. -/
def numberOf (token : List Char) : JsonValue :=
  if token.all Char.isDigit ∧ (Nat.ofDigitChars 10 token 0) ≤ maxSafe then
    .number (Nat.ofDigitChars 10 token 0)
  else
    match N.read token with
    | some q => .number q
    | none => .infinite

/-- A number and what follows it. -/
def readNumber (cs : List Char) : Option (JsonValue × List Char) :=
  if isNumber (cs.takeWhile isNumberChar) then
    some (numberOf N (cs.takeWhile isNumberChar), cs.dropWhile isNumberChar)
  else none

/-- The members of an object after one more was read before them: a later value
    of the same name replaces the value, not the place. -/
def addMember (name : JsString) (value : JsonValue) (members : List (JsString × JsonValue)) :
    List (JsString × JsonValue) :=
  match members.lookup name with
  | some later => (name, later) :: members.filter fun m => decide (m.1 ≠ name)
  | none => (name, value) :: members

mutual

/-- A value and what follows it. -/
def readValue : ℕ → List Char → Option (JsonValue × List Char)
  | 0, _ => none
  | fuel + 1, cs =>
    match skip cs with
    | 'n' :: 'u' :: 'l' :: 'l' :: rest => some (.null, rest)
    | 't' :: 'r' :: 'u' :: 'e' :: rest => some (.bool true, rest)
    | 'f' :: 'a' :: 'l' :: 's' :: 'e' :: rest => some (.bool false, rest)
    | '"' :: rest => (readUnits rest).map fun r => (.string r.1, r.2)
    | '[' :: rest =>
      match skip rest with
      | ']' :: rest => some (.array [], rest)
      | rest => (readItems fuel rest).map fun r => (.array r.1, r.2)
    | '{' :: rest =>
      match skip rest with
      | '}' :: rest => some (.object [], rest)
      | rest => (readMembers fuel rest).map fun r => (.object r.1, r.2)
    | rest => readNumber N rest

/-- The items of an array and what follows its closing bracket. -/
def readItems : ℕ → List Char → Option (List JsonValue × List Char)
  | 0, _ => none
  | fuel + 1, cs => do
    let (value, cs) ← readValue fuel cs
    match skip cs with
    | ',' :: cs => (readItems fuel cs).map fun r => (value :: r.1, r.2)
    | ']' :: cs => some ([value], cs)
    | _ => none

/-- The members of an object and what follows its closing brace. -/
def readMembers : ℕ → List Char → Option (List (JsString × JsonValue) × List Char)
  | 0, _ => none
  | fuel + 1, cs =>
    match skip cs with
    | '"' :: cs => do
      let (name, cs) ← readUnits cs
      match skip cs with
      | ':' :: cs =>
        let (value, cs) ← readValue fuel cs
        match skip cs with
        | ',' :: cs => (readMembers fuel cs).map fun r => (addMember name value r.1, r.2)
        | '}' :: cs => some ([(name, value)], cs)
        | _ => none
      | _ => none
    | _ => none

end

/-- `JSON.parse`, `none` when it throws. Every recursive call has read a character or
    goes from a value to its items, so the fuel does not run out. -/
def parse (text : List Char) : Option JsonValue :=
  match readValue N (2 * text.length + 2) text with
  | some (value, rest) => if skip rest = [] then some value else none
  | none => none

end

/-! ## Strings are read back -/

theorem toNat_unitChar {u : UInt16} (hhigh : isHigh u = false) (hlow : isLow u = false) :
    (unitChar u).toNat = u.toNat := by
  have hlt : u.toNat < 65536 := u.toNat_lt
  rw [isHigh, decide_eq_false_iff_not] at hhigh
  rw [isLow, decide_eq_false_iff_not] at hlow
  have hvalid : u.toNat.isValidChar := by
    show u.toNat < 0xD800 ∨ 0xDFFF < u.toNat ∧ u.toNat < 0x110000
    omega
  rw [unitChar, Char.ofNat, dif_pos hvalid]
  exact Char.toNat_ofNatAux hvalid

theorem units_unitChar {u : UInt16} (hhigh : isHigh u = false) (hlow : isLow u = false) :
    units (unitChar u) = [u] := by
  have hlt : u.toNat < 65536 := u.toNat_lt
  rw [units, toNat_unitChar hhigh hlow, if_pos (by omega), UInt16.ofNat_toNat]

variable {high low : UInt16} {c : Char}

theorem toNat_pairChar (hhigh : isHigh high = true) (hlow : isLow low = true) :
    (pairChar high low).toNat =
      0x10000 + (high.toNat - 0xD800) * 0x400 + (low.toNat - 0xDC00) := by
  rw [isHigh, decide_eq_true_iff] at hhigh
  rw [isLow, decide_eq_true_iff] at hlow
  have hvalid : (0x10000 + (high.toNat - 0xD800) * 0x400 + (low.toNat - 0xDC00)).isValidChar := by
    show _ < 0xD800 ∨ 0xDFFF < _ ∧ _ < 0x110000
    omega
  rw [pairChar, Char.ofNat, dif_pos hvalid]
  exact Char.toNat_ofNatAux hvalid

theorem units_pairChar (hhigh : isHigh high = true) (hlow : isLow low = true) :
    units (pairChar high low) = [high, low] := by
  rw [units, toNat_pairChar hhigh hlow]
  rw [isHigh, decide_eq_true_iff] at hhigh
  rw [isLow, decide_eq_true_iff] at hlow
  have hhighlt : high.toNat < 65536 := high.toNat_lt
  have hlowlt : low.toNat < 65536 := low.toNat_lt
  have hfirst : UInt16.ofNat (0xD800 + (0x10000 + (high.toNat - 0xD800) * 0x400 +
      (low.toNat - 0xDC00) - 0x10000) / 0x400) = high := by
    apply UInt16.toNat_inj.mp
    rw [UInt16.toNat_ofNat', Nat.mod_eq_of_lt (by omega)]
    omega
  have hsecond : UInt16.ofNat (0xDC00 + (0x10000 + (high.toNat - 0xD800) * 0x400 +
      (low.toNat - 0xDC00) - 0x10000) % 0x400) = low := by
    apply UInt16.toNat_inj.mp
    rw [UInt16.toNat_ofNat', Nat.mod_eq_of_lt (by omega)]
    omega
  rw [if_neg (by omega), hfirst, hsecond]

theorem hexValue_digitChar : ∀ n < 16, hexValue (Nat.digitChar n) = some n := by decide

theorem fourDigits_digitChar (u : UInt16) :
    fourDigits (Nat.digitChar (u.toNat / 4096)) (Nat.digitChar (u.toNat / 256 % 16))
      (Nat.digitChar (u.toNat / 16 % 16)) (Nat.digitChar (u.toNat % 16)) = some u := by
  have hlt : u.toNat < 65536 := u.toNat_lt
  rw [fourDigits, hexValue_digitChar _ (by omega), hexValue_digitChar _ (by omega),
    hexValue_digitChar _ (by omega), hexValue_digitChar _ (by omega)]
  show some (UInt16.ofNat _) = some u
  rw [show (((u.toNat / 4096) * 16 + u.toNat / 256 % 16) * 16 + u.toNat / 16 % 16) * 16 +
    u.toNat % 16 = u.toNat by omega, UInt16.ofNat_toNat]

/-- A character that needs no escape stands for its code units. -/
theorem readUnits_plain (hquote : c ≠ '"') (hescape : c ≠ '\\') (hlow : 32 ≤ c.toNat)
    (rest : List Char) :
    readUnits (c :: rest) = (readUnits rest).map (prepend (units c)) := by
  rw [readUnits.eq_5]
  · rw [if_neg]
    rintro (h | h)
    · omega
    · exact hescape h
  · exact fun h => hquote h
  · rintro a b c d rest h
    exact absurd h hescape
  · rintro c' rest' h
    exact absurd h hescape

theorem readUnits_quoteUnit (u : UInt16) (rest : List Char) :
    readUnits (quoteUnit u ++ rest) = (readUnits rest).map (prepend [u]) := by
  unfold quoteUnit
  split_ifs with h8 h9 h10 h12 h13 h34 h92 hescape
  · rw [h8]; rfl
  · rw [h9]; rfl
  · rw [h10]; rfl
  · rw [h12]; rfl
  · rw [h13]; rfl
  · rw [h34]; rfl
  · rw [h92]; rfl
  · show (fourDigits _ _ _ _).bind _ = _
    rw [fourDigits_digitChar]
    rfl
  · rw [not_or, not_or, Bool.not_eq_true, Bool.not_eq_true] at hescape
    obtain ⟨hlow, hhigh, hlowHalf⟩ := hescape
    have hcode := toNat_unitChar hhigh hlowHalf
    have hne : ∀ c : Char, UInt16.ofNat c.toNat ≠ u → unitChar u ≠ c := by
      rintro c hc rfl
      rw [hcode, UInt16.ofNat_toNat] at hc
      exact hc rfl
    rw [List.singleton_append, readUnits_plain (hne _ (Ne.symm h34)) (hne _ (Ne.symm h92))
      (by omega), units_unitChar hhigh hlowHalf]

theorem readUnits_pairChar (hhigh : isHigh high = true)
    (hlow : isLow low = true) (rest : List Char) :
    readUnits (pairChar high low :: rest) = (readUnits rest).map (prepend [high, low]) := by
  have hcode := toNat_pairChar hhigh hlow
  have hne : ∀ c : Char, c.toNat < 0x10000 → pairChar high low ≠ c := by
    rintro c hc rfl
    omega
  rw [readUnits_plain (hne _ (by decide)) (hne _ (by decide)) (by omega),
    units_pairChar hhigh hlow]

/-- A string literal is read back. -/
theorem readUnits_quoteUnits (s : JsString) (rest : List Char) :
    readUnits (quoteUnits s ++ '"' :: rest) = some (s, rest) := by
  fun_induction quoteUnits s with
  | case1 => rfl
  | case2 u =>
    rw [readUnits_quoteUnit]
    rfl
  | case3 u v rest' hpair ih =>
    rw [Bool.and_eq_true] at hpair
    rw [List.cons_append, readUnits_pairChar hpair.1 hpair.2, ih]
    rfl
  | case4 u v rest' hpair ih =>
    rw [List.append_assoc, readUnits_quoteUnit, ih]
    rfl

/-! ## Numbers are read back -/

/-- The character after a value: not one that would go on a number. -/
def Stops (rest : List Char) : Prop := ∀ c ∈ rest.head?, isNumberChar c = false

theorem isNumberChar_of_isDigit (h : c.isDigit = true) : isNumberChar c = true := by
  simp [isNumberChar, h]

theorem isDigit_of_mem_toDigits {n : ℕ} (h : c ∈ Nat.toDigits 10 n) :
    c.isDigit = true :=
  Nat.isDigit_of_mem_toDigits (by decide) (by decide) h

theorem takeWhile_append_of_stops {p : Char → Bool} {cs rest : List Char}
    (hcs : ∀ c ∈ cs, p c = true) (hrest : ∀ c ∈ rest.head?, p c = false) :
    (cs ++ rest).takeWhile p = cs ∧ (cs ++ rest).dropWhile p = rest := by
  rw [List.takeWhile_append_of_pos hcs, List.dropWhile_append_of_pos hcs]
  rcases rest with _ | ⟨c, rest⟩
  · simp
  · have hc := hrest c rfl
    simp [hc]

theorem head_toDigits {n : ℕ} (hn : 0 < n) : (Nat.toDigits 10 n).head? ≠ some '0' := by
  induction n using Nat.base_induction 10 (by decide) with
  | single m hm =>
    rw [Nat.toDigits_of_lt_base hm]
    interval_cases m <;> decide
  | digit m k hk hm ih =>
    rw [← Nat.toDigits_append_toDigits (by decide) hm hk,
      List.head?_append_of_ne_nil _ Nat.toDigits_ne_nil]
    exact ih hm

/-- The digits of a natural number are a number of the grammar. -/
theorem isNumber_toDigits (n : ℕ) : isNumber (Nat.toDigits 10 n) = true := by
  rcases Nat.eq_zero_or_pos n with rfl | hn
  · decide
  · have hdigit : ∀ c ∈ Nat.toDigits 10 n, c.isDigit = true := fun c => isDigit_of_mem_toDigits
    have hhead := head_toDigits hn
    have hne : Nat.toDigits 10 n ≠ [] := Nat.toDigits_ne_nil
    rcases hdigits : Nat.toDigits 10 n with _ | ⟨c, cs⟩
    · exact absurd hdigits hne
    · rw [hdigits] at hdigit hhead
      have hc := hdigit c List.mem_cons_self
      have hcs : cs.dropWhile Char.isDigit = [] :=
        List.dropWhile_eq_nil_iff.mpr fun d hd => hdigit d (List.mem_cons_of_mem _ hd)
      rw [isNumber.eq_2, integerPart.eq_2, someDigits, hc, hcs]
      · rfl
      · rintro cs' h
        cases h
        exact hhead rfl
      · rintro cs' h
        cases h
        exact absurd hc (by decide)

section
variable {N : NumberText}

theorem numberText_natCast {n : ℕ} (hn : n ≤ maxSafe) :
    numberText N n = Nat.toDigits 10 n := by
  rw [numberText, if_pos]
  · rw [Rat.num_natCast, Int.toNat_natCast]
  · refine ⟨Rat.den_natCast n, ?_, ?_⟩
    · rw [Rat.num_natCast]
      exact Int.natCast_nonneg n
    · rw [Rat.num_natCast, Int.toNat_natCast]
      exact hn

theorem readNumber_toDigits {n : ℕ} (hn : n ≤ maxSafe) {rest : List Char} (hrest : Stops rest) :
    readNumber N (Nat.toDigits 10 n ++ rest) = some (.number n, rest) := by
  have hdigits : ∀ c ∈ Nat.toDigits 10 n, c.isDigit = true := fun c => isDigit_of_mem_toDigits
  obtain ⟨htake, hdrop⟩ := takeWhile_append_of_stops
    (fun c hc => isNumberChar_of_isDigit (hdigits c hc)) hrest
  have hall : (Nat.toDigits 10 n).all Char.isDigit = true := List.all_eq_true.mpr hdigits
  rw [readNumber, htake, hdrop, isNumber_toDigits, if_pos rfl, numberOf,
    Nat.ofDigitChars_ten_toDigits, if_pos ⟨hall, hn⟩]

/-! ## Values are read back -/

/-- A value that its text determines: safe natural numbers, distinct names. -/
inductive Plain : JsonValue → Prop
  | null : Plain .null
  | bool (b : Bool) : Plain (.bool b)
  | number {n} (h : n ≤ maxSafe) : Plain (.number n)
  | string (s : JsString) : Plain (.string s)
  | array {items} (h : ∀ item ∈ items, Plain item) : Plain (.array items)
  | object {members} (hnames : (members.map Prod.fst).Nodup)
      (h : ∀ m ∈ members, Plain m.2) : Plain (.object members)

variable {blank : List Char} {c : Char}

theorem skip_append {cs : List Char} (h : ∀ c ∈ blank, isBlank c = true) :
    skip (blank ++ cs) = skip cs :=
  List.dropWhile_append_of_pos h

theorem skip_cons {cs : List Char} (h : isBlank c = false) :
    skip (c :: cs) = c :: cs := by
  rw [skip, List.dropWhile_cons_of_neg (by rw [h]; decide)]

theorem readValue_append {cs : List Char} (h : ∀ c ∈ blank, isBlank c = true) (fuel : ℕ) :
    readValue N fuel (blank ++ cs) = readValue N fuel cs := by
  rcases fuel with _ | fuel
  · rw [readValue, readValue]
  · rw [readValue, readValue, skip_append h]

theorem readMembers_append {cs : List Char} (h : ∀ c ∈ blank, isBlank c = true)
    (fuel : ℕ) : readMembers N fuel (blank ++ cs) = readMembers N fuel cs := by
  rcases fuel with _ | fuel
  · rw [readMembers, readMembers]
  · rw [readMembers, readMembers, skip_append h]

theorem isBlank_of_isDigit (h : c.isDigit = true) : isBlank c = false := by
  rw [Bool.eq_false_iff]
  intro hblank
  simp only [isBlank, Bool.or_eq_true, decide_eq_true_eq] at hblank
  rcases hblank with ((rfl | rfl) | rfl) | rfl <;> exact absurd h (by decide)

theorem readValue_digit (hc : c.isDigit = true) (fuel : ℕ) (cs : List Char) :
    readValue N (fuel + 1) (c :: cs) = readNumber N (c :: cs) := by
  rw [readValue, skip_cons (isBlank_of_isDigit hc)]
  split <;> first
    | next h =>
      cases h
      exact absurd hc (by decide)
    | rfl

theorem readItems_append {cs : List Char} (h : ∀ c ∈ blank, isBlank c = true)
    (fuel : ℕ) : readItems N fuel (blank ++ cs) = readItems N fuel cs := by
  rcases fuel with _ | fuel
  · rw [readItems, readItems]
  · rw [readItems, readItems, readValue_append h]

section
variable {gap : List Char}

theorem newline_blank (hgap : ∀ c ∈ gap, isBlank c = true) (level : ℕ) :
    ∀ c ∈ newline gap level, isBlank c = true := by
  intro c hc
  unfold newline at hc
  split_ifs at hc with h
  · cases hc
  · rcases List.mem_cons.mp hc with rfl | hc
    · decide
    · obtain ⟨l, hl, hc⟩ := List.mem_flatten.mp hc
      rw [List.eq_of_mem_replicate hl] at hc
      exact hgap c hc

theorem stops_newline (level : ℕ) {c : Char} (hc : isNumberChar c = false) (rest : List Char) :
    Stops (newline gap level ++ c :: rest) := by
  intro d hd
  unfold newline at hd
  split_ifs at hd with h
  · cases hd
    exact hc
  · cases hd
    decide

variable {value : JsonValue}

/-- A value starts with a character that is neither white space nor a closing bracket. -/
theorem print_head (N : NumberText) (gap : List Char) (h : Plain value) (level : ℕ) :
    ∃ c cs, print N gap level value = c :: cs ∧ isBlank c = false ∧ c ≠ ']' := by
  cases h with
  | null => exact ⟨'n', _, rfl, rfl, by decide⟩
  | bool b =>
    cases b with
    | true => exact ⟨'t', _, rfl, rfl, by decide⟩
    | false => exact ⟨'f', _, rfl, rfl, by decide⟩
  | @number n hn =>
    rw [print, numberText_natCast hn]
    rcases hdigits : Nat.toDigits 10 n with _ | ⟨c, cs⟩
    · exact absurd hdigits Nat.toDigits_ne_nil
    · have hc : c.isDigit = true := isDigit_of_mem_toDigits (hdigits ▸ List.mem_cons_self)
      refine ⟨c, cs, rfl, isBlank_of_isDigit hc, ?_⟩
      rintro rfl
      exact absurd hc (by decide)
  | string s => exact ⟨'"', _, rfl, rfl, by decide⟩
  | @array items h =>
    cases items with
    | nil | cons => exact ⟨'[', _, rfl, rfl, by decide⟩
  | @object members hnames h =>
    cases members with
    | nil | cons => exact ⟨'{', _, rfl, rfl, by decide⟩

/-- The value is read back from its text at every level, when the fuel is twice the
    length of the text. -/
def ReadBack (N : NumberText) (gap : List Char) (value : JsonValue) : Prop :=
  ∀ (level fuel : ℕ) (rest : List Char), 2 * (print N gap level value).length ≤ fuel →
    Stops rest → readValue N fuel (print N gap level value ++ rest) = some (value, rest)

theorem stops_printItems (level : ℕ) (items : List JsonValue) (rest : List Char) :
    Stops (printItems N gap level items ++ rest) := by
  cases items with
  | nil =>
    rw [printItems, List.append_assoc]
    exact stops_newline level (by decide) _
  | cons item items =>
    rintro c hc
    rw [printItems] at hc
    cases hc
    decide

theorem stops_printMembers (level : ℕ) (members : List (JsString × JsonValue))
    (rest : List Char) : Stops (printMembers N gap level members ++ rest) := by
  cases members with
  | nil =>
    rw [printMembers, List.append_assoc]
    exact stops_newline level (by decide) _
  | cons m members =>
    rintro c hc
    rw [printMembers] at hc
    cases hc
    decide

theorem readItems_print (hgap : ∀ c ∈ gap, isBlank c = true) (level : ℕ) :
    ∀ (items : List JsonValue) (item : JsonValue) (fuel : ℕ) (rest : List Char),
      (∀ v ∈ item :: items, ReadBack N gap v) →
      2 * ((print N gap (level + 1) item).length + (printItems N gap level items).length) + 1 ≤
        fuel →
      readItems N fuel (print N gap (level + 1) item ++ (printItems N gap level items ++ rest)) =
        some (item :: items, rest) := by
  intro items
  induction items with
  | nil =>
    intro item fuel rest hread hfuel
    obtain ⟨fuel, rfl⟩ : ∃ n, fuel = n + 1 := ⟨fuel - 1, by omega⟩
    have hitem := hread item List.mem_cons_self (level + 1) fuel
      (printItems N gap level [] ++ rest) (by omega) (stops_printItems level [] rest)
    have hskip : skip (printItems N gap level [] ++ rest) = ']' :: rest := by
      rw [printItems, List.append_assoc, skip_append (newline_blank hgap level)]
      exact skip_cons (by decide)
    rw [readItems, hitem, Option.bind_eq_bind, Option.bind_some]
    simp only [hskip]
  | cons next items ih =>
    intro item fuel rest hread hfuel
    obtain ⟨fuel, rfl⟩ : ∃ n, fuel = n + 1 := ⟨fuel - 1, by omega⟩
    have hlength : (printItems N gap level (next :: items)).length =
        1 + ((newline gap (level + 1)).length + (print N gap (level + 1) next).length +
          (printItems N gap level items).length) := by
      rw [printItems, List.length_cons, List.length_append, List.length_append]
      omega
    have hitem := hread item List.mem_cons_self (level + 1) fuel
      (printItems N gap level (next :: items) ++ rest) (by omega)
      (stops_printItems level (next :: items) rest)
    have hskip : skip (printItems N gap level (next :: items) ++ rest) =
        ',' :: (newline gap (level + 1) ++ (print N gap (level + 1) next ++
          (printItems N gap level items ++ rest))) := by
      rw [printItems, List.cons_append, skip_cons (by decide), List.append_assoc,
        List.append_assoc]
    rw [readItems, hitem, Option.bind_eq_bind, Option.bind_some]
    simp only [hskip]
    rw [readItems_append (newline_blank hgap _),
      ih next fuel rest (fun v hv => hread v (List.mem_cons_of_mem _ hv)) (by omega)]
    rfl

theorem addMember_of_notMem {name : JsString}
    {members : List (JsString × JsonValue)} (h : name ∉ members.map Prod.fst) :
    addMember name value members = (name, value) :: members := by
  have hnone : members.lookup name = none := by
    rw [List.lookup_eq_none_iff]
    intro m hm
    rw [bne_iff_ne]
    rintro rfl
    exact h (List.mem_map_of_mem hm)
  rw [addMember, hnone]

/-- The name, the colon and the value of a member are read; then comes another member
    or the end of the object. -/
theorem readMember_print {name : JsString} (level fuel : ℕ)
    (rest : List Char) (hread : ReadBack N gap value) (hrest : Stops rest)
    (hfuel : 2 * (print N gap level value).length ≤ fuel) :
    (∀ cs, skip rest = ',' :: cs →
      readMembers N (fuel + 1) (quote name ++ colon gap ++ print N gap level value ++ rest) =
        (readMembers N fuel cs).map fun r => (addMember name value r.1, r.2)) ∧
    ∀ cs, skip rest = '}' :: cs →
      readMembers N (fuel + 1) (quote name ++ colon gap ++ print N gap level value ++ rest) =
        some ([(name, value)], cs) := by
  have hquote : quote name ++ colon gap ++ print N gap level value ++ rest =
      '"' :: (quoteUnits name ++ '"' :: (colon gap ++ (print N gap level value ++ rest))) := by
    simp [quote]
  obtain ⟨blank, hblank, hcolon⟩ : ∃ blank, (∀ c ∈ blank, isBlank c = true) ∧
      skip (colon gap ++ (print N gap level value ++ rest)) =
        ':' :: (blank ++ (print N gap level value ++ rest)) := by
    unfold colon
    split_ifs with h
    · exact ⟨[], by simp, skip_cons (by decide)⟩
    · exact ⟨[' '], by simp [isBlank], skip_cons (by decide)⟩
  have hvalue := hread level fuel rest hfuel hrest
  constructor <;> intro cs hcs
  all_goals
    rw [hquote, readMembers, skip_cons (by decide)]
    simp only [readUnits_quoteUnits, Option.bind_eq_bind, Option.bind_some, hcolon,
      readValue_append hblank, hvalue, hcs]

theorem readMembers_print (hgap : ∀ c ∈ gap, isBlank c = true) (level : ℕ) :
    ∀ (members : List (JsString × JsonValue)) (name : JsString) (value : JsonValue) (fuel : ℕ)
      (rest : List Char), (((name, value) :: members).map Prod.fst).Nodup →
      (∀ m ∈ (name, value) :: members, ReadBack N gap m.2) →
      2 * ((print N gap (level + 1) value).length + (printMembers N gap level members).length) +
        1 ≤ fuel →
      readMembers N fuel (quote name ++ colon gap ++ print N gap (level + 1) value ++
        (printMembers N gap level members ++ rest)) = some ((name, value) :: members, rest) := by
  intro members
  induction members with
  | nil =>
    intro name value fuel rest hnames hread hfuel
    obtain ⟨fuel, rfl⟩ : ∃ n, fuel = n + 1 := ⟨fuel - 1, by omega⟩
    have hskip : skip (printMembers N gap level [] ++ rest) = '}' :: rest := by
      rw [printMembers, List.append_assoc, skip_append (newline_blank hgap level)]
      exact skip_cons (by decide)
    have hvalue : ReadBack N gap value := hread (name, value) List.mem_cons_self
    exact (readMember_print (level + 1) fuel _ hvalue (stops_printMembers level [] rest)
      (by omega)).2 _ hskip
  | cons m members ih =>
    obtain ⟨next, nextValue⟩ := m
    intro name value fuel rest hnames hread hfuel
    obtain ⟨fuel, rfl⟩ : ∃ n, fuel = n + 1 := ⟨fuel - 1, by omega⟩
    have hlength : (printMembers N gap level ((next, nextValue) :: members)).length =
        1 + ((newline gap (level + 1)).length + ((quote next ++ colon gap).length +
          (print N gap (level + 1) nextValue).length) +
          (printMembers N gap level members).length) := by
      rw [printMembers, List.length_cons, List.length_append, List.length_append,
        List.length_append]
      omega
    have hskip : skip (printMembers N gap level ((next, nextValue) :: members) ++ rest) =
        ',' :: (newline gap (level + 1) ++ (quote next ++ colon gap ++
          print N gap (level + 1) nextValue ++ (printMembers N gap level members ++ rest))) := by
      rw [printMembers, List.cons_append, skip_cons (by decide), List.append_assoc,
        List.append_assoc]
    have hvalue : ReadBack N gap value := hread (name, value) List.mem_cons_self
    obtain ⟨hname, hnames⟩ := List.nodup_cons.mp hnames
    rw [(readMember_print (level + 1) fuel _ hvalue (stops_printMembers level _ rest)
      (by omega)).1 _ hskip,
      readMembers_append (newline_blank hgap _),
      ih next nextValue fuel rest hnames (fun v hv => hread v (List.mem_cons_of_mem _ hv))
        (by omega), Option.map_some, addMember_of_notMem hname]

theorem readBack_of_succ (h : Plain value) (hread : ∀ (level fuel : ℕ) (rest : List Char),
      2 * (print N gap level value).length ≤ fuel + 1 → Stops rest →
        readValue N (fuel + 1) (print N gap level value ++ rest) = some (value, rest)) :
    ReadBack N gap value := by
  intro level fuel rest hfuel hrest
  obtain ⟨c, cs, hprint, -⟩ := print_head N gap h level
  have hpos : 0 < (print N gap level value).length := by rw [hprint]; simp
  obtain ⟨fuel, rfl⟩ : ∃ n, fuel = n + 1 := ⟨fuel - 1, by omega⟩
  exact hread level fuel rest hfuel hrest

theorem readBack_array (hgap : ∀ c ∈ gap, isBlank c = true) {items : List JsonValue}
    (h : ∀ item ∈ items, Plain item) (hread : ∀ item ∈ items, ReadBack N gap item) :
    ReadBack N gap (.array items) := by
  apply readBack_of_succ (.array h)
  intro level fuel rest hfuel hrest
  cases items with
  | nil => rfl
  | cons item items =>
    obtain ⟨c, cs, hprint, hblank, hbracket⟩ :=
      print_head N gap (h item List.mem_cons_self) (level + 1)
    have hitems := readItems_print hgap level items item fuel rest hread (by
      rw [print, List.length_cons, List.length_append, List.length_append] at hfuel
      omega)
    have hskip : skip (newline gap (level + 1) ++ (print N gap (level + 1) item ++
        (printItems N gap level items ++ rest))) =
        c :: (cs ++ (printItems N gap level items ++ rest)) := by
      rw [skip_append (newline_blank hgap _), hprint]
      exact skip_cons hblank
    rw [hprint, List.cons_append] at hitems
    rw [print, List.cons_append, readValue, skip_cons (by decide), List.append_assoc,
      List.append_assoc]
    simp only [hskip]
    split
    next heq =>
      cases heq
      exact absurd rfl hbracket
    · rw [hitems]
      rfl

theorem readBack_object (hgap : ∀ c ∈ gap, isBlank c = true)
    {members : List (JsString × JsonValue)} (hnames : (members.map Prod.fst).Nodup)
    (h : ∀ m ∈ members, Plain m.2) (hread : ∀ m ∈ members, ReadBack N gap m.2) :
    ReadBack N gap (.object members) := by
  apply readBack_of_succ (.object hnames h)
  intro level fuel rest hfuel hrest
  cases members with
  | nil => rfl
  | cons m members =>
    obtain ⟨name, value⟩ := m
    have hmembers := readMembers_print hgap level members name value fuel rest hnames hread (by
      rw [print, List.length_cons, List.length_append, List.length_append,
        List.length_append] at hfuel
      omega)
    obtain ⟨cs, hcs⟩ : ∃ cs, quote name ++ colon gap ++ print N gap (level + 1) value ++
        (printMembers N gap level members ++ rest) = '"' :: cs := ⟨_, rfl⟩
    have hskip : skip (newline gap (level + 1) ++ (quote name ++ colon gap ++
        print N gap (level + 1) value ++ (printMembers N gap level members ++ rest))) =
        '"' :: cs := by
      rw [skip_append (newline_blank hgap _), hcs]
      exact skip_cons (by decide)
    rw [hcs] at hmembers
    rw [print, List.cons_append, readValue, skip_cons (by decide), List.append_assoc,
      List.append_assoc]
    simp only [hskip]
    show (readMembers N fuel ('"' :: cs)).map _ = _
    rw [hmembers]
    rfl

/-- A plain value is read back from its text. -/
theorem readBack_of_plain (hgap : ∀ c ∈ gap, isBlank c = true)
    (h : Plain value) : ReadBack N gap value := by
  induction h with
  | null => exact readBack_of_succ .null fun level fuel rest hfuel hrest => rfl
  | bool b =>
    cases b with
    | true => exact readBack_of_succ (.bool true) fun level fuel rest hfuel hrest => rfl
    | false => exact readBack_of_succ (.bool false) fun level fuel rest hfuel hrest => rfl
  | @number n hn =>
    apply readBack_of_succ (.number hn)
    intro level fuel rest hfuel hrest
    obtain ⟨c, cs, hdigits⟩ := List.exists_cons_of_ne_nil (Nat.toDigits_ne_nil (b := 10) (n := n))
    have hc : c.isDigit = true := isDigit_of_mem_toDigits (hdigits ▸ List.mem_cons_self)
    have hnumber := readNumber_toDigits (N := N) hn hrest
    rw [hdigits, List.cons_append] at hnumber
    rw [print, numberText_natCast hn, hdigits, List.cons_append, readValue_digit hc, hnumber]
  | string s =>
    apply readBack_of_succ (.string s)
    intro level fuel rest hfuel hrest
    have htext : print N gap level (.string s) ++ rest = '"' :: (quoteUnits s ++ '"' :: rest) := by
      simp [print, quote]
    rw [htext, readValue, skip_cons (by decide)]
    simp only [readUnits_quoteUnits, Option.map_some]
  | array h ih => exact readBack_array hgap h ih
  | object hnames h ih => exact readBack_object hgap hnames h ih

/-- `JSON.parse(JSON.stringify(value, null, gap) + blank)` is the value. -/
theorem parse_stringify (hgap : ∀ c ∈ gap, isBlank c = true)
    (h : Plain value) {blank : List Char} (hblank : ∀ c ∈ blank, isBlank c = true) :
    parse N (stringify N gap value ++ blank) = some value := by
  have hstops : Stops blank := by
    intro c hc
    have hcblank := hblank c (List.mem_of_mem_head? hc)
    simp only [isBlank, Bool.or_eq_true, decide_eq_true_eq] at hcblank
    rcases hcblank with ((rfl | rfl) | rfl) | rfl <;> rfl
  have hskip : skip blank = [] := List.dropWhile_eq_nil_iff.mpr hblank
  have hread := readBack_of_plain (N := N) hgap h 0 (2 * (stringify N gap value ++ blank).length + 2)
    blank (by
      rw [List.length_append, stringify]
      omega) hstops
  rw [parse]
  unfold stringify at hread ⊢
  rw [hread]
  exact if_pos hskip

end

end

end JsonText

end AegisShield.Common
