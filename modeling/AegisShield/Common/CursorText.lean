import AegisShield.Common.FormDecoding
import AegisShield.Common.JsonText
import AegisShield.Common.PrefixCode
import AegisShield.Sabcl.Encoding

/-!
# Cursors as text

A listing hands out its cursor as the JSON text of a few members in base64url, together with the
filter under which it was issued.

Results:
* `read_write`: the members are read back from a cursor that was written.
* `filterText_inj`: different filters have different texts.
-/

namespace AegisShield.Common.CursorText

open JsonText Sabcl WebUrl

/-! ## Strings -/

/-- The largest time of a `Date`, in milliseconds on either side of the epoch. -/
def maxTime : ℕ := 8640000000000000

/-- The functions of the language that a listing calls. -/
structure CursorRuntime where
  numbers : NumberText
  /-- `String(value)`; `none` when it throws. -/
  text : JsonValue → Option JsString
  text_string : ∀ s, text (.string s) = some s
  /-- `new Date(value).getTime()`; `none` for `NaN`. -/
  dateParse : JsonValue → Option ℤ
  /-- `Date.prototype.toISOString`, on milliseconds since the epoch. -/
  toISOString : ℤ → String
  dateParse_toISOString : ∀ t, t.natAbs ≤ maxTime →
    dateParse (.string (jsString (toISOString t))) = some t

theorem units_prefixFree : PrefixFree units := by
  have hvalid : ∀ c : Char, c.toNat < 0xD800 ∨ 0xDFFF < c.toNat ∧ c.toNat < 0x110000 :=
    fun c => c.valid
  intro a b rest rest' h
  have ha := hvalid a
  have hb := hvalid b
  have hunit : ∀ m n : ℕ, m < 0x10000 → n < 0x10000 → UInt16.ofNat m = UInt16.ofNat n → m = n := by
    intro m n hm hn heq
    have hnat := congrArg UInt16.toNat heq
    rwa [UInt16.toNat_ofNat_of_lt' hm, UInt16.toNat_ofNat_of_lt' hn] at hnat
  unfold units at h
  split_ifs at h with hsmall hsmall' hsmall'
  · simp only [List.cons_append, List.nil_append, List.cons.injEq] at h
    exact ⟨Char.toNat_inj.mp (hunit _ _ (by omega) (by omega) h.1), h.2⟩
  · simp only [List.cons_append, List.nil_append, List.cons.injEq] at h
    have hhead := hunit _ _ (by omega) (by omega) h.1
    omega
  · simp only [List.cons_append, List.nil_append, List.cons.injEq] at h
    have hhead := hunit _ _ (by omega) (by omega) h.1
    omega
  · simp only [List.cons_append, List.nil_append, List.cons.injEq] at h
    have hhigh := hunit _ _ (by omega) (by omega) h.1
    have hlow := hunit _ _ (by omega) (by omega) h.2.1
    exact ⟨Char.toNat_inj.mp (by omega), h.2.2⟩

theorem jsString_inj {s t : String} (h : jsString s = jsString t) : s = t := by
  refine String.toList_inj.mp (flatMap_inj units_prefixFree (fun c => ?_) h)
  unfold units
  split_ifs <;> exact List.cons_ne_nil _ _

/-- `format.test(value)`, for a regular expression of ASCII characters. -/
def CursorRuntime.tests (runtime : CursorRuntime) (format : Format) (value : JsonValue) : Bool :=
  (runtime.text value).any fun s => format.fits (s.map unitChar)

variable {cs : List Char} {a b : List (String × Option String)} {id : String}

theorem map_unitChar (h : ∀ c ∈ cs, c.toNat < 0xD800) :
    (cs.flatMap units).map unitChar = cs := by
  induction cs with
  | nil => rfl
  | cons c cs ih =>
    obtain ⟨hc, hrest⟩ := List.forall_mem_cons.mp h
    rw [List.flatMap_cons, List.map_append, ih hrest, units, if_pos (by omega), List.map_singleton,
      unitChar, UInt16.toNat_ofNat_of_lt' (Nat.lt_trans hc (by decide)), Char.ofNat_toNat]
    rfl

theorem tests_string (runtime : CursorRuntime) {format : Format} {text : String}
    (hascii : ∀ c ∈ text.toList, c.toNat < 0xD800) (h : format.accepts text = true) :
    runtime.tests format (.string (jsString text)) = true := by
  unfold CursorRuntime.tests jsString
  rw [runtime.text_string, Option.any_some, map_unitChar hascii]
  exact h

/-! ## Filters -/

/-- The members of an object literal that `JSON.stringify` writes: those that are defined. -/
def defined : List (String × Option String) → List (JsString × JsonValue)
  | [] => []
  | (_, none) :: members => defined members
  | (name, some value) :: members => (jsString name, .string (jsString value)) :: defined members

variable (N : NumberText)

/-- `JSON.stringify` of a filter. -/
def filterText (members : List (String × Option String)) : String :=
  String.ofList (stringify N [] (.object (defined members)))

/-- `Buffer.from(JSON.stringify(members)).toString('base64url')`. -/
def write (members : List (JsString × JsonValue)) : String :=
  toBase64Url (utf8 (String.ofList (stringify N [] (.object members))))

/-- `JSON.parse(Buffer.from(text, 'base64url').toString('utf8'))`; `none` when it throws. -/
def read (text : String) : Option JsonValue :=
  parse N (utf8Decode none (bufferFromBase64Url text))

/-- `value.name`; `none` when it is undefined, and for `null`. -/
def member (value : JsonValue) (name : String) : Option JsonValue :=
  match value with
  | .object members => members.lookup (jsString name)
  | _ => none

/-- `value === text`. -/
def equalsText (text : String) : JsonValue → Bool
  | .string s => decide (s = jsString text)
  | _ => false

/-- `value === n`. -/
def equalsNumber (n : ℚ) : JsonValue → Bool
  | .number q => decide (q = n)
  | _ => false

variable {N}

theorem equalsText_iff {text : String} {value : JsonValue} :
    equalsText text value = true ↔ value = .string (jsString text) := by
  cases value <;> simp [equalsText]

theorem utf8_eq (text : List Char) :
    utf8 (String.ofList text) = text.flatMap String.utf8EncodeChar := by
  have hbytes : ∀ cs : List Char,
      cs.utf8Encode.data.toList = cs.flatMap String.utf8EncodeChar := by
    intro cs
    induction cs with
    | nil => rfl
    | cons c cs ih =>
      rw [List.utf8Encode_cons, ByteArray.data_append, Array.toList_append, ih, List.flatMap_cons]
      simp [List.utf8Encode]
  unfold utf8
  rw [String.toUTF8_eq_toByteArray, String.toByteArray_ofList, hbytes]

theorem mem_defined {members : List (String × Option String)} {m : JsString × JsonValue}
    (h : m ∈ defined members) :
    (∃ name ∈ members.map Prod.fst, m.1 = jsString name) ∧ ∃ value, m.2 = .string value := by
  induction members with
  | nil => cases h
  | cons head members ih =>
    rcases head with ⟨name, _ | value⟩
    · obtain ⟨⟨other, hother, heq⟩, hvalue⟩ := ih h
      exact ⟨⟨other, List.mem_cons_of_mem _ hother, heq⟩, hvalue⟩
    · rcases List.mem_cons.mp h with rfl | h
      · exact ⟨⟨name, List.mem_cons_self, rfl⟩, _, rfl⟩
      · obtain ⟨⟨other, hother, heq⟩, hvalue⟩ := ih h
        exact ⟨⟨other, List.mem_cons_of_mem _ hother, heq⟩, hvalue⟩

/-- A name that stands before the members is not one of theirs. -/
theorem not_mem_defined {members : List (String × Option String)} {name : String}
    (h : name ∉ members.map Prod.fst) (value : JsonValue) :
    (jsString name, value) ∉ defined members := by
  intro hmem
  obtain ⟨⟨other, hother, heq⟩, -⟩ := mem_defined hmem
  exact h (jsString_inj heq ▸ hother)

theorem plain_defined {members : List (String × Option String)}
    (h : (members.map Prod.fst).Nodup) : Plain (.object (defined members)) := by
  constructor
  · induction members with
    | nil => exact List.nodup_nil
    | cons head members ih =>
      obtain ⟨hname, hrest⟩ := List.nodup_cons.mp h
      rcases head with ⟨name, _ | value⟩
      · exact ih hrest
      · refine List.nodup_cons.mpr ⟨fun hmem => ?_, ih hrest⟩
        obtain ⟨⟨other, v⟩, hm, heq⟩ := List.mem_map.mp hmem
        obtain rfl : other = jsString name := heq
        exact not_mem_defined hname v hm
  · intro m hm
    obtain ⟨-, value, heq⟩ := mem_defined hm
    rw [heq]
    exact .string value

/-- The defined members tell which members are defined. -/
theorem defined_inj (hnames : a.map Prod.fst = b.map Prod.fst) (hnodup : (a.map Prod.fst).Nodup)
    (h : defined a = defined b) : a = b := by
  induction a generalizing b with
  | nil => exact (List.map_eq_nil_iff.mp hnames.symm).symm
  | cons x a ih =>
    cases b with
    | nil => cases hnames
    | cons y b =>
      obtain ⟨hname, htail⟩ := List.cons.inj hnames
      obtain ⟨hfresh, hrest⟩ := List.nodup_cons.mp hnodup
      rcases x with ⟨name, vx⟩
      rcases y with ⟨name', vy⟩
      obtain rfl : name = name' := hname
      cases vx with
      | none =>
        cases vy with
        | none => rw [ih htail hrest h]
        | some value =>
          have hmem : (jsString name, JsonValue.string (jsString value)) ∈ defined a :=
            h.symm ▸ List.mem_cons_self
          exact absurd hmem (not_mem_defined hfresh _)
      | some value =>
        cases vy with
        | none =>
          have hmem : (jsString name, JsonValue.string (jsString value)) ∈ defined b :=
            h ▸ List.mem_cons_self
          exact absurd hmem (not_mem_defined (htail ▸ hfresh) _)
        | some value' =>
          obtain ⟨hhead, hdefined⟩ := List.cons.inj h
          have hvalue : value = value' := jsString_inj (JsonValue.string.inj (Prod.mk.inj hhead).2)
          rw [ih htail hrest hdefined, hvalue]

theorem parse_text {members : List (JsString × JsonValue)} (h : Plain (.object members)) :
    parse N (stringify N [] (.object members)) = some (.object members) := by
  have hparse : parse N (stringify N [] (.object members) ++ []) = some (.object members) :=
    parse_stringify (fun c hc => absurd hc List.not_mem_nil) h
      fun c hc => absurd hc List.not_mem_nil
  rw [List.append_nil] at hparse
  exact hparse

/-- Different filters have different texts. -/
theorem filterText_inj (hnames : a.map Prod.fst = b.map Prod.fst) (hnodup : (a.map Prod.fst).Nodup)
    (h : filterText N a = filterText N b) : a = b := by
  have htext : stringify N [] (.object (defined a)) = stringify N [] (.object (defined b)) :=
    String.ofList_injective h
  have hparsed : some (JsonValue.object (defined a)) = some (.object (defined b)) := by
    rw [← parse_text (N := N) (plain_defined hnodup), htext,
      parse_text (plain_defined (hnames ▸ hnodup))]
  exact defined_inj hnames hnodup (JsonValue.object.inj (Option.some.inj hparsed))

/-- The members are read back from a cursor that was written. -/
theorem read_write {members : List (JsString × JsonValue)} (h : Plain (.object members)) :
    read N (write N members) = some (.object members) := by
  unfold read write
  rw [bufferFromBase64Url_toBase64Url, utf8_eq, utf8Decode_text, parse_text h]

theorem write_ne_empty {members : List (JsString × JsonValue)} (h : Plain (.object members)) :
    write N members ≠ "" := by
  intro hempty
  have hread := read_write (N := N) h
  rw [hempty] at hread
  cases hread

/-! ## Identifiers -/

/-- A digit of a `uuid` column as text. -/
def isHexDigit (c : Char) : Bool := c.isDigit || decide ('a' ≤ c ∧ c ≤ 'f')

/-- Where the digits of a `uuid` column stand; a dash stands elsewhere. -/
def uuidShape : List Bool :=
  List.replicate 8 true ++ false :: (List.replicate 4 true ++ false :: (List.replicate 4 true ++
    false :: (List.replicate 4 true ++ false :: List.replicate 12 true)))

/-- A `uuid` column as text. -/
def uuidFormat : Format :=
  uuidShape.map fun digit => if digit then isHexDigit else fun c => decide (c = '-')

theorem digits_of_fits {shape : List Bool}
    (h : Format.fits (shape.map fun digit => if digit then isHexDigit else fun c => decide (c = '-'))
      cs = true) :
    (cs.filter fun c => c ≠ '-').length = shape.count true ∧
      ∀ c ∈ cs.filter fun c => c ≠ '-', isHexDigit c = true := by
  induction shape generalizing cs with
  | nil =>
    cases cs with
    | nil => exact ⟨rfl, fun c hc => absurd hc List.not_mem_nil⟩
    | cons c cs => cases h
  | cons digit shape ih =>
    cases cs with
    | nil => cases h
    | cons c cs =>
      rw [List.map_cons, Format.fits, Bool.and_eq_true] at h
      obtain ⟨hhead, hrest⟩ := h
      obtain ⟨hlength, hall⟩ := ih hrest
      cases digit with
      | true =>
        have hdash : c ≠ '-' := by
          rintro rfl
          exact absurd hhead (by decide)
        rw [List.filter_cons_of_pos (by simpa using hdash)]
        refine ⟨by rw [List.length_cons, hlength, List.count_cons_self], fun x hx => ?_⟩
        rcases List.mem_cons.mp hx with rfl | hx
        · exact hhead
        · exact hall x hx
      | false =>
        have hdash : c = '-' := by simpa using hhead
        rw [List.filter_cons_of_neg (by simpa using hdash), List.count_cons_of_ne (by decide)]
        exact ⟨hlength, hall⟩

/-- The digits of a `uuid` column. -/
theorem uuid_digits (h : uuidFormat.accepts id = true) :
    (id.toList.filter fun c => c ≠ '-').length = 32 ∧
      ∀ c ∈ id.toList.filter fun c => c ≠ '-', isHexDigit c = true := by
  obtain ⟨hlength, hall⟩ := digits_of_fits h
  exact ⟨hlength.trans (by decide), hall⟩

/-- The characters of a `uuid` column. -/
theorem uuid_chars (h : uuidFormat.accepts id = true) :
    id.toList.length = 36 ∧ ∀ c ∈ id.toList, c = '-' ∨ isHexDigit c = true := by
  refine ⟨(Format.length_of_fits h).trans (by decide), Format.forall_of_fits h fun p hp c hc => ?_⟩
  obtain ⟨digit, -, rfl⟩ := List.mem_map.mp hp
  cases digit with
  | true => exact .inr hc
  | false => exact .inl (of_decide_eq_true hc)

theorem uuid_ascii (h : uuidFormat.accepts id = true) :
    ∀ c ∈ id.toList, c.toNat < 0xD800 := by
  intro c hc
  rcases (uuid_chars h).2 c hc with rfl | hdigit
  · decide
  · unfold isHexDigit Char.isDigit at hdigit
    simp only [Bool.or_eq_true, Bool.and_eq_true, decide_eq_true_eq] at hdigit
    rcases hdigit with ⟨-, hle⟩ | ⟨-, hle⟩
    · have hcode : c.toNat ≤ 57 := hle
      omega
    · have hcode : c.toNat ≤ 102 := hle
      omega

/-! ## Times of the examples -/

/-- The texts of two times, a minute apart; the others are written with as many zeros. -/
def exampleISOString (t : ℤ) : String :=
  if t = 1785542400000 then "2026-08-01T00:00:00.000Z"
  else if t = 1785542460000 then "2026-08-01T00:01:00.000Z"
  else String.ofList ((if 0 ≤ t then '+' else '-') :: List.replicate t.natAbs '0')

/-- The times of these texts. -/
def exampleDateParse : JsonValue → Option ℤ
  | .string s =>
    if s = jsString "2026-08-01T00:00:00.000Z" then some 1785542400000
    else if s = jsString "2026-08-01T00:01:00.000Z" then some 1785542460000
    else
      match s with
      | 43 :: rest => some rest.length
      | 45 :: rest => some (-rest.length)
      | _ => none
  | _ => none

theorem jsString_zeros (c : Char) (n : ℕ) :
    jsString (String.ofList (c :: List.replicate n '0')) = units c ++ List.replicate n 48 := by
  unfold jsString
  rw [String.toList_ofList, List.flatMap_cons]
  congr 1
  induction n with
  | zero => rfl
  | succ n ih =>
    rw [List.replicate_succ, List.flatMap_cons, ih]
    rfl

theorem exampleDateParse_cons {u : UInt16} {rest : JsString} (h : u ≠ 50) :
    exampleDateParse (.string (u :: rest)) =
      if u = 43 then some (rest.length : ℤ) else if u = 45 then some (-(rest.length : ℤ)) else none := by
  have hhead : ∀ text : JsString, text.head? = some 50 → u :: rest ≠ text := by
    rintro text htext rfl
    exact h (Option.some.inj htext)
  unfold exampleDateParse
  dsimp only
  rw [if_neg (hhead _ rfl), if_neg (hhead _ rfl)]
  split
  next heq =>
    obtain ⟨rfl, rfl⟩ := List.cons.inj heq
    rfl
  next heq =>
    obtain ⟨rfl, rfl⟩ := List.cons.inj heq
    rfl
  next hplus hminus =>
    have hplus' : u ≠ 43 := by
      rintro rfl
      exact hplus rest rfl
    have hminus' : u ≠ 45 := by
      rintro rfl
      exact hminus rest rfl
    rw [if_neg hplus', if_neg hminus']

theorem exampleDateParse_ISOString (t : ℤ) :
    exampleDateParse (.string (jsString (exampleISOString t))) = some t := by
  unfold exampleISOString
  split_ifs with hfirst hsecond hsign
  · rw [hfirst]
    rfl
  · rw [hsecond]
    rfl
  · rw [jsString_zeros]
    have hparse : exampleDateParse (.string (43 :: List.replicate t.natAbs 48)) = _ :=
      exampleDateParse_cons (by decide)
    refine hparse.trans ?_
    rw [if_pos rfl, List.length_replicate, Int.natAbs_of_nonneg hsign]
  · rw [jsString_zeros]
    have hparse : exampleDateParse (.string (45 :: List.replicate t.natAbs 48)) = _ :=
      exampleDateParse_cons (by decide)
    refine hparse.trans ?_
    rw [if_neg (by decide), if_pos rfl, List.length_replicate, Int.ofNat_natAbs_of_nonpos (by omega),
      Int.neg_neg]

/-- Two times have their texts, and a text is its own text. -/
def exampleCursorRuntime : CursorRuntime where
  numbers := ⟨fun _ => [], fun _ => none⟩
  text
    | .string s => some s
    | _ => none
  text_string _ := rfl
  dateParse := exampleDateParse
  toISOString := exampleISOString
  dateParse_toISOString t _ := exampleDateParse_ISOString t

end AegisShield.Common.CursorText
