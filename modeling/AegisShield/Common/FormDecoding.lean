import AegisShield.Common.WebUrl

/-!
# Form decoding

UTF-8 decoding with replacement characters, and the `application/x-www-form-urlencoded`
parser on the query of a URL.

Results:
* `utf8Decode_text`: the UTF-8 bytes of a text decode to it.
* `formDecode_encoded`: the encoding of a query does not change what is read from it.
* `formDecode_eq_self_iff`: a text is read as itself if and only if it has no `+` and no escape.
-/

namespace AegisShield.Common.WebUrl

/-! ## Definitions -/

/-- A multi-byte character under way: the bytes still due, the code point so far, and the
    range of the next byte. -/
structure Pending where
  due : ℕ
  point : ℕ
  lower : ℕ
  upper : ℕ

/-- The replacement character. -/
def replacement : Char := Char.ofNat 0xFFFD

/-- The UTF-8 decoder at the first byte of a character: what it emits and what it waits for. -/
def firstByte (b : ℕ) : List Char × Option Pending :=
  if b ≤ 0x7F then ([Char.ofNat b], none)
  else if 0xC2 ≤ b ∧ b ≤ 0xDF then ([], some ⟨1, b - 0xC0, 0x80, 0xBF⟩)
  else if 0xE0 ≤ b ∧ b ≤ 0xEF then
    ([], some ⟨2, b - 0xE0, if b = 0xE0 then 0xA0 else 0x80, if b = 0xED then 0x9F else 0xBF⟩)
  else if 0xF0 ≤ b ∧ b ≤ 0xF4 then
    ([], some ⟨3, b - 0xF0, if b = 0xF0 then 0x90 else 0x80, if b = 0xF4 then 0x8F else 0xBF⟩)
  else ([replacement], none)

/-- The UTF-8 decoder at a byte. -/
def decodeByte (state : Option Pending) (b : ℕ) : List Char × Option Pending :=
  match state with
  | none => firstByte b
  | some p =>
    if b < p.lower ∨ p.upper < b then (replacement :: (firstByte b).1, (firstByte b).2)
    else if p.due = 1 then ([Char.ofNat (64 * p.point + (b - 0x80))], none)
    else ([], some ⟨p.due - 1, 64 * p.point + (b - 0x80), 0x80, 0xBF⟩)

/-- UTF-8 decoding without BOM, with replacement characters. -/
def utf8Decode : Option Pending → List UInt8 → List Char
  | none, [] => []
  | some _, [] => [replacement]
  | state, b :: rest =>
    (decodeByte state b.toNat).1 ++ utf8Decode (decodeByte state b.toNat).2 rest

/-- A `+` stands for a space. -/
def plusToSpace (c : Char) : Char := if c = '+' then ' ' else c

variable (text : List Char)

/-- A name or a value of a form. -/
def formDecode : List Char :=
  utf8Decode none (percentDecode (text.map plusToSpace))

/-- One sequence of a form: its name and its value. -/
def formEntry : List Char × List Char :=
  (formDecode (text.takeWhile (· ≠ '=')), formDecode ((text.dropWhile (· ≠ '=')).drop 1))

/-- The `application/x-www-form-urlencoded` parser on a query. -/
def formParse (query : List Char) : List (List Char × List Char) :=
  ((query.splitOn '&').filter (· ≠ [])).map formEntry

/-- A text has a `%` before two hexadecimal digits. -/
def hasEscape : List Char → Bool
  | [] => false
  | c :: rest => (c == '%' && startsHex rest) || hasEscape rest

/-! ## UTF-8 -/

theorem utf8Decode_cons (state : Option Pending) (b : UInt8) (rest : List UInt8) :
    utf8Decode state (b :: rest) =
      (decodeByte state b.toNat).1 ++ utf8Decode (decodeByte state b.toNat).2 rest := by
  cases state <;> rfl

section
variable {n due point lower upper : ℕ} {rest : List UInt8}

theorem toNat_ofNat_byte (hn : n < 256) : (UInt8.ofNat n).toNat = n := by
  rw [UInt8.toNat_ofNat', Nat.mod_eq_of_lt hn]

/-- A byte in the range that is due completes a character. -/
theorem utf8Decode_last (c : Char) (hn : n < 256) (hlower : lower ≤ n) (hupper : n ≤ upper)
    (hpoint : 64 * point + (n - 0x80) = c.toNat) :
    utf8Decode (some ⟨1, point, lower, upper⟩) (UInt8.ofNat n :: rest) =
      c :: utf8Decode none rest := by
  rw [utf8Decode_cons, toNat_ofNat_byte hn, decodeByte, if_neg (by dsimp only; omega), if_pos rfl,
    hpoint, Char.ofNat_toNat]
  rfl

/-- A byte in the range that is due goes on with a character. -/
theorem utf8Decode_continue (hn : n < 256) (hdue : due ≠ 1) (hlower : lower ≤ n)
    (hupper : n ≤ upper) :
    utf8Decode (some ⟨due, point, lower, upper⟩) (UInt8.ofNat n :: rest) =
      utf8Decode (some ⟨due - 1, 64 * point + (n - 0x80), 0x80, 0xBF⟩) rest := by
  rw [utf8Decode_cons, toNat_ofNat_byte hn, decodeByte, if_neg (by dsimp only; omega), if_neg hdue]
  rfl

/-- The first byte of a character of several bytes. -/
theorem utf8Decode_lead {p : Pending} (hn : n < 256) (h : firstByte n = ([], some p)) :
    utf8Decode none (UInt8.ofNat n :: rest) = utf8Decode (some p) rest := by
  rw [utf8Decode_cons, toNat_ofNat_byte hn, decodeByte, h, List.nil_append]

end

/-- The UTF-8 bytes of a character decode to it. -/
theorem utf8Decode_char (c : Char) (rest : List UInt8) :
    utf8Decode none (String.utf8EncodeChar c ++ rest) = c :: utf8Decode none rest := by
  have hvalid : c.toNat < 0xD800 ∨ (0xDFFF < c.toNat ∧ c.toNat < 0x110000) := c.valid
  have hval : c.val.toNat = c.toNat := rfl
  unfold String.utf8EncodeChar
  simp only [hval]
  split
  · rw [List.singleton_append, utf8Decode_cons, toNat_ofNat_byte (by omega), decodeByte, firstByte,
      if_pos (by omega), Char.ofNat_toNat]
    rfl
  split
  · simp only [List.cons_append, List.nil_append]
    rw [utf8Decode_lead (by omega) (by rw [firstByte, if_neg (by omega), if_pos (by omega)]),
      utf8Decode_last c (by omega) (by omega) (by omega) (by omega)]
  split
  · simp only [List.cons_append, List.nil_append]
    rw [utf8Decode_lead (by omega)
        (by rw [firstByte, if_neg (by omega), if_neg (by omega), if_pos (by omega)]),
      utf8Decode_continue (by omega) (by decide) (by split_ifs <;> omega) (by split_ifs <;> omega),
      utf8Decode_last c (by omega) (by omega) (by omega) (by omega)]
  · simp only [List.cons_append, List.nil_append]
    rw [utf8Decode_lead (by omega) (by
        rw [firstByte, if_neg (by omega), if_neg (by omega), if_neg (by omega), if_pos (by omega)]),
      utf8Decode_continue (by omega) (by decide) (by split_ifs <;> omega) (by split_ifs <;> omega),
      utf8Decode_continue (by omega) (by decide) (by omega) (by omega),
      utf8Decode_last c (by omega) (by omega) (by omega) (by omega)]

theorem utf8Decode_text : utf8Decode none (text.flatMap String.utf8EncodeChar) = text := by
  induction text with
  | nil => rfl
  | cons c text ih => rw [List.flatMap_cons, utf8Decode_char, ih]

/-! ## Lengths -/

/-- The range of the next byte is one of continuation bytes. -/
def Pending.Continues (p : Pending) : Prop := 0x80 ≤ p.lower ∧ p.upper ≤ 0xBF

theorem firstByte_spec (b : ℕ) :
    (∃ c, firstByte b = ([c], none)) ∨ ∃ p, firstByte b = ([], some p) ∧ p.Continues := by
  unfold firstByte
  split
  · exact .inl ⟨_, rfl⟩
  split
  · exact .inr ⟨_, rfl, le_rfl, le_rfl⟩
  split
  · refine .inr ⟨_, rfl, ?_, ?_⟩ <;> dsimp only <;> split_ifs <;> omega
  split
  · refine .inr ⟨_, rfl, ?_, ?_⟩ <;> dsimp only <;> split_ifs <;> omega
  · exact .inl ⟨_, rfl⟩

/-- What a token of a text stands for: the bytes of a character, or one byte. -/
def tokenBytes : Char ⊕ UInt8 → List UInt8
  | .inl c => String.utf8EncodeChar c
  | .inr b => [b]

/-- A character starts with no continuation byte. -/
theorem utf8EncodeChar_head (c : Char) :
    ∃ b bytes, String.utf8EncodeChar c = b :: bytes ∧ (b.toNat < 0x80 ∨ 0xBF < b.toNat) := by
  unfold String.utf8EncodeChar
  dsimp only
  split
  · refine ⟨_, _, rfl, ?_⟩
    rw [toNat_ofNat_byte (by omega)]
    omega
  split
  · refine ⟨_, _, rfl, ?_⟩
    rw [toNat_ofNat_byte (by omega)]
    omega
  split
  · refine ⟨_, _, rfl, ?_⟩
    rw [toNat_ofNat_byte (by omega)]
    omega
  · refine ⟨_, _, rfl, ?_⟩
    rw [toNat_ofNat_byte (by omega)]
    omega

/-- A byte outside the range that is due starts anew, after a replacement character. -/
theorem utf8Decode_restart {p : Pending} {b : UInt8} (h : b.toNat < p.lower ∨ p.upper < b.toNat)
    (rest : List UInt8) :
    utf8Decode (some p) (b :: rest) = replacement :: utf8Decode none (b :: rest) := by
  have hbyte : decodeByte (some p) b.toNat =
      (replacement :: (firstByte b.toNat).1, (firstByte b.toNat).2) := if_pos h
  rw [utf8Decode_cons, utf8Decode_cons, hbyte]
  rfl

/-- Tokens decode to no more characters than there are tokens; a character under way adds
    at most one. -/
theorem length_utf8Decode_le (tokens : List (Char ⊕ UInt8)) :
    (utf8Decode none (tokens.flatMap tokenBytes)).length ≤ tokens.length ∧
      ∀ p : Pending, p.Continues →
        (utf8Decode (some p) (tokens.flatMap tokenBytes)).length ≤ tokens.length + 1 := by
  induction tokens with
  | nil => exact ⟨le_rfl, fun p _ => le_rfl⟩
  | cons token tokens ih =>
    obtain ⟨hnone, hsome⟩ := ih
    -- first between characters
    have hstart : (utf8Decode none (tokenBytes token ++ tokens.flatMap tokenBytes)).length ≤
        tokens.length + 1 := by
      cases token with
      | inl c =>
        rw [tokenBytes, utf8Decode_char, List.length_cons]
        omega
      | inr b =>
        rw [tokenBytes, List.singleton_append, utf8Decode_cons, decodeByte]
        rcases firstByte_spec b.toNat with ⟨c, h⟩ | ⟨p, h, hp⟩
        · rw [h, List.length_append, List.length_singleton]
          dsimp only
          omega
        · rw [h, List.nil_append]
          exact hsome p hp
    refine ⟨by rw [List.flatMap_cons, List.length_cons]; exact hstart, fun p hp => ?_⟩
    rw [List.flatMap_cons, List.length_cons]
    cases token with
    | inl c =>
      obtain ⟨b, bytes, hbytes, hhead⟩ := utf8EncodeChar_head c
      rw [tokenBytes, hbytes, List.cons_append] at hstart ⊢
      rw [utf8Decode_restart (by have := hp.1; have := hp.2; omega), List.length_cons]
      omega
    | inr b =>
      rw [tokenBytes, List.singleton_append] at hstart ⊢
      by_cases hrange : b.toNat < p.lower ∨ p.upper < b.toNat
      · rw [utf8Decode_restart hrange, List.length_cons]
        omega
      · rw [utf8Decode_cons, decodeByte, if_neg hrange]
        split
        · rw [List.length_append, List.length_singleton]
          dsimp only
          omega
        · rw [List.nil_append]
          exact (hsome _ ⟨le_rfl, le_rfl⟩).trans (Nat.le_succ _)

/-- A text with an escape stands for fewer tokens than it has characters. -/
theorem percentDecode_tokens :
    ∃ tokens : List (Char ⊕ UInt8), percentDecode text = tokens.flatMap tokenBytes ∧
      tokens.length ≤ text.length ∧ (hasEscape text = true → tokens.length < text.length) := by
  induction text using escape_induction with
  | nil => exact ⟨[], rfl, le_rfl, fun h => by cases h⟩
  | escape a b high low rest ha hb ih =>
    obtain ⟨tokens, htokens, hle, -⟩ := ih
    refine ⟨.inr (UInt8.ofNat (16 * high + low)) :: tokens, ?_, ?_, fun _ => ?_⟩
    · rw [percentDecode_escape ha hb, htokens, List.flatMap_cons]
      rfl
    · simp only [List.length_cons]
      omega
    · simp only [List.length_cons]
      omega
  | char c rest h ih =>
    obtain ⟨tokens, htokens, hle, hlt⟩ := ih
    refine ⟨.inl c :: tokens, ?_, ?_, fun hescape => ?_⟩
    · rw [percentDecode_char h, htokens, List.flatMap_cons]
      rfl
    · simp only [List.length_cons]
      omega
    · have hrest : hasEscape rest = true := by
        rw [hasEscape, Bool.or_eq_true, Bool.and_eq_true, beq_iff_eq] at hescape
        exact hescape.resolve_left h
      simp only [List.length_cons]
      have := hlt hrest
      omega

theorem percentDecode_of_not_hasEscape {text : List Char} (h : hasEscape text = false) :
    percentDecode text = text.flatMap String.utf8EncodeChar := by
  induction text with
  | nil => rfl
  | cons c rest ih =>
    rw [hasEscape, Bool.or_eq_false_iff] at h
    rw [percentDecode_char (by rintro ⟨rfl, hhex⟩; rw [hhex] at h; cases h.1), ih h.2,
      List.flatMap_cons]

/-! ## Form values -/

theorem hexValue_plusToSpace (c : Char) : hexValue (plusToSpace c) = hexValue c := by
  unfold plusToSpace
  split
  next hc =>
    rw [hc]
    rfl
  · rfl

theorem plusToSpace_eq_percent_iff (c : Char) : plusToSpace c = '%' ↔ c = '%' := by
  unfold plusToSpace
  split
  next hc =>
    rw [hc]
    decide
  · rfl

theorem startsHex_plusToSpace : startsHex (text.map plusToSpace) = startsHex text := by
  rcases text with _ | ⟨a, _ | ⟨b, text⟩⟩
  · rfl
  · rfl
  · simp only [List.map_cons, startsHex, hexValue_plusToSpace]

theorem hasEscape_plusToSpace : hasEscape (text.map plusToSpace) = hasEscape text := by
  induction text with
  | nil => rfl
  | cons c text ih =>
    rw [List.map_cons, hasEscape, hasEscape, ih, startsHex_plusToSpace]
    congr 2
    rw [Bool.eq_iff_iff, beq_iff_eq, beq_iff_eq, plusToSpace_eq_percent_iff]

theorem plusToSpace_percentEncodeByte (bytes : List UInt8) :
    (bytes.flatMap percentEncodeByte).map plusToSpace = bytes.flatMap percentEncodeByte := by
  have hdigit : ∀ n < 16, plusToSpace (hexDigit n) = hexDigit n := by decide
  induction bytes with
  | nil => rfl
  | cons b bytes ih =>
    have hb := b.toNat_lt
    rw [List.flatMap_cons, List.map_append, ih, percentEncodeByte, List.map_cons, List.map_cons,
      List.map_cons, hdigit _ (by omega), hdigit _ (by omega)]
    rfl

variable {set : Char → Bool} {piece : List Char}

/-- The encoding of a query does not change what is read from it. -/
theorem formDecode_encoded
    (hset : ∀ c, (hexValue c).isSome = true ∨ c = '%' ∨ c = '+' → set c = false)
    (text : List Char) :
    formDecode (text.flatMap (utf8PercentEncode set)) = formDecode text := by
  unfold formDecode
  congr 1
  induction text using escape_induction with
  | nil => rfl
  | escape a b high low rest ha hb ih =>
    have hkeep : ∀ d, (hexValue d).isSome = true ∨ d = '%' ∨ d = '+' →
        utf8PercentEncode set d = [d] := fun d hd => if_neg (by simp [hset d hd])
    rw [List.flatMap_cons, List.flatMap_cons, List.flatMap_cons, hkeep '%' (by simp),
      hkeep a (by simp [ha]), hkeep b (by simp [hb])]
    simp only [List.cons_append, List.nil_append, List.map_cons]
    have hpercent : plusToSpace '%' = '%' := rfl
    rw [hpercent, percentDecode_escape (by rw [hexValue_plusToSpace, ha])
      (by rw [hexValue_plusToSpace, hb]), percentDecode_escape (by rw [hexValue_plusToSpace, ha])
      (by rw [hexValue_plusToSpace, hb]), ih]
  | char c rest h ih =>
    rw [List.map_cons, percentDecode_char (by
      rwa [plusToSpace_eq_percent_iff, startsHex_plusToSpace]), List.flatMap_cons, List.map_append]
    by_cases hc : set c = true
    · have hplus : plusToSpace c = c := by
        refine if_neg ?_
        rintro rfl
        rw [hset '+' (by simp)] at hc
        cases hc
      rw [utf8PercentEncode, if_pos hc, plusToSpace_percentEncodeByte,
        percentDecode_percentEncodeByte, ih, hplus]
    · rw [utf8PercentEncode, if_neg hc, List.map_singleton, List.singleton_append,
        percentDecode_char, ih]
      rw [plusToSpace_eq_percent_iff, startsHex_plusToSpace]
      exact fun hhex => h ⟨hhex.1, startsHex_encoded hhex.2⟩

/-- A text is read as one that is no longer, and shorter if it has an escape. -/
theorem length_formDecode_le : (formDecode text).length ≤ text.length ∧
      (hasEscape text = true → (formDecode text).length < text.length) := by
  obtain ⟨tokens, htokens, hle, hlt⟩ := percentDecode_tokens (text.map plusToSpace)
  have hdecode : (formDecode text).length ≤ tokens.length := by
    show (utf8Decode none (percentDecode (text.map plusToSpace))).length ≤ _
    rw [htokens]
    exact (length_utf8Decode_le tokens).1
  have hlength : (text.map plusToSpace).length = text.length := List.length_map _
  rw [hlength] at hle hlt
  rw [hasEscape_plusToSpace] at hlt
  exact ⟨hdecode.trans hle, fun h => hdecode.trans_lt (hlt h)⟩

/-- A text is read as itself if and only if it has no `+` and no escape. -/
theorem formDecode_eq_self_iff {text : List Char} :
    formDecode text = text ↔ '+' ∉ text ∧ hasEscape text = false := by
  constructor
  · intro h
    have hescape : hasEscape text = false := by
      rw [← Bool.not_eq_true]
      intro hescape
      have hlt := (length_formDecode_le text).2 hescape
      rw [h] at hlt
      exact absurd hlt (lt_irrefl _)
    refine ⟨fun hplus => ?_, hescape⟩
    have hread : formDecode text = text.map plusToSpace := by
      show utf8Decode none (percentDecode (text.map plusToSpace)) = _
      rw [percentDecode_of_not_hasEscape (by rw [hasEscape_plusToSpace, hescape]), utf8Decode_text]
    rw [hread] at h
    have hmem : '+' ∈ text.map plusToSpace := by
      rw [h]
      exact hplus
    obtain ⟨c, -, hc⟩ := List.mem_map.mp hmem
    unfold plusToSpace at hc
    split at hc
    · cases hc
    · exact absurd hc ‹_›
  · rintro ⟨hplus, hescape⟩
    have hspaced : text.map plusToSpace = text := by
      refine (List.map_congr_left fun c hc => ?_).trans (List.map_id text)
      refine if_neg ?_
      rintro rfl
      exact hplus hc
    show utf8Decode none (percentDecode (text.map plusToSpace)) = _
    rw [hspaced, percentDecode_of_not_hasEscape hescape, utf8Decode_text]

/-- Neither digits nor the percent and plus signs are encoded in a query. -/
theorem specialQuerySet_hex {c : Char} (h : (hexValue c).isSome = true ∨ c = '%' ∨ c = '+') :
    specialQuerySet c = false := by
  have hmarks : ([' ', '"', '#', '<', '>', Char.ofNat 39].all fun d => (hexValue d).isNone) = true :=
    by rfl
  rcases h with h | rfl | rfl
  · have hrange : 0x20 ≤ c.toNat ∧ c.toNat ≤ 0x7E := by
      unfold hexValue Char.isDigit at h
      simp only [Char.le_def, UInt32.le_iff_toNat_le, Bool.and_eq_true, decide_eq_true_eq] at h
      split_ifs at h with hdigit hlower hupper
      · change 48 ≤ c.toNat ∧ c.toNat ≤ 57 at hdigit
        omega
      · change 97 ≤ c.toNat ∧ c.toNat ≤ 102 at hlower
        omega
      · change 65 ≤ c.toNat ∧ c.toNat ≤ 70 at hupper
        omega
      · cases h
    unfold specialQuerySet c0ControlSet
    rw [Bool.or_eq_false_iff, Bool.or_eq_false_iff, decide_eq_false_iff_not,
      decide_eq_false_iff_not]
    refine ⟨⟨by omega, by omega⟩, ?_⟩
    rw [← Bool.not_eq_true, List.contains_iff_mem]
    intro hmem
    have hnone := List.all_eq_true.mp hmarks c hmem
    rw [Option.isNone_iff_eq_none] at hnone
    rw [hnone] at h
    cases h
  · rfl
  · rfl

/-! ## Entries -/

/-- An encoded text has an ampersand only if the text has one. -/
theorem ampersand_not_mem_encoded {text : List Char} (h : '&' ∉ text) :
    '&' ∉ text.flatMap (utf8PercentEncode set) := by
  have hdigit : ∀ n < 16, hexDigit n ≠ '&' := by decide
  intro hmem
  obtain ⟨c, hc, hmem⟩ := List.mem_flatMap.mp hmem
  unfold utf8PercentEncode at hmem
  split at hmem
  · obtain ⟨b, -, hb⟩ := List.mem_flatMap.mp hmem
    have hlt := b.toNat_lt
    simp only [percentEncodeByte, List.mem_cons, List.not_mem_nil, or_false] at hb
    rcases hb with hb | hb | hb
    · cases hb
    · exact hdigit _ (by omega) hb.symm
    · exact hdigit _ (by omega) hb.symm
  · rw [List.mem_singleton.mp hmem] at h
    exact h hc

/-- The entries of a query: its first one up to an ampersand. -/
theorem formParse_append (hne : piece ≠ []) (h : '&' ∉ piece)
    (rest : List Char) : formParse (piece ++ '&' :: rest) = formEntry piece :: formParse rest := by
  unfold formParse
  rw [List.splitOn_append_cons_self_of_not_mem h, List.filter_cons_of_pos (by simpa using hne),
    List.map_cons]

theorem formParse_single (hne : piece ≠ []) (h : '&' ∉ piece) :
    formParse piece = [formEntry piece] := by
  unfold formParse
  rw [List.splitOn_eq_singleton h, List.filter_cons_of_pos (by simpa using hne)]
  rfl

end AegisShield.Common.WebUrl
