import AegisShield.Sabcl.PathPattern

/-!
# URLs that the Gateway builds

`encodeURIComponent` for identifiers in a path, and the `URLSearchParams` serialiser
for query strings, with what `decodeURIComponent` makes of them.

Results:
* `decodeURIComponent_eq`: a text that is read piece by piece.
* `reads_searchParams`: the query string reads as its entries, with `+` for spaces.
* `length_searchParams`, `searchParams_isQueryChar_iff`, `flat_readParams_iff`: its length, its
  characters, and what `hasTraversal` finds in it.
-/

namespace AegisShield.Gateway

open Sabcl PathPart

/-! ## Encoding -/

/-- An upper-case hexadecimal digit. -/
def hexDigit (n : ℕ) : Char := "0123456789ABCDEF".toList.getD n '0'

variable (c : Char)

/-- The UTF-8 bytes of a character, each as `%XX`. -/
def percentEncode : List Char :=
  (String.utf8EncodeChar c).flatMap fun b => ['%', hexDigit (b.toNat / 16), hexDigit (b.toNat % 16)]

/-- The marks that `encodeURIComponent` keeps; the character 39 is the apostrophe. -/
def uriMarks : List Char := ['-', '_', '.', '!', '~', '*', Char.ofNat 39, '(', ')']

/-- `encodeURIComponent`. -/
def encodeURIComponent (value : String) : String :=
  String.ofList (value.toList.flatMap fun c =>
    if c.isAlphanum || uriMarks.contains c then [c] else percentEncode c)

theorem encodeURIComponent_plain {value : String}
    (h : ∀ c ∈ value.toList, isIdChar c = true) : encodeURIComponent value = value := by
  have hkept : ∀ text : List Char, (∀ c ∈ text, isIdChar c = true) → (text.flatMap fun c =>
      if c.isAlphanum || uriMarks.contains c then [c] else percentEncode c) = text := by
    intro text htext
    induction text with
    | nil => rfl
    | cons c text ih =>
      have hc := htext c List.mem_cons_self
      have hmark : (c.isAlphanum || uriMarks.contains c) = true := by
        unfold isIdChar at hc
        simp only [Bool.or_eq_true, beq_iff_eq] at hc
        rcases hc with (halpha | rfl) | rfl
        · rw [halpha, Bool.true_or]
        · decide
        · decide
      rw [List.flatMap_cons, if_pos hmark, ih fun d hd => htext d (List.mem_cons_of_mem _ hd)]
      rfl
  unfold encodeURIComponent
  rw [hkept _ h, String.ofList_toList]

/-- A character in the `application/x-www-form-urlencoded` serialiser. -/
def formEncodeChar : List Char :=
  if c.isAlphanum || ['*', '-', '.', '_'].contains c then [c]
  else if c = ' ' then ['+']
  else percentEncode c

variable (value : List Char)

def formEncode : List Char := value.flatMap formEncodeChar

/-- `URLSearchParams.toString` on the entries that were set. -/
def searchParams (entries : List (String × String)) : List Char :=
  ['&'].intercalate (entries.map fun e => formEncode e.1.toList ++ '=' :: formEncode e.2.toList)

/-- `` `?${search}` ``, or nothing when no entry was set. -/
def searchOf (entries : List (String × String)) : String :=
  if entries = [] then "" else String.ofList ('?' :: searchParams entries)

/-! ## Reading back -/

/-- `decodeURIComponent` reads `text` as `value`, whatever follows. -/
def Reads (text value : List Char) : Prop :=
  ∃ tokens, (∀ rest, percentTokens (text ++ rest) = (percentTokens rest).map (tokens ++ ·)) ∧
    ∀ rest, decodeTokens none (tokens ++ rest) = (decodeTokens none rest).map (value ++ ·)

theorem reads_nil : Reads [] [] := ⟨[], fun rest => by simp, fun rest => by simp⟩

variable {text : List Char} {n byte due point least : ℕ}

theorem Reads.append {text' value value' : List Char} (h : Reads text value)
    (h' : Reads text' value') : Reads (text ++ text') (value ++ value') := by
  obtain ⟨tokens, htokens, hvalue⟩ := h
  obtain ⟨tokens', htokens', hvalue'⟩ := h'
  refine ⟨tokens ++ tokens', ?_, ?_⟩
  · intro rest
    rw [List.append_assoc, htokens, htokens', Option.map_map]
    congr 1
    funext ts
    simp
  · intro rest
    rw [List.append_assoc, hvalue, hvalue', Option.map_map]
    congr 1
    funext cs
    simp

theorem reads_char {c : Char} (hc : c ≠ '%') : Reads [c] [c] := by
  refine ⟨[.inl c], ?_, ?_⟩
  · intro rest
    rw [List.singleton_append]
    cases rest with
    | nil => simp [percentTokens, hc]
    | cons a rest =>
      cases rest with
      | nil | cons => simp [percentTokens, hc]
  · intro rest
    rfl

theorem reads_text (h : ∀ c ∈ text, c ≠ '%') : Reads text text := by
  induction text with
  | nil => exact reads_nil
  | cons c text ih =>
    exact (reads_char (h c List.mem_cons_self)).append
      (ih fun d hd => h d (List.mem_cons_of_mem _ hd))

theorem decodeURIComponent_eq {value : List Char} (h : Reads text value) :
    decodeURIComponent text = some value := by
  obtain ⟨tokens, htokens, hvalue⟩ := h
  have htext := htokens []
  have hread := hvalue []
  rw [List.append_nil] at htext hread
  unfold decodeURIComponent
  rw [htext]
  simp only [percentTokens, Option.map_some, List.append_nil, Option.bind_eq_bind,
    Option.bind_some]
  rw [hread]
  simp [decodeTokens]

/-! ## Percent-encoded characters -/

theorem hexValue_hexDigit (hn : n < 16) : hexValue (hexDigit n) = some n := by
  have hall : ∀ k : Fin 16, hexValue (hexDigit k.val) = some k.val := by decide
  exact hall ⟨n, hn⟩

/-- The tokens of percent-encoded bytes are the bytes. -/
theorem percentTokens_bytes (bytes : List UInt8) (rest : List Char) :
    percentTokens ((bytes.flatMap fun b =>
        ['%', hexDigit (b.toNat / 16), hexDigit (b.toNat % 16)]) ++ rest) =
      (percentTokens rest).map ((bytes.map fun b => .inr b.toNat) ++ ·) := by
  induction bytes with
  | nil => simp
  | cons b bytes ih =>
    have hb := b.toNat_lt
    have hsum : 16 * (b.toNat / 16) + b.toNat % 16 = b.toNat := Nat.div_add_mod _ _
    rw [List.flatMap_cons, List.append_assoc]
    simp only [List.cons_append, List.nil_append, percentTokens]
    rw [hexValue_hexDigit (by omega), hexValue_hexDigit (by omega), ih]
    cases percentTokens rest with
    | none => rfl
    | some tokens => simp [hsum]

theorem decodeTokens_lead
    (h : (0xC0 ≤ byte ∧ byte < 0xE0 ∧ due = 1 ∧ point = byte - 0xC0 ∧ least = 0x80) ∨
      (0xE0 ≤ byte ∧ byte < 0xF0 ∧ due = 2 ∧ point = byte - 0xE0 ∧ least = 0x800) ∨
      (0xF0 ≤ byte ∧ byte < 0xF8 ∧ due = 3 ∧ point = byte - 0xF0 ∧ least = 0x10000))
    (rest : List (Char ⊕ ℕ)) :
    decodeTokens none (.inr byte :: rest) = decodeTokens (some (due, point, least)) rest := by
  rcases h with ⟨hlo, hhi, hdue, hpoint, hleast⟩ | ⟨hlo, hhi, hdue, hpoint, hleast⟩ |
      ⟨hlo, hhi, hdue, hpoint, hleast⟩ <;> rw [hdue, hpoint, hleast]
  · have hascii : ¬ byte < 0x80 := by omega
    simp only [decodeTokens, if_neg hascii, if_pos (And.intro hlo hhi)]
  · have hascii : ¬ byte < 0x80 := by omega
    have htwo : ¬ (0xC0 ≤ byte ∧ byte < 0xE0) := by omega
    simp only [decodeTokens, if_neg hascii, if_neg htwo, if_pos (And.intro hlo hhi)]
  · have hascii : ¬ byte < 0x80 := by omega
    have htwo : ¬ (0xC0 ≤ byte ∧ byte < 0xE0) := by omega
    have hthree : ¬ (0xE0 ≤ byte ∧ byte < 0xF0) := by omega
    simp only [decodeTokens, if_neg hascii, if_neg htwo, if_neg hthree, if_pos (And.intro hlo hhi)]

theorem decodeTokens_continue (hlo : 0x80 ≤ byte) (hhi : byte < 0xC0)
    (hdue : 1 < due) (rest : List (Char ⊕ ℕ)) :
    decodeTokens (some (due, point, least)) (.inr byte :: rest) =
      decodeTokens (some (due - 1, 64 * point + (byte - 0x80), least)) rest := by
  rw [decodeTokens, if_pos ⟨hlo, hhi⟩]
  simp only
  rw [if_pos hdue]

theorem decodeTokens_last (hlo : 0x80 ≤ byte)
    (hhi : byte < 0xC0) (hpoint : 64 * point + (byte - 0x80) = c.toNat) (hleast : least ≤ c.toNat)
    (hvalid : c.toNat < 0xD800 ∨ (0xDFFF < c.toNat ∧ c.toNat < 0x110000)) (rest : List (Char ⊕ ℕ)) :
    decodeTokens (some (1, point, least)) (.inr byte :: rest) =
      (decodeTokens none rest).map (c :: ·) := by
  rw [decodeTokens, if_pos ⟨hlo, hhi⟩]
  simp only [hpoint]
  rw [if_neg (by omega), if_pos (by omega), Char.ofNat_toNat]

/-- The UTF-8 bytes of a character decode to it. -/
theorem decodeTokens_utf8 (rest : List (Char ⊕ ℕ)) :
    decodeTokens none (((String.utf8EncodeChar c).map fun b => .inr b.toNat) ++ rest) =
      (decodeTokens none rest).map (c :: ·) := by
  have hvalid : c.toNat < 0xD800 ∨ (0xDFFF < c.toNat ∧ c.toNat < 0x110000) := c.valid
  have hval : c.val.toNat = c.toNat := rfl
  have hbyte : ∀ n : ℕ, n < 256 → (UInt8.ofNat n).toNat = n := by
    intro n hn
    rw [UInt8.toNat_ofNat', Nat.mod_eq_of_lt hn]
  unfold String.utf8EncodeChar
  simp only [hval]
  split
  next h1 =>
    simp only [List.map_cons, List.map_nil, List.cons_append, List.nil_append]
    rw [hbyte _ (by omega), decodeTokens, if_pos (by omega), Char.ofNat_toNat]
  split
  · simp only [List.map_cons, List.map_nil, List.cons_append, List.nil_append]
    rw [hbyte _ (by omega), hbyte _ (by omega),
      decodeTokens_lead (.inl ⟨by omega, by omega, rfl, rfl, rfl⟩),
      decodeTokens_last c (by omega) (by omega) (by omega) (by omega) hvalid]
  split
  · simp only [List.map_cons, List.map_nil, List.cons_append, List.nil_append]
    rw [hbyte _ (by omega), hbyte _ (by omega), hbyte _ (by omega),
      decodeTokens_lead (.inr (.inl ⟨by omega, by omega, rfl, rfl, rfl⟩)),
      decodeTokens_continue (by omega) (by omega) (by omega),
      decodeTokens_last c (by omega) (by omega) (by omega) (by omega) hvalid]
  · simp only [List.map_cons, List.map_nil, List.cons_append, List.nil_append]
    rw [hbyte _ (by omega), hbyte _ (by omega), hbyte _ (by omega), hbyte _ (by omega),
      decodeTokens_lead (.inr (.inr ⟨by omega, by omega, rfl, rfl, rfl⟩)),
      decodeTokens_continue (by omega) (by omega) (by omega),
      decodeTokens_continue (by omega) (by omega) (by omega),
      decodeTokens_last c (by omega) (by omega) (by omega) (by omega) hvalid]

theorem reads_percentEncode : Reads (percentEncode c) [c] :=
  ⟨(String.utf8EncodeChar c).map fun b : UInt8 => .inr b.toNat,
    percentTokens_bytes (String.utf8EncodeChar c), decodeTokens_utf8 c⟩

/-- `encodeURIComponent` is undone by `decodeURIComponent`. -/
theorem reads_encodeURIComponent (value : String) :
    Reads (encodeURIComponent value).toList value.toList := by
  unfold encodeURIComponent
  rw [String.toList_ofList]
  induction value.toList with
  | nil => exact reads_nil
  | cons c text ih =>
    have hchar : Reads (if c.isAlphanum || uriMarks.contains c then [c] else percentEncode c)
        [c] := by
      split
      next hkept =>
        refine reads_char ?_
        rintro rfl
        exact absurd hkept (by decide)
      · exact reads_percentEncode c
    exact hchar.append ih

/-- The characters that `encodeURIComponent` writes. -/
def isUriChar : Bool := c.isAlphanum || uriMarks.contains c || c == '%'

theorem isUriChar_hexDigit (hn : n < 16) : isUriChar (hexDigit n) = true := by
  have hall : ∀ k : Fin 16, isUriChar (hexDigit k.val) = true := by decide
  exact hall ⟨n, hn⟩

theorem isUriChar_encodeURIComponent (value : String) :
    ∀ c ∈ (encodeURIComponent value).toList, isUriChar c = true := by
  intro c hc
  unfold encodeURIComponent at hc
  rw [String.toList_ofList] at hc
  obtain ⟨d, -, hd⟩ := List.mem_flatMap.mp hc
  split at hd
  next hkept =>
    rw [List.mem_singleton] at hd
    subst hd
    unfold isUriChar
    rw [hkept, Bool.true_or]
  · obtain ⟨b, -, hb⟩ := List.mem_flatMap.mp hd
    have hbyte : b.toNat < 256 := b.toNat_lt
    simp only [List.mem_cons, List.not_mem_nil, or_false] at hb
    rcases hb with rfl | rfl | rfl
    · rfl
    · exact isUriChar_hexDigit (by omega)
    · exact isUriChar_hexDigit (by omega)

/-- They are visible ASCII characters. -/
theorem toNat_of_isUriChar {c : Char} (h : isUriChar c = true) :
    0x21 ≤ c.toNat ∧ c.toNat < 0x7F := by
  unfold isUriChar at h
  simp only [Bool.or_eq_true, beq_iff_eq] at h
  rcases h with (h | h) | rfl
  · simp only [Char.isAlphanum, Char.isAlpha, Char.isUpper, Char.isLower, Char.isDigit,
      Bool.or_eq_true, Bool.and_eq_true, decide_eq_true_eq, UInt32.le_iff_toNat_le] at h
    have hbounds : ∀ low high : Char, low.val.toNat ≤ c.val.toNat ∧ c.val.toNat ≤ high.val.toNat →
        low.toNat ≤ c.toNat ∧ c.toNat ≤ high.toNat := fun _ _ h => h
    rcases h with (h | h) | h
    iterate 3
      · exact ⟨le_trans (by decide) (hbounds _ _ h).1, lt_of_le_of_lt (hbounds _ _ h).2 (by decide)⟩
  · have hmem : c ∈ uriMarks := by simpa using h
    simp only [uriMarks, List.mem_cons, List.not_mem_nil, or_false] at hmem
    rcases hmem with rfl | rfl | rfl | rfl | rfl | rfl | rfl | rfl | rfl <;> decide
  · decide

/-! ## Form encoding -/

/-- The value as its form encoding reads: with `+` for spaces. -/
def plusForSpace : List Char := value.map fun c => if c = ' ' then '+' else c

theorem reads_formEncodeChar : Reads (formEncodeChar c) [if c = ' ' then '+' else c] := by
  unfold formEncodeChar
  split
  next hkept =>
    have hspace : c ≠ ' ' := by
      rintro rfl
      exact absurd hkept (by decide)
    have hpercent : c ≠ '%' := by
      rintro rfl
      exact absurd hkept (by decide)
    rw [if_neg hspace]
    exact reads_char hpercent
  split
  · exact reads_char (by decide)
  · exact reads_percentEncode c

theorem reads_formEncode : Reads (formEncode value) (plusForSpace value) := by
  induction value with
  | nil => exact reads_nil
  | cons c value ih => exact (reads_formEncodeChar c).append ih

/-- How many characters the form encoding of a character has. -/
def encodedSize : ℕ :=
  if c.isAlphanum || ['*', '-', '.', '_', ' '].contains c then 1 else 3 * c.utf8Size

theorem length_percentEncode : (percentEncode c).length = 3 * c.utf8Size := by
  have hthree : ∀ bytes : List UInt8, (bytes.flatMap fun b =>
      ['%', hexDigit (b.toNat / 16), hexDigit (b.toNat % 16)]).length = 3 * bytes.length := by
    intro bytes
    induction bytes with
    | nil => rfl
    | cons b bytes ih =>
      rw [List.flatMap_cons, List.length_append, ih, List.length_cons]
      simp only [List.length_cons, List.length_nil]
      omega
  unfold percentEncode
  rw [hthree, String.length_utf8EncodeChar]

theorem length_formEncodeChar : (formEncodeChar c).length = encodedSize c := by
  unfold formEncodeChar encodedSize
  by_cases hkept : (c.isAlphanum || ['*', '-', '.', '_'].contains c) = true
  · have hkept' : (c.isAlphanum || ['*', '-', '.', '_', ' '].contains c) = true := by
      simp only [Bool.or_eq_true, List.contains_iff_mem, List.mem_cons] at hkept ⊢
      tauto
    rw [if_pos hkept, if_pos hkept']
    rfl
  · by_cases hspace : c = ' '
    · subst hspace
      rfl
    · have hkept' : ¬ (c.isAlphanum || ['*', '-', '.', '_', ' '].contains c) = true := by
        simp only [Bool.or_eq_true, List.contains_iff_mem, List.mem_cons] at hkept ⊢
        tauto
      rw [if_neg hkept, if_neg hspace, if_neg hkept', length_percentEncode]

theorem length_formEncode : (formEncode value).length = (value.map encodedSize).sum := by
  induction value with
  | nil => rfl
  | cons c value ih =>
    unfold formEncode at ih ⊢
    rw [List.flatMap_cons, List.length_append, ih, length_formEncodeChar, List.map_cons,
      List.sum_cons]

theorem isQueryChar_formEncodeChar_iff :
    (∀ d ∈ formEncodeChar c, isQueryChar d = true) ↔ c ≠ '*' ∧ c ≠ ' ' := by
  have hhex : ∀ n < 16, isQueryChar (hexDigit n) = true := by decide
  constructor
  · intro h
    constructor
    · rintro rfl
      exact absurd (h '*' (by decide)) (by decide)
    · rintro rfl
      exact absurd (h '+' (by decide)) (by decide)
  · rintro ⟨hstar, hspace⟩ d hd
    unfold formEncodeChar at hd
    split at hd
    next hkept =>
      rw [List.mem_singleton.mp hd]
      simp only [Bool.or_eq_true, List.contains_iff_mem, List.mem_cons, List.not_mem_nil,
        or_false] at hkept
      unfold isQueryChar
      rcases hkept with halpha | rfl | rfl | rfl | rfl
      · rw [halpha, Bool.true_or]
      · exact absurd rfl hstar
      · decide
      · decide
      · decide
    · obtain ⟨b, -, hb⟩ := List.mem_flatMap.mp hd
      have hlt := b.toNat_lt
      simp only [List.mem_cons, List.not_mem_nil, or_false] at hb
      rcases hb with rfl | rfl | rfl
      · decide
      · exact hhex _ (by omega)
      · exact hhex _ (by omega)

theorem isQueryChar_formEncode_iff :
    (∀ d ∈ formEncode value, isQueryChar d = true) ↔ '*' ∉ value ∧ ' ' ∉ value := by
  have hall : (∀ d ∈ formEncode value, isQueryChar d = true) ↔
      ∀ c ∈ value, ∀ d ∈ formEncodeChar c, isQueryChar d = true := by
    simp only [formEncode, List.mem_flatMap, forall_exists_index, and_imp]
    exact ⟨fun h c hc d hd => h d c hc hd, fun h d c hc hd => h c hc d hd⟩
  rw [hall]
  simp only [isQueryChar_formEncodeChar_iff]
  constructor
  · intro h
    exact ⟨fun hmem => (h _ hmem).1 rfl, fun hmem => (h _ hmem).2 rfl⟩
  · rintro ⟨hstar, hspace⟩ c hc
    exact ⟨fun h => hstar (h ▸ hc), fun h => hspace (h ▸ hc)⟩

theorem flat_plusForSpace_iff : Flat (plusForSpace value) ↔ Flat value := by
  have hsame : ∀ c d : Char, d ≠ '+' → d ≠ ' ' → ((if c = ' ' then '+' else c) = d ↔ c = d) := by
    intro c d hplus hspace
    split
    next hc =>
      rw [hc]
      exact ⟨fun h => absurd h.symm hplus, fun h => absurd h.symm hspace⟩
    · rfl
  unfold Flat plusForSpace
  rw [includes_dots_iff, includes_dots_iff, List.isChain_map]
  simp only [hsame _ '.' (by decide) (by decide), List.mem_map,
    hsame _ '\\' (by decide) (by decide), exists_eq_right]

/-! ## Query strings -/

/-- The query string as it reads. -/
def readParams (entries : List (String × String)) : List Char :=
  ['&'].intercalate
    (entries.map fun e => plusForSpace e.1.toList ++ '=' :: plusForSpace e.2.toList)

/-- How many characters the entries have with their `?`, `&` and `=`. -/
def querySize (entries : List (String × String)) : ℕ :=
  (entries.map fun e =>
    (e.1.toList.map encodedSize).sum + (e.2.toList.map encodedSize).sum + 2).sum

variable (e : String × String) (entries : List (String × String))

theorem searchParams_cons :
    searchParams (e :: entries) = formEncode e.1.toList ++ '=' :: formEncode e.2.toList ++
      if entries = [] then [] else '&' :: searchParams entries := by
  cases entries with
  | nil | cons => simp [searchParams, List.intercalate]

theorem readParams_cons :
    readParams (e :: entries) = plusForSpace e.1.toList ++ '=' :: plusForSpace e.2.toList ++
      if entries = [] then [] else '&' :: readParams entries := by
  cases entries with
  | nil | cons => simp [readParams, List.intercalate]

theorem reads_searchParams : Reads (searchParams entries) (readParams entries) := by
  induction entries with
  | nil => exact reads_nil
  | cons e entries ih =>
    have hentry : Reads (formEncode e.1.toList ++ '=' :: formEncode e.2.toList)
        (plusForSpace e.1.toList ++ '=' :: plusForSpace e.2.toList) :=
      (reads_formEncode _).append ((reads_char (by decide)).append (reads_formEncode _))
    rw [searchParams_cons, readParams_cons]
    refine hentry.append ?_
    split
    · exact reads_nil
    · exact (reads_char (by decide)).append ih

theorem length_searchParams (h : entries ≠ []) :
    (searchParams entries).length + 1 = querySize entries := by
  induction entries with
  | nil => exact absurd rfl h
  | cons e entries ih =>
    have hsize : querySize (e :: entries) = (e.1.toList.map encodedSize).sum +
        (e.2.toList.map encodedSize).sum + 2 + querySize entries := List.sum_cons
    rw [searchParams_cons, hsize]
    simp only [List.length_append, List.length_cons, length_formEncode]
    split
    next hnil =>
      rw [hnil]
      simp only [List.length_nil, querySize, List.map_nil, List.sum_nil]
      omega
    next hne =>
      have := ih hne
      rw [List.length_cons]
      omega

theorem searchParams_isQueryChar_iff :
    (∀ c ∈ searchParams entries, isQueryChar c = true) ↔
      ∀ e ∈ entries, ('*' ∉ e.1.toList ∧ ' ' ∉ e.1.toList) ∧ '*' ∉ e.2.toList ∧
        ' ' ∉ e.2.toList := by
  have hequals : isQueryChar '=' = true := by decide
  have hampersand : isQueryChar '&' = true := by decide
  induction entries with
  | nil => simp [searchParams, List.intercalate]
  | cons e entries ih =>
    have hrest : (∀ c ∈ if entries = [] then [] else '&' :: searchParams entries,
        isQueryChar c = true) ↔ ∀ c ∈ searchParams entries, isQueryChar c = true := by
      split
      next hnil =>
        simp [hnil, searchParams, List.intercalate]
      · simp [hampersand]
    rw [searchParams_cons, List.forall_mem_append, List.forall_mem_append, List.forall_mem_cons,
      hrest.trans ih, isQueryChar_formEncode_iff, isQueryChar_formEncode_iff,
      List.forall_mem_cons]
    simp only [hequals, true_and]

theorem flat_readParams_iff :
    Flat (readParams entries) ↔ ∀ e ∈ entries, Flat e.1.toList ∧ Flat e.2.toList := by
  induction entries with
  | nil => simp [readParams, List.intercalate, Flat, includes]
  | cons e entries ih =>
    rw [readParams_cons, List.forall_mem_cons]
    split
    next hnil =>
      rw [List.append_nil, flat_separate_iff (by decide) (by decide), flat_plusForSpace_iff,
        flat_plusForSpace_iff, hnil]
      simp
    · rw [List.append_assoc, List.cons_append, flat_separate_iff (by decide) (by decide),
        flat_separate_iff (by decide) (by decide), flat_plusForSpace_iff, flat_plusForSpace_iff,
        ih, and_assoc]

end AegisShield.Gateway
