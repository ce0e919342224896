import Mathlib

/-!
# URLs of HTTP servers

The WHATWG rules for an input that names a path on its base: the base is an `http` or
`https` URL, the input starts with one slash. Every other input (an authority, a scheme,
a path relative to that of the base) is left to a parameter.

Results:
* `parse_path`: a path without dots, escapes and characters that are encoded is kept as
  it is, and what follows its `?` is the query.
* `parse_search`: any text may follow the `?`, and the path stays.
* `percentDecode_escape`, `percentDecode_char`: the bytes that a text stands for.
-/

namespace AegisShield.Common.WebUrl

/-! ## URL records -/

inductive Scheme where
  | http
  | https
  deriving DecidableEq

/-- A URL whose scheme is `http` or `https`; `path` are its segments. -/
structure Url where
  scheme : Scheme
  username : String
  password : String
  host : String
  port : Option ℕ
  path : List (List Char)
  query : Option (List Char)
  fragment : Option (List Char)
  deriving DecidableEq

/-- `url.origin`. -/
def Url.origin (url : Url) : Scheme × String × Option ℕ := (url.scheme, url.host, url.port)

/-- `url.pathname`. -/
def Url.pathname (url : Url) : List Char := url.path.flatMap ('/' :: ·)

/-- A query as it stands in a URL, with its `?`. -/
def queryText : Option (List Char) → List Char
  | none => []
  | some query => '?' :: query

/-! ## Percent-encoding -/

/-- An upper-case hexadecimal digit. -/
def hexDigit (n : ℕ) : Char := "0123456789ABCDEF".toList.getD n '0'

/-- The value of a hexadecimal digit. -/
def hexValue (c : Char) : Option ℕ :=
  if c.isDigit then some (c.toNat - '0'.toNat)
  else if 'a' ≤ c ∧ c ≤ 'f' then some (c.toNat - 'a'.toNat + 10)
  else if 'A' ≤ c ∧ c ≤ 'F' then some (c.toNat - 'A'.toNat + 10)
  else none

def percentEncodeByte (b : UInt8) : List Char :=
  ['%', hexDigit (b.toNat / 16), hexDigit (b.toNat % 16)]

/-- A character, percent-encoded when it belongs to a set. -/
def utf8PercentEncode (set : Char → Bool) (c : Char) : List Char :=
  if set c then (String.utf8EncodeChar c).flatMap percentEncodeByte else [c]

/-- The C0 control percent-encode set. -/
def c0ControlSet (c : Char) : Bool := c.toNat ≤ 0x1F || 0x7E < c.toNat

/-- The fragment percent-encode set. -/
def fragmentSet (c : Char) : Bool := c0ControlSet c || [' ', '"', '<', '>', Char.ofNat 96].contains c

/-- The special-query percent-encode set; the character 39 is the apostrophe. -/
def specialQuerySet (c : Char) : Bool :=
  c0ControlSet c || [' ', '"', '#', '<', '>', Char.ofNat 39].contains c

/-- The path percent-encode set; the characters 96, 123 and 125 are the backtick and the braces. -/
def pathSet (c : Char) : Bool :=
  c0ControlSet c ||
    [' ', '"', '#', '<', '>', '?', '^', Char.ofNat 96, Char.ofNat 123, Char.ofNat 125].contains c

/-- Two hexadecimal digits. -/
def startsHex : List Char → Bool
  | a :: b :: _ => (hexValue a).isSome && (hexValue b).isSome
  | _ => false

/-- The bytes of a text in which each `%` before two hexadecimal digits stands for a byte. -/
def percentDecode : List Char → List UInt8
  | [] => []
  | '%' :: a :: b :: rest =>
    match hexValue a, hexValue b with
    | some high, some low => UInt8.ofNat (16 * high + low) :: percentDecode rest
    | _, _ => String.utf8EncodeChar '%' ++ percentDecode (a :: b :: rest)
  | c :: rest => String.utf8EncodeChar c ++ percentDecode rest

/-! ## The parser -/

/-- C0 controls and the space. -/
def isStripped (c : Char) : Bool := c.toNat ≤ 0x20

def isTabOrNewline (c : Char) : Bool := c == '\t' || c == '\n' || c == '\r'

def isSlash (c : Char) : Bool := c == '/' || c == '\\'

/-- What the parser removes from its input first. -/
def clean (input : List Char) : List Char :=
  ((input.dropWhile isStripped).rdropWhile isStripped).filter fun c => !isTabOrNewline c

/-- The single-dot path segments. -/
def singleDots : List (List Char) := [".", "%2e", "%2E"].map String.toList

/-- The double-dot path segments. -/
def doubleDots : List (List Char) :=
  ["..", ".%2e", ".%2E", "%2e.", "%2E.", "%2e%2e", "%2e%2E", "%2E%2e", "%2E%2E"].map String.toList

/-- The path after a segment; `more` says whether a slash ends it. -/
def closeSegment (path : List (List Char)) (segment : List Char) (more : Bool) :
    List (List Char) :=
  if doubleDots.contains segment then if more then path.dropLast else path.dropLast ++ [[]]
  else if singleDots.contains segment then if more then path else path ++ [[]]
  else path ++ [segment]

/-- The path state: the segments, and the input from its `?` or `#` on. -/
def pathState (path : List (List Char)) (segment : List Char) :
    List Char → List (List Char) × List Char
  | [] => (closeSegment path segment false, [])
  | c :: rest =>
    if isSlash c then pathState (closeSegment path segment true) [] rest
    else if c = '?' ∨ c = '#' then (closeSegment path segment false, c :: rest)
    else pathState path (segment ++ utf8PercentEncode pathSet c) rest

/-- The query of the input from the end of the path on. -/
def queryState : List Char → Option (List Char)
  | '?' :: rest => some ((rest.takeWhile (· ≠ '#')).flatMap (utf8PercentEncode specialQuerySet))
  | _ => none

/-- The fragment of the input from the end of the path on. -/
def fragmentState (tail : List Char) : Option (List Char) :=
  match tail.dropWhile (· ≠ '#') with
  | _ :: rest => some (rest.flatMap (utf8PercentEncode fragmentSet))
  | [] => none

/-- `new URL(input, base)`; `elsewhere` is the parser on a cleaned input that does not
    name a path on the base. -/
def parse (elsewhere : List Char → Option Url) (base : Url) (input : List Char) : Option Url :=
  match clean input with
  | [] => elsewhere []
  | c :: rest =>
    if isSlash c && !rest.head?.any isSlash then
      let (path, tail) := pathState [] [] rest
      some { base with path := path, query := queryState tail, fragment := fragmentState tail }
    else elsewhere (c :: rest)

/-! ## Paths -/

/-- A character that stays as it is in a path segment and does not end one. -/
def isPlain (c : Char) : Bool :=
  !pathSet c && !(['.', '%', '/', '\\'].contains c)

/-- Text that is a path without dots, escapes and characters that are encoded. -/
def IsPlainPath (text : List Char) : Prop := ∀ c ∈ text, c = '/' ∨ isPlain c = true

variable {c d : Char}

theorem plain_ne (h : isPlain c = true) (hd : isPlain d = false) : c ≠ d := by
  rintro rfl
  rw [h] at hd
  cases hd

theorem plain_not_pathSet (h : isPlain c = true) : pathSet c = false := by
  unfold isPlain at h
  rw [Bool.and_eq_true, Bool.not_eq_true'] at h
  exact h.1

theorem isStripped_of_kept (h : c0ControlSet c = false) (hspace : c ≠ ' ') :
    isStripped c = false := by
  unfold c0ControlSet at h
  unfold isStripped
  simp only [Bool.or_eq_false_iff, decide_eq_false_iff_not] at h ⊢
  intro hle
  have heq : c.toNat = ' '.toNat := by
    have hspaceNat : ' '.toNat = 32 := by decide
    omega
  exact hspace (Char.toNat_inj.mp heq)

theorem isStripped_of_plain (h : isPlain c = true) : isStripped c = false :=
  isStripped_of_kept (Bool.or_eq_false_iff.mp (plain_not_pathSet h)).1 (plain_ne h (by decide))

/-- A segment of plain characters is not a dot segment. -/
theorem closeSegment_plain {segment : List Char} (h : ∀ c ∈ segment, isPlain c = true)
    (path : List (List Char)) (more : Bool) :
    closeSegment path segment more = path ++ [segment] := by
  have hdots : ∀ dots ∈ singleDots ++ doubleDots,
      dots.head? = some '.' ∨ dots.head? = some '%' := by decide
  have hne : segment ∉ singleDots ++ doubleDots := by
    intro hmem
    rcases hdots segment hmem with hdot | hdot
    · exact absurd (h _ (List.mem_of_head? hdot)) (by decide)
    · exact absurd (h _ (List.mem_of_head? hdot)) (by decide)
  rw [List.mem_append, not_or] at hne
  unfold closeSegment
  rw [if_neg (by simpa using hne.2), if_neg (by simpa using hne.1)]

/-- The path state keeps plain text, up to a query or the end of the input. -/
theorem pathState_plain {text tail : List Char} (htext : IsPlainPath text)
    (htail : ∀ c ∈ tail.head?, c = '?') (path : List (List Char)) (segment : List Char)
    (hsegment : ∀ c ∈ segment, isPlain c = true) :
    (pathState path segment (text ++ tail)).1.flatMap ('/' :: ·) =
        path.flatMap ('/' :: ·) ++ '/' :: segment ++ text ∧
      (pathState path segment (text ++ tail)).2 = tail := by
  induction text generalizing path segment with
  | nil =>
    cases tail with
    | nil =>
      rw [List.append_nil, pathState, closeSegment_plain hsegment]
      simp
    | cons c tail =>
      obtain rfl := htail c rfl
      rw [List.nil_append, pathState, if_neg (by decide), if_pos (.inl rfl),
        closeSegment_plain hsegment]
      simp
  | cons c text ih =>
    have hrest : IsPlainPath text := fun d hd => htext d (List.mem_cons_of_mem _ hd)
    rcases htext c List.mem_cons_self with rfl | hc
    · rw [List.cons_append, pathState, if_pos (by decide), closeSegment_plain hsegment]
      obtain ⟨hpath, htail'⟩ := ih hrest (path ++ [segment]) [] (by simp)
      refine ⟨?_, htail'⟩
      rw [hpath]
      simp
    · have hslash : isSlash c = false := by
        unfold isSlash
        simp [plain_ne hc (d := '/') (by decide), plain_ne hc (d := '\\') (by decide)]
      have hend : ¬ (c = '?' ∨ c = '#') := by
        rintro (rfl | rfl)
        · exact absurd hc (by decide)
        · exact absurd hc (by decide)
      rw [List.cons_append, pathState, if_neg (by simp [hslash]), if_neg hend, utf8PercentEncode,
        if_neg (by simp [plain_not_pathSet hc])]
      obtain ⟨hpath, htail'⟩ := ih hrest path (segment ++ [c]) (by
        intro d hd
        rcases List.mem_append.mp hd with hd | hd
        · exact hsegment d hd
        · rw [List.mem_singleton.mp hd]
          exact hc)
      refine ⟨?_, htail'⟩
      rw [hpath]
      simp

theorem rdropWhile_append_cons {α : Type*} {p : α → Bool} {a : α} (ha : p a = false)
    (front rest : List α) :
    (front ++ a :: rest).rdropWhile p = front ++ a :: rest.rdropWhile p := by
  induction rest using List.reverseRecOn with
  | nil =>
    rw [List.rdropWhile_concat_neg _ _ _ (by simp [ha]), List.rdropWhile_nil]
  | append_singleton rest b ih =>
    have hassoc : front ++ a :: (rest ++ [b]) = (front ++ a :: rest) ++ [b] := by simp
    by_cases hb : p b = true
    · rw [hassoc, List.rdropWhile_concat_pos _ _ _ hb, List.rdropWhile_concat_pos _ _ _ hb, ih]
    · rw [hassoc, List.rdropWhile_concat_neg _ _ _ hb, List.rdropWhile_concat_neg _ _ _ hb]
      simp

theorem not_tabOrNewline (h : isStripped c = false) : isTabOrNewline c = false := by
  unfold isTabOrNewline
  rw [← Bool.not_eq_true]
  simp only [Bool.or_eq_true, beq_iff_eq]
  rintro ((rfl | rfl) | rfl)
  iterate 3
    · exact absurd h (by decide)

theorem filter_visible {text : List Char} (h : ∀ c ∈ text, isStripped c = false) :
    (text.filter fun c => !isTabOrNewline c) = text := by
  rw [List.filter_eq_self]
  intro c hc
  rw [not_tabOrNewline (h c hc)]
  rfl

/-- Text without blanks and controls is left alone; behind it only the end of the input
    and the tabs and newlines are cleaned. -/
theorem clean_visible {text rest : List Char}
    (htext : ∀ e ∈ c :: text, isStripped e = false) (hd : isStripped d = false) :
    clean (c :: text ++ d :: rest) =
      c :: text ++ d :: (rest.rdropWhile isStripped).filter fun e => !isTabOrNewline e := by
  have hc := htext c List.mem_cons_self
  unfold clean
  rw [List.cons_append, List.dropWhile_cons_of_neg (by simp [hc]), ← List.cons_append,
    rdropWhile_append_cons hd, List.filter_append, filter_visible htext,
    List.filter_cons_of_pos (by simp [not_tabOrNewline hd])]

theorem clean_eq_self {text : List Char} (h : ∀ c ∈ text, isStripped c = false) :
    clean text = text := by
  have hdrop : text.dropWhile isStripped = text := by
    cases text with
    | nil => rfl
    | cons c text => exact List.dropWhile_cons_of_neg (by simp [h c List.mem_cons_self])
  unfold clean
  rw [hdrop, List.rdropWhile_eq_self_iff.mpr, filter_visible h]
  intro hne
  rw [h _ (List.getLast_mem hne)]
  exact Bool.false_ne_true

variable (elsewhere : List Char → Option Url) (base : Url) {text : List Char}

/-- The parser after the first slash of a plain path. -/
theorem parse_cleaned {input : List Char} (tail : List Char) (htext : IsPlainPath text)
    (hhead : ∀ c ∈ text.head?, c ≠ '/') (htail : ∀ c ∈ tail.head?, c = '?')
    (hclean : clean input = '/' :: text ++ tail) :
    ∃ path, path.flatMap ('/' :: ·) = '/' :: text ∧
      parse elsewhere base input = some { base with
        path := path, query := queryState tail, fragment := fragmentState tail } := by
  obtain ⟨hpath, hend⟩ := pathState_plain htext htail [] [] (by simp)
  refine ⟨(pathState [] [] (text ++ tail)).1, by simpa using hpath, ?_⟩
  have hslash : (text ++ tail).head?.any isSlash = false := by
    cases text with
    | nil =>
      cases tail with
      | nil => rfl
      | cons c tail =>
        obtain rfl := htail c rfl
        rfl
    | cons c text =>
      have hc := (htext c List.mem_cons_self).resolve_left (hhead c rfl)
      have hne : c ≠ '/' ∧ c ≠ '\\' := ⟨plain_ne hc (by decide), plain_ne hc (by decide)⟩
      simp [isSlash, hne]
  unfold parse
  rw [hclean]
  simp only [List.cons_append, hslash, hend]
  rfl

theorem isStripped_path (htext : IsPlainPath text) : ∀ e ∈ '/' :: text, isStripped e = false := by
  intro e he
  rcases List.mem_cons.mp he with rfl | he
  · rfl
  · exact (htext e he).elim (fun h => h ▸ rfl) isStripped_of_plain

theorem flatMap_encode {set : Char → Bool} (h : ∀ c ∈ text, set c = false) :
    text.flatMap (utf8PercentEncode set) = text := by
  induction text with
  | nil => rfl
  | cons c text ih =>
    rw [List.flatMap_cons, utf8PercentEncode, if_neg (by simp [h c List.mem_cons_self]),
      ih fun d hd => h d (List.mem_cons_of_mem _ hd)]
    rfl

theorem ne_hash (h : specialQuerySet c = false) : c ≠ '#' := by
  rintro rfl
  exact absurd h (by decide)

theorem isStripped_query (h : specialQuerySet c = false) : isStripped c = false := by
  have hspace : c ≠ ' ' := by
    rintro rfl
    exact absurd h (by decide)
  exact isStripped_of_kept (Bool.or_eq_false_iff.mp h).1 hspace

/-- A plain path with a query that holds no character that is encoded is kept as it is. -/
theorem parse_path {query : Option (List Char)} (htext : IsPlainPath text)
    (hhead : ∀ c ∈ text.head?, c ≠ '/')
    (hquery : ∀ q ∈ query, ∀ c ∈ q, specialQuerySet c = false) :
    ∃ path, path.flatMap ('/' :: ·) = '/' :: text ∧
      parse elsewhere base ('/' :: text ++ queryText query) =
        some { base with path := path, query := query, fragment := none } := by
  have hvisible := isStripped_path htext
  cases query with
  | none =>
    obtain ⟨path, hpath, hparse⟩ := parse_cleaned elsewhere base [] htext hhead (by simp)
      (by rw [List.append_nil, clean_eq_self hvisible])
    refine ⟨path, hpath, ?_⟩
    rw [queryText, List.append_nil, hparse]
    rfl
  | some q =>
    have hq := hquery q rfl
    have hclean : clean ('/' :: text ++ '?' :: q) = '/' :: text ++ '?' :: q := by
      refine clean_eq_self fun c hc => ?_
      rcases List.mem_append.mp hc with hc | hc
      · exact hvisible c hc
      · rcases List.mem_cons.mp hc with rfl | hc
        · rfl
        · exact isStripped_query (hq c hc)
    have hkept : q.takeWhile (· ≠ '#') = q :=
      List.takeWhile_eq_self_iff.mpr fun c hc => decide_eq_true (ne_hash (hq c hc))
    have hend : ('?' :: q).dropWhile (· ≠ '#') = [] := by
      refine List.dropWhile_eq_nil_iff.mpr fun c hc => decide_eq_true ?_
      rcases List.mem_cons.mp hc with rfl | hc
      · decide
      · exact ne_hash (hq c hc)
    obtain ⟨path, hpath, hparse⟩ := parse_cleaned elsewhere base ('?' :: q) htext hhead (by simp)
      hclean
    refine ⟨path, hpath, ?_⟩
    rw [queryText, hparse, queryState, hkept, flatMap_encode hq, fragmentState, hend]

/-- A plain path with any text after its `?`. -/
theorem parse_search (htext : IsPlainPath text) (hhead : ∀ c ∈ text.head?, c ≠ '/')
    (rest : List Char) :
    ∃ path fragment, path.flatMap ('/' :: ·) = '/' :: text ∧
      parse elsewhere base ('/' :: text ++ '?' :: rest) =
        some { base with
          path := path
          query := queryState
            ('?' :: (rest.rdropWhile isStripped).filter fun c => !isTabOrNewline c)
          fragment := fragment } := by
  obtain ⟨path, hpath, hparse⟩ := parse_cleaned elsewhere base
    ('?' :: (rest.rdropWhile isStripped).filter fun c => !isTabOrNewline c) htext hhead (by simp)
    (clean_visible (isStripped_path htext) rfl)
  exact ⟨path, _, hpath, hparse⟩

/-! ## Percent-decoding -/

theorem hexValue_hexDigit {n : ℕ} (hn : n < 16) : hexValue (hexDigit n) = some n := by
  have hall : ∀ k : Fin 16, hexValue (hexDigit k.val) = some k.val := by decide
  exact hall ⟨n, hn⟩

/-- An escape is decoded to its byte. -/
theorem percentDecode_escape {a b : Char} {high low : ℕ} (ha : hexValue a = some high)
    (hb : hexValue b = some low) (rest : List Char) :
    percentDecode ('%' :: a :: b :: rest) =
      UInt8.ofNat (16 * high + low) :: percentDecode rest := by
  simp only [percentDecode, ha, hb]

/-- Every other character stands for itself. -/
theorem percentDecode_char {rest : List Char} (h : ¬ (c = '%' ∧ startsHex rest = true)) :
    percentDecode (c :: rest) = String.utf8EncodeChar c ++ percentDecode rest := by
  by_cases hc : c = '%'
  · subst hc
    have hrest : startsHex rest = false := by simpa using h
    rcases rest with _ | ⟨a, _ | ⟨b, rest⟩⟩
    · rfl
    · rfl
    · rcases ha : hexValue a with _ | high
      · simp only [percentDecode, ha]
      · rcases hb : hexValue b with _ | low
        · simp only [percentDecode, ha, hb]
        · simp only [startsHex, ha, hb] at hrest
          cases hrest
  · rcases rest with _ | ⟨a, _ | ⟨b, rest⟩⟩
    · simp [percentDecode]
    · simp [percentDecode]
    · simp [percentDecode, hc]

/-- A text is empty, or starts with an escape, or starts with another character. -/
theorem escape_induction {motive : List Char → Prop} (nil : motive [])
    (escape : ∀ a b high low rest, hexValue a = some high → hexValue b = some low →
      motive rest → motive ('%' :: a :: b :: rest))
    (char : ∀ c rest, ¬ (c = '%' ∧ startsHex rest = true) → motive rest → motive (c :: rest)) :
    ∀ text, motive text
  | [] => nil
  | c :: rest => by
    by_cases h : c = '%' ∧ startsHex rest = true
    · obtain ⟨rfl, hhex⟩ := h
      rcases rest with _ | ⟨a, _ | ⟨b, rest⟩⟩
      · cases hhex
      · cases hhex
      · obtain ⟨ha, hb⟩ := Bool.and_eq_true_iff.mp hhex
        obtain ⟨high, ha⟩ := Option.isSome_iff_exists.mp ha
        obtain ⟨low, hb⟩ := Option.isSome_iff_exists.mp hb
        exact escape a b high low rest ha hb (escape_induction nil escape char rest)
    · exact char c rest h (escape_induction nil escape char rest)

theorem percentDecode_percentEncodeByte (bytes : List UInt8) (rest : List Char) :
    percentDecode (bytes.flatMap percentEncodeByte ++ rest) = bytes ++ percentDecode rest := by
  induction bytes with
  | nil => rfl
  | cons b bytes ih =>
    have hb := b.toNat_lt
    have hsum : 16 * (b.toNat / 16) + b.toNat % 16 = b.toNat := Nat.div_add_mod _ _
    rw [List.flatMap_cons, List.append_assoc, percentEncodeByte, List.cons_append, List.cons_append,
      List.cons_append, List.nil_append, percentDecode_escape (hexValue_hexDigit (by omega))
        (hexValue_hexDigit (by omega)), ih, hsum, UInt8.ofNat_toNat, List.cons_append]

variable {set : Char → Bool}

theorem startsHex_percent (rest : List Char) : startsHex ('%' :: rest) = false := by
  rcases rest with _ | ⟨b, rest⟩ <;> rfl

theorem encoded_head (hc : set c = true) :
    ∃ tail, utf8PercentEncode set c = '%' :: tail := by
  unfold utf8PercentEncode
  rw [if_pos hc]
  rcases hbytes : String.utf8EncodeChar c with _ | ⟨b, bytes⟩
  · have hlength := String.length_utf8EncodeChar c
    rw [hbytes] at hlength
    exact absurd hlength.symm c.utf8Size_pos.ne'
  · exact ⟨_, rfl⟩

/-- The encoding of a text starts with two hexadecimal digits only if the text does. -/
theorem startsHex_encoded (h : startsHex (text.flatMap (utf8PercentEncode set)) = true) :
    startsHex text = true := by
  rcases text with _ | ⟨a, text⟩
  · exact h
  rw [List.flatMap_cons] at h
  by_cases ha : set a = true
  · -- an escape starts with a percent sign, which is no digit
    obtain ⟨tail, htail⟩ := encoded_head ha
    rw [htail, List.cons_append, startsHex_percent] at h
    cases h
  · rw [utf8PercentEncode, if_neg ha, List.singleton_append] at h
    rcases text with _ | ⟨b, text⟩
    · exact h
    rw [List.flatMap_cons] at h
    by_cases hb : set b = true
    · obtain ⟨tail, htail⟩ := encoded_head hb
      rw [htail, List.cons_append] at h
      exact absurd (Bool.and_eq_true_iff.mp h).2 (by decide)
    · rw [utf8PercentEncode, if_neg hb] at h
      exact h

end AegisShield.Common.WebUrl
