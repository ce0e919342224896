import AegisShield.Common.Trim
import AegisShield.Gateway.Url

/-!
# Cookies of the Gateway

`serializeCookie` and `readCookie` (`cookies.ts`, lines 11-25 and 66-80). `readCookie` looks for a
pair by its percent-decoded name, and `decodeURIComponent` throws at a malformed name.

Results:
* `readPairs_append`: pairs with other names are passed over, provided that their names decode.
* `readCookie_robust_iff`: when a header is read without an error, whatever else it contains.
* `malformed_cookie_throws`: a foreign pair in front of the session cookie.
-/

namespace AegisShield.Gateway

open Common Sabcl

/-! ## Model (`cookies.ts`) -/

structure CookieOptions where
  httpOnly : Bool
  secure : Bool
  maxAgeSeconds : ℚ

/-- `` `${encodeURIComponent(name)}=${encodeURIComponent(value)}` ``. -/
def cookiePair (name value : String) : String :=
  encodeURIComponent name ++ "=" ++ encodeURIComponent value

/-- `serializeCookie` (lines 11-25). -/
def serializeCookie (name value : String) (options : CookieOptions) : String :=
  "; ".intercalate
    ([cookiePair name value, "Path=/", "Max-Age=" ++ toString (max 0 ⌊options.maxAgeSeconds⌋),
        "SameSite=Lax"] ++
      (if options.httpOnly then ["HttpOnly"] else []) ++
      (if options.secure then ["Secure"] else []))

/-- What stands before the first `=`, trimmed. -/
def pairName (pair : List Char) : List Char := trimBy isWhiteSpace (pair.takeWhile (· ≠ '='))

/-- What stands after it, trimmed. -/
def pairValue (pair : List Char) : List Char :=
  trimBy isWhiteSpace (pair.dropWhile (· ≠ '=')).tail

/-- The loop of `readCookie` (lines 71-78); `none` for a `URIError`. -/
def readPairs (name : List Char) : List (List Char) → Option (List Char)
  | [] => some []
  | pair :: pairs =>
    if '=' ∈ pair then
      match decodeURIComponent (pairName pair) with
      | none => none
      | some candidateName =>
        if candidateName = name then decodeURIComponent (pairValue pair) else readPairs name pairs
    else readPairs name pairs

/-- `readCookie` (lines 66-80). -/
def readCookie (requestCookie : Option String) (name : String) : Option String :=
  match requestCookie with
  | none => some ""
  | some header =>
    if header = "" then some ""
    else (readPairs name.toList (header.toList.splitOn ';')).map String.ofList

/-! ## Pairs -/

/-- The pair has the name. -/
def Named (name pair : List Char) : Prop :=
  '=' ∈ pair ∧ decodeURIComponent (pairName pair) = some name

/-- The pair is read without an error. -/
def Decodes (name pair : List Char) : Prop :=
  '=' ∈ pair → (decodeURIComponent (pairName pair)).isSome = true ∧
    (Named name pair → (decodeURIComponent (pairValue pair)).isSome = true)

/-- Every pair up to the first one of the name is read without an error. -/
def Readable (name : List Char) (pairs : List (List Char)) : Prop :=
  ∀ before pair after, pairs = before ++ pair :: after → (∀ other ∈ before, ¬ Named name other) →
    Decodes name pair

section Pairs

variable {name pair : List Char} {before pairs : List (List Char)}

theorem readPairs_of_named (h : Named name pair) :
    readPairs name (pair :: pairs) = decodeURIComponent (pairValue pair) := by
  simp only [readPairs, if_pos h.1, h.2, if_true]

theorem readPairs_of_other (h : ¬ Named name pair)
    (hdecodes : '=' ∈ pair → (decodeURIComponent (pairName pair)).isSome = true) :
    readPairs name (pair :: pairs) = readPairs name pairs := by
  by_cases hequals : '=' ∈ pair
  · obtain ⟨candidateName, hcandidate⟩ := Option.isSome_iff_exists.mp (hdecodes hequals)
    have hne : candidateName ≠ name := by
      rintro rfl
      exact h ⟨hequals, hcandidate⟩
    simp only [readPairs, if_pos hequals, hcandidate, if_neg hne]
  · rw [readPairs, if_neg hequals]

/-- Pairs with other names are passed over, provided that their names decode. -/
theorem readPairs_append (hothers : ∀ other ∈ before, ¬ Named name other)
    (hdecodes : ∀ other ∈ before,
      '=' ∈ other → (decodeURIComponent (pairName other)).isSome = true) :
    readPairs name (before ++ pairs) = readPairs name pairs := by
  induction before with
  | nil => rfl
  | cons other before ih =>
    rw [List.cons_append, readPairs_of_other (hothers other List.mem_cons_self)
      (hdecodes other List.mem_cons_self)]
    exact ih (fun q hq => hothers q (List.mem_cons_of_mem other hq))
      fun q hq => hdecodes q (List.mem_cons_of_mem other hq)

theorem readable_cons : Readable name (pair :: pairs) ↔
    Decodes name pair ∧ (¬ Named name pair → Readable name pairs) := by
  constructor
  · intro h
    refine ⟨h [] pair pairs rfl (by simp), fun hother before q after hpairs hothers => ?_⟩
    refine h (pair :: before) q after (by rw [hpairs]; rfl) fun r hr => ?_
    rcases List.mem_cons.mp hr with rfl | hr
    · exact hother
    · exact hothers r hr
  · rintro ⟨hpair, hpairs⟩ before q after heq hothers
    cases before with
    | nil =>
      obtain ⟨rfl, -⟩ := List.cons.inj heq
      exact hpair
    | cons r before =>
      obtain ⟨rfl, htail⟩ := List.cons.inj heq
      exact hpairs (hothers _ List.mem_cons_self) before q after htail
        fun s hs => hothers s (List.mem_cons_of_mem _ hs)

/-- The loop throws exactly at a pair that it reads and that does not decode. -/
theorem isSome_readPairs_iff : (readPairs name pairs).isSome = true ↔ Readable name pairs := by
  induction pairs with
  | nil =>
    refine ⟨fun _ before pair after h => ?_, fun _ => rfl⟩
    exact absurd h (by simp)
  | cons pair pairs ih =>
    rw [readable_cons]
    by_cases hnamed : Named name pair
    · rw [readPairs_of_named hnamed]
      constructor
      · intro hvalue
        exact ⟨fun _ => ⟨by rw [hnamed.2]; rfl, fun _ => hvalue⟩, fun h => absurd hnamed h⟩
      · intro h
        exact (h.1 hnamed.1).2 hnamed
    · by_cases hdecodes : '=' ∈ pair → (decodeURIComponent (pairName pair)).isSome = true
      · rw [readPairs_of_other hnamed hdecodes, ih]
        constructor
        · intro h
          exact ⟨fun hequals => ⟨hdecodes hequals, fun h => absurd h hnamed⟩, fun _ => h⟩
        · intro h
          exact h.2 hnamed
      · obtain ⟨hequals, hnone⟩ := Classical.not_imp.mp hdecodes
        constructor
        · intro h
          rw [readPairs, if_pos hequals] at h
          cases hname : decodeURIComponent (pairName pair) with
          | none => simp [hname] at h
          | some candidateName => simp [hname] at hnone
        · intro h
          exact absurd (h.1 hequals).1 hnone

end Pairs

/-! ## The pair that the Gateway set -/

theorem uriChar_ne {c d : Char} (hc : isUriChar c = true) (hd : isUriChar d = false) : c ≠ d := by
  rintro rfl
  rw [hc] at hd
  cases hd

/-- A pair as `serializeCookie` writes it, with any spacing. -/
def Emitted (name value : String) (segment : List Char) : Prop :=
  ∃ s₁ s₂ s₃ s₄ : List Char, (∀ c ∈ s₁ ++ s₂ ++ s₃ ++ s₄, isWhiteSpace c = true) ∧
    segment = s₁ ++ (encodeURIComponent name).toList ++ s₂ ++
      '=' :: (s₃ ++ (encodeURIComponent value).toList ++ s₄)

theorem trimBy_encoded {before after : List Char} (text : String)
    (hbefore : ∀ c ∈ before, isWhiteSpace c = true) (hafter : ∀ c ∈ after, isWhiteSpace c = true) :
    trimBy isWhiteSpace (before ++ (encodeURIComponent text).toList ++ after) =
      (encodeURIComponent text).toList := by
  rw [trimBy_append hbefore hafter]
  refine trimBy_eq_self_of_forall fun c hc => ?_
  have hchar := toNat_of_isUriChar (isUriChar_encodeURIComponent text c hc)
  exact isWhiteSpace_visible hchar.1 hchar.2

theorem Emitted.read {name value : String} {segment : List Char} (h : Emitted name value segment) :
    Named name.toList segment ∧
      decodeURIComponent (pairValue segment) = some value.toList := by
  obtain ⟨s₁, s₂, s₃, s₄, hspaces, rfl⟩ := h
  simp only [List.forall_mem_append] at hspaces
  obtain ⟨⟨⟨h₁, h₂⟩, h₃⟩, h₄⟩ := hspaces
  have hfront : ∀ c ∈ s₁ ++ (encodeURIComponent name).toList ++ s₂, c ≠ '=' := by
    have hspace : ∀ c, isWhiteSpace c = true → c ≠ '=' := by
      rintro c hc rfl
      exact absurd hc (by decide)
    intro c hc
    rcases List.mem_append.mp hc with hc | hc
    · rcases List.mem_append.mp hc with hc | hc
      · exact hspace c (h₁ c hc)
      · exact uriChar_ne (isUriChar_encodeURIComponent name c hc) (by decide)
    · exact hspace c (h₂ c hc)
  have htake : ∀ tail : List Char,
      (s₁ ++ (encodeURIComponent name).toList ++ s₂ ++ '=' :: tail).takeWhile (· ≠ '=') =
        s₁ ++ (encodeURIComponent name).toList ++ s₂ := by
    intro tail
    rw [List.takeWhile_append_of_pos (by simpa using hfront)]
    simp
  have hdrop : ∀ tail : List Char,
      (s₁ ++ (encodeURIComponent name).toList ++ s₂ ++ '=' :: tail).dropWhile (· ≠ '=') =
        '=' :: tail := by
    intro tail
    rw [List.dropWhile_append_of_pos (by simpa using hfront)]
    simp
  refine ⟨⟨by simp, ?_⟩, ?_⟩
  · rw [pairName, htake, trimBy_encoded name h₁ h₂]
    exact decodeURIComponent_eq (reads_encodeURIComponent name)
  · rw [pairValue, hdrop, List.tail_cons, trimBy_encoded value h₃ h₄]
    exact decodeURIComponent_eq (reads_encodeURIComponent value)

/-! ## Headers -/

/-- Where the header contains the pair of a value that the Gateway set, and no other pair of that
    name, that value is read. -/
def ReturnsEmitted (header name : String) : Prop :=
  ∀ (value : String) (before : List (List Char)) (segment : List Char) (after : List (List Char)),
    header.toList.splitOn ';' = before ++ segment :: after → Emitted name value segment →
      (∀ other ∈ before ++ after, ¬ Named name.toList other) →
      readCookie (some header) name = some value

theorem isSome_readCookie_iff {header name : String} :
    (readCookie (some header) name).isSome = true ↔
      Readable name.toList (header.toList.splitOn ';') := by
  unfold readCookie
  by_cases hempty : header = ""
  · subst hempty
    refine ⟨fun _ before pair after heq _ hequals => ?_, fun _ => by simp⟩
    have hpair : pair ∈ ("".toList.splitOn ';') := by
      rw [heq]
      simp
    have hnil : pair = [] := by simpa using hpair
    rw [hnil] at hequals
    cases hequals
  · simp only [if_neg hempty, Option.isSome_map]
    exact isSome_readPairs_iff

/-- The pair is found when the names in front of it decode. -/
theorem returnsEmitted_of_readable {header name : String}
    (h : Readable name.toList (header.toList.splitOn ';')) : ReturnsEmitted header name := by
  intro value before segment after heq hemitted hothers
  obtain ⟨hnamed, hvalue⟩ := hemitted.read
  have hbefore : ∀ other ∈ before, ¬ Named name.toList other := fun other hother =>
    hothers other (List.mem_append_left after hother)
  have hdecodes : ∀ other ∈ before,
      '=' ∈ other → (decodeURIComponent (pairName other)).isSome = true := by
    intro other hother hequals
    obtain ⟨front, back, rfl⟩ := List.append_of_mem hother
    have hpairs : header.toList.splitOn ';' = front ++ other :: (back ++ segment :: after) := by
      rw [heq]
      simp
    exact (h front other _ hpairs (fun r hr => hbefore r (List.mem_append_left _ hr)) hequals).1
  have hne : header ≠ "" := by
    rintro rfl
    have hsegment : segment ∈ ("".toList.splitOn ';') := by
      rw [heq]
      simp
    have hnil : segment = [] := by simpa using hsegment
    rw [hnil] at hnamed
    cases hnamed.1
  unfold readCookie
  simp only [if_neg hne]
  rw [heq, readPairs_append hbefore hdecodes, readPairs_of_named hnamed, hvalue,
    Option.map_some, String.ofList_toList]

/-- `readCookie` reads a header without an error, and finds what the Gateway set, exactly when
    every pair up to the first one of the name decodes. -/
theorem readCookie_robust_iff (header name : String) :
    (readCookie (some header) name ≠ none ∧ ReturnsEmitted header name) ↔
      Readable name.toList (header.toList.splitOn ';') := by
  rw [← isSome_readCookie_iff, Option.isSome_iff_ne_none]
  refine ⟨And.left, fun h => ⟨h, returnsEmitted_of_readable ?_⟩⟩
  exact isSome_readCookie_iff.mp (Option.isSome_iff_ne_none.mpr h)

/-- A pair whose name does not decode, in front of the session cookie. -/
theorem malformed_cookie_throws : ¬ ∀ header name : String,
    readCookie (some header) name ≠ none ∧ ReturnsEmitted header name := by
  intro h
  exact (h "%zz=1; aegis_session=right" "aegis_session").1 (by decide)

end AegisShield.Gateway
