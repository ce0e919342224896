import AegisShield.Common.ReplaceAll
import AegisShield.Common.Trim
import AegisShield.Common.UrlAuthority
import AegisShield.Resilience.Backup
import AegisShield.Sabcl.Capability

/-!
# Redaction

`redact` (`dr-lib.mjs`), which `run` applies to what a failing command wrote, against the URLs that
`connectionParts` accepts. A text is the list of its code points; what `run` redacts is decoded
UTF-8, which has no lone surrogates.

Results:
* `scans_endsRun`: the first pattern reads a text that ends in a slash or in white space in the
  same way whatever follows.
* `redact_hides_iff`: where in a text, and for which userinfos, the redaction does not depend on the
  userinfo of a URL.

**Deviation.** The first pattern stops at the first `@` and at white space, the URL parser at the
last `@`: the end of a password with an `@` is printed (`printed_password`).
-/

namespace AegisShield.Resilience

open Common JsonText
open Common.WebUrl (isTabOrNewline endsAuthority parseNotSpecial)

/-! ## The patterns -/

/-- The letter that a character matches under the flags `iu`: the simple case folding. -/
def foldCase (c : Char) : Char :=
  if c = Char.ofNat 0x17F then 's' else if c = Char.ofNat 0x212A then 'k' else c.toLower

/-- `[a-z]`. -/
def isLetter (c : Char) : Bool := (foldCase c).isLower

/-- `[a-z0-9+.-]`. -/
def inScheme (c : Char) : Bool := isLetter c || c.isDigit || ['+', '.', '-'].contains c

/-- `\w`, of which `\b` is the boundary. -/
def isWord (c : Char) : Bool := isLetter c || c.isDigit || c == '_'

/-- `[^\s/@]`. -/
def isSecret (c : Char) : Bool := !(isWhiteSpace c || c == '/' || c == '@')

/-- `[^\s/@:]`. -/
def isUser (c : Char) : Bool := isSecret c && c != ':'

/-- `[^\s&]`. -/
def isValue (c : Char) : Bool := !(isWhiteSpace c || c == '&')

def separator : List Char := "://".toList

/-- The text behind `://`. -/
def afterSeparator (text : List Char) : Option (List Char) :=
  if text.take 3 = separator then some (text.drop 3) else none

/-- What follows a match of `\b[a-z][a-z0-9+.-]*:\/\/`. -/
def schemeEnd (prev : Option Char) (text : List Char) : Option (List Char) :=
  if prev.any isWord = false ∧ text.head?.any isLetter = true then
    afterSeparator (text.dropWhile inScheme)
  else none

/-- The length of a match of `([^\s/@:]*)(:[^\s/@]*)?@`. -/
def credentialsLength (body : List Char) : Option ℕ :=
  let user := body.takeWhile isUser
  let more := body.dropWhile isUser
  if more.head? = some '@' then some (user.length + 1)
  else if more.head? = some ':' then
    let password := more.tail.takeWhile isSecret
    if (more.tail.dropWhile isSecret).head? = some '@' then
      some (user.length + 1 + password.length + 1)
    else none
  else none

def credentialsMask : List Char := "://[redacted]:[redacted]@".toList

/-- The first pattern (line 133), with its replacement. -/
def urlCredentials : Matcher Char := fun prev text =>
  (schemeEnd prev text).bind fun body => (credentialsLength body).map fun n =>
    (text.takeWhile inScheme ++ credentialsMask, (text.takeWhile inScheme).length + 3 + n)

/-- The second pattern (line 136), with its replacement. -/
def passwordValue : Matcher Char := fun _ text =>
  let value := (text.drop 9).takeWhile isValue
  if (text.take 9).map foldCase = "password=".toList ∧ value ≠ [] then
    some (text.take 9 ++ "[redacted]".toList, 9 + value.length)
  else none

/-- `redact` (lines 130-137). -/
def redact (text : List Char) : List Char :=
  replaceAll passwordValue (replaceAll urlCredentials text)

example : redact "at postgresql://u:s@h password=p".toList =
    "at postgresql://[redacted]:[redacted]@h password=[redacted]".toList := by
  decide

/-! ## The characters of the patterns -/

/-- The characters that no part of a match behind `://` contains, the `@` apart. -/
def isStop (c : Char) : Bool := isWhiteSpace c || c == '/'

theorem not_secret_of_stop {c : Char} (h : isStop c = true) : isSecret c = false := by
  unfold isSecret
  unfold isStop at h
  rw [h]
  rfl

/-- Above ASCII, the two letters that fold into it are the only ones of a scheme. -/
theorem not_inScheme {c : Char} (hc : 128 ≤ c.toNat) (hs : c ≠ Char.ofNat 0x17F)
    (hk : c ≠ Char.ofNat 0x212A) : inScheme c = false := by
  have hval : 128 ≤ c.val.toNat := hc
  have hne : ∀ d : Char, d.toNat < 128 → c ≠ d := by
    rintro d hd rfl
    omega
  have hfold : foldCase c = c := by
    unfold foldCase Char.toLower
    rw [if_neg hs, if_neg hk, dif_neg]
    simp only [ge_iff_le, UInt32.le_iff_toNat_le]
    intro h
    have hz : 'Z'.val.toNat = 90 := by decide
    omega
  unfold inScheme isLetter Char.isLower Char.isDigit
  rw [hfold]
  simp [hne '+' (by decide), hne '.' (by decide), hne '-' (by decide), UInt32.le_iff_toNat_le]
  omega

theorem inScheme_visible {c : Char} (h : inScheme c = true) : isStop c = false ∧ c ≠ '@' := by
  by_cases hs : c = Char.ofNat 0x17F
  · rw [hs]
    decide
  by_cases hk : c = Char.ofNat 0x212A
  · rw [hk]
    decide
  have hascii : ∀ n : Fin 128, inScheme (Char.ofNat n) = true →
      isStop (Char.ofNat n) = false ∧ Char.ofNat n ≠ '@' := by decide
  by_cases hc : c.toNat < 128
  · have hchar := hascii ⟨c.toNat, hc⟩
    dsimp only at hchar
    rw [Char.ofNat_toNat] at hchar
    exact hchar h
  · rw [not_inScheme (Nat.le_of_not_lt hc) hs hk] at h
    cases h

/-! ## The first pattern -/

section UrlCredentials

variable {prev : Option Char} {text rest body replacement : List Char} {n : ℕ}

theorem afterSeparator_some (h : afterSeparator text = some body) : text = separator ++ body := by
  unfold afterSeparator at h
  split_ifs at h with htake
  rw [← htake, ← Option.some.inj h, List.take_append_drop]

theorem schemeEnd_some (h : schemeEnd prev text = some body) :
    text = text.takeWhile inScheme ++ separator ++ body := by
  unfold schemeEnd at h
  split_ifs at h
  rw [List.append_assoc, ← afterSeparator_some h, List.takeWhile_append_dropWhile]

/-- The two groups are one run, which the `@` ends. -/
theorem credentialsLength_eq (body : List Char) : credentialsLength body =
    if (body.dropWhile isSecret).head? = some '@' then some ((body.takeWhile isSecret).length + 1)
    else none := by
  induction body with
  | nil => rfl
  | cons c body ih =>
    by_cases huser : isUser c = true
    · have hsecret : isSecret c = true := (Bool.and_eq_true_iff.mp huser).1
      have hstep : credentialsLength (c :: body) = (credentialsLength body).map (· + 1) := by
        unfold credentialsLength
        rw [List.takeWhile_cons_of_pos huser, List.dropWhile_cons_of_pos huser]
        dsimp only
        split_ifs <;> simp only [List.length_cons, Option.map_some, Option.map_none]
        congr 1
        omega
      rw [hstep, ih, List.takeWhile_cons_of_pos hsecret, List.dropWhile_cons_of_pos hsecret]
      split_ifs <;> rfl
    · unfold credentialsLength
      rw [List.takeWhile_cons_of_neg huser, List.dropWhile_cons_of_neg huser]
      by_cases hsecret : isSecret c = true
      · have hcolon : c = ':' := by
          unfold isUser at huser
          simpa [hsecret] using huser
        rw [List.takeWhile_cons_of_pos hsecret, List.dropWhile_cons_of_pos hsecret, hcolon]
        simp [Nat.add_comm 1]
      · have hcolon : c ≠ ':' := by
          rintro rfl
          exact hsecret (by decide)
        rw [List.takeWhile_cons_of_neg hsecret, List.dropWhile_cons_of_neg hsecret]
        simp [hcolon]

theorem credentialsLength_some (h : credentialsLength body = some n) :
    ∃ rest, body = body.takeWhile isSecret ++ '@' :: rest ∧
      n = (body.takeWhile isSecret).length + 1 := by
  rw [credentialsLength_eq] at h
  split_ifs at h with hat
  obtain ⟨rest, hrest⟩ : ∃ rest, body.dropWhile isSecret = '@' :: rest := by
    cases hdrop : body.dropWhile isSecret with
    | nil => rw [hdrop] at hat; cases hat
    | cons c rest => rw [hdrop] at hat; exact ⟨rest, by rw [Option.some.inj hat]⟩
  refine ⟨rest, ?_, (Option.some.inj h).symm⟩
  rw [← hrest, List.takeWhile_append_dropWhile]

/-- A match ends in an `@`. -/
theorem urlCredentials_some (h : urlCredentials prev text = some (replacement, n)) :
    ∃ front rest, text = front ++ '@' :: rest ∧ n = front.length + 1 := by
  obtain ⟨body, hbody, hmap⟩ := Option.bind_eq_some_iff.mp h
  obtain ⟨k, hk, hpair⟩ := Option.map_eq_some_iff.mp hmap
  obtain ⟨rest, hrest, hlength⟩ := credentialsLength_some hk
  refine ⟨text.takeWhile inScheme ++ separator ++ body.takeWhile isSecret, rest, ?_, ?_⟩
  · rw [List.append_assoc _ (body.takeWhile isSecret), ← hrest]
    exact schemeEnd_some hbody
  · rw [← (Prod.mk.inj hpair).2, hlength, List.length_append, List.length_append]
    rfl

/-! ## Texts that end the runs of the pattern -/

/-- A text that ends in a slash or in white space, or is empty. -/
def EndsRun (text : List Char) : Prop := ∀ c, text.getLast? = some c → isStop c = true

theorem EndsRun.suffix {front : List Char} (h : EndsRun (front ++ text)) : EndsRun text := by
  intro c hc
  refine h c ?_
  rw [List.getLast?_append, hc]
  rfl

theorem afterSeparator_append (hne : text ≠ []) (hends : EndsRun text)
    (hrest : rest.head? ≠ some '/') :
    afterSeparator (text ++ rest) = (afterSeparator text).map (· ++ rest) := by
  unfold afterSeparator
  by_cases hlength : 3 ≤ text.length
  · rw [List.take_append_of_le_length hlength, List.drop_append_of_le_length hlength]
    split_ifs <;> rfl
  · have htext : text.take 3 ≠ separator := by
      intro h
      have hshort := congrArg List.length h
      rw [List.length_take] at hshort
      change min 3 text.length = 3 at hshort
      omega
    rw [if_neg htext, if_neg]
    · rfl
    · -- a text of one or two characters would have to go on with a slash
      intro h
      match text, hne, hends, hlength, h with
      | [c], _, hends, _, h =>
        have hc : c = ':' := (List.cons.inj h).1
        have hstop := hends c rfl
        rw [hc] at hstop
        exact absurd hstop (by decide)
      | [c, d], _, _, _, h =>
        have htake : rest.take 1 = ['/'] := (List.cons.inj (List.cons.inj h).2).2
        have hhead := List.head?_take (l := rest) (i := 1)
        rw [htake, if_neg one_ne_zero] at hhead
        exact hrest hhead.symm
      | _ :: _ :: _ :: _, _, _, hlength, _ => exact hlength (by simp)

theorem scheme_append (hne : text ≠ []) (hends : EndsRun text) :
    (text ++ rest).takeWhile inScheme = text.takeWhile inScheme ∧
      (text ++ rest).dropWhile inScheme = text.dropWhile inScheme ++ rest ∧
        text.dropWhile inScheme ≠ [] := by
  refine runs_append hne fun c hc => ?_
  by_contra hscheme
  have hstop := (inScheme_visible (Bool.not_eq_false _ ▸ hscheme)).1
  rw [hends c hc] at hstop
  cases hstop

theorem schemeEnd_append (hne : text ≠ []) (hends : EndsRun text)
    (hrest : rest.head? ≠ some '/') :
    schemeEnd prev (text ++ rest) = (schemeEnd prev text).map (· ++ rest) := by
  have hscheme : (text ++ rest).takeWhile inScheme = _ ∧ _ ∧ _ := scheme_append hne hends
  obtain ⟨-, hdrop, hdropped⟩ := hscheme
  have hsuffix : EndsRun (text.dropWhile inScheme) := by
    rw [← List.takeWhile_append_dropWhile (p := inScheme) (l := text)] at hends
    exact hends.suffix
  have hhead : (text ++ rest).head? = text.head? := List.head?_append_of_ne_nil text hne
  unfold schemeEnd
  rw [hdrop, afterSeparator_append hdropped hsuffix hrest, hhead]
  split_ifs <;> rfl

theorem credentialsLength_append (hne : body ≠ []) (hends : EndsRun body) :
    credentialsLength (body ++ rest) = credentialsLength body := by
  obtain ⟨htake, hdrop, hdropped⟩ : (body ++ rest).takeWhile isSecret = body.takeWhile isSecret ∧
      (body ++ rest).dropWhile isSecret = body.dropWhile isSecret ++ rest ∧
        body.dropWhile isSecret ≠ [] :=
    runs_append hne fun c hc => not_secret_of_stop (hends c hc)
  rw [credentialsLength_eq, credentialsLength_eq, htake, hdrop,
    List.head?_append_of_ne_nil _ hdropped]

/-- A match does not go on behind the text if the text does not end in its `://`. -/
theorem urlCredentials_append (hne : text ≠ []) (hends : EndsRun text)
    (hrest : rest.head? ≠ some '/') (hopen : schemeEnd prev text ≠ some []) :
    urlCredentials prev (text ++ rest) = urlCredentials prev text := by
  unfold urlCredentials
  rw [schemeEnd_append hne hends hrest, (scheme_append hne hends).1]
  cases hbody : schemeEnd prev text with
  | none => rfl
  | some body =>
    have hsome : body ≠ [] := fun h => hopen (by rw [hbody, h])
    have hsuffix : EndsRun body := by
      rw [schemeEnd_some hbody] at hends
      exact hends.suffix
    rw [Option.map_some, Option.bind_some, credentialsLength_append hsome hsuffix,
      Option.bind_some]

theorem urlCredentials_open (hne : text ≠ []) (hends : EndsRun text)
    (hrest : rest.head? ≠ some '/') (hopen : schemeEnd prev text = some []) :
    urlCredentials prev (text ++ rest) = (credentialsLength rest).map fun n =>
      (text.takeWhile inScheme ++ credentialsMask, text.length + n) := by
  have hlength : text.length = (text.takeWhile inScheme).length + 3 := by
    conv_lhs => rw [schemeEnd_some hopen, List.append_nil, List.length_append]
    rfl
  unfold urlCredentials
  rw [schemeEnd_append hne hends hrest, (scheme_append hne hends).1, hopen, Option.map_some,
    Option.bind_some, List.nil_append, hlength]

/-! ## The scan of a text -/

/-- The text ends in a match of `\b[a-z][a-z0-9+.-]*:\/\/`. -/
def opens : Option Char → List Char → Bool
  | _, [] => false
  | prev, c :: rest => schemeEnd prev (c :: rest) == some [] || opens (some c) rest

theorem schemeEnd_at {front : List Char} : schemeEnd prev (front ++ '@' :: rest) ≠ some [] := by
  intro h
  have hat : '@' ∈ front ++ '@' :: rest := by simp
  rw [schemeEnd_some h, List.append_nil] at hat
  rcases List.mem_append.mp hat with hat | hat
  · exact (inScheme_visible (List.mem_takeWhile_imp hat)).2 rfl
  · exact absurd hat (by decide)

/-- What stands in front of an `@` does not matter. -/
theorem opens_at {front : List Char} :
    opens prev (front ++ '@' :: rest) = opens (some '@') rest := by
  induction front generalizing prev with
  | nil =>
    have hnot : schemeEnd prev ([] ++ '@' :: rest) ≠ some [] := schemeEnd_at
    rw [List.nil_append] at hnot ⊢
    rw [opens, beq_eq_false_iff_ne.mpr hnot, Bool.false_or]
  | cons c front ih =>
    have hnot : schemeEnd prev (c :: front ++ '@' :: rest) ≠ some [] := schemeEnd_at
    rw [List.cons_append] at hnot ⊢
    rw [opens, beq_eq_false_iff_ne.mpr hnot, Bool.false_or, ih]

/-- The text is read the same way whatever follows; when it opens, and credentials follow, they are
    hidden, and `masked` is what stands in front of the rest. -/
def Scans (prev : Option Char) (text masked kept : List Char) : Prop :=
  ∀ rest : List Char, rest.head? ≠ some '/' →
    replaceFrom urlCredentials prev 0 (text ++ rest) =
      (if opens prev text = true then credentialsLength rest else none).elim
        (kept ++ replaceFrom urlCredentials (lastOr prev text) 0 rest)
        fun n => masked ++ replaceFrom urlCredentials (some '@') 0 (rest.drop n)

section Steps

variable {c : Char} {front masked kept : List Char}

theorem scans_open (hends : EndsRun (c :: text)) (hopen : schemeEnd prev (c :: text) = some [])
    (htail : Scans (some c) text masked kept) :
    Scans prev (c :: text) ((c :: text).takeWhile inScheme ++ credentialsMask) (c :: kept) := by
  intro rest hrest
  have hm := urlCredentials_open (List.cons_ne_nil c text) hends hrest hopen
  rw [if_pos (by simp [opens, hopen])]
  cases hcredentials : credentialsLength rest with
  | none =>
    have hkept := htail rest hrest
    rw [hcredentials, ite_self] at hkept
    rw [hcredentials, List.cons_append] at hm
    rw [List.cons_append, replaceFrom_none hm, hkept, lastOr_cons]
    rfl
  | some n =>
    obtain ⟨more, hmore, hn⟩ := credentialsLength_some hcredentials
    have hsplit : c :: text ++ rest = (c :: text ++ rest.takeWhile isSecret ++ ['@']) ++ more := by
      conv_lhs => rw [hmore]
      simp
    have hdrop : rest.drop n = more := by
      conv_lhs => rw [hmore, hn]
      simp
    have hlength : (c :: text).length + n =
        (c :: text ++ rest.takeWhile isSecret ++ ['@']).length := by
      rw [List.length_append, List.length_append, hn, Nat.add_assoc]
      rfl
    rw [hcredentials, hsplit, Option.map_some, hlength] at hm
    rw [hsplit, replaceFrom_some (by simp) hm]
    simp [hdrop]

theorem scans_none (hends : EndsRun (c :: text)) (hopen : schemeEnd prev (c :: text) ≠ some [])
    (hnone : urlCredentials prev (c :: text) = none) (htail : Scans (some c) text masked kept) :
    Scans prev (c :: text) (c :: masked) (c :: kept) := by
  intro rest hrest
  have hm := urlCredentials_append (List.cons_ne_nil c text) hends hrest hopen
  rw [hnone, List.cons_append] at hm
  rw [List.cons_append, replaceFrom_none hm, htail rest hrest, opens,
    beq_eq_false_iff_ne.mpr hopen, Bool.false_or, lastOr_cons]
  cases (if opens (some c) text = true then credentialsLength rest else none) <;> rfl

theorem scans_some (hends : EndsRun (front ++ '@' :: text))
    (hsome : urlCredentials prev (front ++ '@' :: text) = some (replacement, front.length + 1))
    (htail : Scans (some '@') text masked kept) :
    Scans prev (front ++ '@' :: text) (replacement ++ masked) (replacement ++ kept) := by
  intro rest hrest
  have hm : urlCredentials prev (front ++ '@' :: text ++ rest) = _ :=
    urlCredentials_append (by simp) hends hrest schemeEnd_at
  have hsplit : front ++ '@' :: text ++ rest = (front ++ ['@']) ++ (text ++ rest) := by simp
  have hlength : front.length + 1 = (front ++ ['@']).length := by
    rw [List.length_append, List.length_singleton]
  rw [hsome, hsplit, hlength] at hm
  rw [hsplit, replaceFrom_some (by simp) hm, opens_at, lastOr_append, lastOr_cons, lastOr_nil,
    htail rest hrest, lastOr_append, lastOr_cons]
  cases (if opens (some '@') text = true then credentialsLength rest else none) <;> simp

end Steps

theorem scans_endsRun (hends : EndsRun text) : ∃ masked kept, Scans prev text masked kept := by
  induction hlength : text.length using Nat.strong_induction_on generalizing prev text with
  | _ length ih =>
    cases text with
    | nil => exact ⟨[], [], fun rest _ => rfl⟩
    | cons c tail =>
      have htailEnds : EndsRun ([c] ++ tail) := hends
      have htailLength : tail.length < length := by
        rw [← hlength]
        simp
      obtain ⟨masked, kept, htail⟩ := ih _ htailLength htailEnds.suffix rfl
      by_cases hopen : schemeEnd prev (c :: tail) = some []
      · exact ⟨_, _, scans_open hends hopen htail⟩
      · cases hm : urlCredentials prev (c :: tail) with
        | none => exact ⟨_, _, scans_none hends hopen hm htail⟩
        | some found =>
          obtain ⟨replacement, n⟩ := found
          obtain ⟨front, more, htext, rfl⟩ := urlCredentials_some hm
          rw [htext] at hends hm ⊢
          have hmoreEnds : EndsRun ((front ++ ['@']) ++ more) := by simpa using hends
          have hmoreLength : more.length < length := by
            rw [← hlength, htext, List.length_append, List.length_cons]
            omega
          obtain ⟨masked, kept, hmore⟩ := ih _ hmoreLength hmoreEnds.suffix rfl
          exact ⟨_, _, scans_some hends hm hmore⟩

/-! ## Texts without a match -/

/-- A match has two slashes. -/
theorem urlCredentials_few (h : text.count '/' < 2) : urlCredentials prev text = none := by
  unfold urlCredentials
  cases hend : schemeEnd prev text with
  | none => rfl
  | some body =>
    rw [schemeEnd_some hend, List.count_append, List.count_append] at h
    have htwo : separator.count '/' = 2 := by decide
    omega

theorem replaceFrom_few (h : text.count '/' < 2) :
    replaceFrom urlCredentials prev 0 text = text := by
  have hstays : replaceFrom urlCredentials prev 0 (text ++ []) =
      text ++ replaceFrom urlCredentials (lastOr prev text) 0 [] := by
    refine replaceFrom_verbatim fun x a y heq => urlCredentials_few ?_
    rw [heq, List.count_append] at h
    rw [List.append_nil]
    omega
  simpa [replaceFrom] using hstays

end UrlCredentials

/-! ## The second pattern -/

section PasswordValue

variable {prev : Option Char} {text rest replacement : List Char} {n : ℕ}

/-- A match begins with nine characters, of which the last is an equals sign. -/
theorem passwordValue_some (h : passwordValue prev text = some (replacement, n)) :
    (0 < n ∧ n ≤ text.length) ∧ (∃ c ∈ text, foldCase c = '=') ∧
      ∃ c ∈ replacement, foldCase c = '=' := by
  unfold passwordValue at h
  dsimp only at h
  split_ifs at h with hmatch
  obtain ⟨hreplacement, rfl⟩ := Prod.mk.inj (Option.some.inj h)
  have hlength := congrArg List.length hmatch.1
  rw [List.length_map, List.length_take] at hlength
  change min 9 text.length = 9 at hlength
  have hrun : ((text.drop 9).takeWhile isValue).length ≤ text.length - 9 := by
    rw [← List.length_drop]
    exact (List.takeWhile_prefix isValue).length_le
  have hequals : '=' ∈ (text.take 9).map foldCase := by
    rw [hmatch.1]
    decide
  obtain ⟨c, hc, hfold⟩ := List.mem_map.mp hequals
  refine ⟨⟨by omega, by omega⟩, ⟨c, List.mem_of_mem_take hc, hfold⟩, c, ?_, hfold⟩
  rw [← hreplacement]
  exact List.mem_append_left _ hc

/-- A match does not go on behind an ampersand. -/
theorem passwordValue_ampersand :
    passwordValue prev (text ++ '&' :: rest) = passwordValue prev text := by
  have hvalue : isValue '&' = false := by decide
  unfold passwordValue
  by_cases hlength : 9 ≤ text.length
  · rw [List.take_append_of_le_length hlength, List.drop_append_of_le_length hlength]
    have hrun : (text.drop 9 ++ '&' :: rest).takeWhile isValue =
        (text.drop 9).takeWhile isValue := by
      rw [List.takeWhile_append]
      split_ifs with hall
      · rw [List.takeWhile_cons_of_neg (by rw [hvalue]; decide), List.append_nil]
        exact (List.IsPrefix.eq_of_length (List.takeWhile_prefix isValue) hall).symm
      · rfl
    rw [hrun]
  · have hshort : (text.take 9).map foldCase ≠ "password=".toList := by
      intro h
      have hcount := congrArg List.length h
      rw [List.length_map, List.length_take] at hcount
      change min 9 text.length = 9 at hcount
      omega
    have hcut : ((text ++ '&' :: rest).take 9).map foldCase ≠ "password=".toList := by
      intro h
      have hat : foldCase '&' ∈ ((text ++ '&' :: rest).take 9).map foldCase := by
        refine List.mem_map_of_mem ?_
        rw [List.take_append, List.take_of_length_le (by omega)]
        obtain ⟨k, hk⟩ : ∃ k, 9 - text.length = k + 1 := ⟨8 - text.length, by omega⟩
        rw [hk]
        simp
      rw [h] at hat
      exact absurd hat (by decide)
    dsimp only
    rw [if_neg fun h => hcut h.1, if_neg fun h => hshort h.1]

/-- The text in front of an ampersand is read for itself. -/
theorem replaceFrom_ampersand : replaceFrom passwordValue prev 0 (text ++ '&' :: rest) =
    replaceFrom passwordValue prev 0 text ++
      replaceFrom passwordValue (lastOr prev text) 0 ('&' :: rest) :=
  replaceFrom_append (Nat.zero_le _) (fun _ _ _ _ h => (passwordValue_some h).1)
    fun _ _ _ _ _ => passwordValue_ampersand

/-- What is written over a text holds an equals sign, or is the text. -/
theorem replaceFrom_equals : replaceFrom passwordValue prev 0 text = text ∨
    ∃ c ∈ replaceFrom passwordValue prev 0 text, foldCase c = '=' := by
  induction text generalizing prev with
  | nil => exact Or.inl rfl
  | cons a text ih =>
    rw [replaceFrom]
    cases hm : passwordValue prev (a :: text) with
    | none =>
      have hrest : replaceFrom passwordValue (some a) 0 text = text ∨ _ := ih
      rcases hrest with h | ⟨c, hc, hfold⟩
      · left
        dsimp only
        rw [h]
      · exact Or.inr ⟨c, List.mem_cons_of_mem a hc, hfold⟩
    | some found =>
      obtain ⟨replacement, n⟩ := found
      obtain ⟨-, -, c, hc, hfold⟩ := passwordValue_some hm
      exact Or.inr ⟨c, List.mem_append_left _ hc, hfold⟩

/-- A text without an equals sign stays. -/
theorem replaceFrom_plain (h : ∀ c ∈ text, foldCase c ≠ '=') :
    replaceFrom passwordValue prev 0 text = text := by
  have hstays : replaceFrom passwordValue prev 0 (text ++ []) =
      text ++ replaceFrom passwordValue (lastOr prev text) 0 [] := by
    refine replaceFrom_verbatim fun x a y heq => ?_
    rw [List.append_nil]
    cases hm : passwordValue (lastOr prev x) (a :: y) with
    | none => rfl
    | some found =>
      obtain ⟨-, ⟨c, hc, hfold⟩, -⟩ := passwordValue_some hm
      exact absurd hfold (h c (by rw [heq]; exact List.mem_append_right x hc))
  simpa [replaceFrom] using hstays

end PasswordValue

/-! ## Connection URLs in a text -/

/-- The text in front of a userinfo: with tabs and line breaks removed, it ends in `://`. -/
def IsLead (lead : List Char) : Prop :=
  separator <:+ lead.filter fun c => !isTabOrNewline c

/-- A URL with its userinfo. -/
def withUser (lead user tail : List Char) : List Char := lead ++ user ++ '@' :: tail

/-- `connectionParts` accepts the URL. -/
def Accepts (rt : ScriptRuntime) (url : List Char) : Prop :=
  ∃ variableName parts, connectionParts rt (some (url.flatMap units)) variableName = .ok parts

/-- A URL that `connectionParts` accepts: its userinfo is what stands in front of the last `@` of
    its authority. -/
structure IsConnectionUrl (rt : ScriptRuntime) (lead user tail : List Char) : Prop where
  isLead : IsLead lead
  userinfo : ∀ c ∈ user, endsAuthority c = false
  lastAt : '@' ∉ tail.takeWhile fun c => !endsAuthority c
  accepted : Accepts rt (withUser lead user tail)

/-- No `@`, white space or slash. -/
def IsPlainUser (user : List Char) : Prop := ∀ c ∈ user, isSecret c = true

theorem isStop_tabOrNewline {c : Char} (h : isTabOrNewline c = true) : isStop c = true := by
  unfold isTabOrNewline at h
  simp only [Bool.or_eq_true, beq_iff_eq] at h
  rcases h with (rfl | rfl) | rfl <;> decide

theorem IsLead.endsRun {before lead : List Char} (h : IsLead lead) : EndsRun (before ++ lead) := by
  rcases List.eq_nil_or_concat lead with rfl | ⟨init, d, rfl⟩
  · exact absurd (List.suffix_nil.mp h) (by decide)
  · intro c hc
    rw [List.concat_eq_append, ← List.append_assoc, List.getLast?_concat] at hc
    obtain rfl : d = c := Option.some.inj hc
    by_cases htab : isTabOrNewline d = true
    · exact isStop_tabOrNewline htab
    · obtain ⟨front, hfront⟩ := h
      rw [List.concat_eq_append, List.filter_append,
        List.filter_cons_of_pos (by simpa using htab)] at hfront
      have hlast := congrArg List.getLast? hfront
      rw [List.filter_nil, List.getLast?_concat, List.getLast?_append] at hlast
      have hslash : d = '/' := (Option.some.inj hlast).symm
      rw [hslash]
      decide

section Userinfo

variable {before lead user tail after : List Char}

theorem withUser_append : before ++ withUser lead user tail ++ after =
    (before ++ lead) ++ (user ++ '@' :: (tail ++ after)) := by
  simp [withUser]

theorem plain_run {rest : List Char} (h : IsPlainUser user) :
    (user ++ '@' :: rest).takeWhile isSecret = user ∧
      (user ++ '@' :: rest).dropWhile isSecret = '@' :: rest := by
  have hat : ¬ isSecret '@' = true := by decide
  rw [List.takeWhile_append_of_pos h, List.dropWhile_append_of_pos h,
    List.takeWhile_cons_of_neg hat, List.dropWhile_cons_of_neg hat, List.append_nil]
  exact ⟨rfl, rfl⟩

theorem credentialsLength_plain {rest : List Char} (h : IsPlainUser user) :
    credentialsLength (user ++ '@' :: rest) = some (user.length + 1) := by
  rw [credentialsLength_eq, (plain_run h).1, (plain_run h).2, List.head?_cons, if_pos rfl]

theorem plain_head {rest : List Char} (h : IsPlainUser user) :
    (user ++ '@' :: rest).head? ≠ some '/' := by
  intro hslash
  cases user with
  | nil => cases hslash
  | cons c user =>
    have hc := h c List.mem_cons_self
    rw [Option.some.inj hslash] at hc
    exact absurd hc (by decide)

/-- Behind a match of the first group, each plain userinfo is hidden. -/
theorem redact_plain (hlead : IsLead lead) (hopens : opens none (before ++ lead) = true) :
    ∃ masked, ∀ user tail after, IsPlainUser user →
      redact (before ++ withUser lead user tail ++ after) =
        replaceAll passwordValue
          (masked ++ replaceFrom urlCredentials (some '@') 0 (tail ++ after)) := by
  obtain ⟨masked, kept, hscan⟩ : ∃ masked kept, Scans none (before ++ lead) masked kept :=
    scans_endsRun hlead.endsRun
  refine ⟨masked, fun user tail after huser => ?_⟩
  unfold redact
  rw [withUser_append, replaceAll.eq_def urlCredentials, hscan _ (plain_head huser), if_pos hopens,
    credentialsLength_plain huser, Option.elim_some]
  have hdrop : (user ++ '@' :: (tail ++ after)).drop (user.length + 1) = tail ++ after := by
    rw [List.drop_append]
    simp
  rw [hdrop]

/-- Elsewhere the userinfo stays, behind an ampersand even as the value of a password. -/
theorem redact_closed (hlead : IsLead lead) (hclosed : opens none (before ++ lead) = false) :
    ∃ kept, ∀ rest : List Char, rest.count '/' < 2 → (∀ c ∈ rest, foldCase c ≠ '=') →
      redact ((before ++ lead) ++ '&' :: rest) = kept ++ '&' :: rest := by
  obtain ⟨masked, kept, hscan⟩ : ∃ masked kept, Scans none (before ++ lead) masked kept :=
    scans_endsRun hlead.endsRun
  refine ⟨replaceFrom passwordValue none 0 kept, fun rest hcount hplain => ?_⟩
  have hfew : ('&' :: rest).count '/' < 2 := by rwa [List.count_cons_of_ne (by decide)]
  have hstays : ∀ c ∈ '&' :: rest, foldCase c ≠ '=' := by
    intro c hc
    rcases List.mem_cons.mp hc with rfl | hc
    · decide
    · exact hplain c hc
  have hscanned := hscan ('&' :: rest) (by simp)
  rw [hclosed, if_neg Bool.false_ne_true, Option.elim_none, replaceFrom_few hfew] at hscanned
  unfold redact replaceAll
  rw [hscanned, replaceFrom_ampersand, replaceFrom_plain hstays]

/-! ## A URL at the beginning of a text -/

def exampleLead : List Char := "postgres://".toList

def hiddenUrl : List Char := "postgres://[redacted]:[redacted]@h/db".toList

theorem isLead_exampleLead : IsLead exampleLead := ⟨"postgres".toList, by decide⟩

theorem scans_exampleLead :
    Scans none exampleLead ("postgres".toList ++ credentialsMask) exampleLead := by
  have hends : EndsRun ([] ++ exampleLead) := isLead_exampleLead.endsRun
  obtain ⟨masked, kept, hscan⟩ : ∃ masked kept, Scans none exampleLead masked kept :=
    scans_endsRun hends
  -- two runs say which texts these are
  have hmasked : masked = "postgres".toList ++ credentialsMask := by
    have hrun := hscan "@".toList (by decide)
    have hresult : replaceFrom urlCredentials none 0 (exampleLead ++ "@".toList) =
        "postgres".toList ++ credentialsMask := by decide
    have hlength : credentialsLength "@".toList = some 1 := by decide
    have hopens : opens none exampleLead = true := by decide
    rw [hresult, if_pos hopens, hlength] at hrun
    simpa [replaceFrom] using hrun.symm
  have hkept : kept = exampleLead := by
    have hrun := hscan [] (by decide)
    have hresult : replaceFrom urlCredentials none 0 (exampleLead ++ []) = exampleLead := by
      decide
    have hlength : credentialsLength [] = none := rfl
    rw [hresult, hlength, ite_self] at hrun
    simpa [replaceFrom] using hrun.symm
  rwa [hmasked, hkept] at hscan

/-- In front of `@h/db`, only a plain userinfo is hidden by the first pattern. -/
theorem plain_of_hidden (huser : ∀ c ∈ user, endsAuthority c = false)
    (hurl : replaceAll urlCredentials (exampleLead ++ (user ++ "@h/db".toList)) = hiddenUrl) :
    IsPlainUser user := by
  have hslash : '/' ∉ user := fun hmem => absurd (huser '/' hmem) (by decide)
  have hcount : (user ++ "@h/db".toList).count '/' < 2 := by
    rw [List.count_append, List.count_eq_zero.mpr hslash]
    decide
  have hhead : (user ++ "@h/db".toList).head? ≠ some '/' := by
    cases user with
    | nil => decide
    | cons c user =>
      intro h
      exact hslash (by rw [Option.some.inj h]; exact List.mem_cons_self)
  have hopens : opens none exampleLead = true := by decide
  unfold replaceAll at hurl
  rw [scans_exampleLead _ hhead, if_pos hopens] at hurl
  cases hcredentials : credentialsLength (user ++ "@h/db".toList) with
  | none =>
    -- the whole URL would have to be the redacted one
    rw [hcredentials, Option.elim_none, replaceFrom_few hcount] at hurl
    have hsame : exampleLead ++ (user ++ "@h/db".toList) =
        exampleLead ++ ("[redacted]:[redacted]".toList ++ "@h/db".toList) := hurl
    have hplain : "[redacted]:[redacted]".toList.all isSecret = true := by decide
    rw [List.append_cancel_right (List.append_cancel_left hsame)]
    exact List.all_eq_true.mp hplain
  | some n =>
    -- what is left behind the first `@` would have to be the host
    obtain ⟨more, hmore, hn⟩ := credentialsLength_some hcredentials
    have hfew : ((user ++ "@h/db".toList).drop n).count '/' < 2 :=
      lt_of_le_of_lt ((List.drop_sublist n _).count_le '/') hcount
    rw [hcredentials, Option.elim_some, replaceFrom_few hfew] at hurl
    have hsame : ("postgres".toList ++ credentialsMask) ++ (user ++ "@h/db".toList).drop n =
        ("postgres".toList ++ credentialsMask) ++ "h/db".toList := hurl
    have hlength := congrArg List.length (List.append_cancel_left hsame)
    rw [List.length_drop, List.length_append] at hlength
    change user.length + 5 - n = 4 at hlength
    have hrun : user.length = ((user ++ "@h/db".toList).takeWhile isSecret).length := by omega
    rw [List.append_inj_left hmore hrun]
    exact fun c hc => List.mem_takeWhile_imp hc

/-- In front of `@h/db`, a userinfo that is not plain is visible. -/
theorem redact_visible (huser : ∀ c ∈ user, endsAuthority c = false) (hnot : ¬ IsPlainUser user) :
    redact (exampleLead ++ (user ++ "@h/db".toList)) ≠ hiddenUrl := by
  intro hredact
  have hall : hiddenUrl.all (fun c => foldCase c != '=') = true := by decide
  have hwritten : redact (exampleLead ++ (user ++ "@h/db".toList)) =
      replaceAll urlCredentials (exampleLead ++ (user ++ "@h/db".toList)) ∨
        ∃ c ∈ redact (exampleLead ++ (user ++ "@h/db".toList)), foldCase c = '=' :=
    replaceFrom_equals
  rcases hwritten with hurl | ⟨c, hc, hfold⟩
  · exact hnot (plain_of_hidden huser (hurl.symm.trans hredact))
  · have hnone := List.all_eq_true.mp hall c (hredact ▸ hc)
    simp [hfold] at hnone

end Userinfo

/-! ## Two URLs that differ in their userinfo -/

/-- The redactions of two texts that differ in the userinfo of one accepted URL are the same: for
    all plain userinfos exactly when the text in front of them ends in a match of the first group,
    and for a userinfo, in all such places, exactly when it is plain. -/
theorem redact_hides_iff (rt : ScriptRuntime) :
    (∀ before lead, IsConnectionUrl rt lead "&a".toList "h/db".toList →
      IsConnectionUrl rt lead "&b".toList "h/db".toList →
      ((∀ user₁ user₂ tail after, IsPlainUser user₁ → IsPlainUser user₂ →
        IsConnectionUrl rt lead user₁ tail → IsConnectionUrl rt lead user₂ tail →
        redact (before ++ withUser lead user₁ tail ++ after) =
          redact (before ++ withUser lead user₂ tail ++ after)) ↔
        opens none (before ++ lead) = true)) ∧
    ∀ user, IsConnectionUrl rt exampleLead user "h/db".toList →
      IsConnectionUrl rt exampleLead "a".toList "h/db".toList →
      ((∀ before lead user' tail after, opens none (before ++ lead) = true → IsPlainUser user' →
        IsConnectionUrl rt lead user tail → IsConnectionUrl rt lead user' tail →
        redact (before ++ withUser lead user tail ++ after) =
          redact (before ++ withUser lead user' tail ++ after)) ↔
        IsPlainUser user) := by
  have hplain : ∀ c : Char, isSecret c = true → IsPlainUser [c] := by
    intro c hc d hd
    rwa [List.mem_singleton.mp hd]
  have hpair : ∀ c : Char, isSecret c = true → IsPlainUser ['&', c] := by
    intro c hc d hd
    rcases List.mem_cons.mp hd with rfl | hd
    · decide
    · exact hplain c hc d hd
  refine ⟨fun before lead ha hb => ⟨fun hsame => ?_, fun hopens => ?_⟩,
    fun user huser ha => ⟨fun hsame => ?_, fun hsecret => ?_⟩⟩
  · by_contra hclosed
    obtain ⟨kept, hkept⟩ := redact_closed ha.isLead (Bool.not_eq_true _ ▸ hclosed)
    have hredact := hsame "&a".toList "&b".toList "h/db".toList [] (hpair 'a' (by decide))
      (hpair 'b' (by decide)) ha hb
    have hsa := hkept "a@h/db".toList (by decide) (by simp [foldCase])
    have hsb := hkept "b@h/db".toList (by decide) (by simp [foldCase])
    rw [withUser_append, withUser_append] at hredact
    exact absurd (List.append_cancel_left (hsa.symm.trans (hredact.trans hsb))) (by decide)
  · intro user₁ user₂ tail after h₁ h₂ hurl _
    obtain ⟨masked, hmasked⟩ := redact_plain hurl.isLead hopens
    rw [hmasked user₁ tail after h₁, hmasked user₂ tail after h₂]
  · by_contra hnot
    have hredact := hsame [] exampleLead "a".toList "h/db".toList [] (by decide)
      (hplain 'a' (by decide)) huser ha
    have hhidden : redact ([] ++ withUser exampleLead "a".toList "h/db".toList ++ []) =
        hiddenUrl := by decide
    rw [hhidden, withUser_append] at hredact
    exact redact_visible huser.userinfo hnot hredact
  · intro before lead user' tail after hopens huser' hurl _
    obtain ⟨masked, hmasked⟩ := redact_plain hurl.isLead hopens
    rw [hmasked user tail after hsecret, hmasked user' tail after huser']

/-! ## Fixed URLs -/

/-- The characters of a text of ASCII. -/
def asciiChars (text : JsString) : List Char := text.map fun u => Char.ofNat u.toNat

/-- A runtime that reads ASCII URLs by the WHATWG rules. -/
def urlRuntime : ScriptRuntime :=
  { plainScriptRuntime with
    newUrl := fun text => (parseNotSpecial (fun _ => none) (asciiChars text)).map fun url => {
      protocol := (url.scheme ++ [':']).flatMap units
      hostname := url.host.flatMap units
      port := jsString ((url.port.map fun n => toString n).getD "")
      username := url.username.flatMap units
      password := url.password.flatMap units
      pathname := (url.rest.takeWhile fun c => c != '?' && c != '#').flatMap units
      schema := none }
    decodeURIComponent := fun text =>
      (Sabcl.decodeURIComponent (asciiChars text)).map fun decoded => decoded.flatMap units }

theorem isConnectionUrl_example {user : List Char}
    (huser : user.all (fun c => !endsAuthority c) = true)
    (hok : (connectionParts urlRuntime
      (some ((withUser exampleLead user "h/db".toList).flatMap units)) "DATABASE_URL").isOk =
        true) :
    IsConnectionUrl urlRuntime exampleLead user "h/db".toList where
  isLead := isLead_exampleLead
  userinfo c hc := by simpa using List.all_eq_true.mp huser c hc
  lastAt := by decide
  accepted := by
    refine ⟨"DATABASE_URL", ?_⟩
    cases hparts : connectionParts urlRuntime
        (some ((withUser exampleLead user "h/db".toList).flatMap units)) "DATABASE_URL" with
    | error failure => rw [hparts] at hok; cases hok
    | ok parts => exact ⟨parts, rfl⟩

/-- Behind the name of a tool, plain userinfos are hidden; a password that holds an `@` is not. -/
theorem redact_hides_iff_sample :
    (∀ user₁ user₂ tail after, IsPlainUser user₁ → IsPlainUser user₂ →
      IsConnectionUrl urlRuntime exampleLead user₁ tail →
      IsConnectionUrl urlRuntime exampleLead user₂ tail →
      redact ("pg_dump: ".toList ++ withUser exampleLead user₁ tail ++ after) =
        redact ("pg_dump: ".toList ++ withUser exampleLead user₂ tail ++ after)) ∧
    ¬ ∀ before lead user' tail after, opens none (before ++ lead) = true → IsPlainUser user' →
      IsConnectionUrl urlRuntime lead "user:p@ss".toList tail →
      IsConnectionUrl urlRuntime lead user' tail →
      redact (before ++ withUser lead "user:p@ss".toList tail ++ after) =
        redact (before ++ withUser lead user' tail ++ after) := by
  refine ⟨((redact_hides_iff urlRuntime).1 _ _
    (isConnectionUrl_example (by decide) (by decide +kernel))
    (isConnectionUrl_example (by decide) (by decide +kernel))).mpr (by decide), fun h => ?_⟩
  have hplain := ((redact_hides_iff urlRuntime).2 _
    (isConnectionUrl_example (by decide) (by decide +kernel))
    (isConnectionUrl_example (by decide) (by decide +kernel))).mp h
  exact absurd (hplain '@' (by simp)) (by decide)

/-- The end of a password that holds an `@` is printed. -/
theorem printed_password : ¬ ∀ (rt : ScriptRuntime)
    (before lead user₁ user₂ tail after : List Char),
    IsConnectionUrl rt lead user₁ tail → IsConnectionUrl rt lead user₂ tail →
    redact (before ++ withUser lead user₁ tail ++ after) =
      redact (before ++ withUser lead user₂ tail ++ after) := by
  intro h
  have hsame := h urlRuntime [] exampleLead "user:p@ss".toList "user:pass".toList "h/db".toList []
    (isConnectionUrl_example (by decide) (by decide +kernel))
    (isConnectionUrl_example (by decide) (by decide +kernel))
  exact absurd hsame (by decide +kernel)

end AegisShield.Resilience
