import AegisShield.Common.WebUrl

/-!
# User names, passwords, hosts and ports of URLs

The WHATWG rules for a URL whose scheme is not a special one, up to the end of its authority; the
path, the query and the fragment stay as they are. IPv6 addresses are left to a parameter.

Results:
* `parseAuthority_credentials`: a user name and a password of characters that are not encoded are
  read as they stand.
* `parseNotSpecial_authority`: the authority is what stands between `://` and the next slash.
-/

namespace AegisShield.Common.WebUrl

/-! ## Authorities -/

/-- The userinfo percent-encode set. -/
def userinfoSet (c : Char) : Bool :=
  pathSet c || ['/', ':', ';', '=', '@', '[', '\\', ']', '^', '|'].contains c

/-- The forbidden host code points. -/
def isForbiddenHost (c : Char) : Bool :=
  [Char.ofNat 0, '\t', '\n', '\r', ' ', '#', '/', ':', '<', '>', '?', '@', '[', '\\', ']', '^',
    '|'].contains c

/-- The characters that end an authority. -/
def endsAuthority (c : Char) : Bool := c == '/' || c == '?' || c == '#'

structure Authority where
  username : List Char
  password : List Char
  host : List Char
  port : Option ℕ
  deriving DecidableEq

/-- The host state: the text up to a colon outside brackets, and the text behind it. -/
def splitPort (inside : Bool) : List Char → List Char × Option (List Char)
  | [] => ([], none)
  | c :: rest =>
    if c = ':' ∧ inside = false then ([], some rest)
    else
      let (host, port) := splitPort (c == '[' || (inside && c != ']')) rest
      (c :: host, port)

/-- The host parser for schemes that are not special. -/
def parseHost (ipv6 : List Char → Option (List Char)) (host : List Char) : Option (List Char) :=
  if host.head? = some '[' then
    if host.getLast? = some ']' then ipv6 host.tail.dropLast else none
  else if host.any isForbiddenHost then none
  else some (host.flatMap (utf8PercentEncode c0ControlSet))

/-- The port state. -/
def parsePort (text : List Char) : Option (Option ℕ) :=
  if text = [] then some none
  else if text.all Char.isDigit then
    let port := text.foldl (fun n c => 10 * n + (c.toNat - '0'.toNat)) 0
    if port ≤ 65535 then some (some port) else none
  else none

/-- The authority state: what stands in front of the last `@` is split at its first colon. -/
def parseAuthority (ipv6 : List Char → Option (List Char)) (authority : List Char) :
    Option Authority :=
  let credentials := (authority.rdropWhile (· ≠ '@')).dropLast
  let (host, port) := splitPort false (authority.rtakeWhile (· ≠ '@'))
  if host = [] ∧ ('@' ∈ authority ∨ port.isSome) then none
  else do
    let host ← parseHost ipv6 host
    let port ← parsePort (port.getD [])
    return {
      username := (credentials.takeWhile (· ≠ ':')).flatMap (utf8PercentEncode userinfoSet)
      password := (credentials.dropWhile (· ≠ ':')).tail.flatMap (utf8PercentEncode userinfoSet)
      host := host
      port := port }

/-! ## URLs -/

def isSchemeChar (c : Char) : Bool := c.isAlphanum || ['+', '-', '.'].contains c

/-- The scheme in lower case, and the text behind its colon. -/
def splitScheme (input : List Char) : Option (List Char × List Char) :=
  match input.takeWhile isSchemeChar, input.dropWhile isSchemeChar with
  | c :: scheme, ':' :: rest =>
    if c.isAlpha then some ((c :: scheme).map Char.toLower, rest) else none
  | _, _ => none

/-- A URL whose scheme is not special. -/
structure GenericUrl extends Authority where
  scheme : List Char
  rest : List Char

def specialSchemes : List String := ["ftp", "file", "http", "https", "ws", "wss"]

/-- The parser for an input without a base whose scheme is not special. -/
def parseNotSpecial (ipv6 : List Char → Option (List Char)) (input : List Char) :
    Option GenericUrl := do
  let (scheme, rest) ← splitScheme (clean input)
  if String.ofList scheme ∈ specialSchemes then none
  else
    match rest with
    | '/' :: '/' :: text => do
      let authority ← parseAuthority ipv6 (text.takeWhile fun c => !endsAuthority c)
      return { authority with scheme := scheme, rest := text.dropWhile fun c => !endsAuthority c }
    | _ => some ⟨⟨[], [], [], none⟩, scheme, rest⟩

/-! ## Reading an authority -/

section Reading

variable {ipv6 : List Char → Option (List Char)}
  {user password host port authority rest : List Char} {number : Option ℕ}

theorem forbidden_ne {c d : Char} (h : isForbiddenHost c = false) (hd : isForbiddenHost d = true) :
    c ≠ d := by
  rintro rfl
  rw [h] at hd
  cases hd

theorem userinfo_ne {c d : Char} (h : userinfoSet c = false) (hd : userinfoSet d = true) :
    c ≠ d := by
  rintro rfl
  rw [h] at hd
  cases hd

theorem splitPort_host (h : ∀ c ∈ host, isForbiddenHost c = false) :
    splitPort false (host ++ ':' :: port) = (host, some port) := by
  induction host with
  | nil => rfl
  | cons c host ih =>
    have hc := h c List.mem_cons_self
    have hcolon : c ≠ ':' := forbidden_ne hc (by decide)
    have hopen : (c == '[') = false := by simpa using forbidden_ne hc (d := '[') (by decide)
    rw [List.cons_append, splitPort, if_neg fun h => hcolon h.1, hopen, Bool.false_and,
      Bool.false_or, ih fun d hd => h d (List.mem_cons_of_mem c hd)]

theorem parseHost_plain (h : ∀ c ∈ host, isForbiddenHost c = false) :
    parseHost ipv6 host = some (host.flatMap (utf8PercentEncode c0ControlSet)) := by
  unfold parseHost
  rw [if_neg, if_neg]
  · simpa using h
  · intro hhead
    exact forbidden_ne (h '[' (List.mem_of_head? hhead)) (by decide) rfl

theorem parsePort_digits (h : parsePort port = some number) : ∀ c ∈ port, c.isDigit = true := by
  unfold parsePort at h
  split_ifs at h with hempty hdigits
  · rw [hempty]
    simp
  · exact List.all_eq_true.mp hdigits

/-- The credentials of an authority are what stands in front of the `@`. -/
theorem rdropWhile_at (h : ∀ c ∈ host, c ≠ '@') :
    (user ++ '@' :: host).rdropWhile (· ≠ '@') = user ++ ['@'] ∧
      (user ++ '@' :: host).rtakeWhile (· ≠ '@') = host := by
  constructor
  · rw [rdropWhile_append_cons (by simp), List.rdropWhile_eq_nil_iff.mpr (by simpa using h)]
  · have hreverse : (user ++ '@' :: host).reverse = host.reverse ++ '@' :: user.reverse := by simp
    rw [List.rtakeWhile, hreverse, List.takeWhile_append_of_pos (by simpa using h)]
    simp

/-- A user name and a password of characters that are not encoded are read as they stand. -/
theorem parseAuthority_credentials (huser : ∀ c ∈ user, userinfoSet c = false)
    (hpassword : ∀ c ∈ password, userinfoSet c = false) (hne : host ≠ [])
    (hhost : ∀ c ∈ host, isForbiddenHost c = false) (hport : parsePort port = some number) :
    parseAuthority ipv6 (user ++ ':' :: password ++ '@' :: (host ++ ':' :: port)) =
      some ⟨user, password, host.flatMap (utf8PercentEncode c0ControlSet), number⟩ := by
  have hat : ∀ c ∈ host ++ ':' :: port, c ≠ '@' := by
    intro c hc
    rcases List.mem_append.mp hc with hc | hc
    · exact forbidden_ne (hhost c hc) (by decide)
    · rcases List.mem_cons.mp hc with rfl | hc
      · decide
      · rintro rfl
        exact absurd (parsePort_digits hport _ hc) (by decide)
  have hcolon : ∀ c ∈ user, (decide (c ≠ ':')) = true := fun c hc =>
    decide_eq_true (userinfo_ne (huser c hc) (by decide))
  have hsplit : (user ++ ':' :: password ++ '@' :: (host ++ ':' :: port)).rdropWhile (· ≠ '@') =
      user ++ ':' :: password ++ ['@'] ∧ _ := rdropWhile_at hat
  unfold parseAuthority
  rw [hsplit.1, hsplit.2, splitPort_host hhost]
  dsimp only
  rw [if_neg fun h => hne h.1, parseHost_plain hhost, Option.getD_some, hport, List.dropLast_concat,
    List.takeWhile_append_of_pos hcolon, List.dropWhile_append_of_pos hcolon]
  simp [flatMap_encode huser, flatMap_encode hpassword]

/-- Behind a visible character, only tabs and newlines are cleaned. -/
theorem clean_kept {c d : Char} {text : List Char} (hc : isStripped c = false)
    (htext : ∀ e ∈ text, isTabOrNewline e = false) (hd : isStripped d = false) :
    clean (c :: text ++ d :: rest) =
      c :: text ++ d :: (rest.rdropWhile isStripped).filter fun e => !isTabOrNewline e := by
  have hfilter : (c :: text).filter (fun e => !isTabOrNewline e) = c :: text := by
    rw [List.filter_eq_self]
    intro e he
    rcases List.mem_cons.mp he with rfl | he
    · rw [not_tabOrNewline hc]
      rfl
    · rw [htext e he]
      rfl
  unfold clean
  rw [List.cons_append, List.dropWhile_cons_of_neg (by simp [hc]), ← List.cons_append,
    rdropWhile_append_cons hd, List.filter_append, hfilter,
    List.filter_cons_of_pos (by simp [not_tabOrNewline hd])]

theorem isStripped_schemeChar {c : Char} (h : isSchemeChar c = true) : isStripped c = false := by
  have hcontrols : ∀ n : Fin 33, isSchemeChar (Char.ofNat n) = false := by decide
  unfold isStripped
  refine decide_eq_false fun hle => ?_
  have hchar := hcontrols ⟨c.toNat, Nat.lt_succ_of_le hle⟩
  rw [Char.ofNat_toNat, h] at hchar
  cases hchar

/-- A scheme that is not a special one. -/
structure NotSpecial (scheme : List Char) : Prop where
  head : ∃ c rest, scheme = c :: rest ∧ c.isAlpha = true
  chars : ∀ c ∈ scheme, isSchemeChar c = true
  notSpecial : String.ofList (scheme.map Char.toLower) ∉ specialSchemes

theorem splitScheme_colon {scheme : List Char} (h : NotSpecial scheme) :
    splitScheme (scheme ++ ':' :: rest) = some (scheme.map Char.toLower, rest) := by
  obtain ⟨c, more, hscheme, hc⟩ := h.head
  have hcolon : isSchemeChar ':' = false := by decide
  unfold splitScheme
  rw [List.takeWhile_append_of_pos h.chars, List.dropWhile_append_of_pos h.chars,
    List.takeWhile_cons_of_neg (by simp [hcolon]), List.dropWhile_cons_of_neg (by simp [hcolon]),
    List.append_nil, hscheme]
  simp only [if_pos hc]

/-- The authority is what stands between `://` and the next slash. -/
theorem parseNotSpecial_authority {scheme : List Char} (hscheme : NotSpecial scheme)
    (hauthority : ∀ c ∈ authority, endsAuthority c = false ∧ isTabOrNewline c = false) :
    ∃ path, parseNotSpecial ipv6 (scheme ++ ':' :: '/' :: '/' :: (authority ++ '/' :: rest)) =
      (parseAuthority ipv6 authority).map fun a =>
        { a with scheme := scheme.map Char.toLower, rest := '/' :: path } := by
  obtain ⟨c, more, heq, hc⟩ := hscheme.head
  have hkept : ∀ e ∈ more ++ ':' :: '/' :: '/' :: authority, isTabOrNewline e = false := by
    intro e he
    rcases List.mem_append.mp he with he | he
    · exact not_tabOrNewline (isStripped_schemeChar (hscheme.chars e (by simp [heq, he])))
    · simp only [List.mem_cons] at he
      rcases he with rfl | rfl | rfl | he
      · decide
      · decide
      · decide
      · exact (hauthority e he).2
  have hhead : isStripped c = false := isStripped_schemeChar (hscheme.chars c (by simp [heq]))
  have hcut : ∀ e ∈ authority, (!endsAuthority e) = true := fun e he => by
    rw [(hauthority e he).1]
    rfl
  have hslash : endsAuthority '/' = true := by decide
  refine ⟨(rest.rdropWhile isStripped).filter fun e => !isTabOrNewline e, ?_⟩
  have hclean : clean (scheme ++ ':' :: '/' :: '/' :: (authority ++ '/' :: rest)) =
      scheme ++ ':' :: '/' :: '/' :: (authority ++
        '/' :: (rest.rdropWhile isStripped).filter fun e => !isTabOrNewline e) := by
    have hkeep : clean (c :: (more ++ ':' :: '/' :: '/' :: authority) ++ '/' :: rest) = _ :=
      clean_kept hhead hkept (by decide)
    simpa [heq] using hkeep
  unfold parseNotSpecial
  rw [hclean, splitScheme_colon hscheme, Option.bind_eq_bind, Option.bind_some]
  simp only [if_neg hscheme.notSpecial]
  rw [List.takeWhile_append_of_pos hcut,
    List.dropWhile_append_of_pos hcut, List.takeWhile_cons_of_neg (by simp [hslash]),
    List.dropWhile_cons_of_neg (by simp [hslash]), List.append_nil]
  cases parseAuthority ipv6 authority <;> rfl

end Reading

end AegisShield.Common.WebUrl
