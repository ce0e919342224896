import AegisShield.Common.CappedTable
import AegisShield.Common.Trim
import AegisShield.Common.UrlAuthority
import AegisShield.Gateway.Url

/-!
# The environment file

`parseEnvironmentText` and `initializeEnvironmentText` (`infra/scripts/env.mjs`, lines 139-152 and
563-610). The first reads a text line by line, the second rewrites the lines of some variables:
fresh secrets, and connection URLs that are built from their components.

Results:
* `parseLine_rewriteLine`: a rewritten line defines the variable with its replacement.
* `rows_initialized`: parsing the rewritten text is replacing values in the parsed one.
* `initialize_faithful`: the above, what is replaced, and what a parser of URLs reads in the URLs.
* `port_not_number`: a port that such a parser refuses.
-/

namespace AegisShield.Infra

open Common
open Common.WebUrl (parseNotSpecial isForbiddenHost parsePort)
open Gateway (encodeURIComponent reads_encodeURIComponent isUriChar_encodeURIComponent
  toNat_of_isUriChar decodeURIComponent_eq)
open Sabcl (decodeURIComponent)

/-! ## Model (`env.mjs`) -/

/-- A variable and its value. -/
structure Variable where
  name : String
  value : String
  deriving DecidableEq

instance : Keyed Variable String := ⟨Variable.name⟩

/-- A `Map` from names to values. -/
abbrev Environment := Table Variable

/-- `values.get(name)`. -/
def get (values : Environment) (name : String) : Option String :=
  (values.find name).map Variable.value

/-- `line.trim()`. -/
def trim (line : List Char) : List Char := trimBy isWhiteSpace line

/-- A line without the carriage return in front of a line feed. -/
def chomp (line : List Char) : List Char :=
  if line.getLast? = some '\r' then line.dropLast else line

/-- `text.split(/\r?\n/u)`. -/
def splitLines (text : List Char) : List (List Char) :=
  (text.splitOn '\n').dropLast.map chomp ++ (text.splitOn '\n').getLast?.toList

/-- `!line || line.startsWith('#')`. -/
def isSkipped (line : List Char) : Bool := line.isEmpty || decide (line.head? = some '#')

/-- `line.indexOf('=') > 0`. -/
def hasSeparator (line : List Char) : Bool :=
  decide ('=' ∈ line) && decide (line.head? ≠ some '=')

/-- `line.slice(0, separator).trim()`. -/
def nameOf (line : List Char) : List Char := trim (line.takeWhile (· ≠ '='))

/-- `line.slice(separator + 1).trim()`. -/
def valueOf (line : List Char) : List Char := trim (line.dropWhile (· ≠ '=')).tail

/-- The variable of a line (lines 142-149). -/
def parseLine (rawLine : List Char) : Option Variable :=
  let line := trim rawLine
  if isSkipped line = true then none
  else if hasSeparator line = true then
    some ⟨String.ofList (nameOf line), String.ofList (valueOf line)⟩
  else none

/-- The body of the loop. -/
def readLine (values : Environment) (rawLine : List Char) : Environment :=
  match parseLine rawLine with
  | none => values
  | some v => values.set v

/-- `parseEnvironmentText` (lines 139-152). -/
def parseEnvironmentText (text : String) : Environment :=
  (splitLines text.toList).foldl readLine Table.empty

inductive SecretKind where
  | secret
  | key32
  deriving DecidableEq

/-- `GENERATED_VARIABLES` (lines 470-496). -/
def GENERATED_VARIABLES : List (String × SecretKind) :=
  [("POSTGRES_PASSWORD", .secret), ("IDENTITY_DB_PASSWORD", .secret),
   ("LEDGER_DB_PASSWORD", .secret), ("PAYMENTS_DB_PASSWORD", .secret),
   ("AUDIT_DB_PASSWORD", .secret), ("RESILIENCE_DB_PASSWORD", .secret),
   ("REDIS_PASSWORD", .secret), ("IDENTITY_INTERNAL_TOKEN", .secret),
   ("LEDGER_INTERNAL_TOKEN", .secret), ("PAYMENTS_INTERNAL_TOKEN", .secret),
   ("PAYMENTS_QR_SIGNING_KEY", .secret), ("USSD_PROVIDER_SECRET", .secret),
   ("SERVICE_AUTH_SHARED_SECRET", .secret), ("RISK_INTERNAL_TOKEN", .secret),
   ("RISK_GATEWAY_SOURCE_TOKEN", .secret), ("RISK_IDENTITY_SOURCE_TOKEN", .secret),
   ("RISK_PAYMENTS_SOURCE_TOKEN", .secret), ("RISK_LEDGER_SOURCE_TOKEN", .secret),
   ("RISK_INFRASTRUCTURE_SOURCE_TOKEN", .secret), ("RISK_CHANNEL_SOURCE_TOKEN", .secret),
   ("RESILIENCE_INTERNAL_TOKEN", .secret), ("RESILIENCE_GATEWAY_SOURCE_TOKEN", .secret),
   ("RESILIENCE_TOOLING_SOURCE_TOKEN", .secret), ("FIELD_ENCRYPTION_KEY", .key32),
   ("DR_BACKUP_ENCRYPTION_KEY", .key32)]

/-- A connection URL and the variables that it is built from. -/
structure UrlBinding where
  url : String
  user : String
  password : String
  database : String
  schema : Option String
  deriving DecidableEq

/-- `REBUILT_URLS` (lines 499-549). -/
def REBUILT_URLS : List UrlBinding :=
  [⟨"DATABASE_URL", "POSTGRES_USER", "POSTGRES_PASSWORD", "POSTGRES_ADMIN_DATABASE", none⟩,
   ⟨"IDENTITY_DATABASE_URL", "IDENTITY_DB_USER", "IDENTITY_DB_PASSWORD", "IDENTITY_DB_NAME",
    some "app"⟩,
   ⟨"LEDGER_DATABASE_URL", "LEDGER_DB_USER", "LEDGER_DB_PASSWORD", "LEDGER_DB_NAME", some "app"⟩,
   ⟨"PAYMENTS_DATABASE_URL", "PAYMENTS_DB_USER", "PAYMENTS_DB_PASSWORD", "PAYMENTS_DB_NAME",
    some "app"⟩,
   ⟨"AUDIT_DATABASE_URL", "AUDIT_DB_USER", "AUDIT_DB_PASSWORD", "AUDIT_DB_NAME", none⟩,
   ⟨"RISK_DATABASE_URL", "AUDIT_DB_USER", "AUDIT_DB_PASSWORD", "AUDIT_DB_NAME", some "app"⟩,
   ⟨"RESILIENCE_DATABASE_URL", "RESILIENCE_DB_USER", "RESILIENCE_DB_PASSWORD",
    "RESILIENCE_DB_NAME", some "app"⟩]

/-- The characters of `base64` and `base64url`. -/
def isBase64Char (c : Char) : Bool := c.isAlphanum || ['+', '/', '=', '-', '_'].contains c

/-- What `generateSecret` and `generateBackupKey` return for each variable: random bytes in
    `base64url` and in `base64`. -/
structure Generators where
  generate : SecretKind → String → String
  chars : ∀ kind name, ∀ c ∈ (generate kind name).toList, isBase64Char c = true

/-- `value || fallback`. -/
def orDefault (value : Option String) (fallback : String) : String :=
  if value.getD "" = "" then fallback else value.getD ""

/-- `if (values.has(name)) replacements.set(name, make())`; `make` reads the replacements. -/
def replace (values replacements : Environment) (entry : String × (Environment → String)) :
    Environment :=
  if (values.find entry.1).isSome = true then replacements.set ⟨entry.1, entry.2 replacements⟩
  else replacements

section Initialize

variable (values : Environment) (generators : Generators)

/-- `resolved` (line 574). -/
def resolved (replacements : Environment) (name : String) : String :=
  ((get replacements name).or (get values name)).getD ""

def postgresHost : String := orDefault (get values "POSTGRES_HOST") "127.0.0.1"

def postgresPort : String := orDefault (get values "POSTGRES_PORT") "5432"

/-- `binding.schema ? `?schema=${binding.schema}` : ''`. -/
def schemaQuery (binding : UrlBinding) : String :=
  match binding.schema with
  | none => ""
  | some schema => "?schema=" ++ schema

/-- The URL of a binding (lines 577-586). -/
def rebuiltUrl (binding : UrlBinding) (replacements : Environment) : String :=
  "postgresql://" ++ encodeURIComponent (resolved values replacements binding.user) ++ ":" ++
    encodeURIComponent (resolved values replacements binding.password) ++ "@" ++
    postgresHost values ++ ":" ++ postgresPort values ++ "/" ++
    resolved values replacements binding.database ++ schemaQuery binding

/-- The URL of Redis (lines 589-594). -/
def redisUrl (replacements : Environment) : String :=
  "redis://:" ++ encodeURIComponent (resolved values replacements "REDIS_PASSWORD") ++ "@" ++
    orDefault (get values "REDIS_HOST") "127.0.0.1" ++ ":" ++
    orDefault (get values "REDIS_PORT") "6379" ++ "/0"

/-- The replacements of the generated variables (lines 568-572). -/
def generatedReplacements : Environment :=
  (GENERATED_VARIABLES.map fun entry =>
    (entry.1, fun _ => generators.generate entry.2 entry.1)).foldl (replace values) Table.empty

/-- The replacements with the URLs of the databases (lines 575-587). -/
def databaseReplacements : Environment :=
  (REBUILT_URLS.map fun binding => (binding.url, rebuiltUrl values binding)).foldl
    (replace values) (generatedReplacements values generators)

/-- All replacements (lines 568-595). -/
def replacements : Environment :=
  replace values (databaseReplacements values generators) ("REDIS_URL", redisUrl values)

end Initialize

/-- The callback of `map` (lines 599-607). -/
def rewriteLine (replacements : Environment) (line : List Char) : List Char :=
  if isSkipped (trim line) = true then line
  else if hasSeparator line = true then
    let name := String.ofList (nameOf line)
    match replacements.find name with
    | none => line
    | some v => (name ++ "=" ++ v.value).toList
  else line

/-- What `initializeEnvironmentText` returns. -/
structure Initialized where
  text : String
  generated : List String

/-- `initializeEnvironmentText` (lines 563-610). -/
def initializeEnvironmentText (exampleText : String) (generators : Generators) : Initialized :=
  let replacements := replacements (parseEnvironmentText exampleText) generators
  { text := String.ofList (['\n'].intercalate
      ((splitLines exampleText.toList).map (rewriteLine replacements)))
    generated := (replacements.rows.map Variable.name).mergeSort fun a b => decide (a ≤ b) }

/-! ## Trimmed text -/

/-- A text in one line without white space at its ends. -/
structure Clean (text : List Char) : Prop where
  line : '\n' ∉ text
  head : ∀ c, text.head? = some c → isWhiteSpace c = false
  last : ∀ c, text.getLast? = some c → isWhiteSpace c = false

theorem Clean.trim {text : List Char} (h : Clean text) : trim text = text :=
  trimBy_eq_self h.head h.last

theorem clean_trim {text : List Char} (h : '\n' ∉ text) : Clean (Infra.trim text) where
  line hmem := h (trimBy_sublist.subset hmem)
  head _ := trimBy_head
  last _ := trimBy_last

theorem clean_nil : Clean [] := ⟨by simp, by simp, by simp⟩

theorem clean_of_visible {text : List Char} (h : ∀ c ∈ text, 0x21 ≤ c.toNat ∧ c.toNat < 0x7F) :
    Clean text := by
  have hvisible : ∀ c ∈ text, isWhiteSpace c = false := fun c hc =>
    isWhiteSpace_visible (h c hc).1 (h c hc).2
  refine ⟨fun hmem => ?_, fun c hc => hvisible c (List.mem_of_head? hc),
    fun c hc => hvisible c (List.mem_of_getLast? hc)⟩
  exact absurd (h _ hmem).1 (by decide)

theorem Clean.append {text text' : List Char} (h : Clean text) (h' : Clean text') :
    Clean (text ++ text') := by
  refine ⟨fun hmem => ?_, fun c hc => ?_, fun c hc => ?_⟩
  · rcases List.mem_append.mp hmem with hmem | hmem
    · exact h.line hmem
    · exact h'.line hmem
  · cases text with
    | nil => exact h'.head c hc
    | cons d text => exact h.head c hc
  · rcases List.eq_nil_or_concat text' with rfl | ⟨front, d, rfl⟩
    · rw [List.append_nil] at hc
      exact h.last c hc
    · refine h'.last c ?_
      simpa using hc

theorem clean_encodeURIComponent (value : String) : Clean (encodeURIComponent value).toList :=
  clean_of_visible fun c hc => toNat_of_isUriChar (isUriChar_encodeURIComponent value c hc)

/-! ## Lines -/

theorem trim_chomp (line : List Char) : trim (chomp line) = trim line := by
  unfold chomp
  split
  next h =>
    obtain ⟨front, rfl⟩ := List.getLast?_eq_some_iff.mp h
    rw [List.dropLast_concat]
    have hreturn : ∀ c ∈ ['\r'], isWhiteSpace c = true := by
      intro c hc
      rw [List.mem_singleton.mp hc]
      rfl
    have happend : trimBy isWhiteSpace ([] ++ front ++ ['\r']) = trimBy isWhiteSpace front :=
      trimBy_append (List.forall_mem_nil _) hreturn
    exact happend.symm
  · rfl

theorem parseLine_eq (line : List Char) : parseLine line =
    if isSkipped (trim line) = true then none
    else if hasSeparator (trim line) = true then
      some ⟨String.ofList (nameOf (trim line)), String.ofList (valueOf (trim line))⟩
    else none := rfl

theorem parseLine_chomp (line : List Char) : parseLine (chomp line) = parseLine line := by
  unfold parseLine
  rw [trim_chomp]

/-- Reading a text is reading what stands between its line feeds. -/
theorem foldl_splitLines (text : List Char) (values : Environment) :
    (splitLines text).foldl readLine values = (text.splitOn '\n').foldl readLine values := by
  have hchomp : (fun values line => readLine values (chomp line)) = readLine := by
    funext values line
    rw [readLine, readLine, parseLine_chomp]
  have hne : text.splitOn '\n' ≠ [] := List.splitOn_ne_nil '\n' text
  have hlast := List.getLast?_eq_some_getLast hne
  rw [splitLines, List.foldl_append, List.foldl_map, hchomp, ← List.foldl_append, hlast,
    Option.toList_some, List.dropLast_append_getLast hne]

variable {c : Char}

theorem not_mem_of_mem_splitOn {text line : List Char} (h : line ∈ text.splitOn c) :
    c ∉ line := by
  induction text generalizing line with
  | nil =>
    have hline : line = [] := by simpa using h
    rw [hline]
    simp
  | cons d text ih =>
    rw [List.splitOn_cons_eq_if_modifyHead] at h
    cases hpieces : text.splitOn c with
    | nil => exact absurd hpieces (List.splitOn_ne_nil c text)
    | cons piece pieces =>
      rw [hpieces] at h ih
      split at h
      · rcases List.mem_cons.mp h with rfl | h
        · simp
        · exact ih h
      next hd =>
        rcases List.mem_cons.mp h with rfl | h
        · have hne : c ≠ d := fun heq => hd (by rw [heq]; exact beq_self_eq_true d)
          exact List.not_mem_cons_of_ne_of_not_mem hne (ih List.mem_cons_self)
        · exact ih (List.mem_cons_of_mem piece h)

theorem splitLines_line {text line : List Char} (h : line ∈ splitLines text) : '\n' ∉ line := by
  rcases List.mem_append.mp h with h | h
  · obtain ⟨piece, hpiece, rfl⟩ := List.mem_map.mp h
    have hline := not_mem_of_mem_splitOn (List.dropLast_subset _ hpiece)
    unfold chomp
    split
    · exact fun hmem => hline (List.dropLast_subset _ hmem)
    · exact hline
  · exact not_mem_of_mem_splitOn (List.mem_of_getLast? (Option.mem_toList.mp h))

theorem splitLines_ne_nil (text : List Char) : splitLines text ≠ [] := by
  have hlast := List.getLast?_eq_some_getLast (List.splitOn_ne_nil '\n' text)
  unfold splitLines
  rw [hlast]
  simp

theorem ne_equals (h : isWhiteSpace c = true) : c ≠ '=' := by
  rintro rfl
  exact absurd h (by decide)

section Line

variable {line before after text : List Char}

theorem takeWhile_append_equals (h : '=' ∈ text) :
    (text ++ after).takeWhile (· ≠ '=') = text.takeWhile (· ≠ '=') := by
  induction text with
  | nil => cases h
  | cons c text ih =>
    rw [List.cons_append]
    by_cases hc : c = '='
    · rw [List.takeWhile_cons_of_neg (by simpa using hc),
        List.takeWhile_cons_of_neg (by simpa using hc)]
    · rw [List.takeWhile_cons_of_pos (by simpa using hc),
        List.takeWhile_cons_of_pos (by simpa using hc),
        ih ((List.mem_cons.mp h).resolve_left (Ne.symm hc))]

/-- White space around a line does not matter for its name. -/
theorem nameOf_between (hbefore : ∀ c ∈ before, isWhiteSpace c = true) (h : '=' ∈ text) :
    nameOf (before ++ text ++ after) = nameOf text := by
  have hne : ∀ c ∈ before, (decide (c ≠ '=')) = true := fun c hc =>
    decide_eq_true (ne_equals (hbefore c hc))
  have hnil : ∀ c ∈ ([] : List Char), isWhiteSpace c = true := List.forall_mem_nil _
  unfold nameOf
  rw [List.append_assoc, List.takeWhile_append_of_pos hne, takeWhile_append_equals h]
  have htrim : trimBy isWhiteSpace (before ++ text.takeWhile (· ≠ '=') ++ []) = _ :=
    trimBy_append hbefore hnil
  rwa [List.append_nil] at htrim

/-- Behind white space there is no name. -/
theorem nameOf_equals (hbefore : ∀ c ∈ before, isWhiteSpace c = true) :
    nameOf (before ++ '=' :: text) = [] := by
  have hne : ∀ c ∈ before, (decide (c ≠ '=')) = true := fun c hc =>
    decide_eq_true (ne_equals (hbefore c hc))
  unfold nameOf
  rw [List.takeWhile_append_of_pos hne, List.takeWhile_cons_of_neg (by simp), List.append_nil]
  exact trimBy_of_forall hbefore

end Line

/-- What a variable is in the rewritten text. -/
def replaced (replacements : Environment) (v : Variable) : Variable :=
  ⟨v.name, (get replacements v.name).getD v.value⟩

theorem key_replaced (replacements : Environment) (v : Variable) :
    key (replaced replacements v) = key v := rfl

/-- Names that a line can define as they stand. -/
structure IsName (name : List Char) : Prop where
  clean : Clean name
  ne : name ≠ []
  noEquals : '=' ∉ name
  noComment : name.head? ≠ some '#'

/-- The line of a variable defines it. -/
theorem parseLine_assignment {name value : List Char} (hname : IsName name)
    (hvalue : Clean value) :
    parseLine (name ++ '=' :: value) = some ⟨String.ofList name, String.ofList value⟩ := by
  obtain ⟨c, rest, rfl⟩ := List.exists_cons_of_ne_nil hname.ne
  have hequals : Clean ['='] := clean_of_visible (by simp)
  have hclean : Clean (c :: rest ++ '=' :: value) := by
    simpa using hname.clean.append (hequals.append hvalue)
  have hne : ∀ d ∈ c :: rest, (decide (d ≠ '=')) = true := fun d hd =>
    decide_eq_true fun heq => hname.noEquals (heq ▸ hd)
  have hskipped : isSkipped (c :: rest ++ '=' :: value) = false := by
    simpa [isSkipped] using hname.noComment
  have hseparator : hasSeparator (c :: rest ++ '=' :: value) = true := by
    have hc : c ≠ '=' := fun heq => hname.noEquals (by rw [heq]; exact List.mem_cons_self)
    simp [hasSeparator, hc]
  have hparts : nameOf (c :: rest ++ '=' :: value) = c :: rest ∧
      valueOf (c :: rest ++ '=' :: value) = value := by
    unfold nameOf valueOf
    rw [List.takeWhile_append_of_pos hne, List.dropWhile_append_of_pos hne,
      List.takeWhile_cons_of_neg (by simp), List.dropWhile_cons_of_neg (by simp), List.append_nil,
      hname.clean.trim, List.tail_cons, hvalue.trim]
    exact ⟨rfl, rfl⟩
  rw [parseLine_eq, hclean.trim, hskipped, if_neg Bool.false_ne_true, if_pos hseparator,
    hparts.1, hparts.2]

/-- Replacements that lines can define as they stand. -/
def Definable (replacements : Environment) : Prop :=
  ∀ v ∈ replacements.rows, IsName v.name.toList ∧ Clean v.value.toList

/-- White space around a line does not matter for where its separator is. -/
theorem hasSeparator_between {line before after text : List Char}
    (hline : line = before ++ text ++ after) (hbefore : ∀ c ∈ before, isWhiteSpace c = true)
    (h : hasSeparator text = true) : hasSeparator line = true := by
  unfold hasSeparator at h ⊢
  simp only [Bool.and_eq_true, decide_eq_true_eq] at h ⊢
  refine ⟨by simp [hline, h.1], ?_⟩
  cases before with
  | nil =>
    cases text with
    | nil => simp at h
    | cons c text => simpa [hline] using h.2
  | cons c before => simpa [hline] using ne_equals (hbefore c List.mem_cons_self)

theorem nameOf_of_unnamed {line before after text : List Char}
    (hline : line = before ++ text ++ after) (hbefore : ∀ c ∈ before, isWhiteSpace c = true)
    (hafter : ∀ c ∈ after, isWhiteSpace c = true) (h : hasSeparator line = true)
    (htext : ¬ hasSeparator text = true) : nameOf line = [] := by
  unfold hasSeparator at h htext
  simp only [Bool.and_eq_true, decide_eq_true_eq, not_and, not_not] at h htext
  have hmem : '=' ∈ text := by
    rw [hline] at h
    rcases List.mem_append.mp h.1 with hmem | hmem
    · rcases List.mem_append.mp hmem with hmem | hmem
      · exact absurd rfl (ne_equals (hbefore _ hmem))
      · exact hmem
    · exact absurd rfl (ne_equals (hafter _ hmem))
  obtain ⟨rest, rfl⟩ := List.head?_eq_some_iff.mp (htext hmem)
  rw [hline, List.append_assoc, List.cons_append]
  exact nameOf_equals hbefore

/-- A rewritten line defines its variable with the replacement. -/
theorem parseLine_rewriteLine {replacements : Environment} (h : Definable replacements)
    (line : List Char) :
    parseLine (rewriteLine replacements line) = (parseLine line).map (replaced replacements) := by
  obtain ⟨before, after, hline, hbefore, hafter⟩ := trimBy_between isWhiteSpace line
  rw [show trimBy isWhiteSpace line = trim line from rfl] at hline
  by_cases hskipped : isSkipped (trim line) = true
  · rw [rewriteLine, if_pos hskipped, parseLine_eq, if_pos hskipped]
    rfl
  rw [rewriteLine, if_neg hskipped]
  by_cases hseparator : hasSeparator (trim line) = true
  · -- the line defines a variable, whose name is read from the line as it stands
    have hmem : '=' ∈ trim line := by
      unfold hasSeparator at hseparator
      simp only [Bool.and_eq_true, decide_eq_true_eq] at hseparator
      exact hseparator.1
    have hname : nameOf line = nameOf (trim line) := by
      rw [hline, nameOf_between hbefore hmem, ← hline]
    have hparse := parseLine_eq line
    rw [if_neg hskipped, if_pos hseparator] at hparse
    rw [if_pos (hasSeparator_between hline hbefore hseparator), hname]
    dsimp only
    cases hfind : replacements.find (String.ofList (nameOf (trim line))) with
    | none =>
      rw [hparse, Option.map_some, replaced, get, hfind]
      rfl
    | some v =>
      obtain ⟨hv, hkey⟩ := Table.find_some hfind
      have hvname : v.name = String.ofList (nameOf (trim line)) := hkey
      obtain ⟨hisName, hclean⟩ := h v hv
      rw [hvname, String.toList_ofList] at hisName
      have htext : (String.ofList (nameOf (trim line)) ++ "=" ++ v.value).toList =
          nameOf (trim line) ++ '=' :: v.value.toList := by
        simp [String.toList_append]
      rw [hparse, Option.map_some, replaced, get, hfind]
      dsimp only
      rw [htext, parseLine_assignment hisName hclean, String.ofList_toList]
      rfl
  · have hparse := parseLine_eq line
    rw [if_neg hskipped, if_neg hseparator] at hparse
    have hnone : replacements.find "" = none := by
      rw [Table.find_eq_none]
      intro hmem
      obtain ⟨v, hv, hname⟩ := List.mem_map.mp hmem
      have hempty : v.name = "" := hname
      exact (h v hv).1.ne (by rw [hempty]; rfl)
    by_cases hequals : hasSeparator line = true
    · -- the separator of such a line has nothing but white space in front of it
      have hname := nameOf_of_unnamed hline hbefore hafter hequals hseparator
      rw [if_pos hequals, hname]
      dsimp only
      rw [String.ofList_nil, hnone, hparse]
      rfl
    · rw [if_neg hequals, hparse]
      rfl

/-! ## The rewritten text -/

section Rewritten

variable {replacements : Environment}

/-- A rewritten line is one line. -/
theorem rewriteLine_line (h : Definable replacements) {line : List Char} (hline : '\n' ∉ line) :
    '\n' ∉ rewriteLine replacements line := by
  unfold rewriteLine
  split
  · exact hline
  split
  · dsimp only
    split
    · exact hline
    next v hfind =>
      have hname : '\n' ∉ nameOf line := fun hmem =>
        hline ((List.takeWhile_sublist _).subset (trimBy_sublist.subset hmem))
      have hvalue := (h v (Table.find_some hfind).1).2.line
      simpa using ⟨hname, hvalue⟩
  · exact hline

/-- Reading rewritten lines is replacing values in what the lines define. -/
theorem foldl_rewriteLine (h : Definable replacements) (lines : List (List Char))
    {values values' : Environment}
    (hrows : values'.rows = values.rows.map (Infra.replaced replacements)) :
    ((lines.map (rewriteLine replacements)).foldl readLine values').rows =
      (lines.foldl readLine values).rows.map (replaced replacements) := by
  induction lines generalizing values values' with
  | nil => exact hrows
  | cons line lines ih =>
    refine ih ?_
    unfold readLine
    rw [parseLine_rewriteLine h]
    cases parseLine line with
    | none => exact hrows
    | some v => exact Table.rows_set_map (key_replaced replacements) hrows

end Rewritten

/-! ## Replacements -/

section Replacements

variable {values replacements replacements' : Environment} {name : String}
  {entry : String × (Environment → String)} {entries : List (String × (Environment → String))}

theorem find_replace : (replace values replacements entry).find name =
    if entry.1 = name ∧ (values.find name).isSome = true then
      some ⟨name, entry.2 replacements⟩
    else replacements.find name := by
  have hset : (replacements.set ⟨entry.1, entry.2 replacements⟩).find name =
      if entry.1 = name then some ⟨entry.1, entry.2 replacements⟩ else replacements.find name :=
    Table.find_set
  unfold replace
  by_cases hsome : (values.find entry.1).isSome = true
  · rw [if_pos hsome, hset]
    by_cases hname : entry.1 = name
    · subst hname
      rw [if_pos rfl, if_pos ⟨rfl, hsome⟩]
    · rw [if_neg hname, if_neg fun h => hname h.1]
  · rw [if_neg hsome, if_neg]
    rintro ⟨rfl, h⟩
    exact hsome h

/-- Names of other entries keep their replacements. -/
theorem find_foldl_replace_of_not_mem (h : name ∉ entries.map Prod.fst) :
    (entries.foldl (replace values) replacements).find name = replacements.find name := by
  induction entries generalizing replacements with
  | nil => rfl
  | cons entry entries ih =>
    rw [List.map_cons, List.mem_cons, not_or] at h
    rw [List.foldl_cons, ih h.2, find_replace, if_neg fun hname => h.1 hname.1.symm]

/-- An entry that reads no replacement of another entry is replaced by what it makes at the
    beginning. -/
theorem find_foldl_replace (hnodup : (entries.map Prod.fst).Nodup) (hentry : entry ∈ entries)
    (hframe : ∀ replacements', (∀ name, name ∉ entries.map Prod.fst →
      replacements'.find name = replacements.find name) →
        entry.2 replacements' = entry.2 replacements) :
    (entries.foldl (replace values) replacements).find entry.1 =
      if (values.find entry.1).isSome = true then some ⟨entry.1, entry.2 replacements⟩
      else replacements.find entry.1 := by
  obtain ⟨front, back, rfl⟩ := List.append_of_mem hentry
  rw [List.map_append, List.map_cons, List.nodup_append] at hnodup
  have hback : entry.1 ∉ back.map Prod.fst := (List.nodup_cons.mp hnodup.2.1).1
  have hfront : entry.1 ∉ front.map Prod.fst := fun hmem =>
    hnodup.2.2 _ hmem _ List.mem_cons_self rfl
  have hmake := hframe (front.foldl (replace values) replacements) fun other hother => by
    rw [List.map_append, List.mem_append, not_or] at hother
    exact find_foldl_replace_of_not_mem hother.1
  rw [List.foldl_append, List.foldl_cons, find_foldl_replace_of_not_mem hback, find_replace, hmake,
    find_foldl_replace_of_not_mem hfront]
  by_cases hsome : (values.find entry.1).isSome = true
  · rw [if_pos ⟨rfl, hsome⟩, if_pos hsome]
  · rw [if_neg fun h => hsome h.2, if_neg hsome]

theorem mem_set {v w : Variable} (h : v ∈ (values.set w).rows) : v = w ∨ v ∈ values.rows := by
  have hfind := Table.find_of_mem h
  rw [Table.find_set] at hfind
  split at hfind
  · exact .inl (Option.some.inj hfind).symm
  · exact .inr (Table.find_some hfind).1

theorem Definable.foldl (h : Definable replacements)
    (hentries : ∀ entry ∈ entries, IsName entry.1.toList ∧
      ∀ replacements', Definable replacements' → Clean (entry.2 replacements').toList) :
    Definable (entries.foldl (replace values) replacements) := by
  induction entries generalizing replacements with
  | nil => exact h
  | cons entry entries ih =>
    obtain ⟨hentry, hentries⟩ := List.forall_mem_cons.mp hentries
    refine ih ?_ hentries
    unfold replace
    split
    · intro v hv
      rcases mem_set hv with rfl | hv
      · exact ⟨hentry.1, hentry.2 replacements h⟩
      · exact h v hv
    · exact h

/-- The values are in one line and without white space at their ends. -/
def CleanValues (values : Environment) : Prop := ∀ v ∈ values.rows, Clean v.value.toList

theorem cleanValues_parse (text : String) : CleanValues (parseEnvironmentText text) := by
  have hlines : ∀ line ∈ splitLines text.toList, '\n' ∉ line := fun line => splitLines_line
  have hempty : CleanValues (Table.empty : Environment) := fun v hv => by cases hv
  unfold parseEnvironmentText
  generalize splitLines text.toList = lines at hlines
  generalize (Table.empty : Environment) = start at hempty
  induction lines generalizing start with
  | nil => exact hempty
  | cons line lines ih =>
    obtain ⟨hline, hlines⟩ := List.forall_mem_cons.mp hlines
    refine ih hlines _ ?_
    unfold readLine
    cases hparse : parseLine line with
    | none => exact hempty
    | some v =>
      intro w hw
      rcases mem_set hw with rfl | hw
      · rw [parseLine_eq] at hparse
        split_ifs at hparse
        obtain rfl := Option.some.inj hparse
        rw [String.toList_ofList]
        refine clean_trim fun hmem => hline ?_
        exact trimBy_sublist.subset
          ((List.dropWhile_sublist _).subset (List.mem_of_mem_tail hmem))
      · exact hempty w hw

theorem clean_get (h : CleanValues values) {value : String} (hget : get values name = some value) :
    Clean value.toList := by
  obtain ⟨v, hv, rfl⟩ := Option.map_eq_some_iff.mp hget
  exact h v (Table.find_some hv).1

theorem clean_getD (h : CleanValues values) : Clean ((get values name).getD "").toList := by
  cases hget : get values name with
  | none => exact clean_nil
  | some value => exact clean_get h hget

theorem clean_resolved (h : CleanValues values) (hreplacements : Definable replacements) :
    Clean (resolved values replacements name).toList := by
  unfold resolved
  cases hget : get replacements name with
  | none => exact clean_getD h
  | some value => exact clean_get (fun v hv => (hreplacements v hv).2) hget

theorem clean_orDefault (h : CleanValues values) {fallback : String}
    (hfallback : Clean fallback.toList) :
    Clean (orDefault (get values name) fallback).toList := by
  unfold orDefault
  split
  · exact hfallback
  · exact clean_getD h

end Replacements

/-! ## The variables that are replaced -/

section Variables

variable {values : Environment} (generators : Generators)

/-- The names that `initializeEnvironmentText` may replace. -/
def replacedNames : List String :=
  GENERATED_VARIABLES.map Prod.fst ++ REBUILT_URLS.map UrlBinding.url ++ ["REDIS_URL"]

/-- The characters of the names. -/
def isNameChar (c : Char) : Bool := c.isUpper || c.isDigit || c == '_'

theorem isName_of_chars {name : List Char} (hne : name ≠ [])
    (h : ∀ c ∈ name, isNameChar c = true) : IsName name := by
  have hother : ∀ {c : Char}, isNameChar c = false → c ∉ name := by
    intro c hc hmem
    rw [h c hmem] at hc
    cases hc
  refine ⟨clean_of_visible fun c hc => toNat_of_isUriChar ?_, hne, hother (by decide),
    fun hhead => hother (by decide : isNameChar '#' = false) (List.mem_of_head? hhead)⟩
  have hchar := h c hc
  simp only [isNameChar, Bool.or_eq_true, beq_iff_eq] at hchar
  unfold Gateway.isUriChar
  rcases hchar with (hchar | hchar) | rfl
  · simp [Char.isAlphanum, Char.isAlpha, hchar]
  · simp [Char.isAlphanum, hchar]
  · decide

theorem isName_replaced : ∀ name ∈ replacedNames, IsName name.toList := by
  have hnames : (replacedNames.all fun name =>
      !name.toList.isEmpty && name.toList.all isNameChar) = true := by
    decide +kernel
  intro name hname
  obtain ⟨hne, hchars⟩ := Bool.and_eq_true_iff.mp (List.all_eq_true.mp hnames name hname)
  exact isName_of_chars (by simpa using hne) (List.all_eq_true.mp hchars)

theorem clean_generate (kind : SecretKind) (name : String) :
    Clean (generators.generate kind name).toList := by
  refine clean_of_visible fun c hc => ?_
  have hchar := generators.chars kind name c hc
  by_cases huri : Gateway.isUriChar c = true
  · exact toNat_of_isUriChar huri
  · simp only [isBase64Char, Bool.or_eq_true, List.contains_eq_mem, List.mem_cons,
      List.not_mem_nil, or_false, decide_eq_true_eq] at hchar
    rcases hchar with hchar | rfl | rfl | rfl | rfl | rfl
    · exact absurd (by simp [Gateway.isUriChar, hchar]) huri
    iterate 5
      · decide

variable (hvalues : CleanValues values)
include hvalues

theorem clean_rebuiltUrl {binding : UrlBinding} (hbinding : binding ∈ REBUILT_URLS)
    {replacements : Environment} (h : Definable replacements) :
    Clean (rebuiltUrl values binding replacements).toList := by
  have hschemas : ∀ b ∈ REBUILT_URLS, b.schema = none ∨ b.schema = some "app" := by decide
  have hquery : Clean (schemaQuery binding).toList := by
    unfold schemaQuery
    rcases hschemas binding hbinding with hschema | hschema
    · rw [hschema]
      exact clean_nil
    · rw [hschema]
      exact clean_of_visible (by simp)
  have hscheme : Clean "postgresql://".toList := clean_of_visible (by simp)
  have hcolon : Clean ":".toList := clean_of_visible (by simp)
  have hat : Clean "@".toList := clean_of_visible (by simp)
  have hslash : Clean "/".toList := clean_of_visible (by simp)
  have hhost : Clean (postgresHost values).toList :=
    clean_orDefault hvalues (clean_of_visible (by simp))
  have hport : Clean (postgresPort values).toList :=
    clean_orDefault hvalues (clean_of_visible (by simp))
  unfold rebuiltUrl
  simp only [String.toList_append]
  exact (((((((((hscheme.append (clean_encodeURIComponent _)).append hcolon).append
    (clean_encodeURIComponent _)).append hat).append hhost).append hcolon).append hport).append
      hslash).append (clean_resolved hvalues h)).append hquery

theorem clean_redisUrl {replacements : Environment} :
    Clean (redisUrl values replacements).toList := by
  have hscheme : Clean "redis://:".toList := clean_of_visible (by simp)
  have hcolon : Clean ":".toList := clean_of_visible (by simp)
  have hat : Clean "@".toList := clean_of_visible (by simp)
  have hpath : Clean "/0".toList := clean_of_visible (by simp)
  unfold redisUrl
  simp only [String.toList_append]
  exact (((((hscheme.append (clean_encodeURIComponent _)).append hat).append
    (clean_orDefault hvalues (clean_of_visible (by simp)))).append hcolon).append
      (clean_orDefault hvalues (clean_of_visible (by simp)))).append hpath

/-- Every replacement is a value that a line can define. -/
theorem definable_replacements : Definable (replacements values generators) := by
  have hempty : Definable (Table.empty : Environment) := fun v hv => by cases hv
  have hgenerated : Definable (generatedReplacements values generators) := by
    refine hempty.foldl fun entry hentry => ?_
    obtain ⟨generated, hgenerated, rfl⟩ := List.mem_map.mp hentry
    refine ⟨isName_replaced _ ?_, fun _ _ => clean_generate generators _ _⟩
    exact List.mem_append_left _ (List.mem_append_left _ (List.mem_map_of_mem hgenerated))
  have hdatabases : Definable (databaseReplacements values generators) := by
    refine hgenerated.foldl fun entry hentry => ?_
    obtain ⟨binding, hbinding, rfl⟩ := List.mem_map.mp hentry
    refine ⟨isName_replaced _ ?_, fun _ h => clean_rebuiltUrl hvalues hbinding h⟩
    exact List.mem_append_left _ (List.mem_append_right _ (List.mem_map_of_mem hbinding))
  have hredis : Definable ([("REDIS_URL", redisUrl values)].foldl (replace values)
      (databaseReplacements values generators)) := by
    refine hdatabases.foldl fun entry hentry => ?_
    rw [List.mem_singleton.mp hentry]
    exact ⟨isName_replaced _ (List.mem_append_right _ List.mem_cons_self),
      fun _ _ => clean_redisUrl hvalues⟩
  exact hredis

end Variables

section Find

variable (values : Environment) (generators : Generators)

theorem isSome_foldl_replace {entries : List (String × (Environment → String))}
    {start : Environment} {name : String} :
    ((entries.foldl (replace values) start).find name).isSome = true ↔
      (start.find name).isSome = true ∨
        (values.find name).isSome = true ∧ name ∈ entries.map Prod.fst := by
  induction entries generalizing start with
  | nil => simp
  | cons entry entries ih =>
    rw [List.foldl_cons, ih, find_replace, List.map_cons, List.mem_cons]
    by_cases hname : entry.1 = name
    · by_cases hsome : (values.find name).isSome = true
      · simp [hname, hsome]
      · simp [hname, hsome]
    · simp [hname, Ne.symm hname]

/-- The variables with a replacement. -/
theorem isSome_replacements {name : String} :
    ((replacements values generators).find name).isSome = true ↔
      (values.find name).isSome = true ∧ name ∈ replacedNames := by
  have hredis : replacements values generators =
      [("REDIS_URL", redisUrl values)].foldl (replace values)
        (databaseReplacements values generators) := rfl
  have hnone : ((Table.empty : Environment).find name).isSome = false := rfl
  rw [hredis, isSome_foldl_replace, databaseReplacements, isSome_foldl_replace,
    generatedReplacements, isSome_foldl_replace, hnone, replacedNames, List.mem_append,
    List.mem_append, List.map_map, List.map_map]
  simp only [Function.comp_def, List.map_cons, List.map_nil, Bool.false_eq_true, false_or]
  tauto

theorem find_replacements_of_other {name : String} (hurl : name ∉ REBUILT_URLS.map UrlBinding.url)
    (hredis : name ≠ "REDIS_URL") : (replacements values generators).find name =
      (generatedReplacements values generators).find name := by
  rw [replacements, find_replace, if_neg fun h => hredis h.1.symm, databaseReplacements,
    find_foldl_replace_of_not_mem]
  rw [List.map_map]
  exact hurl

/-- A generated variable is replaced by what the generator returns for it. -/
theorem find_replacements_generated {entry : String × SecretKind}
    (hentry : entry ∈ GENERATED_VARIABLES) :
    (replacements values generators).find entry.1 =
      if (values.find entry.1).isSome = true then
        some ⟨entry.1, generators.generate entry.2 entry.1⟩
      else none := by
  have hnodup : (GENERATED_VARIABLES.map Prod.fst).Nodup := by decide
  have hother : ∀ entry ∈ GENERATED_VARIABLES,
      entry.1 ∉ REBUILT_URLS.map UrlBinding.url ∧ entry.1 ≠ "REDIS_URL" := by decide
  obtain ⟨hurl, hredis⟩ := hother entry hentry
  rw [find_replacements_of_other values generators hurl hredis, generatedReplacements]
  have hmem : (entry.1, fun _ : Environment => generators.generate entry.2 entry.1) ∈
      GENERATED_VARIABLES.map fun entry =>
        (entry.1, fun _ : Environment => generators.generate entry.2 entry.1) :=
    List.mem_map_of_mem hentry
  refine find_foldl_replace ?_ hmem fun _ _ => rfl
  rw [List.map_map]
  exact hnodup

theorem resolved_congr {replacements replacements' : Environment} {name : String}
    (h : replacements.find name = replacements'.find name) :
    resolved values replacements name = resolved values replacements' name := by
  unfold resolved get
  rw [h]

/-- The URL of a binding, and what it is built from, are not among the URLs. -/
theorem binding_names : ∀ binding ∈ REBUILT_URLS, ∀ name ∈
    [binding.user, binding.password, binding.database],
      name ∉ REBUILT_URLS.map UrlBinding.url ∧ name ≠ "REDIS_URL" := by
  decide

theorem rebuiltUrl_congr {binding : UrlBinding} {replacements replacements' : Environment}
    (h : ∀ name ∈ [binding.user, binding.password, binding.database],
      replacements.find name = replacements'.find name) :
    rebuiltUrl values binding replacements = rebuiltUrl values binding replacements' := by
  have huser := resolved_congr values (h binding.user (by simp))
  have hpassword := resolved_congr values (h binding.password (by simp))
  have hdatabase := resolved_congr values (h binding.database (by simp))
  unfold rebuiltUrl
  rw [huser, hpassword, hdatabase]

/-- A URL is replaced by the one that the replacements of its components give. -/
theorem find_replacements_url {binding : UrlBinding} (hbinding : binding ∈ REBUILT_URLS)
    (hsome : (values.find binding.url).isSome = true) :
    (replacements values generators).find binding.url =
      some ⟨binding.url, rebuiltUrl values binding (replacements values generators)⟩ := by
  have hnodup : (REBUILT_URLS.map UrlBinding.url).Nodup := by decide
  have hredis : ∀ binding ∈ REBUILT_URLS, "REDIS_URL" ≠ binding.url := by decide
  have hmem : (binding.url, rebuiltUrl values binding) ∈
      REBUILT_URLS.map fun binding => (binding.url, rebuiltUrl values binding) :=
    List.mem_map_of_mem hbinding
  have hnames : (REBUILT_URLS.map fun binding => (binding.url, rebuiltUrl values binding)).map
      Prod.fst = REBUILT_URLS.map UrlBinding.url := List.map_map
  have hframe : ∀ replacements', (∀ name, name ∉ (REBUILT_URLS.map fun binding =>
      (binding.url, rebuiltUrl values binding)).map Prod.fst →
        replacements'.find name = (generatedReplacements values generators).find name) →
      rebuiltUrl values binding replacements' =
        rebuiltUrl values binding (generatedReplacements values generators) := by
    intro replacements' h
    refine rebuiltUrl_congr values fun name hname => h name ?_
    rw [hnames]
    exact (binding_names binding hbinding name hname).1
  have hfind : ((REBUILT_URLS.map fun binding => (binding.url, rebuiltUrl values binding)).foldl
      (replace values) (generatedReplacements values generators)).find binding.url = _ :=
    find_foldl_replace (by rw [hnames]; exact hnodup) hmem hframe
  have hsame : rebuiltUrl values binding (generatedReplacements values generators) =
      rebuiltUrl values binding (replacements values generators) := by
    refine rebuiltUrl_congr values fun name hname => ?_
    obtain ⟨hurl, hother⟩ := binding_names binding hbinding name hname
    exact (find_replacements_of_other values generators hurl hother).symm
  have hlast : (replacements values generators).find binding.url =
      (databaseReplacements values generators).find binding.url := by
    rw [replacements, find_replace, if_neg fun h => hredis binding hbinding h.1]
  rw [hlast, databaseReplacements, hfind, if_pos hsome, ← hsame]

end Find

/-! ## The rewritten file -/

section File

variable (exampleText : String) (generators : Generators)

/-- What the rewritten text defines. -/
def initialized : Environment :=
  parseEnvironmentText (initializeEnvironmentText exampleText generators).text

/-- Parsing the rewritten text is replacing values in the parsed one. -/
theorem rows_initialized : (initialized exampleText generators).rows =
    (parseEnvironmentText exampleText).rows.map
      (replaced (replacements (parseEnvironmentText exampleText) generators)) := by
  have hdefinable := definable_replacements generators (cleanValues_parse exampleText)
  generalize hr : replacements (parseEnvironmentText exampleText) generators = r at hdefinable ⊢
  have htext : (initializeEnvironmentText exampleText generators).text = String.ofList
      (['\n'].intercalate ((splitLines exampleText.toList).map (rewriteLine r))) := by
    rw [← hr]
    rfl
  have hlines : ∀ line ∈ (splitLines exampleText.toList).map (rewriteLine r), '\n' ∉ line := by
    intro line hline
    obtain ⟨old, hold, rfl⟩ := List.mem_map.mp hline
    exact rewriteLine_line hdefinable (splitLines_line hold)
  have hne : (splitLines exampleText.toList).map (rewriteLine r) ≠ [] := by
    simpa using splitLines_ne_nil exampleText.toList
  rw [initialized, htext, parseEnvironmentText, String.toList_ofList, foldl_splitLines,
    List.splitOn_intercalate '\n' hlines hne]
  exact foldl_rewriteLine hdefinable _ rfl

theorem get_initialized (name : String) : get (initialized exampleText generators) name =
    (get (parseEnvironmentText exampleText) name).map fun value =>
      (get (replacements (parseEnvironmentText exampleText) generators) name).getD value := by
  unfold get
  rw [Table.find_of_rows_map (key_replaced _) (rows_initialized exampleText generators)]
  cases hold : (parseEnvironmentText exampleText).find name with
  | none => rfl
  | some v =>
    have hname : v.name = name := Table.key_of_find hold
    simp only [Option.map_some, replaced, hname, get]

/-- The file defines what the URLs are built from. -/
theorem getD_initialized (name : String) : (get (initialized exampleText generators) name).getD "" =
    resolved (parseEnvironmentText exampleText)
      (replacements (parseEnvironmentText exampleText) generators) name := by
  rw [get_initialized, resolved]
  cases hold : get (parseEnvironmentText exampleText) name with
  | some value =>
    cases get (replacements (parseEnvironmentText exampleText) generators) name <;> rfl
  | none =>
    have hnone : get (replacements (parseEnvironmentText exampleText) generators) name = none := by
      have hvalues : (parseEnvironmentText exampleText).find name = none :=
        Option.map_eq_none_iff.mp hold
      refine Option.map_eq_none_iff.mpr (Option.not_isSome_iff_eq_none.mp fun hsome => ?_)
      have hboth := (isSome_replacements (parseEnvironmentText exampleText) generators).mp hsome
      rw [hvalues] at hboth
      cases hboth.1
    rw [hnone]
    rfl

end File

/-! ## Reading the URLs -/

/-- The text has no character that delimits a part of a URL, or that no host may have. -/
def FreeOfDelimiters (text : String) : Prop := text.toList.any isForbiddenHost = false

instance (text : String) : Decidable (FreeOfDelimiters text) :=
  inferInstanceAs (Decidable (_ = false))

/-- A parser of URLs reads the user and the password of the file in the URL of the file. -/
def ReadsBack (ipv6 : List Char → Option (List Char)) (file : Environment) (binding : UrlBinding) :
    Prop :=
  ∃ url parsed, get file binding.url = some url ∧
    parseNotSpecial ipv6 url.toList = some parsed ∧
      decodeURIComponent parsed.username = some ((get file binding.user).getD "").toList ∧
        decodeURIComponent parsed.password = some ((get file binding.password).getD "").toList

section Urls

variable {values replacements : Environment} {binding : UrlBinding}

variable {c : Char}

theorem userinfoSet_uriChar (h : Gateway.isUriChar c = true) :
    WebUrl.userinfoSet c = false := by
  have hascii : ∀ n : Fin 0x7F, Gateway.isUriChar (Char.ofNat n) = true →
      WebUrl.userinfoSet (Char.ofNat n) = false := by
    decide
  have hchar := hascii ⟨c.toNat, (toNat_of_isUriChar h).2⟩
  rw [Char.ofNat_toNat] at hchar
  exact hchar h

/-- The characters that neither end an authority nor are dropped by a parser of URLs. -/
def StaysInAuthority (c : Char) : Prop :=
  WebUrl.endsAuthority c = false ∧ WebUrl.isTabOrNewline c = false

theorem stays_of_ne (h : ∀ d ∈ ['/', '?', '#', '\t', '\n', '\r'], c ≠ d) :
    StaysInAuthority c := by
  simp only [List.mem_cons, List.not_mem_nil, or_false, forall_eq_or_imp, forall_eq] at h
  obtain ⟨hslash, hquery, hfragment, htab, hline, hreturn⟩ := h
  constructor
  · simp [WebUrl.endsAuthority, hslash, hquery, hfragment]
  · simp [WebUrl.isTabOrNewline, htab, hline, hreturn]

theorem stays_uriChar (h : Gateway.isUriChar c = true) : StaysInAuthority c :=
  stays_of_ne fun d hd => by
    have hdelimiters : ∀ d ∈ ['/', '?', '#', '\t', '\n', '\r'], WebUrl.userinfoSet d = true := by
      simp [WebUrl.userinfoSet, WebUrl.pathSet, WebUrl.c0ControlSet]
    exact WebUrl.userinfo_ne (userinfoSet_uriChar h) (hdelimiters d hd)

theorem stays_host (h : isForbiddenHost c = false) : StaysInAuthority c :=
  stays_of_ne fun d hd => by
    have hdelimiters : ∀ d ∈ ['/', '?', '#', '\t', '\n', '\r'], isForbiddenHost d = true := by
      simp [isForbiddenHost]
    exact WebUrl.forbidden_ne h (hdelimiters d hd)

theorem stays_digit (h : c.isDigit = true) : StaysInAuthority c :=
  stays_uriChar (by simp [Gateway.isUriChar, Char.isAlphanum, h])

theorem orDefault_ne {value : Option String} {fallback : String} (h : fallback ≠ "") :
    (orDefault value fallback).toList ≠ [] := by
  unfold orDefault
  split
  · exact fun hnil => h (String.toList_eq_nil_iff.mp hnil)
  next hne =>
    exact fun hnil => hne (String.toList_eq_nil_iff.mp hnil)

theorem notSpecial_postgresql : WebUrl.NotSpecial "postgresql".toList where
  head := ⟨'p', "ostgresql".toList, by decide, by decide⟩
  chars := by simp [WebUrl.isSchemeChar]
  notSpecial := by decide

/-- What stands between `://` and the next slash of a rebuilt URL. -/
def authorityText (values replacements : Environment) (binding : UrlBinding) : List Char :=
  (encodeURIComponent (resolved values replacements binding.user)).toList ++
    ':' :: (encodeURIComponent (resolved values replacements binding.password)).toList ++
      '@' :: ((postgresHost values).toList ++ ':' :: (postgresPort values).toList)

theorem toList_rebuiltUrl : (rebuiltUrl values binding replacements).toList =
    "postgresql".toList ++ ':' :: '/' :: '/' :: (authorityText values replacements binding ++
      '/' :: (resolved values replacements binding.database ++ schemaQuery binding).toList) := by
  unfold rebuiltUrl authorityText
  simp [String.toList_append]

/-- The user name and the password of a rebuilt URL are the encoded components. -/
theorem parse_rebuiltUrl (ipv6 : List Char → Option (List Char))
    (hhost : FreeOfDelimiters (postgresHost values))
    (hport : (parsePort (postgresPort values).toList).isSome = true) :
    ∃ parsed, parseNotSpecial ipv6 (rebuiltUrl values binding replacements).toList = some parsed ∧
      parsed.username =
        (encodeURIComponent (resolved values replacements binding.user)).toList ∧
      parsed.password =
        (encodeURIComponent (resolved values replacements binding.password)).toList := by
  obtain ⟨number, hnumber⟩ := Option.isSome_iff_exists.mp hport
  have huser := isUriChar_encodeURIComponent (resolved values replacements binding.user)
  have hpassword := isUriChar_encodeURIComponent (resolved values replacements binding.password)
  have hhostChars : ∀ c ∈ (postgresHost values).toList, isForbiddenHost c = false := by
    simpa [FreeOfDelimiters] using hhost
  have hauthority : WebUrl.parseAuthority ipv6 (authorityText values replacements binding) =
      some ⟨(encodeURIComponent (resolved values replacements binding.user)).toList,
        (encodeURIComponent (resolved values replacements binding.password)).toList,
        (postgresHost values).toList.flatMap (WebUrl.utf8PercentEncode WebUrl.c0ControlSet),
        number⟩ :=
    WebUrl.parseAuthority_credentials (fun c hc => userinfoSet_uriChar (huser c hc))
      (fun c hc => userinfoSet_uriChar (hpassword c hc)) (orDefault_ne (by decide)) hhostChars
      hnumber
  have hstays : ∀ c ∈ authorityText values replacements binding, StaysInAuthority c := by
    intro c hc
    unfold authorityText at hc
    simp only [List.mem_append, List.mem_cons] at hc
    rcases hc with (hc | rfl | hc) | rfl | hc | rfl | hc
    · exact stays_uriChar (huser c hc)
    · exact stays_of_ne (by simp)
    · exact stays_uriChar (hpassword c hc)
    · exact stays_of_ne (by simp)
    · exact stays_host (hhostChars c hc)
    · exact stays_of_ne (by simp)
    · exact stays_digit (WebUrl.parsePort_digits hnumber c hc)
  obtain ⟨path, hurl⟩ := WebUrl.parseNotSpecial_authority notSpecial_postgresql hstays
  rw [toList_rebuiltUrl, hurl, hauthority, Option.map_some]
  refine ⟨_, rfl, ?_, ?_⟩
  · dsimp only
  · dsimp only

end Urls

/-- Parsing the file that `initializeEnvironmentText` returns gives the parsed example in which the
    generated variables, the URLs of the databases and the URL of Redis are replaced and nothing
    else is changed; a generated variable has the value of its generator, and a parser of URLs
    reads the user and the password of the file in each URL of a database, when the host has no
    delimiter of URLs and the port is a port number. -/
theorem initialize_faithful (exampleText : String) (generators : Generators) :
    (initialized exampleText generators).rows = (parseEnvironmentText exampleText).rows.map
        (replaced (replacements (parseEnvironmentText exampleText) generators)) ∧
      (∀ name, (get (replacements (parseEnvironmentText exampleText) generators) name).isSome =
          true ↔ (get (parseEnvironmentText exampleText) name).isSome = true ∧
            name ∈ replacedNames) ∧
      (∀ entry ∈ GENERATED_VARIABLES,
        (get (parseEnvironmentText exampleText) entry.1).isSome = true →
          get (initialized exampleText generators) entry.1 =
            some (generators.generate entry.2 entry.1)) ∧
      ∀ binding ∈ REBUILT_URLS,
        (get (parseEnvironmentText exampleText) binding.url).isSome = true →
          FreeOfDelimiters (postgresHost (parseEnvironmentText exampleText)) →
            (parsePort (postgresPort (parseEnvironmentText exampleText)).toList).isSome = true →
              ∀ ipv6, ReadsBack ipv6 (initialized exampleText generators) binding := by
  refine ⟨rows_initialized exampleText generators, fun name => ?_, fun entry hentry hsome => ?_,
    fun binding hbinding hsome hhost hport ipv6 => ?_⟩
  · rw [get, get, Option.isSome_map, Option.isSome_map]
    exact isSome_replacements _ generators
  · obtain ⟨value, hvalue⟩ := Option.isSome_iff_exists.mp hsome
    have hfind := find_replacements_generated (parseEnvironmentText exampleText) generators hentry
    rw [get, Option.isSome_map] at hsome
    rw [if_pos hsome] at hfind
    rw [get_initialized, hvalue, get, hfind]
    rfl
  · obtain ⟨value, hvalue⟩ := Option.isSome_iff_exists.mp hsome
    rw [get, Option.isSome_map] at hsome
    have hfind := find_replacements_url (parseEnvironmentText exampleText) generators hbinding hsome
    obtain ⟨parsed, hparsed, husername, hpassword⟩ := parse_rebuiltUrl ipv6 hhost hport
    refine ⟨_, parsed, ?_, hparsed, ?_, ?_⟩
    · rw [get_initialized, hvalue, get, hfind]
      rfl
    · rw [husername, getD_initialized]
      exact decodeURIComponent_eq (reads_encodeURIComponent _)
    · rw [hpassword, getD_initialized]
      exact decodeURIComponent_eq (reads_encodeURIComponent _)

/-- Generators that return one text. -/
def sampleGenerators : Generators where
  generate _ _ := "c2VjcmV0"
  chars := by simp [isBase64Char]

/-- A file with two carriage returns, a comment, two definitions of one variable and a line that
    defines nothing. -/
def sampleText : String :=
  "# local\r\nPOSTGRES_USER = first\r\n=nothing\nPOSTGRES_USER=a@b\nPOSTGRES_PASSWORD=x\n" ++
    "DATABASE_URL=old"

theorem initialize_faithful_sample :
    ReadsBack (fun _ => none) (initialized sampleText sampleGenerators)
      ⟨"DATABASE_URL", "POSTGRES_USER", "POSTGRES_PASSWORD", "POSTGRES_ADMIN_DATABASE", none⟩ := by
  refine (initialize_faithful sampleText sampleGenerators).2.2.2 _ List.mem_cons_self ?_ ?_ ?_ _
  · decide +kernel
  · decide +kernel
  · decide +kernel

/-- A port that is no number: the parser refuses the URL. -/
theorem port_not_number : ¬ ∀ (exampleText : String) (generators : Generators),
    ∀ binding ∈ REBUILT_URLS,
      (get (parseEnvironmentText exampleText) binding.url).isSome = true →
        FreeOfDelimiters (postgresHost (parseEnvironmentText exampleText)) →
          FreeOfDelimiters (postgresPort (parseEnvironmentText exampleText)) →
            FreeOfDelimiters ((get (parseEnvironmentText exampleText) binding.database).getD "") →
              ∀ ipv6, ReadsBack ipv6 (initialized exampleText generators) binding := by
  intro h
  obtain ⟨url, parsed, hget, hparsed, -⟩ := h "POSTGRES_PORT=abc\nDATABASE_URL=old"
    sampleGenerators _ List.mem_cons_self (by decide +kernel) (by decide +kernel)
    (by decide +kernel) (by decide +kernel) fun _ => none
  have hfile : get (initialized "POSTGRES_PORT=abc\nDATABASE_URL=old" sampleGenerators)
      "DATABASE_URL" = some "postgresql://:@127.0.0.1:abc/" := by
    decide +kernel
  obtain rfl : "postgresql://:@127.0.0.1:abc/" = url := Option.some.inj (hfile.symm.trans hget)
  have hrefused : (parseNotSpecial (fun _ => none)
      "postgresql://:@127.0.0.1:abc/".toList).isNone = true := by
    decide +kernel
  rw [hparsed] at hrefused
  cases hrefused

end AegisShield.Infra
