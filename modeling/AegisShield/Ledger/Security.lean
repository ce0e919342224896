import AegisShield.Common.Json
import AegisShield.Common.PrefixCode

/-!
# Request hashes and errors of the Ledger

`security.ts`, `ledger.error.ts` and the errors of `idempotency.service.ts`. What the
code takes from Node and from the database driver is a parameter.
-/

namespace AegisShield.Ledger

open Common

/-- What the Ledger's code takes from Node and from the database driver. -/
structure Runtime where
  /-- `createHash('sha256')`, as hexadecimal text. -/
  sha256 : String → String
  sha256_ne_empty : ∀ value, sha256 value ≠ ""
  /-- `Number.prototype.toString`. -/
  numberToString : ℚ → String
  /-- `new Date(text)`, in milliseconds. -/
  parseDate : String → ℤ
  /-- The `meta.target` of a unique violation lists the columns, or is absent. -/
  reportsTarget : Bool

/-- A readable stand-in for concrete runs. -/
def plainRuntime : Runtime where
  sha256 value := "#" ++ value
  sha256_ne_empty value h := by
    have hlength := congrArg String.length h
    rw [String.length_append] at hlength
    simp at hlength
  numberToString q := toString q.num
  parseDate text := text.length
  reportsTarget := true

/-- `timingSafeStringEqual` (`security.ts`, lines 7-14): false on two empty strings. -/
def timingSafeStringEqual (left right : String) : Bool :=
  if left.utf8ByteSize ≠ right.utf8ByteSize ∨ left.utf8ByteSize = 0 then false
  else left == right

theorem timingSafeStringEqual_iff {left right : String} (h : right ≠ "") :
    timingSafeStringEqual left right = true ↔ left = right := by
  unfold timingSafeStringEqual
  constructor
  · intro heq
    split_ifs at heq
    exact beq_iff_eq.mp heq
  · rintro rfl
    have hsize : left.utf8ByteSize ≠ 0 := fun hzero => h (String.utf8ByteSize_eq_zero_iff.mp hzero)
    rw [if_neg (by simp [hsize])]
    exact beq_self_eq_true left

/-! ## Canonical JSON -/

/-- The UTF-16 code units of a string. -/
def utf16 (s : String) : List ℕ :=
  s.toList.flatMap fun c =>
    if c.toNat < 0x10000 then [c.toNat]
    else [0xD800 + (c.toNat - 0x10000) / 0x400, 0xDC00 + (c.toNat - 0x10000) % 0x400]

/-- The lexicographic order of lists. -/
def lexLe : List ℕ → List ℕ → Bool
  | [], _ => true
  | _ :: _, [] => false
  | a :: as, b :: bs => a < b || (a = b && lexLe as bs)

/-- `left <= right` on JavaScript strings. -/
def keyLe (a b : String × String) : Prop := lexLe (utf16 a.1) (utf16 b.1) = true

instance : DecidableRel keyLe := fun _ _ => inferInstanceAs (Decidable (_ = true))

/-- A hexadecimal digit. -/
def hexDigit (n : ℕ) : Char := Char.ofNat (if n < 10 then 48 + n else 87 + n)

/-- One character of a string in `JSON.stringify`. -/
def escapeChar (c : Char) : List Char :=
  match c.toNat with
  | 8 => ['\\', 'b']
  | 9 => ['\\', 't']
  | 10 => ['\\', 'n']
  | 12 => ['\\', 'f']
  | 13 => ['\\', 'r']
  | 34 => ['\\', c]
  | 92 => ['\\', c]
  | n => if n < 32 then ['\\', 'u', '0', '0', hexDigit (n / 16), hexDigit (n % 16)] else [c]

/-- `JSON.stringify` of a string. -/
def stringifyString (s : String) : String :=
  "\"" ++ String.ofList (s.toList.flatMap escapeChar) ++ "\""

/-- The number of a hexadecimal digit. -/
def hexValue (c : Char) : ℕ := if c.toNat < 58 then c.toNat - 48 else c.toNat - 87

/-- The character that `escapeChar` wrote, and what follows it. -/
def unescape : List Char → Option (Char × List Char)
  | '\\' :: 'b' :: rest => some (Char.ofNat 8, rest)
  | '\\' :: 't' :: rest => some (Char.ofNat 9, rest)
  | '\\' :: 'n' :: rest => some (Char.ofNat 10, rest)
  | '\\' :: 'f' :: rest => some (Char.ofNat 12, rest)
  | '\\' :: 'r' :: rest => some (Char.ofNat 13, rest)
  | '\\' :: 'u' :: _ :: _ :: h :: l :: rest => some (Char.ofNat (hexValue h * 16 + hexValue l), rest)
  | '\\' :: c :: rest => some (c, rest)
  | c :: rest => some (c, rest)
  | [] => none

theorem char_of_toNat {c : Char} {n : ℕ} (h : c.toNat = n) : c = Char.ofNat n := by
  rw [← h, Char.ofNat_toNat]

theorem hexValue_hexDigit :
    ∀ n < 32, hexValue (hexDigit (n / 16)) * 16 + hexValue (hexDigit (n % 16)) = n := by decide

theorem unescape_escapeChar (c : Char) (rest : List Char) :
    unescape (escapeChar c ++ rest) = some (c, rest) := by
  unfold escapeChar
  split
  iterate 7
    next h =>
      rw [char_of_toNat h]
      rfl
  next hquote hbackslash =>
    split_ifs with hcontrol
    · show some (Char.ofNat _, rest) = _
      rw [hexValue_hexDigit _ hcontrol, Char.ofNat_toNat]
    · have hne : c ≠ '\\' := fun h => hbackslash (congrArg Char.toNat h)
      unfold unescape
      split <;> simp_all

theorem prefixFree_escapeChar : PrefixFree escapeChar := prefixFree_of_decode unescape_escapeChar

theorem escapeChar_ne_quote (c : Char) (rest rest' : List Char) :
    escapeChar c ++ rest ≠ '"' :: rest' := by
  intro h
  have hread := unescape_escapeChar c rest
  rw [h] at hread
  cases hread
  have hhead : '\\' = '"' := (List.cons.inj h).1
  exact absurd hhead (by decide)

theorem toList_stringifyString (s : String) :
    (stringifyString s).toList = '"' :: (s.toList.flatMap escapeChar ++ ['"']) := by
  simp [stringifyString, String.toList_append]

/-- The text of a string can be told from what follows it. -/
theorem prefixFree_stringifyString : PrefixFree fun s => (stringifyString s).toList := by
  intro a b rest rest' h
  simp only [toList_stringifyString, List.cons_append] at h
  obtain ⟨hsame, hrest⟩ :=
    prefixFree_flatMap prefixFree_escapeChar escapeChar_ne_quote _ _ _ _ (List.cons.inj h).2
  exact ⟨String.toList_injective hsame, hrest⟩

mutual

/-- `canonicalJson` (`security.ts`, lines 21-34). Its value on `undefined` is only used
    in arrays, where `join` renders it empty. -/
def canonicalJson (runtime : Runtime) : Json → String
  | .undefined => ""
  | .null => "null"
  | .bool b => if b then "true" else "false"
  | .number q => runtime.numberToString q
  | .string s => stringifyString s
  | .array items => "[" ++ ",".intercalate (canonicalItems runtime items) ++ "]"
  | .object members =>
    "\x7b" ++ ",".intercalate (((canonicalMembers runtime members).insertionSort keyLe).map
      fun member => stringifyString member.1 ++ ":" ++ member.2) ++ "\x7d"

/-- The items of an array. -/
def canonicalItems (runtime : Runtime) : List Json → List String
  | [] => []
  | item :: items => canonicalJson runtime item :: canonicalItems runtime items

/-- The members of an object that are not `undefined`. -/
def canonicalMembers (runtime : Runtime) : List (String × Json) → List (String × String)
  | [] => []
  | (_, .undefined) :: members => canonicalMembers runtime members
  | (key, value) :: members =>
    (key, canonicalJson runtime value) :: canonicalMembers runtime members

end

/-- `canonicalRequestHash` (`security.ts`, lines 36-38). -/
def canonicalRequestHash (runtime : Runtime) (value : Json) : String :=
  runtime.sha256 (canonicalJson runtime value)

/-! ## Errors -/

/-- What the Ledger's code throws. -/
inductive Thrown where
  /-- A `LedgerError`. -/
  | ledgerError (code message : String) (status : ℕ)
  /-- A unique violation (P2002) with its constraint target, empty when absent. -/
  | uniqueViolation (target : String)
  /-- Any other error, of the database, the connection or a schema. -/
  | other
  deriving DecidableEq

/-- The HTTP status that an error leaves the service with. -/
def Thrown.status : Thrown → ℕ
  | .ledgerError _ _ status => status
  | .uniqueViolation _ | .other => 500

/-- `accountNotFoundError` (`ledger.error.ts`, lines 26-31). -/
def accountNotFoundError : Thrown :=
  .ledgerError "ACCOUNT_NOT_FOUND" "The account could not be found." 404

/-- `accountNotActiveError` (`ledger.error.ts`, lines 33-38). -/
def accountNotActiveError : Thrown :=
  .ledgerError "ACCOUNT_NOT_ACTIVE" "The account is not active." 409

/-- `insufficientFundsError` (`ledger.error.ts`, lines 40-45). -/
def insufficientFundsError : Thrown :=
  .ledgerError "INSUFFICIENT_FUNDS" "The account has insufficient available funds." 409

/-- `unbalancedJournalError` (`ledger.error.ts`, lines 47-52). -/
def unbalancedJournalError : Thrown :=
  .ledgerError "UNBALANCED_JOURNAL" "Journal debits and credits must be equal." 400

/-- `currencyMismatchError` (`ledger.error.ts`, lines 54-59). -/
def currencyMismatchError : Thrown :=
  .ledgerError "CURRENCY_MISMATCH" "All postings must use the journal currency." 400

/-- `idempotencyConflictError` (`ledger.error.ts`, lines 61-66). -/
def idempotencyConflictError : Thrown :=
  .ledgerError "IDEMPOTENCY_CONFLICT"
    "This idempotency key was already used with a different request." 409

/-- `idempotencyInProgressError` (`ledger.error.ts`, lines 68-73). -/
def idempotencyInProgressError : Thrown :=
  .ledgerError "IDEMPOTENCY_IN_PROGRESS" "An identical request is already being processed." 409

/-- The error of an insert that violates a unique constraint on some columns. -/
def uniqueViolation (runtime : Runtime) (columns : List String) : Thrown :=
  .uniqueViolation (if runtime.reportsTarget then ",".intercalate columns else "")

/-- The target contains the text. -/
def mentions (target text : String) : Bool :=
  target.toList.tails.any fun tail => text.toList.isPrefixOf tail

/-- `isIdempotencyConflict` (`idempotency.service.ts`, lines 59-66). -/
def isIdempotencyConflict : Thrown → Bool
  | .uniqueViolation target =>
    !(mentions target "customer_accounts" || mentions target "journal_entries")
  | .ledgerError _ _ _ | .other => false

end AegisShield.Ledger
