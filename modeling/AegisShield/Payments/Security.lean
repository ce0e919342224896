import AegisShield.Common.Format
import AegisShield.Ledger.Security
import AegisShield.Payments.Transfer

/-!
# Errors, hashes and references of the Payments service

`payments.error.ts`, `security.ts` and the reference generators of `qr-crypto.ts` and
`agent.service.ts`. SHA-256 is a parameter; random bytes come from the step that
generates them.
-/

namespace AegisShield.Payments

open Common

/-! ## Errors -/

/-- `PaymentsError` (`payments.error.ts`, lines 2-11). -/
structure PaymentsError where
  code : String
  message : String
  status : ℕ
  deriving DecidableEq

/-- `new PaymentsError(code)`, with the default message and status. -/
def paymentError (code : String) : PaymentsError where
  code := code
  message := "The transfer could not be completed."
  status := 409

/-- What a call of the service throws: a `PaymentsError`, a `LedgerCallError`, or any
    other error (of the database or the connection, or the end of the process). -/
inductive Thrown where
  | payments (e : PaymentsError)
  | ledger (status : ℕ)
  | other
  deriving DecidableEq

/-! ## Hashes -/

/-- What the code takes from Node. -/
structure Runtime where
  /-- `createHash('sha256')`, as hexadecimal text. -/
  sha256 : String → String

/-- A readable stand-in for concrete runs. -/
def plainRuntime : Runtime where
  sha256 value := "#" ++ value

/-- `canonicalHash` (`security.ts`, lines 15-28) of an object of strings, its members in the order
    of their names. -/
def canonicalHash (runtime : Runtime) (members : List (String × String)) : String :=
  runtime.sha256 ("\x7b" ++ ",".intercalate (members.map fun member =>
    Ledger.stringifyString member.1 ++ ":" ++ Ledger.stringifyString member.2) ++ "\x7d")

/-- The text that `canonicalHash` hashes. -/
def canonicalText (members : List (String × String)) : String :=
  "\x7b" ++ ",".intercalate (members.map fun member =>
    Ledger.stringifyString member.1 ++ ":" ++ Ledger.stringifyString member.2) ++ "\x7d"

/-- A member of an object in JSON. -/
def memberText (member : String × String) : List Char :=
  (Ledger.stringifyString member.1).toList ++ ':' :: (Ledger.stringifyString member.2).toList

theorem prefixFree_memberText : PrefixFree memberText := by
  rintro ⟨name, value⟩ ⟨name', value'⟩ rest rest' h
  unfold memberText at h
  rw [List.append_assoc, List.append_assoc] at h
  obtain ⟨rfl, htail⟩ := Ledger.prefixFree_stringifyString _ _ _ _ h
  obtain ⟨rfl, hrest⟩ := Ledger.prefixFree_stringifyString _ _ _ _ (List.cons.inj htail).2
  exact ⟨rfl, hrest⟩

/-- Two objects of strings with one text are the same. -/
theorem canonicalText_injective : Function.Injective canonicalText := by
  intro members members' h
  have htext : ∀ members, (canonicalText members).toList =
      '\x7b' :: ([','].intercalate (members.map memberText) ++ ['\x7d']) := by
    intro members
    simp [canonicalText, String.toList_append, String.toList_intercalate, Function.comp_def]
    rfl
  have hlist := congrArg String.toList h
  rw [htext, htext] at hlist
  refine intercalate_inj prefixFree_memberText ?_ (by decide) _ _ (List.cons.inj hlist).2
  intro member rest rest' hbrace
  unfold memberText at hbrace
  rw [Ledger.toList_stringifyString] at hbrace
  have hhead : '"' = '\x7d' := (List.cons.inj hbrace).1
  exact absurd hhead (by decide)

/-! ## References -/

/-- A digit of `toString('hex').toUpperCase()`. -/
def hexDigit (n : ℕ) : Char := Char.ofNat (if n < 10 then 48 + n else 55 + n)

/-- `bytes.toString('hex').toUpperCase()`. -/
def hexText (bytes : List UInt8) : List Char :=
  bytes.flatMap fun b => [hexDigit (b.toNat / 16), hexDigit (b.toNat % 16)]

/-- The reference that `newTransferReference` (`security.ts`), `newQrPaymentReference`
    (`qr-crypto.ts`) and `generateReference` (`agent.service.ts`) make from 12 random bytes. -/
def newReference (kind : String) (bytes : Vector UInt8 12) : String :=
  let value := hexText bytes.toList
  "AEGIS-" ++ kind ++ "-" ++ String.ofList (value.take 4) ++ "-" ++
    String.ofList ((value.drop 4).take 4) ++ "-" ++ String.ofList ((value.drop 8).take 4)

/-- `newTransferReference` (`security.ts`, lines 6-9). -/
def newTransferReference (bytes : Vector UInt8 12) : String := newReference "TRF" bytes

/-- `newQrPaymentReference` (`qr-crypto.ts`, lines 36-39). -/
def newQrPaymentReference (bytes : Vector UInt8 12) : String := newReference "QRP" bytes

/-- `generateReference` (`agent.service.ts`, lines 385-388). -/
def generateReference (bytes : Vector UInt8 12) : String := newReference "AGT" bytes

/-- How `getAccountDetail` and `resolveAccountByReference` (`ledger.client.ts`) end. -/
inductive AccountAnswer where
  | found (customerId accountId maskedReference : String)
  | callError (status : ℕ)
  | unavailable
  deriving DecidableEq

/-- The generated values, clock readings and answers about accounts that a step gets. -/
structure Env where
  /-- `new Date()`, in milliseconds. -/
  now : ℕ
  /-- `@default(now())`. -/
  dbNow : ℕ
  /-- The generated row identifier. -/
  uuid : String
  /-- The generated intent token. -/
  token : String
  /-- `randomBytes(12)`. -/
  random : Vector UInt8 12
  /-- The generated correlation identifier. -/
  correlationId : String
  /-- The Ledger's answer about an account. -/
  account : AccountAnswer

/-- What a step of a concrete run gets, at time `now`. -/
def plainEnv (now : ℕ) (id token : String) (byte : UInt8) : Env where
  now := now
  dbNow := now
  uuid := id
  token := token
  random := Vector.replicate 12 byte
  correlationId := "c-" ++ id
  account := .found "customer-1" "account-1" "AEGIS-****-1234"

/-- The start of the UTC day of a time. -/
def startOfDay (now : ℕ) : ℕ := now / 86400000 * 86400000

end AegisShield.Payments
