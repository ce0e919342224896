import AegisShield.Common.Json

/-!
# SABCL wire format

The constants, error codes, byte encodings, padding and envelope schema of the
SABCL protocol (`packages/sabcl/src/protocol` and the encodings of
`crypto/primitives.ts`).
-/

namespace AegisShield.Sabcl

open Common

abbrev Bytes := List UInt8

/-! ## Constants (`version.ts`) -/

def SABCL_PROTOCOL_VERSION : String := "SABCL/1"

namespace SABCL_DOMAIN

def requestKey : String := "SABCL/1 request-key"
def responseKey : String := "SABCL/1 response-key"
def requestSignature : String := "SABCL/1 request-signature"
def responseSignature : String := "SABCL/1 response-signature"
def routeToken : String := "SABCL/1 route-token"

end SABCL_DOMAIN

def SABCL_KEY_BYTES : ℕ := 32
def SABCL_NONCE_BYTES : ℕ := 12
def SABCL_TAG_BYTES : ℕ := 16
def SABCL_MESSAGE_ID_BYTES : ℕ := 16
def SABCL_ROUTE_TOKEN_BYTES : ℕ := 32
def SABCL_MAX_PLAINTEXT_BYTES : ℕ := 65536
def SABCL_MAX_ENVELOPE_BYTES : ℕ := 262144
def SABCL_MAX_HOP_LIMIT : ℕ := 4
def SABCL_DEFAULT_HOP_LIMIT : ℕ := 2
def SABCL_MAX_TTL_SECONDS : ℕ := 120
def SABCL_DEFAULT_TTL_SECONDS : ℕ := 30
def SABCL_CLOCK_SKEW_SECONDS : ℕ := 5

/-! ## Errors (`errors.ts`) -/

/-- `SabclErrorCode`. -/
inductive SabclErrorCode where
  | SABCL_MALFORMED
  | SABCL_UNSUPPORTED_VERSION
  | SABCL_OVERSIZED
  | SABCL_EXPIRED
  | SABCL_REPLAYED
  | SABCL_SIGNATURE_INVALID
  | SABCL_DECRYPTION_FAILED
  | SABCL_UNKNOWN_SENDER
  | SABCL_UNKNOWN_RECIPIENT
  | SABCL_KEY_REVOKED
  | SABCL_ROUTE_INVALID
  | SABCL_HOP_LIMIT_EXCEEDED
  | SABCL_RECIPIENT_UNAVAILABLE
  | SABCL_NOT_CONFIGURED
  deriving DecidableEq

/-- `SabclError`. -/
structure SabclError where
  code : SabclErrorCode
  detail : Option String := none
  deriving DecidableEq

/-- What the modelled code throws: a `SabclError`, or a runtime error of the
    language such as a `RangeError`. -/
inductive Thrown where
  | sabcl (error : SabclError)
  | runtime (message : String)
  deriving DecidableEq

/-- `throw new SabclError(code, detail)`. -/
def fail {α : Type} (code : SabclErrorCode) (detail : Option String := none) : Except Thrown α :=
  .error (.sabcl { code := code, detail := detail })

/-- `if (bad) throw new SabclError(code, detail)`. -/
def failIf (bad : Prop) [Decidable bad] (code : SabclErrorCode)
    (detail : Option String := none) : Except Thrown Unit :=
  if bad then fail code detail else .ok ()

/-- `toSabclError` (lines 63-68). -/
def toSabclError (error : Thrown) (fallback : SabclErrorCode := .SABCL_DECRYPTION_FAILED) :
    SabclError :=
  match error with
  | .sabcl error => error
  | .runtime _ => { code := fallback }

theorem failIf_ok {bad : Prop} [Decidable bad] {code : SabclErrorCode} {detail : Option String}
    {u : Unit} : failIf bad code detail = .ok u ↔ ¬ bad := by
  unfold failIf fail
  split_ifs with h <;> simp [h]

/-- A sequence succeeds when its first step does and the rest does on its value. -/
theorem bind_ok {α β : Type} {x : Except Thrown α} {f : α → Except Thrown β} {b : β} :
    (x >>= f) = .ok b ↔ ∃ a, x = .ok a ∧ f a = .ok b := by
  cases x with
  | error | ok => simp [bind, Except.bind]

/-! ## Byte encodings -/

/-- `Buffer.from(s, 'utf8')`. -/
def utf8 (s : String) : Bytes := s.toUTF8.data.toList

/-- `writeUInt32BE`. -/
def uint32be (n : ℕ) : Bytes :=
  [UInt8.ofNat (n / 2 ^ 24), UInt8.ofNat (n / 2 ^ 16), UInt8.ofNat (n / 2 ^ 8), UInt8.ofNat n]

/-- `readUInt32BE`. -/
def readUInt32be : Bytes → ℕ
  | a :: b :: c :: d :: _ => a.toNat * 2 ^ 24 + b.toNat * 2 ^ 16 + c.toNat * 2 ^ 8 + d.toNat
  | _ => 0

/-- `canonicalEncode` (`canonical.ts`, lines 17-26). -/
def canonicalEncode (fields : List Bytes) : Bytes :=
  fields.flatMap fun field => uint32be field.length ++ field

/-- `canonicalUInt` (`canonical.ts`, lines 29-38) on a non-negative safe integer. -/
def canonicalUInt (value : ℕ) : Bytes := uint32be (value / 2 ^ 32) ++ uint32be value

/-- The alphabet of base64url. -/
def base64UrlAlphabet : List Char :=
  "ABCDEFGHIJKLMNOPQRSTUVWXYZabcdefghijklmnopqrstuvwxyz0123456789-_".toList

/-- The six-bit groups of bytes, the last one filled up with zeros. -/
def sextets : Bytes → List ℕ
  | [] => []
  | [a] => [a.toNat / 4, a.toNat % 4 * 16]
  | [a, b] => [a.toNat / 4, a.toNat % 4 * 16 + b.toNat / 16, b.toNat % 16 * 4]
  | a :: b :: c :: rest =>
    a.toNat / 4 :: (a.toNat % 4 * 16 + b.toNat / 16) :: (b.toNat % 16 * 4 + c.toNat / 64) ::
      c.toNat % 64 :: sextets rest

/-- The bytes of six-bit groups; bits beyond the last whole byte are dropped. -/
def unsextets : List ℕ → Bytes
  | p :: q :: r :: s :: rest =>
    UInt8.ofNat (p * 4 + q / 16) :: UInt8.ofNat (q % 16 * 16 + r / 4) ::
      UInt8.ofNat (r % 4 * 64 + s) :: unsextets rest
  | [p, q, r] => [UInt8.ofNat (p * 4 + q / 16), UInt8.ofNat (q % 16 * 16 + r / 4)]
  | [p, q] => [UInt8.ofNat (p * 4 + q / 16)]
  | _ => []

/-- `toBase64Url` (`primitives.ts`, lines 28-29). -/
def toBase64Url (value : Bytes) : String :=
  String.ofList ((sextets value).map fun n => base64UrlAlphabet.getD n 'A')

/-- `Buffer.from(value, 'base64url')`, which skips characters outside the alphabet. -/
def bufferFromBase64Url (value : String) : Bytes :=
  unsextets (value.toList.filterMap fun c => base64UrlAlphabet.idxOf? c)

/-- `fromBase64Url` (`primitives.ts`, lines 38-50). -/
def fromBase64Url (value field : String) : Except Thrown Bytes :=
  if value = "" then fail .SABCL_MALFORMED (field ++ " is empty")
  else
    let decoded := bufferFromBase64Url value
    if toBase64Url decoded ≠ value then
      fail .SABCL_MALFORMED (field ++ " is not canonical base64url")
    else .ok decoded

/-! ## Padding (`padding.ts`) -/

/-- `SABCL_PADDING_BUCKETS` (`envelope.ts`, lines 32-34). -/
def SABCL_PADDING_BUCKETS : List ℕ := [512, 1024, 2048, 4096, 8192, 16384, 32768, 65536]

/-- `paddingBucketFor` (`envelope.ts`, lines 147-153). -/
def paddingBucketFor (length : ℕ) : Except Thrown ℕ :=
  match SABCL_PADDING_BUCKETS.find? fun size => length ≤ size with
  | some bucket => .ok bucket
  | none => .error (.runtime "Payload exceeds the largest SABCL padding bucket.")

/-- `LENGTH_PREFIX_BYTES`. -/
def LENGTH_PREFIX_BYTES : ℕ := 4

/-- `padPayload` (`padding.ts`, lines 17-32): the padded bytes and their bucket. -/
def padPayload (payload : Bytes) : Except Thrown (Bytes × ℕ) :=
  if payload.length > SABCL_MAX_PLAINTEXT_BYTES then
    fail .SABCL_OVERSIZED "payload exceeds plaintext ceiling"
  else do
    let bucket ← paddingBucketFor (payload.length + LENGTH_PREFIX_BYTES)
    let fill := List.replicate (bucket - LENGTH_PREFIX_BYTES - payload.length) 0
    return (uint32be payload.length ++ payload ++ fill, bucket)

/-- `unpadPayload` (`padding.ts`, lines 34-46). -/
def unpadPayload (padded : Bytes) : Except Thrown Bytes :=
  if padded.length < LENGTH_PREFIX_BYTES then
    fail .SABCL_MALFORMED "padded payload is too short"
  else
    let length := readUInt32be padded
    if length > padded.length - LENGTH_PREFIX_BYTES then
      fail .SABCL_MALFORMED "padded length prefix is out of range"
    else .ok ((padded.drop LENGTH_PREFIX_BYTES).take length)

/-! ## Envelopes (`envelope.ts`) -/

/-- A lower-case letter followed by lower-case letters, digits and hyphens: `[a-z][a-z0-9-]*`. -/
def isName (segment : List Char) : Bool :=
  match segment with
  | [] => false
  | c :: rest => c.isLower && rest.all fun d => d.isLower || d.isDigit || d == '-'

/-- `/^[a-z][a-z0-9-]*\.v[0-9]+$/u`, the pattern of a key identifier. -/
def KEY_ID_PATTERN (keyId : String) : Bool :=
  match keyId.toList.splitOn '.' with
  | [service, 'v' :: digits] => isName service && !digits.isEmpty && digits.all Char.isDigit
  | _ => false

/-- `sabclKeyIdSchema` (`keyring.ts`, lines 25-29). -/
def sabclKeyIdSchema : Json → Option String := Json.boundedString 3 64 KEY_ID_PATTERN

/-- `base64Url(max)` (`envelope.ts`, lines 24-29). -/
def base64Url (max : ℕ) : Json → Option String :=
  Json.boundedString 1 max fun s => s.toList.all fun c => c.isAlphanum || c == '_' || c == '-'

/-- `SabclEnvelope`: the request envelope that the router sees. -/
structure SabclEnvelope where
  v : String
  mid : String
  rt : String
  skid : String
  rkid : String
  epk : String
  iat : ℕ
  exp : ℕ
  n : String
  hl : ℕ
  pad : ℕ
  ct : String
  tag : String
  sig : String
  deriving DecidableEq

/-- `sabclEnvelopeSchema` (lines 36-75). -/
def sabclEnvelopeSchema (raw : Json) : Option SabclEnvelope := do
  let members ← Json.strictObject
    ["v", "mid", "rt", "skid", "rkid", "epk", "iat", "exp", "n", "hl", "pad", "ct", "tag", "sig"] raw
  let field := Json.member members
  let v ← field "v" >>= Json.boundedString 0 7 fun s => s == SABCL_PROTOCOL_VERSION
  let mid ← field "mid" >>= base64Url 32
  let rt ← field "rt" >>= base64Url 64
  let skid ← field "skid" >>= sabclKeyIdSchema
  let rkid ← field "rkid" >>= sabclKeyIdSchema
  let epk ← field "epk" >>= base64Url 64
  let iat ← field "iat" >>= Json.safeNatural
  let exp ← field "exp" >>= Json.safeNatural
  let n ← field "n" >>= base64Url 24
  let hl ← (field "hl" >>= Json.safeNatural).filter fun hl => hl ≤ SABCL_MAX_HOP_LIMIT
  let pad ← (field "pad" >>= Json.safeNatural).filter fun pad => 0 < pad
  let ct ← field "ct" >>= base64Url SABCL_MAX_ENVELOPE_BYTES
  let tag ← field "tag" >>= base64Url 32
  let sig ← field "sig" >>= base64Url 128
  return { v, mid, rt, skid, rkid, epk, iat, exp, n, hl, pad, ct, tag, sig }

/-- `sabclEnvelopeSchema.safeParse(raw)`, with the error that every caller throws. -/
def parseEnvelope (raw : Json) : Except Thrown SabclEnvelope :=
  match sabclEnvelopeSchema raw with
  | none => fail .SABCL_MALFORMED
  | some envelope => .ok envelope

theorem parseEnvelope_ok {raw : Json} {envelope : SabclEnvelope} :
    parseEnvelope raw = .ok envelope ↔ sabclEnvelopeSchema raw = some envelope := by
  unfold parseEnvelope
  cases sabclEnvelopeSchema raw <;> simp [fail]

/-- `canonicalRequestHeader` (lines 109-125). -/
def canonicalRequestHeader (envelope : SabclEnvelope) : Bytes :=
  canonicalEncode
    [utf8 envelope.v, utf8 envelope.mid, utf8 envelope.rt, utf8 envelope.skid,
      utf8 envelope.rkid, utf8 envelope.epk, canonicalUInt envelope.iat,
      canonicalUInt envelope.exp, utf8 envelope.n, canonicalUInt envelope.hl,
      canonicalUInt envelope.pad]

/-- `SabclResponseEnvelope`. -/
structure SabclResponseEnvelope where
  v : String
  cid : String
  skid : String
  n : String
  pad : ℕ
  ct : String
  tag : String
  sig : String
  deriving DecidableEq

/-- `sabclResponseEnvelopeSchema` (lines 87-104). -/
def sabclResponseEnvelopeSchema (raw : Json) : Option SabclResponseEnvelope := do
  let members ← Json.strictObject ["v", "cid", "skid", "n", "pad", "ct", "tag", "sig"] raw
  let field := Json.member members
  let v ← field "v" >>= Json.boundedString 0 7 fun s => s == SABCL_PROTOCOL_VERSION
  let cid ← field "cid" >>= base64Url 32
  let skid ← field "skid" >>= sabclKeyIdSchema
  let n ← field "n" >>= base64Url 24
  let pad ← (field "pad" >>= Json.safeNatural).filter fun pad => 0 < pad
  let ct ← field "ct" >>= base64Url SABCL_MAX_ENVELOPE_BYTES
  let tag ← field "tag" >>= base64Url 32
  let sig ← field "sig" >>= base64Url 128
  return { v, cid, skid, n, pad, ct, tag, sig }

/-- `canonicalResponseHeader` (lines 128-138). -/
def canonicalResponseHeader (envelope : SabclResponseEnvelope) : Bytes :=
  canonicalEncode
    [utf8 envelope.v, utf8 envelope.cid, utf8 envelope.skid, utf8 envelope.n,
      canonicalUInt envelope.pad]

end AegisShield.Sabcl
