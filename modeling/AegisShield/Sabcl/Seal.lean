import AegisShield.Sabcl.Protocol

/-!
# Sealing and opening SABCL messages

`sealRequest`, `openRequest`, `sealResponse` and `openResponse`
(`protocol/seal.ts`) over the primitives of `node:crypto` and `JSON`, which are
parameters: no statement of this development depends on a particular cipher.
Random values are arguments, times are Unix seconds.
-/

namespace AegisShield.Sabcl

open Common

/-- The functions of `node:crypto` and `JSON` that the protocol composes. Keys are
    their raw bytes; `none` stands for a throw. -/
structure Primitives where
  /-- The public half of a private key. -/
  publicKey : Bytes → Bytes
  /-- Whether 32 bytes are accepted as a raw key. -/
  acceptsKey : Bytes → Bool
  /-- X25519, on a private and a public key. -/
  diffieHellman : Bytes → Bytes → Option Bytes
  /-- HKDF-SHA-256, on the input secret, the salt and the info. -/
  hkdf : Bytes → Bytes → Bytes → Bytes
  /-- AES-256-GCM on key, nonce, plaintext and additional data: the ciphertext and the tag. -/
  aesGcmSeal : Bytes → Bytes → Bytes → Bytes → Bytes × Bytes
  /-- AES-256-GCM on key, nonce, ciphertext, tag and additional data. -/
  aesGcmOpen : Bytes → Bytes → Bytes → Bytes → Bytes → Option Bytes
  /-- Ed25519, on a private key and a message. -/
  sign : Bytes → Bytes → Bytes
  /-- Ed25519, on a public key, a message and a signature. -/
  verify : Bytes → Bytes → Bytes → Bool
  /-- HMAC-SHA-256. -/
  hmacSha256 : Bytes → Bytes → Bytes
  /-- `JSON.stringify` followed by the UTF-8 encoding. -/
  stringify : Json → Bytes
  /-- The UTF-8 decoding followed by `JSON.parse`. -/
  parse : Bytes → Option Json

/-! ## Identities (`keyring.ts`) -/

/-- `SabclPrivateIdentity`; the public halves are derived. -/
structure SabclPrivateIdentity where
  keyId : String
  service : String
  encryptionPrivateKey : Bytes
  signingPrivateKey : Bytes
  notAfter : Option ℕ
  deriving DecidableEq

/-- `SabclPublicIdentity`. -/
structure SabclPublicIdentity where
  keyId : String
  service : String
  encryptionPublicKey : Bytes
  signingPublicKey : Bytes
  revoked : Bool
  notAfter : Option ℕ
  deriving DecidableEq

/-- `SabclKeyring`; its constructor (lines 160-173) refuses duplicate peers. -/
structure SabclKeyring where
  own : SabclPrivateIdentity
  peers : List SabclPublicIdentity
  distinct : (peers.map SabclPublicIdentity.keyId).Nodup

/-- `now > notAfter`, for an identity that has one. -/
def expired (notAfter : Option ℕ) (now : ℕ) : Bool := notAfter.any fun t => decide (now > t)

/-- `SabclKeyring.peer` (lines 176-188). -/
def SabclKeyring.peer (keyring : SabclKeyring) (keyId : String) (now : ℕ) :
    Except Thrown SabclPublicIdentity :=
  match keyring.peers.find? fun peer => peer.keyId == keyId with
  | none => fail .SABCL_UNKNOWN_SENDER ("no peer " ++ keyId)
  | some peer =>
    if peer.revoked then fail .SABCL_KEY_REVOKED ("peer " ++ keyId ++ " is revoked")
    else if expired peer.notAfter now then
      fail .SABCL_KEY_REVOKED ("peer " ++ keyId ++ " expired")
    else .ok peer

/-- A key identifier leads to the one peer that has it. -/
theorem SabclKeyring.find?_keyId {keyring : SabclKeyring} {peer : SabclPublicIdentity}
    (h : peer ∈ keyring.peers) :
    keyring.peers.find? (fun p => p.keyId == peer.keyId) = some peer := by
  cases hfind : keyring.peers.find? (fun p => p.keyId == peer.keyId) with
  | none => exact absurd (List.find?_eq_none.mp hfind peer h) (by simp)
  | some found =>
    have hkey : found.keyId = peer.keyId := by simpa using List.find?_some hfind
    rw [List.inj_on_of_nodup_map keyring.distinct (List.mem_of_find?_eq_some hfind) h hkey]

/-! ## Primitives as the protocol uses them (`primitives.ts`) -/

section
variable (P : Primitives)

/-- `importKey` (lines 177-221) for a public key. -/
def importKey (material field : String) : Except Thrown Bytes := do
  let raw ← fromBase64Url material field
  if raw.length ≠ 32 then fail .SABCL_MALFORMED (field ++ " must be 32 bytes")
  else if P.acceptsKey raw then return raw
  else fail .SABCL_MALFORMED (field ++ " is not a valid X25519 key")

/-- `deriveSharedSecret` (lines 76-85). -/
def deriveSharedSecret (privateKey publicKey : Bytes) : Except Thrown Bytes :=
  match P.diffieHellman privateKey publicKey with
  | some secret => .ok secret
  | none => fail .SABCL_DECRYPTION_FAILED "ECDH failed"

/-- `aeadOpen` (lines 131-151). -/
def aeadOpen (key nonce ciphertext tag additionalData : Bytes) : Except Thrown Bytes :=
  if tag.length ≠ SABCL_TAG_BYTES then fail .SABCL_DECRYPTION_FAILED "tag length"
  else
    match P.aesGcmOpen key nonce ciphertext tag additionalData with
    | some plaintext => .ok plaintext
    | none => fail .SABCL_DECRYPTION_FAILED

/-- The parsing of a padded plaintext (lines 263-269). -/
def parsePadded (padded : Bytes) : Except Thrown Json := do
  let serialised ← unpadPayload padded
  match P.parse serialised with
  | some payload => return payload
  | none => fail .SABCL_MALFORMED "payload is not JSON"

/-! ## Requests -/

/-- An envelope as a JSON value. -/
def SabclEnvelope.toJson (e : SabclEnvelope) : Json :=
  .object
    [("v", .string e.v), ("mid", .string e.mid), ("rt", .string e.rt), ("skid", .string e.skid),
      ("rkid", .string e.rkid), ("epk", .string e.epk), ("iat", .number e.iat),
      ("exp", .number e.exp), ("n", .string e.n), ("hl", .number e.hl), ("pad", .number e.pad),
      ("ct", .string e.ct), ("tag", .string e.tag), ("sig", .string e.sig)]

/-- `SealRequestOptions` (lines 73-86), with its defaults filled in. -/
structure SealRequestOptions where
  sender : SabclPrivateIdentity
  recipient : SabclPublicIdentity
  routeToken : String
  payload : Json
  ttlSeconds : ℕ := SABCL_DEFAULT_TTL_SECONDS
  hopLimit : ℕ := SABCL_DEFAULT_HOP_LIMIT
  now : ℕ

/-- The random values of one `sealRequest`. -/
structure SealRandomness where
  ephemeralPrivateKey : Bytes
  nonce : Bytes
  messageId : Bytes

/-- `sealRequest` (lines 98-166): the envelope and the response secret. -/
def sealRequest (options : SealRequestOptions) (random : SealRandomness) :
    Except Thrown (SabclEnvelope × Bytes) := do
  failIf (options.ttlSeconds = 0 ∨ options.ttlSeconds > SABCL_MAX_TTL_SECONDS)
    .SABCL_MALFORMED "ttl out of range"
  failIf (options.hopLimit < 1 ∨ options.hopLimit > SABCL_MAX_HOP_LIMIT)
    .SABCL_MALFORMED "hop limit out of range"
  failIf options.recipient.revoked .SABCL_KEY_REVOKED "recipient key is revoked"
  failIf (expired options.sender.notAfter options.now) .SABCL_KEY_REVOKED "sender key has expired"
  let (padded, bucket) ← padPayload (P.stringify options.payload)
  let header : SabclEnvelope :=
    { v := SABCL_PROTOCOL_VERSION, mid := toBase64Url random.messageId,
      rt := options.routeToken, skid := options.sender.keyId, rkid := options.recipient.keyId,
      epk := toBase64Url (P.publicKey random.ephemeralPrivateKey), iat := options.now,
      exp := options.now + options.ttlSeconds, n := toBase64Url random.nonce,
      hl := options.hopLimit, pad := bucket, ct := "", tag := "", sig := "" }
  let aad := canonicalRequestHeader header
  let sharedSecret ← deriveSharedSecret P random.ephemeralPrivateKey
    options.recipient.encryptionPublicKey
  let key := P.hkdf sharedSecret random.nonce (canonicalEncode [utf8 SABCL_DOMAIN.requestKey, aad])
  let (ciphertext, tag) := P.aesGcmSeal key random.nonce padded aad
  let signature := P.sign options.sender.signingPrivateKey
    (canonicalEncode [utf8 SABCL_DOMAIN.requestSignature, aad, ciphertext, tag])
  let envelope := { header with ct := toBase64Url ciphertext, tag := toBase64Url tag,
                                sig := toBase64Url signature }
  match sabclEnvelopeSchema envelope.toJson with
  | some envelope => return (envelope, sharedSecret)
  | none => throw (.runtime "ZodError")

/-- `OpenedRequest` (lines 177-185). -/
structure OpenedRequest where
  payload : Json
  messageId : String
  senderKeyId : String
  senderService : String
  routeToken : String
  responseSecret : Bytes

/-- `openRequest` (lines 187-279). -/
def openRequest (recipient : SabclPrivateIdentity) (keyring : SabclKeyring)
    (envelope : SabclEnvelope) (now : ℕ) : Except Thrown OpenedRequest := do
  failIf (envelope.v ≠ SABCL_PROTOCOL_VERSION) .SABCL_UNSUPPORTED_VERSION
  failIf (now > envelope.exp) .SABCL_EXPIRED
  failIf (envelope.iat > now + SABCL_CLOCK_SKEW_SECONDS) .SABCL_EXPIRED "issued in the future"
  failIf (envelope.exp > envelope.iat + SABCL_MAX_TTL_SECONDS)
    .SABCL_MALFORMED "ttl exceeds ceiling"
  failIf (envelope.rkid ≠ recipient.keyId) .SABCL_UNKNOWN_RECIPIENT
  let sender ← keyring.peer envelope.skid now
  let aad := canonicalRequestHeader envelope
  let ciphertext ← fromBase64Url envelope.ct "ct"
  let tag ← fromBase64Url envelope.tag "tag"
  let signature ← fromBase64Url envelope.sig "sig"
  let signed := canonicalEncode [utf8 SABCL_DOMAIN.requestSignature, aad, ciphertext, tag]
  failIf (P.verify sender.signingPublicKey signed signature = false) .SABCL_SIGNATURE_INVALID
  let ephemeralPublic ← importKey P envelope.epk "epk"
  let sharedSecret ← deriveSharedSecret P recipient.encryptionPrivateKey ephemeralPublic
  let nonce ← fromBase64Url envelope.n "n"
  let key := P.hkdf sharedSecret nonce (canonicalEncode [utf8 SABCL_DOMAIN.requestKey, aad])
  let padded ← aeadOpen P key nonce ciphertext tag aad
  failIf (padded.length ≠ envelope.pad) .SABCL_MALFORMED "padding bucket mismatch"
  let payload ← parsePadded P padded
  return { payload := payload, messageId := envelope.mid, senderKeyId := envelope.skid,
           senderService := sender.service, routeToken := envelope.rt,
           responseSecret := sharedSecret }

/-! ## Responses -/

/-- A response envelope as a JSON value. -/
def SabclResponseEnvelope.toJson (e : SabclResponseEnvelope) : Json :=
  .object
    [("v", .string e.v), ("cid", .string e.cid), ("skid", .string e.skid), ("n", .string e.n),
      ("pad", .number e.pad), ("ct", .string e.ct), ("tag", .string e.tag), ("sig", .string e.sig)]

/-- `sealResponse` (lines 297-327) with the random `nonce`. -/
def sealResponse (responder : SabclPrivateIdentity) (responseSecret : Bytes)
    (correlationId : String) (payload : Json) (nonce : Bytes) :
    Except Thrown SabclResponseEnvelope := do
  let (padded, bucket) ← padPayload (P.stringify payload)
  let header : SabclResponseEnvelope :=
    { v := SABCL_PROTOCOL_VERSION, cid := correlationId, skid := responder.keyId,
      n := toBase64Url nonce, pad := bucket, ct := "", tag := "", sig := "" }
  let aad := canonicalResponseHeader header
  let key := P.hkdf responseSecret nonce (canonicalEncode [utf8 SABCL_DOMAIN.responseKey, aad])
  let (ciphertext, tag) := P.aesGcmSeal key nonce padded aad
  let signature := P.sign responder.signingPrivateKey
    (canonicalEncode [utf8 SABCL_DOMAIN.responseSignature, aad, ciphertext, tag])
  let envelope := { header with ct := toBase64Url ciphertext, tag := toBase64Url tag,
                                sig := toBase64Url signature }
  match sabclResponseEnvelopeSchema envelope.toJson with
  | some envelope => return envelope
  | none => throw (.runtime "ZodError")

/-- `openResponse` (lines 339-390). -/
def openResponse (responder : SabclPublicIdentity) (responseSecret : Bytes)
    (expectedCorrelationId : String) (envelope : SabclResponseEnvelope) :
    Except Thrown Json := do
  failIf (envelope.v ≠ SABCL_PROTOCOL_VERSION) .SABCL_UNSUPPORTED_VERSION
  failIf (envelope.cid ≠ expectedCorrelationId) .SABCL_MALFORMED "response correlation mismatch"
  failIf (envelope.skid ≠ responder.keyId) .SABCL_UNKNOWN_SENDER "unexpected responder key"
  let aad := canonicalResponseHeader envelope
  let ciphertext ← fromBase64Url envelope.ct "ct"
  let tag ← fromBase64Url envelope.tag "tag"
  let signature ← fromBase64Url envelope.sig "sig"
  let signed := canonicalEncode [utf8 SABCL_DOMAIN.responseSignature, aad, ciphertext, tag]
  failIf (P.verify responder.signingPublicKey signed signature = false) .SABCL_SIGNATURE_INVALID
  let nonce ← fromBase64Url envelope.n "n"
  let key := P.hkdf responseSecret nonce (canonicalEncode [utf8 SABCL_DOMAIN.responseKey, aad])
  let padded ← aeadOpen P key nonce ciphertext tag aad
  failIf (padded.length ≠ envelope.pad) .SABCL_MALFORMED "padding bucket mismatch"
  parsePadded P padded

end

end AegisShield.Sabcl
