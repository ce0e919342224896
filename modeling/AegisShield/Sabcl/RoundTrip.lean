import AegisShield.Sabcl.Encoding

/-!
# Opening what was sealed

`sealRequest` and `openRequest`, and `sealResponse` and `openResponse`, over
primitives that do what their documentation says.

Results:
* `sealRequest_ok`, `sealResponse_ok`: the envelope that sealing builds, as a function
  of its inputs.
* `openRequest_sealRequest`: the recipient gets back the payload, the message id, the
  route token, the sender and the sealer's secret.
* `openResponse_sealResponse`: the sender gets back the body of the response.
* `seal_open_round_trip`: both, for one request and the responses to it.
-/

namespace AegisShield.Sabcl

open Common

/-! ## What the primitives promise -/

/-- The sizes of what `node:crypto` returns. -/
structure Primitives.Sized (P : Primitives) : Prop where
  length_publicKey : ∀ k, k.length = SABCL_KEY_BYTES → (P.publicKey k).length = SABCL_KEY_BYTES
  length_hkdf : ∀ secret salt info, (P.hkdf secret salt info).length = SABCL_KEY_BYTES
  length_aesGcmSeal : ∀ key nonce plaintext aad,
    (P.aesGcmSeal key nonce plaintext aad).1.length = plaintext.length ∧
      (P.aesGcmSeal key nonce plaintext aad).2.length = SABCL_TAG_BYTES
  length_sign : ∀ key message, (P.sign key message).length = 64

/-- The promises of `node:crypto`: key agreement is symmetric, decryption inverts encryption under
    the same key, and a signature verifies under its signer's key. `signingPublicKey` gives the
    public half of an Ed25519 key; `publicKey` is the one of an X25519 key. -/
structure Primitives.Ideal (P : Primitives) (signingPublicKey : Bytes → Bytes) : Prop
    extends P.Sized where
  acceptsKey_publicKey : ∀ k, k.length = SABCL_KEY_BYTES → P.acceptsKey (P.publicKey k) = true
  diffieHellman_comm : ∀ a b, a.length = SABCL_KEY_BYTES → b.length = SABCL_KEY_BYTES →
    P.diffieHellman a (P.publicKey b) = P.diffieHellman b (P.publicKey a)
  aesGcmOpen_aesGcmSeal : ∀ key nonce plaintext aad, key.length = SABCL_KEY_BYTES →
    nonce.length = SABCL_NONCE_BYTES →
    P.aesGcmOpen key nonce (P.aesGcmSeal key nonce plaintext aad).1
      (P.aesGcmSeal key nonce plaintext aad).2 aad = some plaintext
  verify_sign : ∀ key message, key.length = SABCL_KEY_BYTES →
    P.verify (signingPublicKey key) message (P.sign key message) = true

/-- A value that its JSON text gives back. -/
def IsJson (P : Primitives) (value : Json) : Prop := P.parse (P.stringify value) = some value

/-- What `loadPrivateIdentity` establishes. -/
structure SabclPrivateIdentity.Loaded (identity : SabclPrivateIdentity) : Prop where
  keyId : IsKeyId identity.keyId
  encryptionPrivateKey : identity.encryptionPrivateKey.length = SABCL_KEY_BYTES
  signingPrivateKey : identity.signingPrivateKey.length = SABCL_KEY_BYTES

/-- The sizes of the random values that `sealRequest` draws. -/
structure SealRandomness.Sized (random : SealRandomness) : Prop where
  ephemeralPrivateKey : random.ephemeralPrivateKey.length = SABCL_KEY_BYTES
  nonce : random.nonce.length = SABCL_NONCE_BYTES
  messageId : random.messageId.length = SABCL_MESSAGE_ID_BYTES

section
variable (P : Primitives) (signingPublicKey : Bytes → Bytes)

/-- A peer entry holds the public halves of an identity. -/
structure PublicHalf (identity : SabclPrivateIdentity) (peer : SabclPublicIdentity) : Prop where
  keyId : peer.keyId = identity.keyId
  service : peer.service = identity.service
  encryptionPublicKey : peer.encryptionPublicKey = P.publicKey identity.encryptionPrivateKey
  signingPublicKey : peer.signingPublicKey = signingPublicKey identity.signingPrivateKey

/-- A keyring accepts messages of an identity: it lists its public half, neither
    revoked nor expired. -/
def LiveIn (keyring : SabclKeyring) (identity : SabclPrivateIdentity) (now : ℕ) : Prop :=
  ∃ peer ∈ keyring.peers, PublicHalf P signingPublicKey identity peer ∧
    peer.revoked = false ∧ expired peer.notAfter now = false

end

/-! ## What sealing builds -/

section
variable (P : Primitives)

/-- The header of a request, before its ciphertext is known. -/
def requestHeader (options : SealRequestOptions) (random : SealRandomness) (bucket : ℕ) :
    SabclEnvelope :=
  { v := SABCL_PROTOCOL_VERSION, mid := toBase64Url random.messageId,
    rt := options.routeToken, skid := options.sender.keyId, rkid := options.recipient.keyId,
    epk := toBase64Url (P.publicKey random.ephemeralPrivateKey), iat := options.now,
    exp := options.now + options.ttlSeconds, n := toBase64Url random.nonce,
    hl := options.hopLimit, pad := bucket, ct := "", tag := "", sig := "" }

/-- The key of a request. -/
def requestKey (secret nonce aad : Bytes) : Bytes :=
  P.hkdf secret nonce (canonicalEncode [utf8 SABCL_DOMAIN.requestKey, aad])

/-- What the signature of a request covers. -/
def requestSigned (aad ciphertext tag : Bytes) : Bytes :=
  canonicalEncode [utf8 SABCL_DOMAIN.requestSignature, aad, ciphertext, tag]

/-- An envelope whose header, padded plaintext and secret are given. -/
def sealedEnvelope (signingKey secret nonce padded : Bytes) (header : SabclEnvelope) :
    SabclEnvelope :=
  let aad := canonicalRequestHeader header
  let box := P.aesGcmSeal (requestKey P secret nonce aad) nonce padded aad
  { header with ct := toBase64Url box.1, tag := toBase64Url box.2,
                sig := toBase64Url (P.sign signingKey (requestSigned aad box.1 box.2)) }

variable {P}

/-- The canonical header does not depend on the ciphertext, tag and signature. -/
theorem canonicalRequestHeader_sealedEnvelope (signingKey secret nonce padded : Bytes)
    (header : SabclEnvelope) :
    canonicalRequestHeader (sealedEnvelope P signingKey secret nonce padded header) =
      canonicalRequestHeader header := rfl

theorem sealRequest_ok {options : SealRequestOptions} {random : SealRandomness}
    {envelope : SabclEnvelope} {secret : Bytes}
    (h : sealRequest P options random = .ok (envelope, secret)) :
    ∃ padded bucket, padPayload (P.stringify options.payload) = .ok (padded, bucket) ∧
      options.ttlSeconds ≤ SABCL_MAX_TTL_SECONDS ∧
      P.diffieHellman random.ephemeralPrivateKey options.recipient.encryptionPublicKey =
        some secret ∧
      envelope = sealedEnvelope P options.sender.signingPrivateKey secret random.nonce padded
        (requestHeader P options random bucket) ∧
      sabclEnvelopeSchema envelope.toJson = some envelope := by
  unfold sealRequest at h
  obtain ⟨_, httl, h⟩ := bind_ok.mp h
  obtain ⟨_, _, h⟩ := bind_ok.mp h
  obtain ⟨_, _, h⟩ := bind_ok.mp h
  obtain ⟨_, _, h⟩ := bind_ok.mp h
  obtain ⟨⟨padded, bucket⟩, hpad, h⟩ := bind_ok.mp h
  obtain ⟨shared, hshared, h⟩ := bind_ok.mp h
  have httl := failIf_ok.mp httl
  have hsecret : P.diffieHellman random.ephemeralPrivateKey
      options.recipient.encryptionPublicKey = some shared := by
    unfold deriveSharedSecret at hshared
    split at hshared
    next found hfound =>
      cases hshared
      exact hfound
    · cases hshared
  simp only at h
  split at h
  next parsed hparsed =>
    cases h
    have hsame := sabclEnvelopeSchema_toJson hparsed
    refine ⟨padded, bucket, hpad, by omega, hsecret, hsame, ?_⟩
    rw [← hsame] at hparsed
    exact hparsed
  · cases h

end

section
variable (P : Primitives)

/-- The header of a response, before its ciphertext is known. -/
def responseHeader (responder : SabclPrivateIdentity) (correlationId : String) (nonce : Bytes)
    (bucket : ℕ) : SabclResponseEnvelope :=
  { v := SABCL_PROTOCOL_VERSION, cid := correlationId, skid := responder.keyId,
    n := toBase64Url nonce, pad := bucket, ct := "", tag := "", sig := "" }

/-- The key of a response. -/
def responseKey (secret nonce aad : Bytes) : Bytes :=
  P.hkdf secret nonce (canonicalEncode [utf8 SABCL_DOMAIN.responseKey, aad])

/-- What the signature of a response covers. -/
def responseSigned (aad ciphertext tag : Bytes) : Bytes :=
  canonicalEncode [utf8 SABCL_DOMAIN.responseSignature, aad, ciphertext, tag]

/-- A response whose header, padded plaintext and secret are given. -/
def sealedResponse (signingKey secret nonce padded : Bytes) (header : SabclResponseEnvelope) :
    SabclResponseEnvelope :=
  let aad := canonicalResponseHeader header
  let box := P.aesGcmSeal (responseKey P secret nonce aad) nonce padded aad
  { header with ct := toBase64Url box.1, tag := toBase64Url box.2,
                sig := toBase64Url (P.sign signingKey (responseSigned aad box.1 box.2)) }

variable {P}

theorem canonicalResponseHeader_sealedResponse (signingKey secret nonce padded : Bytes)
    (header : SabclResponseEnvelope) :
    canonicalResponseHeader (sealedResponse P signingKey secret nonce padded header) =
      canonicalResponseHeader header := rfl

theorem sealResponse_ok {responder : SabclPrivateIdentity} {secret : Bytes} {correlationId : String}
    {payload : Json} {nonce : Bytes} {response : SabclResponseEnvelope}
    (h : sealResponse P responder secret correlationId payload nonce = .ok response) :
    ∃ padded bucket, padPayload (P.stringify payload) = .ok (padded, bucket) ∧
      response = sealedResponse P responder.signingPrivateKey secret nonce padded
        (responseHeader responder correlationId nonce bucket) ∧
      sabclResponseEnvelopeSchema response.toJson = some response := by
  unfold sealResponse at h
  obtain ⟨⟨padded, bucket⟩, hpad, h⟩ := bind_ok.mp h
  simp only at h
  split at h
  next parsed hparsed =>
    cases h
    have hsame := sabclResponseEnvelopeSchema_toJson hparsed
    refine ⟨padded, bucket, hpad, hsame, ?_⟩
    rw [← hsame] at hparsed
    exact hparsed
  · cases h

end

/-! ## Requests -/

variable {P : Primitives} {signingPublicKey : Bytes → Bytes}

theorem SabclKeyring.peer_of_live {keyring : SabclKeyring} {identity : SabclPrivateIdentity}
    {now : ℕ} (h : LiveIn P signingPublicKey keyring identity now) :
    ∃ peer, keyring.peer identity.keyId now = .ok peer ∧
      PublicHalf P signingPublicKey identity peer := by
  obtain ⟨peer, hmem, hhalf, hrevoked, hexpired⟩ := h
  have hfind : keyring.peers.find? (fun p => p.keyId == identity.keyId) = some peer := by
    rw [← hhalf.keyId]
    exact SabclKeyring.find?_keyId hmem
  refine ⟨peer, ?_, hhalf⟩
  unfold SabclKeyring.peer
  rw [hfind]
  simp [hrevoked, hexpired]

theorem ne_nil_of_length {bytes : Bytes} {n : ℕ} (h : bytes.length = n) (hn : 0 < n) :
    bytes ≠ [] := by
  rintro rfl
  rw [← h] at hn
  cases hn

variable {padded : Bytes} {bucket : ℕ} {peer : SabclPublicIdentity}
  {responder : SabclPrivateIdentity} {correlationId : String} {body : Json}

theorem parsePadded_ok {value : Json} (hvalue : IsJson P value)
    (hpad : padPayload (P.stringify value) = .ok (padded, bucket)) :
    parsePadded P padded = .ok value := by
  unfold parsePadded
  rw [(unpadPayload_padPayload hpad).2]
  unfold IsJson at hvalue
  simp only [bind, Except.bind, hvalue]
  rfl

/-- The bytes that travel in base64url are not empty and decode to themselves. -/
theorem Primitives.Sized.box_decodes (hP : P.Sized) {payload : Bytes}
    (hpad : padPayload payload = .ok (padded, bucket)) (key nonce aad : Bytes) :
    (∀ field, fromBase64Url (toBase64Url (P.aesGcmSeal key nonce padded aad).1) field =
        .ok (P.aesGcmSeal key nonce padded aad).1) ∧
      ∀ field, fromBase64Url (toBase64Url (P.aesGcmSeal key nonce padded aad).2) field =
        .ok (P.aesGcmSeal key nonce padded aad).2 := by
  obtain ⟨hlength, htag⟩ := hP.length_aesGcmSeal key nonce padded aad
  rw [(unpadPayload_padPayload hpad).1] at hlength
  have hbucket := (bucket_le (padPayload_ok hpad).1).1
  exact ⟨fromBase64Url_toBase64Url (ne_nil_of_length hlength hbucket),
    fromBase64Url_toBase64Url (ne_nil_of_length htag (by decide))⟩

/-- The bytes of a sealed message pass the schemas' bounds. -/
theorem Primitives.Sized.box_valid (hP : P.Sized) {payload : Bytes}
    (hpad : padPayload payload = .ok (padded, bucket)) (key nonce aad : Bytes) :
    IsBase64Url SABCL_MAX_ENVELOPE_BYTES (toBase64Url (P.aesGcmSeal key nonce padded aad).1) ∧
      IsBase64Url 32 (toBase64Url (P.aesGcmSeal key nonce padded aad).2) := by
  obtain ⟨hct, htag⟩ := hP.length_aesGcmSeal key nonce padded aad
  rw [(unpadPayload_padPayload hpad).1] at hct
  obtain ⟨hpos, hbucket⟩ := bucket_le (padPayload_ok hpad).1
  unfold SABCL_MAX_PLAINTEXT_BYTES at hbucket
  constructor
  · refine isBase64Url_toBase64Url (ne_nil_of_length hct hpos) ?_
    unfold SABCL_MAX_ENVELOPE_BYTES
    omega
  · exact isBase64Url_toBase64Url (ne_nil_of_length htag (by decide)) (by rw [htag]; decide)

theorem Primitives.Sized.sign_valid (hP : P.Sized) (key message : Bytes) :
    IsBase64Url 128 (toBase64Url (P.sign key message)) :=
  isBase64Url_toBase64Url (ne_nil_of_length (hP.length_sign key message) (by decide))
    (by rw [hP.length_sign]; decide)

theorem nonce_valid {nonce : Bytes} (hnonce : nonce.length = SABCL_NONCE_BYTES) :
    IsBase64Url 24 (toBase64Url nonce) :=
  isBase64Url_toBase64Url (ne_nil_of_length hnonce (by decide)) (by rw [hnonce]; decide)

/-- Sealing succeeds when its options are in range and the payload leaves room for the
    length prefix. -/
theorem sealRequest_of_length (hP : P.Sized) {options : SealRequestOptions}
    {random : SealRandomness} {secret : Bytes} (hrandom : random.Sized)
    (hsender : IsKeyId options.sender.keyId) (hrecipient : IsKeyId options.recipient.keyId)
    (hroute : IsBase64Url 64 options.routeToken) (httl : 0 < options.ttlSeconds)
    (httl' : options.ttlSeconds ≤ SABCL_MAX_TTL_SECONDS) (hhop : 1 ≤ options.hopLimit)
    (hhop' : options.hopLimit ≤ SABCL_MAX_HOP_LIMIT) (hrevoked : options.recipient.revoked = false)
    (hexpired : expired options.sender.notAfter options.now = false)
    (hexp : options.now + options.ttlSeconds ≤ Json.maxSafeInteger)
    (hshared : P.diffieHellman random.ephemeralPrivateKey options.recipient.encryptionPublicKey =
      some secret)
    (hroom : (P.stringify options.payload).length + LENGTH_PREFIX_BYTES ≤
      SABCL_MAX_PLAINTEXT_BYTES) :
    ∃ envelope, sealRequest P options random = .ok (envelope, secret) := by
  obtain ⟨padded, bucket, hpad⟩ := padPayload_of_length hroom
  obtain ⟨hpos, hbucket⟩ := bucket_le (padPayload_ok hpad).1
  generalize henvelope : sealedEnvelope P options.sender.signingPrivateKey secret random.nonce
    padded (requestHeader P options random bucket) = envelope
  have hvalid : envelope.Valid := by
    rw [← henvelope]
    generalize haad : canonicalRequestHeader (requestHeader P options random bucket) = aad
    generalize hkey : requestKey P secret random.nonce aad = key
    obtain ⟨hct, htag⟩ := hP.box_valid hpad key random.nonce aad
    have hmid := hrandom.messageId
    have hepk := hP.length_publicKey _ hrandom.ephemeralPrivateKey
    simp only [sealedEnvelope, haad, hkey]
    constructor
    case v => rfl
    case mid =>
      exact isBase64Url_toBase64Url (ne_nil_of_length hmid (by decide)) (by rw [hmid]; decide)
    case rt => exact hroute
    case skid => exact hsender
    case rkid => exact hrecipient
    case epk =>
      exact isBase64Url_toBase64Url (ne_nil_of_length hepk (by decide)) (by rw [hepk]; decide)
    case iat => exact (Nat.le_add_right _ _).trans hexp
    case exp => exact hexp
    case n => exact nonce_valid hrandom.nonce
    case hl => exact hhop'
    case pad => exact ⟨hpos, hbucket.trans (by decide)⟩
    case ct => exact hct
    case tag => exact htag
    case sig => exact hP.sign_valid _ _
  refine ⟨envelope, ?_⟩
  unfold sealRequest
  refine bind_ok.mpr ⟨(), failIf_ok.mpr (by omega), ?_⟩
  refine bind_ok.mpr ⟨(), failIf_ok.mpr (by omega), ?_⟩
  refine bind_ok.mpr ⟨(), failIf_ok.mpr (by simp [hrevoked]), ?_⟩
  refine bind_ok.mpr ⟨(), failIf_ok.mpr (by simp [hexpired]), ?_⟩
  refine bind_ok.mpr ⟨(padded, bucket), hpad, ?_⟩
  refine bind_ok.mpr ⟨secret, by simp only [deriveSharedSecret, hshared], ?_⟩
  have hschema := hvalid.schema
  rw [← henvelope] at hschema ⊢
  unfold sealedEnvelope requestHeader requestKey requestSigned at hschema ⊢
  simp only at hschema ⊢
  rw [hschema]
  rfl

/-- What opening one sealed request asks of the primitives. -/
theorem openRequest_sealedEnvelope (hP : P.Sized) {options : SealRequestOptions}
    {random : SealRandomness} {recipient : SabclPrivateIdentity} {keyring : SabclKeyring} {now : ℕ}
    {secret aad key : Bytes}
    (hrandom : random.Sized) (hpayload : IsJson P options.payload)
    (hpad : padPayload (P.stringify options.payload) = .ok (padded, bucket))
    (httl : options.ttlSeconds ≤ SABCL_MAX_TTL_SECONDS)
    (hrecipient : options.recipient.keyId = recipient.keyId)
    (hpeer : keyring.peer options.sender.keyId now = .ok peer)
    (hfrom : options.now ≤ now + SABCL_CLOCK_SKEW_SECONDS)
    (hto : now ≤ options.now + options.ttlSeconds)
    (haad : canonicalRequestHeader (requestHeader P options random bucket) = aad)
    (hkey : requestKey P secret random.nonce aad = key)
    (haccepts : P.acceptsKey (P.publicKey random.ephemeralPrivateKey) = true)
    (hsecret : P.diffieHellman recipient.encryptionPrivateKey
      (P.publicKey random.ephemeralPrivateKey) = some secret)
    (hverify : ∀ message, message = requestSigned aad
        (P.aesGcmSeal key random.nonce padded aad).1 (P.aesGcmSeal key random.nonce padded aad).2 →
      P.verify peer.signingPublicKey message (P.sign options.sender.signingPrivateKey message) =
        true) (hopen : P.aesGcmOpen key random.nonce (P.aesGcmSeal key random.nonce padded aad).1
      (P.aesGcmSeal key random.nonce padded aad).2 aad = some padded) :
    openRequest P recipient keyring
        (sealedEnvelope P options.sender.signingPrivateKey secret random.nonce padded
          (requestHeader P options random bucket)) now =
      .ok { payload := options.payload, messageId := toBase64Url random.messageId,
            senderKeyId := options.sender.keyId, senderService := peer.service,
            routeToken := options.routeToken, responseSecret := secret } := by
  obtain ⟨hct, htag⟩ := hP.box_decodes hpad key random.nonce aad
  have hsig : ∀ message field,
      fromBase64Url (toBase64Url (P.sign options.sender.signingPrivateKey message)) field =
        .ok (P.sign options.sender.signingPrivateKey message) := fun message =>
    fromBase64Url_toBase64Url (ne_nil_of_length (hP.length_sign _ message) (by decide))
  have hnonce : fromBase64Url (toBase64Url random.nonce) "n" = .ok random.nonce :=
    fromBase64Url_toBase64Url (ne_nil_of_length hrandom.nonce (by decide)) "n"
  have hepk : importKey P (toBase64Url (P.publicKey random.ephemeralPrivateKey)) "epk" =
      .ok (P.publicKey random.ephemeralPrivateKey) := by
    have hlength : (P.publicKey random.ephemeralPrivateKey).length = 32 :=
      hP.length_publicKey _ hrandom.ephemeralPrivateKey
    have hdecode := fromBase64Url_toBase64Url (ne_nil_of_length hlength (by decide)) "epk"
    refine bind_ok.mpr ⟨_, hdecode, ?_⟩
    rw [if_neg (not_not.mpr hlength), if_pos haccepts]
    rfl
  have hshared : deriveSharedSecret P recipient.encryptionPrivateKey
      (P.publicKey random.ephemeralPrivateKey) = .ok secret := by
    unfold deriveSharedSecret
    rw [hsecret]
  unfold openRequest
  refine bind_ok.mpr ⟨(), failIf_ok.mpr (not_not.mpr rfl), ?_⟩
  refine bind_ok.mpr ⟨(), failIf_ok.mpr (Nat.not_lt.mpr hto), ?_⟩
  refine bind_ok.mpr ⟨(), failIf_ok.mpr (Nat.not_lt.mpr hfrom), ?_⟩
  refine bind_ok.mpr ⟨(), failIf_ok.mpr (Nat.not_lt.mpr (Nat.add_le_add_left httl _)), ?_⟩
  refine bind_ok.mpr ⟨(), failIf_ok.mpr (not_not.mpr hrecipient), ?_⟩
  refine bind_ok.mpr ⟨peer, hpeer, ?_⟩
  simp only [canonicalRequestHeader_sealedEnvelope, haad]
  simp only [sealedEnvelope, haad, hkey]
  refine bind_ok.mpr ⟨_, hct _, ?_⟩
  refine bind_ok.mpr ⟨_, htag _, ?_⟩
  refine bind_ok.mpr ⟨_, hsig _ _, ?_⟩
  refine bind_ok.mpr ⟨(), failIf_ok.mpr ?_, ?_⟩
  · rw [Bool.not_eq_false]
    exact hverify _ rfl
  refine bind_ok.mpr ⟨_, hepk, ?_⟩
  refine bind_ok.mpr ⟨_, hshared, ?_⟩
  refine bind_ok.mpr ⟨_, hnonce, ?_⟩
  refine bind_ok.mpr ⟨padded, ?_, ?_⟩
  · unfold aeadOpen
    rw [← hkey] at hopen ⊢
    rw [if_neg (not_not.mpr (hP.length_aesGcmSeal _ _ _ _).2)]
    exact hopen ▸ rfl
  refine bind_ok.mpr ⟨(), failIf_ok.mpr (not_not.mpr (unpadPayload_padPayload hpad).1), ?_⟩
  exact bind_ok.mpr ⟨_, parsePadded_ok hpayload hpad, rfl⟩

/-- The recipient reads in a sealed request what the sender sealed. -/
theorem openRequest_sealRequest (hP : P.Ideal signingPublicKey) {options : SealRequestOptions}
    {random : SealRandomness} {recipient : SabclPrivateIdentity} {keyring : SabclKeyring}
    {now : ℕ} {envelope : SabclEnvelope} {secret : Bytes} (hrandom : random.Sized)
    (hsender : options.sender.Loaded) (hloaded : recipient.Loaded)
    (hpayload : IsJson P options.payload)
    (hseal : sealRequest P options random = .ok (envelope, secret))
    (hrecipient : PublicHalf P signingPublicKey recipient options.recipient)
    (hlive : LiveIn P signingPublicKey keyring options.sender now)
    (hfrom : options.now ≤ now + SABCL_CLOCK_SKEW_SECONDS) (hto : now ≤ envelope.exp) :
    openRequest P recipient keyring envelope now =
      .ok { payload := options.payload, messageId := envelope.mid,
            senderKeyId := options.sender.keyId, senderService := options.sender.service,
            routeToken := options.routeToken, responseSecret := secret } := by
  obtain ⟨padded, bucket, hpad, httl, hsecret, rfl, -⟩ := sealRequest_ok hseal
  obtain ⟨peer, hpeer, hhalf⟩ := SabclKeyring.peer_of_live hlive
  have hshared : P.diffieHellman recipient.encryptionPrivateKey
      (P.publicKey random.ephemeralPrivateKey) = some secret := by
    rw [hP.diffieHellman_comm _ _ hloaded.encryptionPrivateKey hrandom.ephemeralPrivateKey,
      ← hrecipient.encryptionPublicKey, hsecret]
  have hverify : ∀ message, P.verify peer.signingPublicKey message
      (P.sign options.sender.signingPrivateKey message) = true := by
    intro message
    rw [hhalf.signingPublicKey]
    exact hP.verify_sign _ _ hsender.signingPrivateKey
  rw [← hhalf.service]
  exact openRequest_sealedEnvelope hP.toSized hrandom hpayload hpad httl hrecipient.keyId hpeer
    hfrom hto rfl rfl (hP.acceptsKey_publicKey _ hrandom.ephemeralPrivateKey) hshared
    (fun message _ => hverify message)
    (hP.aesGcmOpen_aesGcmSeal _ _ _ _ (hP.length_hkdf _ _ _) hrandom.nonce)

/-! ## Responses -/

/-- What opening one sealed response asks of the primitives. -/
theorem openResponse_sealedResponse (hP : P.Sized)
    {secret nonce aad key : Bytes} (hnonce : nonce.length = SABCL_NONCE_BYTES)
    (hbody : IsJson P body) (hpad : padPayload (P.stringify body) = .ok (padded, bucket))
    (hpeer : peer.keyId = responder.keyId)
    (haad : canonicalResponseHeader (responseHeader responder correlationId nonce bucket) = aad)
    (hkey : responseKey P secret nonce aad = key) (hverify : ∀ message, message = responseSigned aad
        (P.aesGcmSeal key nonce padded aad).1 (P.aesGcmSeal key nonce padded aad).2 →
      P.verify peer.signingPublicKey message (P.sign responder.signingPrivateKey message) = true)
    (hopen : P.aesGcmOpen key nonce (P.aesGcmSeal key nonce padded aad).1
      (P.aesGcmSeal key nonce padded aad).2 aad = some padded) :
    openResponse P peer secret correlationId
        (sealedResponse P responder.signingPrivateKey secret nonce padded
          (responseHeader responder correlationId nonce bucket)) = .ok body := by
  obtain ⟨hct, htag⟩ := hP.box_decodes hpad key nonce aad
  have hsig : ∀ message field,
      fromBase64Url (toBase64Url (P.sign responder.signingPrivateKey message)) field =
        .ok (P.sign responder.signingPrivateKey message) := fun message =>
    fromBase64Url_toBase64Url (ne_nil_of_length (hP.length_sign _ message) (by decide))
  have hnonce' : fromBase64Url (toBase64Url nonce) "n" = .ok nonce :=
    fromBase64Url_toBase64Url (ne_nil_of_length hnonce (by decide)) "n"
  unfold openResponse
  refine bind_ok.mpr ⟨(), failIf_ok.mpr (not_not.mpr rfl), ?_⟩
  refine bind_ok.mpr ⟨(), failIf_ok.mpr (not_not.mpr rfl), ?_⟩
  refine bind_ok.mpr ⟨(), failIf_ok.mpr (not_not.mpr hpeer.symm), ?_⟩
  simp only [canonicalResponseHeader_sealedResponse, haad]
  simp only [sealedResponse, haad, hkey]
  refine bind_ok.mpr ⟨_, hct _, ?_⟩
  refine bind_ok.mpr ⟨_, htag _, ?_⟩
  refine bind_ok.mpr ⟨_, hsig _ _, ?_⟩
  refine bind_ok.mpr ⟨(), failIf_ok.mpr ?_, ?_⟩
  · rw [Bool.not_eq_false]
    exact hverify _ rfl
  refine bind_ok.mpr ⟨_, hnonce', ?_⟩
  refine bind_ok.mpr ⟨padded, ?_, ?_⟩
  · unfold aeadOpen
    rw [← hkey] at hopen ⊢
    rw [if_neg (not_not.mpr (hP.length_aesGcmSeal _ _ _ _).2)]
    exact hopen ▸ rfl
  refine bind_ok.mpr ⟨(), failIf_ok.mpr (not_not.mpr (unpadPayload_padPayload hpad).1), ?_⟩
  exact parsePadded_ok hbody hpad

/-- The sender reads in a sealed response what the responder sealed. -/
theorem openResponse_sealResponse (hP : P.Ideal signingPublicKey) {secret : Bytes} {nonce : Bytes}
    {response : SabclResponseEnvelope}
    (hloaded : responder.Loaded) (hhalf : PublicHalf P signingPublicKey responder peer)
    (hnonce : nonce.length = SABCL_NONCE_BYTES) (hbody : IsJson P body)
    (hseal : sealResponse P responder secret correlationId body nonce = .ok response) :
    openResponse P peer secret correlationId response = .ok body := by
  obtain ⟨padded, bucket, hpad, rfl, -⟩ := sealResponse_ok hseal
  have hverify : ∀ message, P.verify peer.signingPublicKey message
      (P.sign responder.signingPrivateKey message) = true := by
    intro message
    rw [hhalf.signingPublicKey]
    exact hP.verify_sign _ _ hloaded.signingPrivateKey
  exact openResponse_sealedResponse hP.toSized hnonce hbody hpad hhalf.keyId rfl rfl
    (fun message _ => hverify message)
    (hP.aesGcmOpen_aesGcmSeal _ _ _ _ (hP.length_hkdf _ _ _) hnonce)

/-- Every response whose text leaves room for the length prefix can be sealed. -/
theorem sealResponse_of_length (hP : P.Sized) {nonce : Bytes}
    (secret : Bytes) (hloaded : responder.Loaded) (hcid : IsBase64Url 32 correlationId)
    (hnonce : nonce.length = SABCL_NONCE_BYTES)
    (hroom : (P.stringify body).length + LENGTH_PREFIX_BYTES ≤ SABCL_MAX_PLAINTEXT_BYTES) :
    ∃ response, sealResponse P responder secret correlationId body nonce = .ok response := by
  obtain ⟨padded, bucket, hpad⟩ := padPayload_of_length hroom
  obtain ⟨hpos, hbucket⟩ := bucket_le (padPayload_ok hpad).1
  generalize henvelope : sealedResponse P responder.signingPrivateKey secret nonce padded
    (responseHeader responder correlationId nonce bucket) = envelope
  have hvalid : envelope.Valid := by
    rw [← henvelope]
    generalize haad : canonicalResponseHeader
      (responseHeader responder correlationId nonce bucket) = aad
    generalize hkey : responseKey P secret nonce aad = key
    obtain ⟨hct, htag⟩ := hP.box_valid hpad key nonce aad
    simp only [sealedResponse, haad, hkey]
    constructor
    case v => rfl
    case cid => exact hcid
    case skid => exact hloaded.keyId
    case n => exact nonce_valid hnonce
    case pad => exact ⟨hpos, hbucket.trans (by decide)⟩
    case ct => exact hct
    case tag => exact htag
    case sig => exact hP.sign_valid _ _
  refine ⟨envelope, ?_⟩
  unfold sealResponse
  refine bind_ok.mpr ⟨(padded, bucket), hpad, ?_⟩
  have hschema := hvalid.schema
  rw [← henvelope] at hschema ⊢
  unfold sealedResponse responseHeader responseKey responseSigned at hschema ⊢
  simp only at hschema ⊢
  rw [hschema]
  rfl

/-- A sealed request opens, at any time from its issue less the allowed skew to its expiry, to
    what its sender sealed, and with the secret of the sealer; a response sealed with that secret
    opens to its body, and every body that fits into a padding bucket can be sealed. -/
theorem seal_open_round_trip (P : Primitives) (signingPublicKey : Bytes → Bytes)
    (options : SealRequestOptions) (random : SealRandomness) (recipient : SabclPrivateIdentity)
    (keyring : SabclKeyring) (now : ℕ) (envelope : SabclEnvelope) (secret : Bytes)
    (hP : P.Ideal signingPublicKey) (hrandom : random.Sized) (hsender : options.sender.Loaded)
    (hloaded : recipient.Loaded) (hpayload : IsJson P options.payload)
    (hseal : sealRequest P options random = .ok (envelope, secret))
    (hrecipient : PublicHalf P signingPublicKey recipient options.recipient)
    (hlive : LiveIn P signingPublicKey keyring options.sender now)
    (hfrom : options.now ≤ now + SABCL_CLOCK_SKEW_SECONDS) (hto : now ≤ envelope.exp) :
    openRequest P recipient keyring envelope now =
        .ok { payload := options.payload, messageId := envelope.mid,
              senderKeyId := options.sender.keyId, senderService := options.sender.service,
              routeToken := options.routeToken, responseSecret := secret } ∧
      ∀ (body : Json) (nonce : Bytes), IsJson P body → nonce.length = SABCL_NONCE_BYTES →
        (∀ response, sealResponse P recipient secret envelope.mid body nonce = .ok response →
          openResponse P options.recipient secret envelope.mid response = .ok body) ∧
        ((P.stringify body).length + LENGTH_PREFIX_BYTES ≤ SABCL_MAX_PLAINTEXT_BYTES →
          ∃ response, sealResponse P recipient secret envelope.mid body nonce = .ok response) := by
  refine ⟨openRequest_sealRequest hP hrandom hsender hloaded hpayload hseal hrecipient hlive hfrom
    hto, ?_⟩
  intro body nonce hbody hnonce
  constructor
  · intro response hresponse
    exact openResponse_sealResponse hP hloaded hrecipient hnonce hbody hresponse
  · intro hroom
    obtain ⟨_, _, -, -, -, -, hschema⟩ := sealRequest_ok hseal
    exact sealResponse_of_length hP.toSized secret hloaded
      (valid_of_sabclEnvelopeSchema hschema).mid hnonce hroom

/-! ### A query of the Gateway to the Ledger -/

section
variable (payload : Json) (text : String)

/-- A stand-in for the primitives that keeps their promises: ciphertexts are plaintexts,
    and the one JSON value is `payload` with the text `text`. -/
def transparentPrimitives : Primitives where
  publicKey key := key
  acceptsKey _ := true
  diffieHellman a b := some (List.zipWith (· ^^^ ·) a b)
  hkdf secret salt _ := (secret ++ salt ++ List.replicate SABCL_KEY_BYTES 0).take SABCL_KEY_BYTES
  aesGcmSeal _ _ plaintext _ := (plaintext, List.replicate SABCL_TAG_BYTES 0)
  aesGcmOpen _ _ ciphertext _ _ := some ciphertext
  sign key message := (key ++ message ++ List.replicate 64 0).take 64
  verify key message signature := signature == (key ++ message ++ List.replicate 64 0).take 64
  hmacSha256 secret message := (secret ++ message).reverse
  stringify _ := utf8 text
  parse bytes := if bytes = utf8 text then some payload else none

theorem transparentPrimitives_ideal : (transparentPrimitives payload text).Ideal id where
  length_publicKey k hk := hk
  acceptsKey_publicKey k _ := rfl
  diffieHellman_comm a b _ _ := by
    simp only [transparentPrimitives]
    rw [List.zipWith_comm]
    simp only [UInt8.xor_comm]
  length_hkdf secret salt info := by
    simp [transparentPrimitives]
    omega
  aesGcmOpen_aesGcmSeal _ _ _ _ _ _ := rfl
  length_aesGcmSeal key nonce plaintext aad := by simp [transparentPrimitives]
  verify_sign key message _ := by simp [transparentPrimitives]
  length_sign key message := by
    simp [transparentPrimitives]
    omega

theorem isJson_transparentPrimitives : IsJson (transparentPrimitives payload text) payload := by
  simp [IsJson, transparentPrimitives]

end

/-- The Gateway's identity. -/
def gateway : SabclPrivateIdentity where
  keyId := "gateway.v1"
  service := "gateway"
  encryptionPrivateKey := List.replicate SABCL_KEY_BYTES 1
  signingPrivateKey := List.replicate SABCL_KEY_BYTES 2
  notAfter := none

/-- The Ledger's identity. -/
def ledger : SabclPrivateIdentity where
  keyId := "ledger.v1"
  service := "ledger"
  encryptionPrivateKey := List.replicate SABCL_KEY_BYTES 3
  signingPrivateKey := List.replicate SABCL_KEY_BYTES 4
  notAfter := none

/-- The public half of an identity under `transparentPrimitives`. -/
def transparentPeer (identity : SabclPrivateIdentity) : SabclPublicIdentity where
  keyId := identity.keyId
  service := identity.service
  encryptionPublicKey := identity.encryptionPrivateKey
  signingPublicKey := identity.signingPrivateKey
  revoked := false
  notAfter := none

/-- A query, its text being `"balance"`. -/
def balanceOptions : SealRequestOptions where
  sender := gateway
  recipient := transparentPeer ledger
  routeToken := "cm91dGU"
  payload := .string "balance"
  now := 1000

def balanceRandomness : SealRandomness where
  ephemeralPrivateKey := List.replicate SABCL_KEY_BYTES 5
  nonce := List.replicate SABCL_NONCE_BYTES 6
  messageId := List.replicate SABCL_MESSAGE_ID_BYTES 7

def ledgerPeers : SabclKeyring where
  own := ledger
  peers := [transparentPeer gateway]
  distinct := by decide

/-- The query opens in the last second of its validity. -/
theorem balance_round_trip :
    ∃ envelope secret,
      sealRequest (transparentPrimitives (.string "balance") "\"balance\"") balanceOptions
        balanceRandomness = .ok (envelope, secret) ∧
      openRequest (transparentPrimitives (.string "balance") "\"balance\"") ledger ledgerPeers
          envelope 1030 =
        .ok { payload := .string "balance", messageId := envelope.mid,
              senderKeyId := "gateway.v1", senderService := "gateway", routeToken := "cm91dGU",
              responseSecret := secret } := by
  have hP := transparentPrimitives_ideal (.string "balance") "\"balance\""
  have hrandom : balanceRandomness.Sized := ⟨by decide, by decide, by decide⟩
  have hhalf : ∀ identity : SabclPrivateIdentity,
      PublicHalf (transparentPrimitives (.string "balance") "\"balance\"") id identity
        (transparentPeer identity) := fun identity => ⟨rfl, rfl, rfl, rfl⟩
  obtain ⟨envelope, hseal⟩ := @sealRequest_of_length _ hP.toSized balanceOptions balanceRandomness
    (List.zipWith (· ^^^ ·) (List.replicate SABCL_KEY_BYTES 5) (List.replicate SABCL_KEY_BYTES 3))
    hrandom
    ⟨by decide, by decide, by decide⟩ ⟨by decide, by decide, by decide⟩
    ⟨by decide, by decide, by decide⟩ (by decide) (by decide) (by decide) (by decide) rfl rfl
    (by decide) rfl (by decide)
  refine ⟨envelope, _, hseal, ?_⟩
  have hexp : envelope.exp = 1030 := by
    obtain ⟨_, _, -, -, -, rfl, -⟩ := sealRequest_ok hseal
    rfl
  exact (seal_open_round_trip _ id balanceOptions balanceRandomness ledger ledgerPeers 1030 envelope
    _ hP hrandom ⟨⟨by decide, by decide, by decide⟩, by decide, by decide⟩
    ⟨⟨by decide, by decide, by decide⟩, by decide, by decide⟩
    (isJson_transparentPrimitives _ _) hseal (hhalf ledger)
    ⟨transparentPeer gateway, List.mem_singleton_self _, hhalf gateway, rfl, rfl⟩
    (by decide) (by rw [hexp])).1

end AegisShield.Sabcl
