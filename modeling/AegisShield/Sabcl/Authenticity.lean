import AegisShield.Sabcl.RoundTrip

/-!
# What an accepted message says of its sender

An adversary sees every envelope that was ever sealed and presents any JSON value
as an envelope. What was sealed is a set of calls of `sealRequest` and
`sealResponse`, of any size.

Results:
* `openRequest_ok`, `openResponse_ok`: what opening has checked when it returns.
* `request_authentic`: an accepted request is, field for field, one that the holder
  of its sender key sealed for this recipient.
* `response_authentic`: an accepted response is one that the expected responder
  sealed for the request's message id.
* `sabcl_authentic`: both.
-/

namespace AegisShield.Sabcl

open Common

/-! ## Sealings -/

/-- A call of `sealRequest` or `sealResponse` and the envelope that it returned. -/
inductive Sealing where
  | request (options : SealRequestOptions) (random : SealRandomness) (envelope : SabclEnvelope)
      (secret : Bytes)
  | response (responder : SabclPrivateIdentity) (secret : Bytes) (correlationId : String)
      (payload : Json) (nonce : Bytes) (envelope : SabclResponseEnvelope)

namespace Sealing

/-- The key that signs in the call. -/
def signer : Sealing → Bytes
  | request options _ _ _ => options.sender.signingPrivateKey
  | response responder _ _ _ _ _ => responder.signingPrivateKey

/-- The message that the call signs. -/
def signed : Sealing → Bytes
  | request _ _ e _ =>
    requestSigned (canonicalRequestHeader e) (bufferFromBase64Url e.ct) (bufferFromBase64Url e.tag)
  | response _ _ _ _ _ e =>
    responseSigned (canonicalResponseHeader e) (bufferFromBase64Url e.ct)
      (bufferFromBase64Url e.tag)

/-- The signature that the call makes. -/
def signature : Sealing → Bytes
  | request _ _ e _ => bufferFromBase64Url e.sig
  | response _ _ _ _ _ e => bufferFromBase64Url e.sig

/-- The ciphertext and the tag. -/
def box : Sealing → Bytes × Bytes
  | request _ _ e _ => (bufferFromBase64Url e.ct, bufferFromBase64Url e.tag)
  | response _ _ _ _ _ e => (bufferFromBase64Url e.ct, bufferFromBase64Url e.tag)

/-- The payload that the call seals. -/
def payload : Sealing → Json
  | request options _ _ _ => options.payload
  | response _ _ _ payload _ _ => payload

variable (P : Primitives)

/-- The call returned the envelope. -/
def Happened : Sealing → Prop
  | request options random envelope secret =>
    sealRequest P options random = .ok (envelope, secret)
  | response responder secret correlationId payload nonce envelope =>
    sealResponse P responder secret correlationId payload nonce = .ok envelope

/-- The key under which the call encrypts. -/
def messageKey : Sealing → Bytes
  | request _ random e secret => requestKey P secret random.nonce (canonicalRequestHeader e)
  | response _ secret _ _ nonce e => responseKey P secret nonce (canonicalResponseHeader e)

end Sealing

section
variable (P : Primitives) (signingPublicKey : Bytes → Bytes) (history : Set Sealing)

/-- Strong unforgeability: what verifies under the public half of a key is a signature
    that a sealing of the history made with the key, on that message. -/
def Unforgeable (key : Bytes) : Prop :=
  ∀ message signature, P.verify (signingPublicKey key) message signature = true →
    ∃ s ∈ history, s.signer = key ∧ s.signed = message ∧ s.signature = signature

/-- Ideal authenticated encryption: a ciphertext of the history opens only under the key
    that sealed it, and to the plaintext that was sealed. -/
def OpensAsSealed : Prop :=
  ∀ s ∈ history, ∀ key nonce aad padded,
    P.aesGcmOpen key nonce s.box.1 s.box.2 aad = some padded →
      key = s.messageKey P ∧ ∃ bucket, padPayload (P.stringify s.payload) = .ok (padded, bucket)

end

/-! ## What opening checks -/

variable {P : Primitives} {signingPublicKey : Bytes → Bytes} {history : Set Sealing}

variable {ciphertext tag padded secret : Bytes} {keyring : SabclKeyring} {now : ℕ}
  {correlationId : String}

theorem aeadOpen_ok {key nonce aad : Bytes}
    (h : aeadOpen P key nonce ciphertext tag aad = .ok padded) :
    P.aesGcmOpen key nonce ciphertext tag aad = some padded := by
  unfold aeadOpen at h
  split at h
  · cases h
  · split at h
    next plaintext hopen =>
      cases h
      exact hopen
    · cases h

theorem parsePadded_of_ok {value : Json} (h : parsePadded P padded = .ok value) :
    ∃ text, unpadPayload padded = .ok text ∧ P.parse text = some value := by
  unfold parsePadded at h
  obtain ⟨text, htext, h⟩ := bind_ok.mp h
  split at h
  next payload hparse =>
    cases h
    exact ⟨text, htext, hparse⟩
  · cases h

theorem SabclKeyring.peer_ok {keyId : String}
    {peer : SabclPublicIdentity} (h : keyring.peer keyId now = .ok peer) :
    peer ∈ keyring.peers ∧ peer.keyId = keyId := by
  unfold SabclKeyring.peer at h
  split at h
  · cases h
  next found hfound =>
    split_ifs at h
    · cases h
    · cases h
    · cases h
      have hkey := List.find?_some hfound
      exact ⟨List.mem_of_find?_eq_some hfound, eq_of_beq hkey⟩

/-- What `openRequest` has established when it returns. -/
theorem openRequest_ok {recipient : SabclPrivateIdentity}
    {envelope : SabclEnvelope} {opened : OpenedRequest}
    (h : openRequest P recipient keyring envelope now = .ok opened) :
    ∃ sender ciphertext tag signature nonce padded,
      keyring.peer envelope.skid now = .ok sender ∧ envelope.rkid = recipient.keyId ∧
      toBase64Url ciphertext = envelope.ct ∧ toBase64Url tag = envelope.tag ∧
      toBase64Url signature = envelope.sig ∧ toBase64Url nonce = envelope.n ∧
      P.verify sender.signingPublicKey
        (requestSigned (canonicalRequestHeader envelope) ciphertext tag) signature = true ∧
      P.aesGcmOpen (requestKey P opened.responseSecret nonce (canonicalRequestHeader envelope))
        nonce ciphertext tag (canonicalRequestHeader envelope) = some padded ∧
      parsePadded P padded = .ok opened.payload ∧ opened.senderKeyId = envelope.skid ∧
      opened.messageId = envelope.mid ∧ opened.routeToken = envelope.rt := by
  unfold openRequest at h
  obtain ⟨_, _, h⟩ := bind_ok.mp h
  obtain ⟨_, _, h⟩ := bind_ok.mp h
  obtain ⟨_, _, h⟩ := bind_ok.mp h
  obtain ⟨_, _, h⟩ := bind_ok.mp h
  obtain ⟨_, hrkid, h⟩ := bind_ok.mp h
  obtain ⟨sender, hsender, h⟩ := bind_ok.mp h
  obtain ⟨ciphertext, hct, h⟩ := bind_ok.mp h
  obtain ⟨tag, htag, h⟩ := bind_ok.mp h
  obtain ⟨signature, hsig, h⟩ := bind_ok.mp h
  obtain ⟨_, hverify, h⟩ := bind_ok.mp h
  obtain ⟨ephemeral, -, h⟩ := bind_ok.mp h
  obtain ⟨secret, -, h⟩ := bind_ok.mp h
  obtain ⟨nonce, hnonce, h⟩ := bind_ok.mp h
  obtain ⟨padded, hopen, h⟩ := bind_ok.mp h
  obtain ⟨_, _, h⟩ := bind_ok.mp h
  obtain ⟨payload, hparse, h⟩ := bind_ok.mp h
  cases h
  have hverify := failIf_ok.mp hverify
  rw [Bool.not_eq_false] at hverify
  exact ⟨sender, ciphertext, tag, signature, nonce, padded, hsender, not_not.mp (failIf_ok.mp hrkid),
    fromBase64Url_ok hct, fromBase64Url_ok htag, fromBase64Url_ok hsig, fromBase64Url_ok hnonce,
    hverify, aeadOpen_ok hopen, hparse, rfl, rfl, rfl⟩

/-- What `openResponse` has established when it returns. -/
theorem openResponse_ok {responder : SabclPublicIdentity} {envelope : SabclResponseEnvelope} {body : Json}
    (h : openResponse P responder secret correlationId envelope = .ok body) :
    ∃ ciphertext tag signature nonce padded,
      envelope.cid = correlationId ∧ envelope.skid = responder.keyId ∧
      toBase64Url ciphertext = envelope.ct ∧ toBase64Url tag = envelope.tag ∧
      toBase64Url signature = envelope.sig ∧ toBase64Url nonce = envelope.n ∧
      P.verify responder.signingPublicKey
        (responseSigned (canonicalResponseHeader envelope) ciphertext tag) signature = true ∧
      P.aesGcmOpen (responseKey P secret nonce (canonicalResponseHeader envelope)) nonce
        ciphertext tag (canonicalResponseHeader envelope) = some padded ∧
      parsePadded P padded = .ok body := by
  unfold openResponse at h
  obtain ⟨_, _, h⟩ := bind_ok.mp h
  obtain ⟨_, hcid, h⟩ := bind_ok.mp h
  obtain ⟨_, hskid, h⟩ := bind_ok.mp h
  obtain ⟨ciphertext, hct, h⟩ := bind_ok.mp h
  obtain ⟨tag, htag, h⟩ := bind_ok.mp h
  obtain ⟨signature, hsig, h⟩ := bind_ok.mp h
  obtain ⟨_, hverify, h⟩ := bind_ok.mp h
  obtain ⟨nonce, hnonce, h⟩ := bind_ok.mp h
  obtain ⟨padded, hopen, h⟩ := bind_ok.mp h
  obtain ⟨_, _, h⟩ := bind_ok.mp h
  have hverify := failIf_ok.mp hverify
  rw [Bool.not_eq_false] at hverify
  exact ⟨ciphertext, tag, signature, nonce, padded, not_not.mp (failIf_ok.mp hcid),
    not_not.mp (failIf_ok.mp hskid), fromBase64Url_ok hct, fromBase64Url_ok htag,
    fromBase64Url_ok hsig, fromBase64Url_ok hnonce, hverify, aeadOpen_ok hopen, h⟩

/-! ## What a signature determines -/

/-- The lengths of what a signature covers fit into the length prefixes. -/
structure Coverable (aad ciphertext tag : Bytes) : Prop where
  aad : aad.length < 2 ^ 32
  ciphertext : ciphertext.length < 2 ^ 32
  tag : tag.length < 2 ^ 32

/-- Signed messages are equal only if their domains and all their parts are. -/
theorem signed_inj {domain domain' : String} {aad aad' ciphertext' tag' : Bytes}
    (hdomain : utf16Length domain ≤ 64) (hdomain' : utf16Length domain' ≤ 64)
    (hc : Coverable aad ciphertext tag) (hc' : Coverable aad' ciphertext' tag')
    (h : canonicalEncode [utf8 domain, aad, ciphertext, tag] =
      canonicalEncode [utf8 domain', aad', ciphertext', tag']) :
    domain = domain' ∧ aad = aad' ∧ ciphertext = ciphertext' ∧ tag = tag' := by
  have hshort : ∀ {domain : String} {aad ciphertext tag : Bytes}, utf16Length domain ≤ 64 →
      Coverable aad ciphertext tag →
      ∀ field ∈ [utf8 domain, aad, ciphertext, tag], field.length < 2 ^ 32 := by
    intro domain aad ciphertext tag hdomain hc
    have hutf8 := length_utf8_le domain
    simp only [List.forall_mem_cons, List.not_mem_nil, false_implies, implies_true, and_true]
    exact ⟨by omega, hc.aad, hc.ciphertext, hc.tag⟩
  have hfields := canonicalEncode_inj (hshort hdomain hc) (hshort hdomain' hc') h
  simp only [List.cons.injEq, and_true] at hfields
  obtain ⟨hsame, haad, hct, htag⟩ := hfields
  exact ⟨utf8_inj hsame, haad, hct, htag⟩

theorem coverable_of_base64Url {aad : Bytes} (haad : aad.length < 2 ^ 32)
    (hct : IsBase64Url SABCL_MAX_ENVELOPE_BYTES (toBase64Url ciphertext))
    (htag : IsBase64Url 32 (toBase64Url tag)) : Coverable aad ciphertext tag :=
  ⟨haad, (length_le_of_isBase64Url hct).trans_lt (by decide),
    (length_le_of_isBase64Url htag).trans_lt (by decide)⟩

theorem SabclEnvelope.Valid.coverable {e : SabclEnvelope} (he : e.Valid)
    (hct : toBase64Url ciphertext = e.ct) (htag : toBase64Url tag = e.tag) :
    Coverable (canonicalRequestHeader e) ciphertext tag :=
  coverable_of_base64Url he.length_header (hct ▸ he.ct) (htag ▸ he.tag)

theorem SabclResponseEnvelope.Valid.coverable {e : SabclResponseEnvelope} (he : e.Valid)
    (hct : toBase64Url ciphertext = e.ct) (htag : toBase64Url tag = e.tag) :
    Coverable (canonicalResponseHeader e) ciphertext tag :=
  coverable_of_base64Url he.length_header (hct ▸ he.ct) (htag ▸ he.tag)

/-- The bytes that a sealing wrote in base64url. -/
theorem Sealing.request_bytes {options : SealRequestOptions} {random : SealRandomness}
    {e : SabclEnvelope} (h : (Sealing.request options random e secret).Happened P) :
    e.Valid ∧ e.skid = options.sender.keyId ∧ e.rkid = options.recipient.keyId ∧
      e.n = toBase64Url random.nonce ∧ toBase64Url (bufferFromBase64Url e.ct) = e.ct ∧
      toBase64Url (bufferFromBase64Url e.tag) = e.tag ∧
      toBase64Url (bufferFromBase64Url e.sig) = e.sig := by
  obtain ⟨padded, bucket, -, -, -, rfl, hschema⟩ := sealRequest_ok h
  refine ⟨valid_of_sabclEnvelopeSchema hschema, rfl, rfl, rfl, ?_, ?_, ?_⟩
  iterate 3
    · simp only [sealedEnvelope, bufferFromBase64Url_toBase64Url]

theorem Sealing.response_bytes {responder : SabclPrivateIdentity} {payload : Json} {nonce : Bytes}
    {e : SabclResponseEnvelope}
    (h : (Sealing.response responder secret correlationId payload nonce e).Happened P) :
    e.Valid ∧ e.cid = correlationId ∧ e.skid = responder.keyId ∧ e.n = toBase64Url nonce ∧
      toBase64Url (bufferFromBase64Url e.ct) = e.ct ∧
      toBase64Url (bufferFromBase64Url e.tag) = e.tag ∧
      toBase64Url (bufferFromBase64Url e.sig) = e.sig := by
  obtain ⟨padded, bucket, -, rfl, hschema⟩ := sealResponse_ok h
  refine ⟨valid_of_sabclResponseEnvelopeSchema hschema, rfl, rfl, rfl, ?_, ?_, ?_⟩
  iterate 3
    · simp only [sealedResponse, bufferFromBase64Url_toBase64Url]

/-! ## Authenticity -/

/-- An accepted request is one that the holder of its sender key sealed for this
    recipient, in every field, and under the key that the recipient derived; its payload
    is what the text of the sealed payload parses to. -/
theorem request_authentic (hhistory : ∀ s ∈ history, s.Happened P)
    (hopens : OpensAsSealed P history) {recipient holder : SabclPrivateIdentity} {raw : Json}
    {envelope : SabclEnvelope}
    {opened : OpenedRequest} (hunforgeable : Unforgeable P signingPublicKey history
      holder.signingPrivateKey) (hholder : ∀ peer ∈ keyring.peers, peer.keyId = envelope.skid →
      PublicHalf P signingPublicKey holder peer) (hraw : sabclEnvelopeSchema raw = some envelope)
    (hopen : openRequest P recipient keyring envelope now = .ok opened) :
    ∃ options random secret, Sealing.request options random envelope secret ∈ history ∧
      options.sender.signingPrivateKey = holder.signingPrivateKey ∧
      options.sender.keyId = opened.senderKeyId ∧ options.recipient.keyId = recipient.keyId ∧
      requestKey P opened.responseSecret random.nonce (canonicalRequestHeader envelope) =
        requestKey P secret random.nonce (canonicalRequestHeader envelope) ∧
      P.parse (P.stringify options.payload) = some opened.payload := by
  obtain ⟨sender, ciphertext, tag, signature, nonce, padded, hsender, hrkid, hct, htag, hsig,
    hnonce, hverify, hdecrypt, hparse, hskid, -, -⟩ := openRequest_ok hopen
  obtain ⟨hmem, hkeyId⟩ := SabclKeyring.peer_ok hsender
  rw [(hholder sender hmem hkeyId).signingPublicKey] at hverify
  obtain ⟨s, hs, hsigner, hsigned, hsignature⟩ := hunforgeable _ _ hverify
  have hvalid := valid_of_sabclEnvelopeSchema hraw
  have hcover := hvalid.coverable hct htag
  cases s with
  | response responder secret correlationId payload nonce e =>
    -- the domain tags keep a response's signature from standing for a request's
    obtain ⟨he, -, -, -, hct', htag', -⟩ := Sealing.response_bytes (hhistory _ hs)
    have hdomain := (signed_inj (by decide) (by decide) (he.coverable hct' htag') hcover hsigned).1
    exact absurd hdomain (by decide)
  | request options random e secret =>
    obtain ⟨he, hskid', hrkid', hn, hct', htag', hsig'⟩ := Sealing.request_bytes (hhistory _ hs)
    obtain ⟨-, haad, hciphertext, htag''⟩ :=
      signed_inj (by decide) (by decide) (he.coverable hct' htag') hcover hsigned
    have hheader := canonicalRequestHeader_inj he hvalid haad
    have hsame : e = envelope := by
      have hbytes : e.ct = envelope.ct ∧ e.tag = envelope.tag ∧ e.sig = envelope.sig := by
        rw [← hct', ← htag', ← hsig', ← hct, ← htag, ← hsig]
        exact ⟨congrArg _ hciphertext, congrArg _ htag'', congrArg _ hsignature⟩
      cases e
      cases envelope
      simp only [SabclEnvelope.header, SabclEnvelope.mk.injEq] at hheader hbytes ⊢
      simp [hheader, hbytes]
    subst hsame
    have hsamenonce : random.nonce = nonce := toBase64Url_inj (hn.symm.trans hnonce.symm)
    have hbox : (Sealing.request options random e secret).box = (ciphertext, tag) :=
      Prod.ext hciphertext htag''
    obtain ⟨hkey, bucket, hpad⟩ := hopens _ hs _ _ _ _ (by rw [hbox]; exact hdecrypt)
    obtain ⟨text, htext, hvalue⟩ := parsePadded_of_ok hparse
    rw [(unpadPayload_padPayload hpad).2, Except.ok.injEq] at htext
    refine ⟨options, random, secret, hs, hsigner, hskid'.symm.trans hskid.symm,
      hrkid'.symm.trans hrkid, ?_, ?_⟩
    · rw [hsamenonce, hkey, ← hsamenonce]
      rfl
    · rw [← htext] at hvalue
      exact hvalue

/-- An accepted response is one that the expected responder sealed for the message id
    of the request, in every field, and under the key that the sender derived. -/
theorem response_authentic (hhistory : ∀ s ∈ history, s.Happened P)
    (hopens : OpensAsSealed P history) {responder : SabclPrivateIdentity}
    {peer : SabclPublicIdentity} {raw : Json} {envelope : SabclResponseEnvelope} {body : Json}
    (hunforgeable : Unforgeable P signingPublicKey history responder.signingPrivateKey)
    (hpeer : PublicHalf P signingPublicKey responder peer)
    (hraw : sabclResponseEnvelopeSchema raw = some envelope)
    (hopen : openResponse P peer secret correlationId envelope = .ok body) :
    ∃ sealer secret' payload nonce,
      Sealing.response sealer secret' correlationId payload nonce envelope ∈ history ∧
      sealer.signingPrivateKey = responder.signingPrivateKey ∧ sealer.keyId = responder.keyId ∧
      responseKey P secret nonce (canonicalResponseHeader envelope) =
        responseKey P secret' nonce (canonicalResponseHeader envelope) ∧
      P.parse (P.stringify payload) = some body := by
  obtain ⟨ciphertext, tag, signature, nonce, padded, hcid, hskid, hct, htag, hsig, hnonce, hverify,
    hdecrypt, hparse⟩ := openResponse_ok hopen
  rw [hpeer.signingPublicKey] at hverify
  obtain ⟨s, hs, hsigner, hsigned, hsignature⟩ := hunforgeable _ _ hverify
  have hvalid := valid_of_sabclResponseEnvelopeSchema hraw
  have hcover := hvalid.coverable hct htag
  cases s with
  | request options random e secret =>
    obtain ⟨he, -, -, -, hct', htag', -⟩ := Sealing.request_bytes (hhistory _ hs)
    have hdomain := (signed_inj (by decide) (by decide) (he.coverable hct' htag') hcover hsigned).1
    exact absurd hdomain (by decide)
  | response sealer secret' cid payload nonce' e =>
    obtain ⟨he, hcid', hskid', hn, hct', htag', hsig'⟩ := Sealing.response_bytes (hhistory _ hs)
    obtain ⟨-, haad, hciphertext, htag''⟩ :=
      signed_inj (by decide) (by decide) (he.coverable hct' htag') hcover hsigned
    have hheader := canonicalResponseHeader_inj he hvalid haad
    have hsame : e = envelope := by
      have hbytes : e.ct = envelope.ct ∧ e.tag = envelope.tag ∧ e.sig = envelope.sig := by
        rw [← hct', ← htag', ← hsig', ← hct, ← htag, ← hsig]
        exact ⟨congrArg _ hciphertext, congrArg _ htag'', congrArg _ hsignature⟩
      cases e
      cases envelope
      simp only [SabclResponseEnvelope.header, SabclResponseEnvelope.mk.injEq] at hheader hbytes ⊢
      simp [hheader, hbytes]
    subst hsame
    have hsamenonce : nonce' = nonce := toBase64Url_inj (hn.symm.trans hnonce.symm)
    have hbox : (Sealing.response sealer secret' cid payload nonce' e).box = (ciphertext, tag) :=
      Prod.ext hciphertext htag''
    obtain ⟨hkey, bucket, hpad⟩ := hopens _ hs _ _ _ _ (by rw [hbox]; exact hdecrypt)
    obtain ⟨text, htext, hvalue⟩ := parsePadded_of_ok hparse
    rw [(unpadPayload_padPayload hpad).2, Except.ok.injEq] at htext
    have hcorrelation : cid = correlationId := hcid'.symm.trans hcid
    subst hcorrelation
    refine ⟨sealer, secret', payload, nonce', hs, hsigner,
      hskid'.symm.trans (hskid.trans hpeer.keyId), ?_, ?_⟩
    · rw [hsamenonce, hkey, ← hsamenonce]
      rfl
    · rw [← htext] at hvalue
      exact hvalue

/-- Over every set of sealings, and for every JSON value that an adversary presents as an
    envelope: what `openRequest` accepts was sealed, field for field, by the holder of the sender
    key for this recipient, and what `openResponse` accepts was sealed by the expected responder
    for the message id of the request. -/
theorem sabcl_authentic (P : Primitives) (signingPublicKey : Bytes → Bytes)
    (history : Set Sealing) (hhistory : ∀ s ∈ history, s.Happened P)
    (hopens : OpensAsSealed P history) :
    (∀ (recipient holder : SabclPrivateIdentity) (keyring : SabclKeyring) (now : ℕ) (raw : Json)
        (envelope : SabclEnvelope) (opened : OpenedRequest),
      Unforgeable P signingPublicKey history holder.signingPrivateKey →
      (∀ peer ∈ keyring.peers, peer.keyId = envelope.skid →
        PublicHalf P signingPublicKey holder peer) →
      sabclEnvelopeSchema raw = some envelope →
      openRequest P recipient keyring envelope now = .ok opened →
      ∃ options random secret, Sealing.request options random envelope secret ∈ history ∧
        options.sender.signingPrivateKey = holder.signingPrivateKey ∧
        options.sender.keyId = opened.senderKeyId ∧ options.recipient.keyId = recipient.keyId ∧
        requestKey P opened.responseSecret random.nonce (canonicalRequestHeader envelope) =
          requestKey P secret random.nonce (canonicalRequestHeader envelope) ∧
        P.parse (P.stringify options.payload) = some opened.payload) ∧
    ∀ (responder : SabclPrivateIdentity) (peer : SabclPublicIdentity) (secret : Bytes)
        (correlationId : String) (raw : Json) (envelope : SabclResponseEnvelope) (body : Json),
      Unforgeable P signingPublicKey history responder.signingPrivateKey →
      PublicHalf P signingPublicKey responder peer →
      sabclResponseEnvelopeSchema raw = some envelope →
      openResponse P peer secret correlationId envelope = .ok body →
      ∃ sealer secret' payload nonce,
        Sealing.response sealer secret' correlationId payload nonce envelope ∈ history ∧
        sealer.signingPrivateKey = responder.signingPrivateKey ∧
        sealer.keyId = responder.keyId ∧
        responseKey P secret nonce (canonicalResponseHeader envelope) =
          responseKey P secret' nonce (canonicalResponseHeader envelope) ∧
        P.parse (P.stringify payload) = some body := by
  constructor
  · intro recipient holder keyring now raw envelope opened hunforgeable hholder hraw hopen
    exact request_authentic hhistory hopens hunforgeable hholder hraw hopen
  · intro responder peer secret correlationId raw envelope body hunforgeable hpeer hraw hopen
    exact response_authentic hhistory hopens hunforgeable hpeer hraw hopen

/-! ### A query and its answer -/

/-- Primitives that verify only the signatures of some sealings and open only their ciphertexts. -/
def recorded (base : Primitives) (sealings : List Sealing) : Primitives :=
  { base with
    verify := fun key message signature =>
      sealings.any fun s => s.signer == key && s.signed == message && s.signature == signature
    aesGcmOpen := fun key _ ciphertext tag _ =>
      (sealings.find? fun s => s.messageKey base == key && s.box == (ciphertext, tag)).bind fun s =>
        (padPayload (base.stringify s.payload)).toOption.map Prod.fst }

theorem unforgeable_recorded (base : Primitives) (sealings : List Sealing) (key : Bytes) :
    Unforgeable (recorded base sealings) id {s | s ∈ sealings} key := by
  intro message signature h
  obtain ⟨s, hs, h⟩ := List.any_eq_true.mp h
  simp only [Bool.and_eq_true, beq_iff_eq] at h
  exact ⟨s, hs, h.1.1, h.1.2, h.2⟩

theorem opensAsSealed_recorded (base : Primitives) {sealings : List Sealing}
    (hboxes : ∀ s ∈ sealings, ∀ s' ∈ sealings, s.box = s'.box → s = s') :
    OpensAsSealed (recorded base sealings) {s | s ∈ sealings} := by
  intro s hs key nonce aad padded hopen
  obtain ⟨s', hfind, htext⟩ := Option.bind_eq_some_iff.mp hopen
  have hsame := List.find?_some hfind
  simp only [Bool.and_eq_true, beq_iff_eq] at hsame
  have heq : s' = s := hboxes s' (List.mem_of_find?_eq_some hfind) s hs hsame.2
  subst heq
  refine ⟨hsame.1.symm, ?_⟩
  cases hpad : padPayload (base.stringify s'.payload) with
  | error e =>
    rw [hpad] at htext
    cases htext
  | ok out =>
    rw [hpad] at htext
    cases htext
    exact ⟨out.2, hpad⟩

theorem verify_recorded (base : Primitives) {sealings : List Sealing} {s : Sealing}
    (hs : s ∈ sealings) :
    (recorded base sealings).verify s.signer s.signed s.signature = true :=
  List.any_eq_true.mpr ⟨s, hs, by simp⟩

theorem open_recorded (base : Primitives) {sealings : List Sealing}
    (hboxes : ∀ s ∈ sealings, ∀ s' ∈ sealings, s.box = s'.box → s = s') {s : Sealing}
    (hs : s ∈ sealings) {bucket : ℕ}
    (hpad : padPayload (base.stringify s.payload) = .ok (padded, bucket)) (nonce aad : Bytes) :
    (recorded base sealings).aesGcmOpen (s.messageKey base) nonce s.box.1 s.box.2 aad =
      some padded := by
  have hfind : sealings.find?
      (fun s' => s'.messageKey base == s.messageKey base && s'.box == (s.box.1, s.box.2)) =
        some s := by
    cases hfound : sealings.find?
        (fun s' => s'.messageKey base == s.messageKey base && s'.box == (s.box.1, s.box.2)) with
    | none =>
      have hnone := List.find?_eq_none.mp hfound s hs
      simp at hnone
    | some s' =>
      have hsame := List.find?_some hfound
      simp only [Bool.and_eq_true, beq_iff_eq] at hsame
      rw [hboxes s' (List.mem_of_find?_eq_some hfound) s hs hsame.2]
  refine Option.bind_eq_some_iff.mpr ⟨s, hfind, ?_⟩
  rw [hpad]
  rfl

section
variable {base : Primitives} {sealings : List Sealing}

/-- A recorded request opens. -/
theorem openRequest_recorded (hP : base.Sized)
    (hboxes : ∀ s ∈ sealings, ∀ s' ∈ sealings, s.box = s'.box → s = s')
    {options : SealRequestOptions} {random : SealRandomness} {envelope : SabclEnvelope}
    {secret : Bytes} (hmem : Sealing.request options random envelope secret ∈ sealings)
    (hseal : sealRequest base options random = .ok (envelope, secret)) (hrandom : random.Sized)
    {recipient : SabclPrivateIdentity} {keyring : SabclKeyring} {peer : SabclPublicIdentity}
    {now : ℕ} (hpayload : IsJson base options.payload)
    (hpeer : keyring.peer options.sender.keyId now = .ok peer)
    (hsigning : peer.signingPublicKey = options.sender.signingPrivateKey)
    (hfrom : options.now ≤ now + SABCL_CLOCK_SKEW_SECONDS) (hto : now ≤ envelope.exp)
    (hrecipient : options.recipient.keyId = recipient.keyId)
    (haccepts : base.acceptsKey (base.publicKey random.ephemeralPrivateKey) = true)
    (hsecret : base.diffieHellman recipient.encryptionPrivateKey
      (base.publicKey random.ephemeralPrivateKey) = some secret) :
    ∃ opened, openRequest (recorded base sealings) recipient keyring envelope now = .ok opened ∧
      opened.responseSecret = secret := by
  have hsized : (recorded base sealings).Sized :=
    ⟨hP.length_publicKey, hP.length_hkdf, hP.length_aesGcmSeal, hP.length_sign⟩
  obtain ⟨padded, bucket, hpad, httl, -, rfl, -⟩ := sealRequest_ok hseal
  have hverify := verify_recorded base hmem
  have hdecrypt := open_recorded base hboxes hmem hpad random.nonce
    (canonicalRequestHeader (requestHeader base options random bucket))
  simp only [Sealing.signer, Sealing.signed, Sealing.signature, Sealing.box, Sealing.messageKey,
    canonicalRequestHeader_sealedEnvelope] at hverify hdecrypt
  simp only [sealedEnvelope, bufferFromBase64Url_toBase64Url] at hverify hdecrypt
  exact ⟨_, openRequest_sealedEnvelope hsized hrandom hpayload hpad httl hrecipient hpeer hfrom hto
    rfl rfl haccepts hsecret (fun message hmessage => by rw [hmessage, hsigning]; exact hverify)
    hdecrypt, rfl⟩

/-- A recorded response opens. -/
theorem openResponse_recorded (hP : base.Sized)
    (hboxes : ∀ s ∈ sealings, ∀ s' ∈ sealings, s.box = s'.box → s = s')
    {responder : SabclPrivateIdentity} {secret : Bytes} {correlationId : String} {payload : Json}
    {nonce : Bytes} {envelope : SabclResponseEnvelope}
    (hmem : Sealing.response responder secret correlationId payload nonce envelope ∈ sealings)
    (hseal : sealResponse base responder secret correlationId payload nonce = .ok envelope)
    {peer : SabclPublicIdentity} (hnonce : nonce.length = SABCL_NONCE_BYTES)
    (hpayload : IsJson base payload) (hpeer : peer.keyId = responder.keyId)
    (hsigning : peer.signingPublicKey = responder.signingPrivateKey) :
    openResponse (recorded base sealings) peer secret correlationId envelope = .ok payload := by
  have hsized : (recorded base sealings).Sized :=
    ⟨hP.length_publicKey, hP.length_hkdf, hP.length_aesGcmSeal, hP.length_sign⟩
  obtain ⟨padded, bucket, hpad, rfl, -⟩ := sealResponse_ok hseal
  have hverify := verify_recorded base hmem
  have hdecrypt := open_recorded base hboxes hmem hpad nonce
    (canonicalResponseHeader (responseHeader responder correlationId nonce bucket))
  simp only [Sealing.signer, Sealing.signed, Sealing.signature, Sealing.box, Sealing.messageKey,
    canonicalResponseHeader_sealedResponse] at hverify hdecrypt
  simp only [sealedResponse, bufferFromBase64Url_toBase64Url] at hverify hdecrypt
  exact openResponse_sealedResponse hsized hnonce hpayload hpad hpeer rfl rfl
    (fun message hmessage => by rw [hmessage, hsigning]; exact hverify) hdecrypt

end

/-- Primitives whose JSON values are the texts of the exchange below. -/
def exchangePrimitives : Primitives :=
  { transparentPrimitives .null "null" with
    hkdf := fun secret salt _ =>
      (salt ++ secret ++ List.replicate SABCL_KEY_BYTES 0).take SABCL_KEY_BYTES
    stringify := fun value =>
      match value with
      | .string s => utf8 ("\"" ++ s ++ "\"")
      | _ => utf8 "null"
    parse := fun text =>
      if text = utf8 "\"balance\"" then some (.string "balance")
      else if text = utf8 "\"4200\"" then some (.string "4200") else none }

theorem sized_exchangePrimitives : exchangePrimitives.Sized where
  length_publicKey k hk := hk
  length_hkdf secret salt info := by
    simp [exchangePrimitives]
    omega
  length_aesGcmSeal key nonce plaintext aad := by simp [exchangePrimitives, transparentPrimitives]
  length_sign key message := by
    simp [exchangePrimitives, transparentPrimitives]
    omega

theorem isJson_balance : IsJson exchangePrimitives (.string "balance") := rfl

theorem isJson_answer : IsJson exchangePrimitives (.string "4200") := rfl

/-- The nonce of the answer. -/
def answerNonce : Bytes := List.replicate SABCL_NONCE_BYTES 8

/-- The Gateway's query and the Ledger's answer to it. -/
def exchange (secret : Bytes) (envelope : SabclEnvelope) (response : SabclResponseEnvelope) :
    List Sealing :=
  [.request balanceOptions balanceRandomness envelope secret,
    .response ledger secret envelope.mid (.string "4200") answerNonce response]

theorem exchange_authentic :
    ∃ secret envelope response opened,
      openRequest (recorded exchangePrimitives (exchange secret envelope response)) ledger
          ledgerPeers envelope 1030 = .ok opened ∧
      openResponse (recorded exchangePrimitives (exchange secret envelope response))
          (transparentPeer ledger) opened.responseSecret envelope.mid response =
        .ok (.string "4200") ∧
      (∃ options random secret', Sealing.request options random envelope secret' ∈
          exchange secret envelope response ∧
        options.sender.signingPrivateKey = gateway.signingPrivateKey ∧
        options.recipient.keyId = ledger.keyId) ∧
      ∃ sealer secret' payload nonce, Sealing.response sealer secret' envelope.mid payload nonce
          response ∈ exchange secret envelope response ∧
        sealer.signingPrivateKey = ledger.signingPrivateKey := by
  have hP := sized_exchangePrimitives
  have hrandom : balanceRandomness.Sized := ⟨by decide, by decide, by decide⟩
  obtain ⟨envelope, hseal⟩ := @sealRequest_of_length _ hP balanceOptions balanceRandomness
    (List.zipWith (· ^^^ ·) (List.replicate SABCL_KEY_BYTES 5) (List.replicate SABCL_KEY_BYTES 3))
    hrandom ⟨by decide, by decide, by decide⟩ ⟨by decide, by decide, by decide⟩
    ⟨by decide, by decide, by decide⟩ (by decide) (by decide) (by decide) (by decide) rfl rfl
    (by decide) rfl (by decide)
  generalize List.zipWith (· ^^^ ·) (List.replicate SABCL_KEY_BYTES (5 : UInt8))
    (List.replicate SABCL_KEY_BYTES 3) = secret at hseal
  obtain ⟨padded, bucket, hpad, httl, hsecret, henvelope, hschema⟩ := sealRequest_ok hseal
  obtain ⟨response, hanswer⟩ := @sealResponse_of_length _ ledger envelope.mid (.string "4200") hP
    answerNonce secret ⟨⟨by decide, by decide, by decide⟩, by decide, by decide⟩
    (valid_of_sabclEnvelopeSchema hschema).mid (by decide) (by decide)
  obtain ⟨padded', bucket', hpad', hresponse, hschema'⟩ := sealResponse_ok hanswer
  have hrequest : Sealing.request balanceOptions balanceRandomness envelope secret ∈
      exchange secret envelope response := List.mem_cons_self
  have hreply : Sealing.response ledger secret envelope.mid (.string "4200") answerNonce response ∈
      exchange secret envelope response := List.mem_cons_of_mem _ List.mem_cons_self
  have hhistory : ∀ s ∈ {s | s ∈ exchange secret envelope response},
      s.Happened (recorded exchangePrimitives (exchange secret envelope response)) := by
    intro s hs
    rcases List.mem_cons.mp hs with rfl | hs
    · exact hseal
    · rw [List.mem_singleton.mp hs]
      exact hanswer
  have hbox : bufferFromBase64Url envelope.ct = padded := by
    rw [henvelope]
    exact bufferFromBase64Url_toBase64Url _
  have hbox' : bufferFromBase64Url response.ct = padded' := by
    rw [hresponse]
    exact bufferFromBase64Url_toBase64Url _
  have hne : padded ≠ padded' := by
    rintro rfl
    have htext := (unpadPayload_padPayload hpad).2
    rw [(unpadPayload_padPayload hpad').2, Except.ok.injEq] at htext
    exact absurd htext (by decide)
  have hboxes : ∀ s ∈ exchange secret envelope response,
      ∀ s' ∈ exchange secret envelope response, s.box = s'.box → s = s' := by
    intro s hs s' hs' hsame
    have hct := congrArg Prod.fst hsame
    rcases List.mem_cons.mp hs with rfl | hs
    · rcases List.mem_cons.mp hs' with rfl | hs'
      · rfl
      · rw [List.mem_singleton.mp hs'] at hct
        exact absurd (hbox.symm.trans (hct.trans hbox')) hne
    · rw [List.mem_singleton.mp hs] at hct ⊢
      rcases List.mem_cons.mp hs' with rfl | hs'
      · exact absurd (hbox.symm.trans (hct.symm.trans hbox')) hne
      · exact (List.mem_singleton.mp hs').symm
  have hopens := opensAsSealed_recorded exchangePrimitives hboxes
  have hunforgeable := unforgeable_recorded exchangePrimitives (exchange secret envelope response)
  have hhalf : ∀ identity : SabclPrivateIdentity, PublicHalf
      (recorded exchangePrimitives (exchange secret envelope response)) id identity
      (transparentPeer identity) := fun identity => ⟨rfl, rfl, rfl, rfl⟩
  obtain ⟨opened, hopened, hsecret'⟩ := @openRequest_recorded _ _ hP hboxes _ _ _ _ hrequest hseal
    hrandom ledger ledgerPeers (transparentPeer gateway) 1030 isJson_balance rfl (by decide)
    (by decide) (by rw [henvelope]; exact Nat.le_refl _) rfl rfl hsecret
  have hread := @openResponse_recorded _ _ hP hboxes _ _ _ _ _ _ hreply hanswer
    (transparentPeer ledger) (by decide) isJson_answer rfl rfl
  obtain ⟨hauthentic, hauthentic'⟩ := sabcl_authentic _ id _ hhistory hopens
  obtain ⟨options, random, secret', hmem, hsigner, -, hrecipient, -⟩ :=
    hauthentic ledger gateway ledgerPeers 1030 envelope.toJson envelope opened
      (hunforgeable _) (fun peer hpeer _ => by rw [List.mem_singleton.mp hpeer]; exact hhalf gateway)
      hschema hopened
  obtain ⟨sealer, secret'', payload, nonce, hmem', hsigner', -⟩ :=
    hauthentic' ledger (transparentPeer ledger) secret envelope.mid response.toJson response
      (.string "4200") (hunforgeable _) (hhalf ledger) hschema' hread
  exact ⟨secret, envelope, response, opened, hopened, by rw [hsecret']; exact hread,
    ⟨options, random, secret', hmem, hsigner, hrecipient⟩,
    sealer, secret'', payload, nonce, hmem', hsigner'⟩

end AegisShield.Sabcl
