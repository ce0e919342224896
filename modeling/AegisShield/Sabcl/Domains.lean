import AegisShield.Sabcl.Encoding

/-!
# Unambiguous encodings and separate domains

What the protocol signs, and what it derives keys with, are canonical encodings of a domain label
(`version.ts`, lines 18-25) and the bound header (`seal.ts`).

Results:
* `bytes_purpose`: inputs of different purposes never coincide.
* `sealRequest_inputs`, `openRequest_inputs`, `sealResponse_inputs`, `openResponse_inputs`: these
  are all the inputs on which the protocol uses its signature and its key derivation.
* `canonical_encodings_unambiguous`: fields, headers and purposes can be read off the encodings.
-/

namespace AegisShield.Sabcl

open Common

/-! ## Inputs -/

/-- What an input is for. -/
inductive Purpose where
  | requestKey
  | responseKey
  | requestSignature
  | responseSignature
  deriving DecidableEq

def Purpose.label : Purpose → String
  | .requestKey => SABCL_DOMAIN.requestKey
  | .responseKey => SABCL_DOMAIN.responseKey
  | .requestSignature => SABCL_DOMAIN.requestSignature
  | .responseSignature => SABCL_DOMAIN.responseSignature

theorem Purpose.label_inj {p q : Purpose} (h : p.label = q.label) : p = q := by
  cases p <;> cases q <;> first | rfl | exact absurd h (by decide)

theorem Purpose.length_label (p : Purpose) : (utf8 p.label).length < 2 ^ 32 := by
  cases p <;> decide

/-- An input of a key derivation or of a signature, with the envelope whose header it binds. -/
inductive ProtocolInput where
  | requestKey (envelope : SabclEnvelope)
  | responseKey (envelope : SabclResponseEnvelope)
  | requestSignature (envelope : SabclEnvelope) (ciphertext tag : Bytes)
  | responseSignature (envelope : SabclResponseEnvelope) (ciphertext tag : Bytes)

def ProtocolInput.purpose : ProtocolInput → Purpose
  | .requestKey _ => .requestKey
  | .responseKey _ => .responseKey
  | .requestSignature .. => .requestSignature
  | .responseSignature .. => .responseSignature

/-- What follows the label (`seal.ts`, lines 149, 155, 240, 256, 314, 319, 367 and 378). -/
def ProtocolInput.fields : ProtocolInput → List Bytes
  | .requestKey envelope => [canonicalRequestHeader envelope]
  | .responseKey envelope => [canonicalResponseHeader envelope]
  | .requestSignature envelope ciphertext tag => [canonicalRequestHeader envelope, ciphertext, tag]
  | .responseSignature envelope ciphertext tag =>
    [canonicalResponseHeader envelope, ciphertext, tag]

def ProtocolInput.bytes (input : ProtocolInput) : Bytes :=
  canonicalEncode (utf8 input.purpose.label :: input.fields)

/-- The label stands first, so it is told from what follows, however long that is. -/
theorem bytes_purpose {i j : ProtocolInput} (h : i.bytes = j.bytes) : i.purpose = j.purpose := by
  unfold ProtocolInput.bytes canonicalEncode at h
  rw [List.flatMap_cons, List.flatMap_cons] at h
  obtain ⟨hlabel, -⟩ := field_append_inj i.purpose.length_label j.purpose.length_label h
  exact Purpose.label_inj (utf8_inj hlabel)

/-! ## What the protocol uses them for -/

section Inputs

variable (P : Primitives)

variable {hkdf : Bytes → Bytes → Bytes → Bytes}

variable {sign : Bytes → Bytes → Bytes} {verify : Bytes → Bytes → Bytes → Bool}

/-- `sealRequest` signs request signatures and derives request keys, and nothing else. -/
theorem sealRequest_inputs (hsign : ∀ key e ciphertext tag,
      sign key (ProtocolInput.requestSignature e ciphertext tag).bytes =
        P.sign key (ProtocolInput.requestSignature e ciphertext tag).bytes)
    (hhkdf : ∀ secret salt e, hkdf secret salt (ProtocolInput.requestKey e).bytes =
      P.hkdf secret salt (ProtocolInput.requestKey e).bytes)
    (options : SealRequestOptions) (random : SealRandomness) :
    sealRequest { P with sign := sign, hkdf := hkdf } options random =
      sealRequest P options random := by
  simp only [ProtocolInput.bytes, ProtocolInput.fields, ProtocolInput.purpose, Purpose.label]
    at hsign hhkdf
  simp only [sealRequest, deriveSharedSecret, hsign, hhkdf]

/-- `openRequest` verifies request signatures and derives request keys. -/
theorem openRequest_inputs (hverify : ∀ key e ciphertext tag signature,
      verify key (ProtocolInput.requestSignature e ciphertext tag).bytes signature =
        P.verify key (ProtocolInput.requestSignature e ciphertext tag).bytes signature)
    (hhkdf : ∀ secret salt e, hkdf secret salt (ProtocolInput.requestKey e).bytes =
      P.hkdf secret salt (ProtocolInput.requestKey e).bytes)
    (recipient : SabclPrivateIdentity) (keyring : SabclKeyring) (envelope : SabclEnvelope)
    (now : ℕ) :
    openRequest { P with verify := verify, hkdf := hkdf } recipient keyring envelope now =
      openRequest P recipient keyring envelope now := by
  simp only [ProtocolInput.bytes, ProtocolInput.fields, ProtocolInput.purpose, Purpose.label]
    at hverify hhkdf
  simp only [openRequest, importKey, deriveSharedSecret, aeadOpen, parsePadded, hverify, hhkdf]

/-- `sealResponse` signs response signatures and derives response keys. -/
theorem sealResponse_inputs (hsign : ∀ key e ciphertext tag,
      sign key (ProtocolInput.responseSignature e ciphertext tag).bytes =
        P.sign key (ProtocolInput.responseSignature e ciphertext tag).bytes)
    (hhkdf : ∀ secret salt e, hkdf secret salt (ProtocolInput.responseKey e).bytes =
      P.hkdf secret salt (ProtocolInput.responseKey e).bytes)
    (responder : SabclPrivateIdentity) (responseSecret : Bytes) (correlationId : String)
    (payload : Json) (nonce : Bytes) :
    sealResponse { P with sign := sign, hkdf := hkdf } responder responseSecret correlationId
        payload nonce =
      sealResponse P responder responseSecret correlationId payload nonce := by
  simp only [ProtocolInput.bytes, ProtocolInput.fields, ProtocolInput.purpose, Purpose.label]
    at hsign hhkdf
  simp only [sealResponse, hsign, hhkdf]

/-- `openResponse` verifies response signatures and derives response keys. -/
theorem openResponse_inputs (hverify : ∀ key e ciphertext tag signature,
      verify key (ProtocolInput.responseSignature e ciphertext tag).bytes signature =
        P.verify key (ProtocolInput.responseSignature e ciphertext tag).bytes signature)
    (hhkdf : ∀ secret salt e, hkdf secret salt (ProtocolInput.responseKey e).bytes =
      P.hkdf secret salt (ProtocolInput.responseKey e).bytes)
    (responder : SabclPublicIdentity) (responseSecret : Bytes) (expectedCorrelationId : String)
    (envelope : SabclResponseEnvelope) :
    openResponse { P with verify := verify, hkdf := hkdf } responder responseSecret
        expectedCorrelationId envelope =
      openResponse P responder responseSecret expectedCorrelationId envelope := by
  simp only [ProtocolInput.bytes, ProtocolInput.fields, ProtocolInput.purpose, Purpose.label]
    at hverify hhkdf
  simp only [openResponse, aeadOpen, parsePadded, hverify, hhkdf]

end Inputs

/-! ## The encodings -/

/-- The canonical encoding determines the fields, the canonical header of an envelope that the
    schema accepts determines every field that it covers, and an input of a signature or of a key
    derivation determines what it is for. -/
theorem canonical_encodings_unambiguous :
    (∀ fields fields' : List Bytes, (∀ field ∈ fields, field.length < 2 ^ 32) →
      (∀ field ∈ fields', field.length < 2 ^ 32) →
      canonicalEncode fields = canonicalEncode fields' → fields = fields') ∧
    (∀ (raw raw' : Json) (envelope envelope' : SabclEnvelope),
      sabclEnvelopeSchema raw = some envelope → sabclEnvelopeSchema raw' = some envelope' →
      canonicalRequestHeader envelope = canonicalRequestHeader envelope' →
      envelope.header = envelope'.header) ∧
    ∀ i j : ProtocolInput, i.purpose ≠ j.purpose → i.bytes ≠ j.bytes := by
  refine ⟨?_, ?_, ?_⟩
  · intro fields fields' hfields hfields' h
    exact canonicalEncode_inj hfields hfields' h
  · intro raw raw' envelope envelope' hraw hraw' h
    exact canonicalRequestHeader_inj (valid_of_sabclEnvelopeSchema hraw)
      (valid_of_sabclEnvelopeSchema hraw') h
  · intro i j hne h
    exact hne (bytes_purpose h)

/-- Characters do not move from one field to the next (`canonical.ts`, line 8). -/
theorem canonical_encodings_unambiguous_splice :
    canonicalEncode [utf8 "a", utf8 "bc"] ≠ canonicalEncode [utf8 "ab", utf8 "c"] := by
  intro h
  have hfields := canonical_encodings_unambiguous.1 _ _ (by decide) (by decide) h
  exact absurd hfields (by decide)

end AegisShield.Sabcl
