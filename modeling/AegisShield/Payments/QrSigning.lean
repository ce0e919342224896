import AegisShield.Common.MarkedFields
import AegisShield.Common.NumberText
import AegisShield.Common.PrefixCode
import AegisShield.Payments.Qr

/-!
# What the signature of a QR payload covers

`canonicalPayloadString`, `signQrPayload` and `verifyQrSignature` (`qr-crypto.ts`). The signed
text joins the values of the fields as they are. A lone surrogate, which a JSON escape can put
into a field and the HMAC reads as U+FFFD, is outside the model.

Results:
* `qr_signing_iff`: a signature covers one payload exactly when the signed text can be read in
  one way.
* `two_payloads_one_text`: two payloads with one signature.
-/

namespace AegisShield.Payments

open Common MarkedFields

/-! ## The signed text -/

/-- The fields behind the currency up to `recipientRef`, without the purpose, each with its mark. -/
def laterFields (data : QrPayloadData) : List (List Char × List Char) :=
  [("&expiresAt=".toList, data.expiresAt.toList), ("&keyId=".toList, data.keyId.toList),
    ("&nonce=".toList, data.nonce.toList), ("&recipientRef=".toList, data.recipientRef.toList)]

/-- The value of the first field, and the fields behind it. -/
def signedFields (data : QrPayloadData) : List Char × List (List Char × List Char) :=
  match data.amountMinor with
  | some amount => (amount.toList, ("&currency=".toList, data.currency.toList) :: laterFields data)
  | none => (data.currency.toList, laterFields data)

/-- The name of the first field. -/
def firstName (data : QrPayloadData) : List Char :=
  if data.amountMinor.isSome then "amountMinor=".toList else "currency=".toList

/-- The signed text is read in one way: there is no purpose, the nonce does not write one, and
    no value contains the mark of its own field or of the next one. -/
def Unambiguous (data : QrPayloadData) : Prop :=
  data.purpose = none ∧ ¬ "&purpose=".toList <:+: data.nonce.toList ∧
    Separated (signedFields data).1 (signedFields data).2

variable (runtime : QrRuntime)

theorem toList_canonical {data : QrPayloadData} (h : data.purpose = none) :
    (canonicalPayloadString runtime data).toList = firstName data ++
      (written (signedFields data).1 (signedFields data).2 ++
        '&' :: ("type=" ++ data.type.text).toList) ++
      '&' :: ("version=" ++ runtime.numberText data.version).toList := by
  unfold canonicalPayloadString firstName signedFields laterFields
  cases hamount : data.amountMinor with
  | none | some => simp [h, written]

/-- The payload with its purpose written into the nonce. -/
def merged (data : QrPayloadData) : QrPayloadData :=
  match data.purpose with
  | none => data
  | some purpose => { data with nonce := data.nonce ++ "&purpose=" ++ purpose, purpose := none }

/-- The purpose may be part of the nonce as well. -/
theorem canonical_merged (data : QrPayloadData) :
    canonicalPayloadString runtime (merged data) = canonicalPayloadString runtime data := by
  unfold merged
  cases hpurpose : data.purpose with
  | none => rfl
  | some purpose =>
    rw [← String.toList_inj]
    unfold canonicalPayloadString
    cases hamount : data.amountMinor with
    | none | some => simp [hpurpose]

theorem merged_purpose (data : QrPayloadData) : (merged data).purpose = none := by
  unfold merged
  cases hpurpose : data.purpose with
  | none => exact hpurpose
  | some purpose => rfl

theorem isMark_signedFields (data : QrPayloadData) :
    ∀ f ∈ (signedFields data).2, IsMark f.1 := by
  have hmark : ∀ name : String, '&' ∉ name.toList → '=' ∉ name.toList →
      IsMark ('&' :: (name.toList ++ ['='])) := fun name hand heq => ⟨name.toList, rfl, hand, heq⟩
  have hfields : ∀ f ∈ laterFields data, IsMark f.1 := by
    unfold laterFields
    simp only [List.forall_mem_cons, List.not_mem_nil, false_imp_iff, implies_true, and_true]
    exact ⟨hmark "expiresAt" (by decide) (by decide), hmark "keyId" (by decide) (by decide),
      hmark "nonce" (by decide) (by decide), hmark "recipientRef" (by decide) (by decide)⟩
  unfold signedFields
  cases data.amountMinor with
  | none => exact hfields
  | some amount =>
    exact List.forall_mem_cons.mpr ⟨hmark "currency" (by decide) (by decide), hfields⟩

/-! ## Readings of the signed text -/

theorem type_text_inj {s t : QrType} (h : s.text = t.text) : s = t := by
  cases s
  · cases t
    · rfl
    · exact absurd h (by decide)
  · cases t
    · exact absurd h (by decide)
    · rfl

theorem type_plain (t : QrType) : '&' ∉ ("type=" ++ t.text).toList := by
  cases t
  · decide
  · decide

section Readings

variable {runtime} {p q : QrPayloadData}

theorem readings_of_canonical (hnumbers : PrintsNumbers runtime.numberText) (hp : p.purpose = none)
    (hq : q.purpose = none)
    (h : canonicalPayloadString runtime q = canonicalPayloadString runtime p) :
    q.version = p.version ∧ q.type = p.type ∧
      q.amountMinor.isSome = p.amountMinor.isSome ∧
      written (signedFields q).1 (signedFields q).2 =
        written (signedFields p).1 (signedFields p).2 := by
  have hversion : ∀ data : QrPayloadData,
      '&' ∉ ("version=" ++ runtime.numberText data.version).toList := by
    intro data hmem
    rw [String.toList_append, List.mem_append] at hmem
    rcases hmem with hmem | hmem
    · exact absurd hmem (by decide)
    · exact absurd (hnumbers.chars _ _ hmem) (by decide)
  rw [← String.toList_inj, toList_canonical runtime hq, toList_canonical runtime hp] at h
  obtain ⟨hfront, hlast⟩ := last_field (hversion q) (hversion p) h
  rw [← List.append_assoc, ← List.append_assoc] at hfront
  obtain ⟨hfields, htype⟩ := last_field (type_plain q.type) (type_plain p.type) hfront
  rw [String.toList_append, String.toList_append] at hlast htype
  refine ⟨hnumbers.inj _ _ (String.toList_inj.mp (List.append_cancel_left hlast)),
    type_text_inj (String.toList_inj.mp (List.append_cancel_left htype)), ?_⟩
  unfold firstName at hfields
  cases hqa : q.amountMinor.isSome with
  | false =>
    cases hpa : p.amountMinor.isSome with
    | false =>
      rw [hqa, hpa] at hfields
      exact ⟨rfl, List.append_cancel_left hfields⟩
    | true =>
      rw [hqa, hpa] at hfields
      exact absurd (List.cons.inj hfields).1 (by decide)
  | true =>
    cases hpa : p.amountMinor.isSome with
    | false =>
      rw [hqa, hpa] at hfields
      exact absurd (List.cons.inj hfields).1 (by decide)
    | true =>
      rw [hqa, hpa] at hfields
      exact ⟨rfl, List.append_cancel_left hfields⟩

theorem marks_eq (h : q.amountMinor.isSome = p.amountMinor.isSome) :
    (signedFields q).2.map Prod.fst = (signedFields p).2.map Prod.fst := by
  unfold signedFields
  cases hq : q.amountMinor with
  | none =>
    cases hp : p.amountMinor with
    | none => rfl
    | some amount =>
      rw [hq, hp] at h
      cases h
  | some amount =>
    cases hp : p.amountMinor with
    | none =>
      rw [hq, hp] at h
      cases h
    | some amount => rfl

/-- The fields, the type and the version are the payload. -/
theorem eq_of_signedFields (hp : p.purpose = none) (hq : q.purpose = none)
    (hversion : q.version = p.version) (htype : q.type = p.type)
    (hamount : q.amountMinor.isSome = p.amountMinor.isSome)
    (h : signedFields q = signedFields p) : q = p := by
  obtain ⟨version, recipientRef, currency, amountMinor, nonce, expiresAt, type, purpose, keyId⟩ := p
  obtain ⟨version', recipientRef', currency', amountMinor', nonce', expiresAt', type', purpose',
    keyId'⟩ := q
  unfold signedFields laterFields at h
  cases amountMinor with
  | none =>
    cases amountMinor' with
    | none => simp_all [String.toList_inj]
    | some amount => cases hamount
  | some amount =>
    cases amountMinor' with
    | none => cases hamount
    | some amount' => simp_all [String.toList_inj]

variable {fields : List (List Char × List Char)}

theorem exists_laterFields (h : fields.map Prod.fst = (laterFields p).map Prod.fst) :
    ∃ expiresAt keyId nonce recipientRef,
      laterFields { p with expiresAt, keyId, nonce, recipientRef } = fields := by
  obtain ⟨⟨_, w₁⟩, _, rfl, rfl, h₁⟩ := List.map_eq_cons_iff.mp h
  obtain ⟨⟨_, w₂⟩, _, rfl, rfl, h₂⟩ := List.map_eq_cons_iff.mp h₁
  obtain ⟨⟨_, w₃⟩, _, rfl, rfl, h₃⟩ := List.map_eq_cons_iff.mp h₂
  obtain ⟨⟨_, w₄⟩, _, rfl, rfl, h₄⟩ := List.map_eq_cons_iff.mp h₃
  obtain rfl := List.map_eq_nil_iff.mp h₄
  refine ⟨String.ofList w₁, String.ofList w₂, String.ofList w₃, String.ofList w₄, ?_⟩
  simp [laterFields]

/-- Every reading is one of a payload without a purpose. -/
theorem exists_payload {v : List Char} (h : fields.map Prod.fst = (signedFields p).2.map Prod.fst) :
    ∃ q : QrPayloadData, q.purpose = none ∧ q.version = p.version ∧ q.type = p.type ∧
      q.amountMinor.isSome = p.amountMinor.isSome ∧ signedFields q = (v, fields) := by
  unfold signedFields at h
  cases hamount : p.amountMinor with
  | none =>
    rw [hamount] at h
    obtain ⟨expiresAt, keyId, nonce, recipientRef, rfl⟩ := exists_laterFields h
    refine ⟨{ p with
      amountMinor := none, currency := String.ofList v, purpose := none
      expiresAt, keyId, nonce, recipientRef }, rfl, rfl, rfl, rfl, ?_⟩
    simp [signedFields, laterFields]
  | some amount =>
    rw [hamount] at h
    obtain ⟨⟨_, w⟩, fields, rfl, rfl, hlater⟩ := List.map_eq_cons_iff.mp h
    obtain ⟨expiresAt, keyId, nonce, recipientRef, rfl⟩ := exists_laterFields hlater
    refine ⟨{ p with
      amountMinor := some (String.ofList v), currency := String.ofList w, purpose := none
      expiresAt, keyId, nonce, recipientRef }, rfl, rfl, rfl, rfl, ?_⟩
    simp [signedFields, laterFields]

/-- **A signed text has one reading exactly when the payload is unambiguous.** -/
theorem canonical_unique_iff (hnumbers : PrintsNumbers runtime.numberText) (p : QrPayloadData) :
    (∀ q, canonicalPayloadString runtime q = canonicalPayloadString runtime p → q = p) ↔
      Unambiguous p := by
  constructor
  · intro h
    have hpurpose : p.purpose = none := by
      rw [← h (merged p) (canonical_merged runtime p)]
      exact merged_purpose p
    refine ⟨hpurpose, ?_, ?_⟩
    · rintro ⟨a, b, hnonce⟩
      let q := { p with nonce := String.ofList a, purpose := some (String.ofList b) }
      have htext : String.ofList a ++ "&purpose=" ++ String.ofList b = p.nonce := by
        rw [← String.toList_inj, ← hnonce]
        simp
      have hmerged : merged q = p := by
        show { p with nonce := String.ofList a ++ "&purpose=" ++ String.ofList b,
                      purpose := none } = p
        rw [htext, ← hpurpose]
      have hsame := canonical_merged runtime q
      rw [hmerged] at hsame
      have hq : q.purpose = none := by rw [h q hsame.symm, hpurpose]
      cases hq
    · refine (separated_iff (isMark_signedFields p)).mpr fun v fields hmarks htext => ?_
      obtain ⟨q, hq, hversion, htype, hamount, hfields⟩ := exists_payload hmarks
      have hsame : canonicalPayloadString runtime q = canonicalPayloadString runtime p := by
        rw [← String.toList_inj, toList_canonical runtime hq, toList_canonical runtime hpurpose,
          hfields, htext, hversion, htype]
        unfold firstName
        rw [hamount]
      rw [h q hsame] at hfields
      exact ⟨(congrArg Prod.fst hfields).symm, (congrArg Prod.snd hfields).symm⟩
  · rintro ⟨hpurpose, hnonce, hseparated⟩ q hsame
    have hmerged := canonical_merged runtime q
    rw [hsame] at hmerged
    obtain ⟨hversion, htype, hamount, htext⟩ :=
      readings_of_canonical hnumbers hpurpose (merged_purpose q) hmerged
    obtain ⟨hfirst, hfields⟩ :=
      hseparated.unique (isMark_signedFields p) (marks_eq hamount) htext
    have hq : merged q = p := eq_of_signedFields hpurpose (merged_purpose q) hversion htype hamount
      (Prod.ext hfirst hfields)
    cases hqp : q.purpose with
    | none =>
      rw [← hq]
      unfold merged
      rw [hqp]
    | some purpose =>
      refine absurd ?_ hnonce
      rw [← hq]
      unfold merged
      rw [hqp]
      exact ⟨q.nonce.toList, purpose.toList, by simp⟩

end Readings

/-! ## Signatures -/

/-- The bytes of a digest with the signing key. -/
def digest (text : String) : List ℕ :=
  bufferFromHex (runtime.hmacSha256 runtime.qrSigningKey text).toList

/-- `createHmac('sha256', key)`, free of collisions. -/
structure QrRuntime.Digests : Prop where
  nonempty : ∀ text, digest runtime text ≠ []
  inj : ∀ s t, digest runtime s = digest runtime t → s = t

/-- What a signature is for: no other payload has the signed text, none passes with the
    signature, and the payload itself does after encoding and decoding. -/
structure CoversOne (data : QrPayloadData) : Prop where
  unique : ∀ q : SignedQrPayload,
    canonicalPayloadString runtime q.toQrPayloadData = canonicalPayloadString runtime data →
    q.toQrPayloadData = data
  verified : ∀ q : SignedQrPayload, bufferFromHex q.signature.toList =
      bufferFromHex (signQrPayload runtime data).signature.toList →
    verifyQrSignature runtime q = true → q.toQrPayloadData = data
  decoded : ∃ q, decodeQrPayload runtime (encodeQrPayload runtime (signQrPayload runtime data)) =
      some q ∧ verifyQrSignature runtime q = true

variable {runtime}

theorem verifyQrSignature_iff (hdigests : runtime.Digests) (q : SignedQrPayload) :
    verifyQrSignature runtime q = true ↔ bufferFromHex q.signature.toList =
      digest runtime (canonicalPayloadString runtime q.toQrPayloadData) := by
  have hne := hdigests.nonempty (canonicalPayloadString runtime q.toQrPayloadData)
  unfold verifyQrSignature
  dsimp only
  constructor
  · intro h
    split at h
    · cases h
    · exact of_decide_eq_true h
  · intro h
    have hlength : ¬ ((bufferFromHex q.signature.toList).length ≠
        (digest runtime (canonicalPayloadString runtime q.toQrPayloadData)).length ∨
        (bufferFromHex q.signature.toList).length = 0) := by
      rw [h]
      simpa using hne
    exact (if_neg hlength).trans (decide_eq_true h)

/-- **A signature covers one payload exactly when the signed text can be read in one way.** -/
theorem qr_signing_iff (runtime : QrRuntime) (hnumbers : PrintsNumbers runtime.numberText)
    (hdigests : runtime.Digests) (data : QrPayloadData)
    (hjson : runtime.decodeJson (runtime.encodeJson (signQrPayload runtime data).toJson) =
      some (signQrPayload runtime data).toJson) :
    CoversOne runtime data ↔ Unambiguous data := by
  rw [← canonical_unique_iff hnumbers]
  constructor
  · intro h q hsame
    exact h.unique { q with signature := "" } hsame
  · intro h
    refine ⟨fun q hsame => h _ hsame, fun q hsignature hverify => h _ ?_,
      signQrPayload runtime data, ?_, (verifyQrSignature_iff hdigests _).mpr rfl⟩
    · rw [verifyQrSignature_iff hdigests, hsignature] at hverify
      exact (hdigests.inj _ _ hverify).symm
    · unfold decodeQrPayload encodeQrPayload
      rw [hjson]
      exact isSignedQrPayload_toJson _

/-! ## Concrete payloads -/

/-- One hexadecimal pair for each bit of a list. -/
def hexBits (bits : List Bool) : List Char :=
  bits.flatMap fun b => if b then ['0', '1'] else ['0', '0']

/-- The characters of a text in unary, behind one bit. -/
def unaryBits (text : String) : List Bool :=
  true :: text.toList.flatMap fun c => List.replicate c.toNat false ++ [true]

/-- Node with digests that can be read back, for one payload. -/
def readableRuntime (payload : SignedQrPayload) : QrRuntime :=
  { plainQrRuntime with
    hmacSha256 := fun _ text => String.ofList (hexBits (unaryBits text))
    numberText := plainNumber
    encodeJson := fun _ => "code"
    decodeJson := fun _ => some payload.toJson }

theorem bufferFromHex_hexBits (bits : List Bool) :
    bufferFromHex (hexBits bits) = bits.map Bool.toNat := by
  induction bits with
  | nil => rfl
  | cons b bits ih =>
    cases b with
    | false => exact congrArg (List.cons 0) ih
    | true => exact congrArg (List.cons 1) ih

theorem unaryBits_inj {s t : String} (h : unaryBits s = unaryBits t) : s = t := by
  have hprefix : PrefixFree fun c : Char => List.replicate c.toNat false ++ [true] := by
    intro c d rest rest' hsame
    have hcount : ∀ (n : ℕ) (rest : List Bool),
        ((List.replicate n false ++ [true]) ++ rest).takeWhile (· = false) =
          List.replicate n false := by
      intro n rest
      rw [List.append_assoc, List.takeWhile_append_of_pos (by simp), List.singleton_append,
        List.takeWhile_cons_of_neg (by simp), List.append_nil]
    have hcode : c.toNat = d.toNat := by
      have hlength := congrArg (fun bits => (bits.takeWhile (· = false)).length) hsame
      simpa only [hcount, List.length_replicate] using hlength
    obtain rfl := Char.toNat_inj.mp hcode
    exact ⟨rfl, List.append_cancel_left hsame⟩
  exact String.toList_injective (flatMap_inj hprefix (by simp) (List.cons.inj h).2)

theorem readableRuntime_digests (payload : SignedQrPayload) :
    (readableRuntime payload).Digests := by
  have hdigest : ∀ text,
      digest (readableRuntime payload) text = (unaryBits text).map Bool.toNat := by
    intro text
    unfold digest
    rw [← bufferFromHex_hexBits]
    show bufferFromHex (String.ofList (hexBits (unaryBits text))).toList = _
    rw [String.toList_ofList]
  refine ⟨fun text hnil => ?_, fun s t hsame => unaryBits_inj ?_⟩
  · rw [hdigest] at hnil
    cases hnil
  · rw [hdigest, hdigest] at hsame
    refine List.map_injective_iff.mpr (fun a b hab => ?_) hsame
    cases a
    · cases b
      · rfl
      · cases hab
    · cases b
      · cases hab
      · rfl

/-- Node that reads back the signed payload with the data. -/
def readingRuntime (data : QrPayloadData) : QrRuntime :=
  readableRuntime (signQrPayload (readableRuntime (fiveRupeePayload .STATIC)) data)

theorem readingRuntime_decodes (data : QrPayloadData) :
    (readingRuntime data).decodeJson
        ((readingRuntime data).encodeJson (signQrPayload (readingRuntime data) data).toJson) =
      some (signQrPayload (readingRuntime data) data).toJson := by
  have hsigned : signQrPayload (readableRuntime (fiveRupeePayload .STATIC)) data =
      signQrPayload (readingRuntime data) data := rfl
  rw [← hsigned]
  rfl

/-- A payload of five rupees is covered by its signature. -/
theorem five_rupees_covered : Unambiguous (fiveRupeePayload .STATIC).toQrPayloadData ∧
    CoversOne (readingRuntime (fiveRupeePayload .STATIC).toQrPayloadData)
      (fiveRupeePayload .STATIC).toQrPayloadData := by
  have hdata : Unambiguous (fiveRupeePayload .STATIC).toQrPayloadData :=
    ⟨rfl, by decide, by decide⟩
  exact ⟨hdata, (qr_signing_iff (readingRuntime (fiveRupeePayload .STATIC).toQrPayloadData)
    PrintsNumbers.plainNumber (readableRuntime_digests _) _ (readingRuntime_decodes _)).mpr hdata⟩

/-- Two payloads with one signed text: a nonce that writes a purpose. -/
theorem two_payloads_one_text :
    ¬ ∀ (runtime : QrRuntime) (p q : SignedQrPayload),
      canonicalPayloadString runtime p.toQrPayloadData =
        canonicalPayloadString runtime q.toQrPayloadData →
      p.toQrPayloadData = q.toQrPayloadData := by
  intro h
  let p := { fiveRupeePayload .STATIC with nonce := "n-1&purpose=rent" }
  let q := { fiveRupeePayload .STATIC with nonce := "n-1", purpose := some "rent" }
  exact absurd (h plainQrRuntime p q (by decide +kernel)) (by decide)

end AegisShield.Payments
