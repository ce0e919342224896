import AegisShield.Common.Format
import AegisShield.Sabcl.Seal

/-!
# The encodings of SABCL

Round trips and injectivity of the encodings that sealing and opening share.

Results:
* `fromBase64Url_toBase64Url`, `fromBase64Url_ok`: `fromBase64Url` accepts exactly
  what `toBase64Url` writes for a non-empty buffer, and gives the buffer back.
* `unpadPayload_padPayload`: unpadding inverts padding.
* `canonicalEncode_inj`: two vectors of fields have one canonical encoding only if
  they are equal, whatever the fields hold.
* `sabclEnvelopeSchema_toJson`, `sabclResponseEnvelopeSchema_toJson`: the schemas give
  an envelope back unchanged.
* `canonicalRequestHeader_inj`, `canonicalResponseHeader_inj`: the canonical headers
  determine every field but the ciphertext, the tag and the signature.
-/

namespace AegisShield.Sabcl

open Common

/-! ## Integers -/

@[simp] theorem length_uint32be (n : ℕ) : (uint32be n).length = 4 := rfl

theorem toNat_ofNat_div (n k : ℕ) : (UInt8.ofNat (n / k)).toNat = n / k % 256 := by
  simp [UInt8.toNat_ofNat']

theorem readUInt32be_uint32be {n : ℕ} (hn : n < 2 ^ 32) (rest : Bytes) :
    readUInt32be (uint32be n ++ rest) = n := by
  have hlast : (UInt8.ofNat n).toNat = n % 256 := by simp [UInt8.toNat_ofNat']
  simp only [uint32be, List.cons_append, readUInt32be, toNat_ofNat_div, hlast]
  omega

theorem uint32be_inj {a b : ℕ} (ha : a < 2 ^ 32) (hb : b < 2 ^ 32)
    (h : uint32be a = uint32be b) : a = b := by
  rw [← readUInt32be_uint32be ha [], h, readUInt32be_uint32be hb]

@[simp] theorem length_canonicalUInt (value : ℕ) : (canonicalUInt value).length = 8 := rfl

/-- `canonicalUInt` writes eight bytes, and a safe integer fits. -/
theorem canonicalUInt_inj {a b : ℕ} (ha : a ≤ Json.maxSafeInteger) (hb : b ≤ Json.maxSafeInteger)
    (h : canonicalUInt a = canonicalUInt b) : a = b := by
  unfold Json.maxSafeInteger at ha hb
  obtain ⟨hhigh, hlow⟩ := List.append_inj h rfl
  have hdiv : a / 2 ^ 32 = b / 2 ^ 32 := uint32be_inj (by omega) (by omega) hhigh
  have hmod : ∀ n, uint32be n = uint32be (n % 2 ^ 32) := by
    intro n
    have hbyte : ∀ x y : ℕ, x % 256 = y % 256 → UInt8.ofNat x = UInt8.ofNat y := by
      intro x y hxy
      apply UInt8.toNat_inj.mp
      simpa [UInt8.toNat_ofNat'] using hxy
    simp only [uint32be, List.cons.injEq, and_true]
    exact ⟨hbyte _ _ (by omega), hbyte _ _ (by omega), hbyte _ _ (by omega), hbyte _ _ (by omega)⟩
  have hlast : a % 2 ^ 32 = b % 2 ^ 32 := by
    apply uint32be_inj (Nat.mod_lt _ (by decide)) (Nat.mod_lt _ (by decide))
    rw [← hmod, ← hmod, hlow]
  omega

/-! ## `canonicalEncode` -/

/-- A field is told from what follows it by its length prefix. -/
theorem field_append_inj {field field' rest rest' : Bytes} (hfield : field.length < 2 ^ 32)
    (hfield' : field'.length < 2 ^ 32)
    (h : uint32be field.length ++ field ++ rest = uint32be field'.length ++ field' ++ rest') :
    field = field' ∧ rest = rest' := by
  rw [List.append_assoc, List.append_assoc] at h
  have hlength : field.length = field'.length := by
    rw [← readUInt32be_uint32be hfield (field ++ rest), h, readUInt32be_uint32be hfield']
  obtain ⟨-, htail⟩ := List.append_inj h (by simp)
  exact List.append_inj htail hlength

theorem canonicalEncode_inj {fields fields' : List Bytes}
    (hfields : ∀ field ∈ fields, field.length < 2 ^ 32)
    (hfields' : ∀ field ∈ fields', field.length < 2 ^ 32)
    (h : canonicalEncode fields = canonicalEncode fields') : fields = fields' := by
  unfold canonicalEncode at h
  induction fields generalizing fields' with
  | nil =>
    cases fields' with
    | nil => rfl
    | cons field' fields' => simp [uint32be] at h
  | cons field fields ih =>
    cases fields' with
    | nil => simp [uint32be] at h
    | cons field' fields' =>
      rw [List.flatMap_cons, List.flatMap_cons] at h
      obtain ⟨rfl, hrest⟩ := field_append_inj (hfields _ List.mem_cons_self)
        (hfields' _ List.mem_cons_self) h
      rw [ih (fun f hf => hfields f (List.mem_cons_of_mem _ hf))
        (fun f hf => hfields' f (List.mem_cons_of_mem _ hf)) hrest]

theorem utf8_inj {s t : String} (h : utf8 s = utf8 t) : s = t := by
  unfold utf8 at h
  have hbytes : s.toUTF8 = t.toUTF8 := ByteArray.ext (Array.toList_inj.mp h)
  exact String.toByteArray_inj.mp hbytes

/-! ## base64url -/

theorem sextets_lt (bytes : Bytes) : ∀ n ∈ sextets bytes, n < 64 := by
  have hbyte : ∀ a : UInt8, a.toNat < 256 := fun a => a.toNat_lt
  fun_induction sextets bytes with
  | case1 => intro n hn; cases hn
  | case2 a =>
    have ha := hbyte a
    intro n hn
    simp only [List.mem_cons, List.not_mem_nil, or_false] at hn
    omega
  | case3 a b =>
    have ha := hbyte a
    have hb := hbyte b
    intro n hn
    simp only [List.mem_cons, List.not_mem_nil, or_false] at hn
    omega
  | case4 a b c rest ih =>
    have ha := hbyte a
    have hb := hbyte b
    have hc := hbyte c
    intro n hn
    rcases List.mem_cons.mp hn with rfl | hn
    · omega
    rcases List.mem_cons.mp hn with rfl | hn
    · omega
    rcases List.mem_cons.mp hn with rfl | hn
    · omega
    rcases List.mem_cons.mp hn with rfl | hn
    · omega
    exact ih n hn

theorem ofNat_eq_of_toNat {n : ℕ} {a : UInt8} (h : n = a.toNat) : UInt8.ofNat n = a := by
  rw [h, UInt8.ofNat_toNat]

theorem unsextets_sextets (bytes : Bytes) : unsextets (sextets bytes) = bytes := by
  have hbyte : ∀ a : UInt8, a.toNat < 256 := fun a => a.toNat_lt
  fun_induction sextets bytes with
  | case1 => rfl
  | case2 a =>
    have ha := hbyte a
    rw [unsextets, ofNat_eq_of_toNat (a := a) (by omega)]
  | case3 a b =>
    have ha := hbyte a
    have hb := hbyte b
    rw [unsextets, ofNat_eq_of_toNat (a := a) (by omega), ofNat_eq_of_toNat (a := b) (by omega)]
  | case4 a b c rest ih =>
    have ha := hbyte a
    have hb := hbyte b
    have hc := hbyte c
    rw [unsextets, ih, ofNat_eq_of_toNat (a := a) (by omega),
      ofNat_eq_of_toNat (a := b) (by omega), ofNat_eq_of_toNat (a := c) (by omega)]

theorem alphabet_idxOf {n : ℕ} (hn : n < 64) :
    base64UrlAlphabet.idxOf? (base64UrlAlphabet.getD n 'A') = some n := by
  have hall : ∀ k : Fin 64,
      base64UrlAlphabet.idxOf? (base64UrlAlphabet.getD k.val 'A') = some k.val := by decide +kernel
  exact hall ⟨n, hn⟩

/-- Every character that `toBase64Url` writes is a letter, a digit, `_` or `-`. -/
theorem alphabet_char (n : ℕ) :
    base64UrlAlphabet.getD n 'A' ∈ base64UrlAlphabet := by
  rw [List.getD_eq_getElem?_getD]
  cases h : base64UrlAlphabet[n]? with
  | none => decide
  | some c => exact List.mem_of_getElem? h

theorem bufferFromBase64Url_toBase64Url (value : Bytes) :
    bufferFromBase64Url (toBase64Url value) = value := by
  have hread : ∀ ns : List ℕ, (∀ n ∈ ns, n < 64) →
      (ns.map fun n => base64UrlAlphabet.getD n 'A').filterMap
        (fun c => base64UrlAlphabet.idxOf? c) = ns := by
    intro ns hns
    induction ns with
    | nil => rfl
    | cons n ns ih =>
      rw [List.map_cons, List.filterMap_cons, alphabet_idxOf (hns n List.mem_cons_self),
        ih fun k hk => hns k (List.mem_cons_of_mem _ hk)]
  unfold bufferFromBase64Url toBase64Url
  rw [String.toList_ofList, hread _ (sextets_lt value), unsextets_sextets]

theorem toBase64Url_inj {a b : Bytes} (h : toBase64Url a = toBase64Url b) : a = b := by
  rw [← bufferFromBase64Url_toBase64Url a, h, bufferFromBase64Url_toBase64Url]

theorem toBase64Url_nil : toBase64Url [] = "" := rfl

theorem fromBase64Url_toBase64Url {value : Bytes} (hne : value ≠ []) (field : String) :
    fromBase64Url (toBase64Url value) field = .ok value := by
  unfold fromBase64Url
  have hempty : toBase64Url value ≠ "" := by
    intro h
    exact hne (toBase64Url_inj (h.trans toBase64Url_nil.symm))
  simp [hempty, bufferFromBase64Url_toBase64Url]

theorem fromBase64Url_ok {value field : String} {bytes : Bytes}
    (h : fromBase64Url value field = .ok bytes) : toBase64Url bytes = value := by
  unfold fromBase64Url at h
  split at h
  · cases h
  · simp only at h
    split at h
    · cases h
    next hcanonical =>
      cases h
      exact not_not.mp hcanonical

theorem length_sextets (bytes : Bytes) : 3 * (sextets bytes).length ≤ 4 * bytes.length + 2 ∧
    (bytes ≠ [] → 0 < (sextets bytes).length) := by
  fun_induction sextets bytes with
  | case1 => exact ⟨by decide, fun h => absurd rfl h⟩
  | case2 a => simp
  | case3 a b => simp
  | case4 a b c rest ih =>
    simp only [List.length_cons]
    omega

theorem length_le_sextets (bytes : Bytes) : bytes.length ≤ (sextets bytes).length := by
  fun_induction sextets bytes with
  | case1 => exact Nat.le_refl _
  | case2 a => simp
  | case3 a b => simp
  | case4 a b c rest ih =>
    simp only [List.length_cons]
    omega

theorem utf16Length_toBase64Url (value : Bytes) :
    utf16Length (toBase64Url value) = (sextets value).length := by
  have hall : ∀ c ∈ base64UrlAlphabet, (if c.toNat < 0x10000 then 1 else 2) = 1 :=
    forall_mem_of_all (by decide)
  have hone : ((sextets value).map fun n => base64UrlAlphabet.getD n 'A').map
      (fun c => if c.toNat < 0x10000 then 1 else 2) = (sextets value).map fun _ => 1 := by
    rw [List.map_map]
    apply List.map_congr_left
    intro n _
    exact hall _ (alphabet_char n)
  unfold utf16Length toBase64Url
  rw [String.toList_ofList, hone, List.map_const', List.sum_replicate_nat, mul_one]

/-- What `base64Url(max)` accepts. -/
def IsBase64Url (max : ℕ) (s : String) : Prop :=
  1 ≤ utf16Length s ∧ utf16Length s ≤ max ∧
    (s.toList.all fun c => c.isAlphanum || c == '_' || c == '-') = true

variable {max bucket : ℕ} {payload : Bytes} {raw : Json}

theorem isBase64Url_toBase64Url {value : Bytes} (hne : value ≠ [])
    (hmax : 4 * value.length + 2 ≤ 3 * max) : IsBase64Url max (toBase64Url value) := by
  obtain ⟨hle, hpos⟩ := length_sextets value
  have hall : ∀ c ∈ base64UrlAlphabet, (c.isAlphanum || c == '_' || c == '-') = true :=
    forall_mem_of_all (by decide)
  refine ⟨?_, ?_, ?_⟩
  · rw [utf16Length_toBase64Url]
    exact hpos hne
  · rw [utf16Length_toBase64Url]
    omega
  · unfold toBase64Url
    rw [String.toList_ofList, List.all_eq_true]
    intro c hc
    obtain ⟨n, -, rfl⟩ := List.mem_map.mp hc
    exact hall _ (alphabet_char n)

theorem length_le_of_isBase64Url {value : Bytes}
    (h : IsBase64Url max (toBase64Url value)) : value.length ≤ max := by
  have hle := h.2.1
  rw [utf16Length_toBase64Url] at hle
  exact (length_le_sextets value).trans hle

theorem length_utf8_le (s : String) : (utf8 s).length ≤ 4 * utf16Length s := by
  have hchars : ∀ cs : List Char, (cs.utf8Encode.data.toList).length ≤
      4 * (cs.map fun c => if c.toNat < 0x10000 then 1 else 2).sum := by
    intro cs
    induction cs with
    | nil => decide
    | cons c cs ih =>
      have hc : [c].utf8Encode.data.toList.length ≤ 4 := by
        have := c.utf8Size_le_four
        simpa [List.utf8Encode] using this
      rw [List.utf8Encode_cons, ByteArray.data_append, Array.toList_append, List.length_append,
        List.map_cons, List.sum_cons]
      split <;> omega
  obtain ⟨cs, rfl⟩ : ∃ cs, s = String.ofList cs := ⟨s.toList, String.ofList_toList.symm⟩
  unfold utf8 utf16Length
  rw [String.toUTF8_eq_toByteArray, String.toByteArray_ofList, String.toList_ofList]
  exact hchars cs

/-! ## Padding -/

theorem paddingBucketFor_ok {length : ℕ} (h : paddingBucketFor length = .ok bucket) :
    bucket ∈ SABCL_PADDING_BUCKETS ∧ length ≤ bucket := by
  unfold paddingBucketFor at h
  split at h
  next found hfound =>
    cases h
    have hle := List.find?_some hfound
    exact ⟨List.mem_of_find?_eq_some hfound, of_decide_eq_true hle⟩
  · cases h

theorem padPayload_ok {padded : Bytes} (h : padPayload payload = .ok (padded, bucket)) :
    bucket ∈ SABCL_PADDING_BUCKETS ∧ payload.length + LENGTH_PREFIX_BYTES ≤ bucket ∧
      padded = uint32be payload.length ++ payload ++
        List.replicate (bucket - LENGTH_PREFIX_BYTES - payload.length) 0 := by
  unfold padPayload at h
  split at h
  · cases h
  · obtain ⟨found, hbucket, h⟩ := bind_ok.mp h
    cases h
    obtain ⟨hmem, hle⟩ := paddingBucketFor_ok hbucket
    exact ⟨hmem, hle, rfl⟩

/-- Padding succeeds on every payload that leaves room for the length prefix. -/
theorem padPayload_of_length
    (h : payload.length + LENGTH_PREFIX_BYTES ≤ SABCL_MAX_PLAINTEXT_BYTES) :
    ∃ padded bucket, padPayload payload = .ok (padded, bucket) := by
  have hfound : ∃ bucket, SABCL_PADDING_BUCKETS.find?
      (fun size => payload.length + LENGTH_PREFIX_BYTES ≤ size) = some bucket := by
    rw [← Option.isSome_iff_exists, List.find?_isSome]
    exact ⟨SABCL_MAX_PLAINTEXT_BYTES, by decide, decide_eq_true h⟩
  obtain ⟨bucket, hbucket⟩ := hfound
  have hsmall : ¬ payload.length > SABCL_MAX_PLAINTEXT_BYTES := by omega
  unfold padPayload paddingBucketFor
  rw [if_neg hsmall, hbucket]
  exact ⟨_, bucket, rfl⟩

theorem bucket_le (h : bucket ∈ SABCL_PADDING_BUCKETS) :
    0 < bucket ∧ bucket ≤ SABCL_MAX_PLAINTEXT_BYTES := by
  have hall : ∀ b ∈ SABCL_PADDING_BUCKETS, 0 < b ∧ b ≤ SABCL_MAX_PLAINTEXT_BYTES := by decide
  exact hall bucket h

/-- Padding fills the bucket, and unpadding gives the payload back. -/
theorem unpadPayload_padPayload {padded : Bytes} (h : padPayload payload = .ok (padded, bucket)) :
    padded.length = bucket ∧ unpadPayload padded = .ok payload := by
  obtain ⟨hmem, hroom, rfl⟩ := padPayload_ok h
  have hbucket := (bucket_le hmem).2
  unfold LENGTH_PREFIX_BYTES at hroom
  unfold SABCL_MAX_PLAINTEXT_BYTES at hbucket
  have hlength : (uint32be payload.length ++ payload ++
      List.replicate (bucket - LENGTH_PREFIX_BYTES - payload.length) (0 : UInt8)).length =
        bucket := by
    simp only [List.length_append, length_uint32be, List.length_replicate, LENGTH_PREFIX_BYTES]
    omega
  refine ⟨hlength, ?_⟩
  have hread : readUInt32be (uint32be payload.length ++ payload ++
      List.replicate (bucket - LENGTH_PREFIX_BYTES - payload.length) (0 : UInt8)) =
        payload.length := by
    rw [List.append_assoc, readUInt32be_uint32be (by omega)]
  unfold unpadPayload
  rw [hlength, hread, if_neg (by unfold LENGTH_PREFIX_BYTES; omega)]
  simp only
  rw [if_neg (by unfold LENGTH_PREFIX_BYTES; omega), List.append_assoc,
    List.drop_left' (by rfl), List.take_left' rfl]

/-! ## Schemas -/

/-- What `sabclKeyIdSchema` accepts. -/
def IsKeyId (s : String) : Prop := 3 ≤ utf16Length s ∧ utf16Length s ≤ 64 ∧ KEY_ID_PATTERN s = true

theorem base64Url_some {value : Json} {s : String} :
    base64Url max value = some s ↔ value = .string s ∧ IsBase64Url max s :=
  Json.boundedString_eq_some

theorem sabclKeyIdSchema_some {value : Json} {s : String} :
    sabclKeyIdSchema value = some s ↔ value = .string s ∧ IsKeyId s :=
  Json.boundedString_eq_some

/-- The fields of an envelope as `sabclEnvelopeSchema` bounds them. -/
structure SabclEnvelope.Valid (e : SabclEnvelope) : Prop where
  v : e.v = SABCL_PROTOCOL_VERSION
  mid : IsBase64Url 32 e.mid
  rt : IsBase64Url 64 e.rt
  skid : IsKeyId e.skid
  rkid : IsKeyId e.rkid
  epk : IsBase64Url 64 e.epk
  iat : e.iat ≤ Json.maxSafeInteger
  exp : e.exp ≤ Json.maxSafeInteger
  n : IsBase64Url 24 e.n
  hl : e.hl ≤ SABCL_MAX_HOP_LIMIT
  pad : 0 < e.pad ∧ e.pad ≤ Json.maxSafeInteger
  ct : IsBase64Url SABCL_MAX_ENVELOPE_BYTES e.ct
  tag : IsBase64Url 32 e.tag
  sig : IsBase64Url 128 e.sig

/-- What the schema read in the members of an object. -/
theorem sabclEnvelopeSchema_fields {e : SabclEnvelope} (h : sabclEnvelopeSchema raw = some e) :
    ∃ members, Json.strictObject
        ["v", "mid", "rt", "skid", "rkid", "epk", "iat", "exp", "n", "hl", "pad", "ct", "tag",
          "sig"] raw = some members ∧
      (Json.member members "v" >>=
        Json.boundedString 0 7 fun s => s == SABCL_PROTOCOL_VERSION) = some e.v ∧
      (Json.member members "mid" >>= base64Url 32) = some e.mid ∧
      (Json.member members "rt" >>= base64Url 64) = some e.rt ∧
      (Json.member members "skid" >>= sabclKeyIdSchema) = some e.skid ∧
      (Json.member members "rkid" >>= sabclKeyIdSchema) = some e.rkid ∧
      (Json.member members "epk" >>= base64Url 64) = some e.epk ∧
      (Json.member members "iat" >>= Json.safeNatural) = some e.iat ∧
      (Json.member members "exp" >>= Json.safeNatural) = some e.exp ∧
      (Json.member members "n" >>= base64Url 24) = some e.n ∧
      (Json.member members "hl" >>= Json.safeNatural).filter
        (fun hl => hl ≤ SABCL_MAX_HOP_LIMIT) = some e.hl ∧
      (Json.member members "pad" >>= Json.safeNatural).filter (fun pad => 0 < pad) = some e.pad ∧
      (Json.member members "ct" >>= base64Url SABCL_MAX_ENVELOPE_BYTES) = some e.ct ∧
      (Json.member members "tag" >>= base64Url 32) = some e.tag ∧
      (Json.member members "sig" >>= base64Url 128) = some e.sig := by
  obtain ⟨members, hmembers, h⟩ := Option.bind_eq_some_iff.mp h
  obtain ⟨v, hv, h⟩ := Option.bind_eq_some_iff.mp h
  obtain ⟨mid, hmid, h⟩ := Option.bind_eq_some_iff.mp h
  obtain ⟨rt, hrt, h⟩ := Option.bind_eq_some_iff.mp h
  obtain ⟨skid, hskid, h⟩ := Option.bind_eq_some_iff.mp h
  obtain ⟨rkid, hrkid, h⟩ := Option.bind_eq_some_iff.mp h
  obtain ⟨epk, hepk, h⟩ := Option.bind_eq_some_iff.mp h
  obtain ⟨iat, hiat, h⟩ := Option.bind_eq_some_iff.mp h
  obtain ⟨exp, hexp, h⟩ := Option.bind_eq_some_iff.mp h
  obtain ⟨n, hn, h⟩ := Option.bind_eq_some_iff.mp h
  obtain ⟨hl, hhl, h⟩ := Option.bind_eq_some_iff.mp h
  obtain ⟨pad, hpad, h⟩ := Option.bind_eq_some_iff.mp h
  obtain ⟨ct, hct, h⟩ := Option.bind_eq_some_iff.mp h
  obtain ⟨tag, htag, h⟩ := Option.bind_eq_some_iff.mp h
  obtain ⟨sig, hsig, h⟩ := Option.bind_eq_some_iff.mp h
  cases h
  exact ⟨members, hmembers, hv, hmid, hrt, hskid, hrkid, hepk, hiat, hexp, hn, hhl, hpad, hct,
    htag, hsig⟩

theorem base64Url_of_bind {field : Option Json} {s : String}
    (h : (field >>= base64Url max) = some s) : field = some (.string s) ∧ IsBase64Url max s := by
  obtain ⟨value, hvalue, h⟩ := Option.bind_eq_some_iff.mp h
  obtain ⟨rfl, hs⟩ := Json.boundedString_eq_some.mp h
  exact ⟨hvalue, hs⟩

theorem keyId_of_bind {field : Option Json} {s : String}
    (h : (field >>= sabclKeyIdSchema) = some s) : field = some (.string s) ∧ IsKeyId s := by
  obtain ⟨value, hvalue, h⟩ := Option.bind_eq_some_iff.mp h
  obtain ⟨rfl, hs⟩ := Json.boundedString_eq_some.mp h
  exact ⟨hvalue, hs⟩

theorem version_of_bind {field : Option Json} {s : String}
    (h : (field >>= Json.boundedString 0 7 fun s => s == SABCL_PROTOCOL_VERSION) = some s) :
    field = some (.string s) ∧ s = SABCL_PROTOCOL_VERSION := by
  obtain ⟨value, hvalue, h⟩ := Option.bind_eq_some_iff.mp h
  obtain ⟨rfl, -, -, hs⟩ := Json.boundedString_eq_some.mp h
  exact ⟨hvalue, eq_of_beq hs⟩

theorem safe_of_bind {field : Option Json} {n : ℕ}
    (h : (field >>= Json.safeNatural) = some n) :
    n ≤ Json.maxSafeInteger ∧ ∀ m : ℕ, field = some (.number m) → n = m := by
  obtain ⟨value, hvalue, h⟩ := Option.bind_eq_some_iff.mp h
  refine ⟨Json.safeNatural_le h, ?_⟩
  intro m hm
  rw [hvalue, Option.some.injEq] at hm
  rw [hm] at h
  exact (Json.safeNatural_natCast.mp h).1

theorem valid_of_sabclEnvelopeSchema {e : SabclEnvelope}
    (h : sabclEnvelopeSchema raw = some e) : e.Valid := by
  obtain ⟨members, -, hv, hmid, hrt, hskid, hrkid, hepk, hiat, hexp, hn, hhl, hpad, hct, htag,
    hsig⟩ := sabclEnvelopeSchema_fields h
  obtain ⟨-, hhl⟩ := Option.filter_eq_some_iff.mp hhl
  obtain ⟨hpad, hpos⟩ := Option.filter_eq_some_iff.mp hpad
  exact
    { v := (version_of_bind hv).2
      mid := (base64Url_of_bind hmid).2
      rt := (base64Url_of_bind hrt).2
      skid := (keyId_of_bind hskid).2
      rkid := (keyId_of_bind hrkid).2
      epk := (base64Url_of_bind hepk).2
      iat := (safe_of_bind hiat).1
      exp := (safe_of_bind hexp).1
      n := (base64Url_of_bind hn).2
      hl := of_decide_eq_true hhl
      pad := ⟨of_decide_eq_true hpos, (safe_of_bind hpad).1⟩
      ct := (base64Url_of_bind hct).2
      tag := (base64Url_of_bind htag).2
      sig := (base64Url_of_bind hsig).2 }

/-- The schema gives back the envelope that it was handed. -/
theorem sabclEnvelopeSchema_toJson {e e' : SabclEnvelope}
    (h : sabclEnvelopeSchema e.toJson = some e') : e' = e := by
  obtain ⟨members, hmembers, hv, hmid, hrt, hskid, hrkid, hepk, hiat, hexp, hn, hhl, hpad, hct,
    htag, hsig⟩ := sabclEnvelopeSchema_fields h
  cases hmembers
  have htext : ∀ {field : Option Json} {s s' : String},
      field = some (.string s') → field = some (.string s) → s' = s :=
    fun h' h => Json.string.inj (Option.some.inj (h'.symm.trans h))
  obtain ⟨hhl, -⟩ := Option.filter_eq_some_iff.mp hhl
  obtain ⟨hpad, -⟩ := Option.filter_eq_some_iff.mp hpad
  cases e'
  rw [SabclEnvelope.mk.injEq]
  exact ⟨htext (version_of_bind hv).1 rfl, htext (base64Url_of_bind hmid).1 rfl,
    htext (base64Url_of_bind hrt).1 rfl, htext (keyId_of_bind hskid).1 rfl,
    htext (keyId_of_bind hrkid).1 rfl, htext (base64Url_of_bind hepk).1 rfl,
    (safe_of_bind hiat).2 _ rfl, (safe_of_bind hexp).2 _ rfl, htext (base64Url_of_bind hn).1 rfl,
    (safe_of_bind hhl).2 _ rfl, (safe_of_bind hpad).2 _ rfl, htext (base64Url_of_bind hct).1 rfl,
    htext (base64Url_of_bind htag).1 rfl, htext (base64Url_of_bind hsig).1 rfl⟩

theorem base64Url_string {s : String} (h : IsBase64Url max s) :
    base64Url max (.string s) = some s :=
  base64Url_some.mpr ⟨rfl, h⟩

theorem sabclKeyIdSchema_string {s : String} (h : IsKeyId s) :
    sabclKeyIdSchema (.string s) = some s :=
  sabclKeyIdSchema_some.mpr ⟨rfl, h⟩

theorem safeNatural_filter {n : ℕ} {p : ℕ → Bool} (hn : n ≤ Json.maxSafeInteger)
    (hp : p n = true) : (Json.safeNatural (.number n)).filter p = some n :=
  Option.filter_eq_some_iff.mpr ⟨Json.safeNatural_natCast.mpr ⟨rfl, hn⟩, hp⟩

theorem SabclEnvelope.Valid.schema {e : SabclEnvelope} (h : e.Valid) :
    sabclEnvelopeSchema e.toJson = some e := by
  have hv : (Json.boundedString 0 7 fun s => s == SABCL_PROTOCOL_VERSION) (.string e.v) =
      some e.v := by
    rw [h.v]
    decide
  have hl := safeNatural_filter (p := fun hl => hl ≤ SABCL_MAX_HOP_LIMIT)
    (h.hl.trans (by decide)) (decide_eq_true h.hl)
  have hpad := safeNatural_filter (p := fun pad => 0 < pad) h.pad.2 (decide_eq_true h.pad.1)
  have hiat := Json.safeNatural_natCast.mpr ⟨rfl, h.iat⟩
  have hexp := Json.safeNatural_natCast.mpr ⟨rfl, h.exp⟩
  refine Option.bind_eq_some_iff.mpr ⟨e.v, hv, ?_⟩
  refine Option.bind_eq_some_iff.mpr ⟨e.mid, base64Url_string h.mid, ?_⟩
  refine Option.bind_eq_some_iff.mpr ⟨e.rt, base64Url_string h.rt, ?_⟩
  refine Option.bind_eq_some_iff.mpr ⟨e.skid, sabclKeyIdSchema_string h.skid, ?_⟩
  refine Option.bind_eq_some_iff.mpr ⟨e.rkid, sabclKeyIdSchema_string h.rkid, ?_⟩
  refine Option.bind_eq_some_iff.mpr ⟨e.epk, base64Url_string h.epk, ?_⟩
  refine Option.bind_eq_some_iff.mpr ⟨e.iat, hiat, ?_⟩
  refine Option.bind_eq_some_iff.mpr ⟨e.exp, hexp, ?_⟩
  refine Option.bind_eq_some_iff.mpr ⟨e.n, base64Url_string h.n, ?_⟩
  refine Option.bind_eq_some_iff.mpr ⟨e.hl, hl, ?_⟩
  refine Option.bind_eq_some_iff.mpr ⟨e.pad, hpad, ?_⟩
  refine Option.bind_eq_some_iff.mpr ⟨e.ct, base64Url_string h.ct, ?_⟩
  refine Option.bind_eq_some_iff.mpr ⟨e.tag, base64Url_string h.tag, ?_⟩
  refine Option.bind_eq_some_iff.mpr ⟨e.sig, base64Url_string h.sig, ?_⟩
  rfl

/-- The fields of a response as `sabclResponseEnvelopeSchema` bounds them. -/
structure SabclResponseEnvelope.Valid (e : SabclResponseEnvelope) : Prop where
  v : e.v = SABCL_PROTOCOL_VERSION
  cid : IsBase64Url 32 e.cid
  skid : IsKeyId e.skid
  n : IsBase64Url 24 e.n
  pad : 0 < e.pad ∧ e.pad ≤ Json.maxSafeInteger
  ct : IsBase64Url SABCL_MAX_ENVELOPE_BYTES e.ct
  tag : IsBase64Url 32 e.tag
  sig : IsBase64Url 128 e.sig

theorem sabclResponseEnvelopeSchema_fields {e : SabclResponseEnvelope}
    (h : sabclResponseEnvelopeSchema raw = some e) :
    ∃ members, Json.strictObject ["v", "cid", "skid", "n", "pad", "ct", "tag", "sig"] raw =
        some members ∧
      (Json.member members "v" >>=
        Json.boundedString 0 7 fun s => s == SABCL_PROTOCOL_VERSION) = some e.v ∧
      (Json.member members "cid" >>= base64Url 32) = some e.cid ∧
      (Json.member members "skid" >>= sabclKeyIdSchema) = some e.skid ∧
      (Json.member members "n" >>= base64Url 24) = some e.n ∧
      (Json.member members "pad" >>= Json.safeNatural).filter (fun pad => 0 < pad) = some e.pad ∧
      (Json.member members "ct" >>= base64Url SABCL_MAX_ENVELOPE_BYTES) = some e.ct ∧
      (Json.member members "tag" >>= base64Url 32) = some e.tag ∧
      (Json.member members "sig" >>= base64Url 128) = some e.sig := by
  obtain ⟨members, hmembers, h⟩ := Option.bind_eq_some_iff.mp h
  obtain ⟨v, hv, h⟩ := Option.bind_eq_some_iff.mp h
  obtain ⟨cid, hcid, h⟩ := Option.bind_eq_some_iff.mp h
  obtain ⟨skid, hskid, h⟩ := Option.bind_eq_some_iff.mp h
  obtain ⟨n, hn, h⟩ := Option.bind_eq_some_iff.mp h
  obtain ⟨pad, hpad, h⟩ := Option.bind_eq_some_iff.mp h
  obtain ⟨ct, hct, h⟩ := Option.bind_eq_some_iff.mp h
  obtain ⟨tag, htag, h⟩ := Option.bind_eq_some_iff.mp h
  obtain ⟨sig, hsig, h⟩ := Option.bind_eq_some_iff.mp h
  cases h
  exact ⟨members, hmembers, hv, hcid, hskid, hn, hpad, hct, htag, hsig⟩

theorem valid_of_sabclResponseEnvelopeSchema {e : SabclResponseEnvelope}
    (h : sabclResponseEnvelopeSchema raw = some e) : e.Valid := by
  obtain ⟨members, -, hv, hcid, hskid, hn, hpad, hct, htag, hsig⟩ :=
    sabclResponseEnvelopeSchema_fields h
  obtain ⟨hpad, hpos⟩ := Option.filter_eq_some_iff.mp hpad
  exact
    { v := (version_of_bind hv).2
      cid := (base64Url_of_bind hcid).2
      skid := (keyId_of_bind hskid).2
      n := (base64Url_of_bind hn).2
      pad := ⟨of_decide_eq_true hpos, (safe_of_bind hpad).1⟩
      ct := (base64Url_of_bind hct).2
      tag := (base64Url_of_bind htag).2
      sig := (base64Url_of_bind hsig).2 }

theorem sabclResponseEnvelopeSchema_toJson {e e' : SabclResponseEnvelope}
    (h : sabclResponseEnvelopeSchema e.toJson = some e') : e' = e := by
  obtain ⟨members, hmembers, hv, hcid, hskid, hn, hpad, hct, htag, hsig⟩ :=
    sabclResponseEnvelopeSchema_fields h
  cases hmembers
  have htext : ∀ {field : Option Json} {s s' : String},
      field = some (.string s') → field = some (.string s) → s' = s :=
    fun h' h => Json.string.inj (Option.some.inj (h'.symm.trans h))
  obtain ⟨hpad, -⟩ := Option.filter_eq_some_iff.mp hpad
  cases e'
  rw [SabclResponseEnvelope.mk.injEq]
  exact ⟨htext (version_of_bind hv).1 rfl, htext (base64Url_of_bind hcid).1 rfl,
    htext (keyId_of_bind hskid).1 rfl, htext (base64Url_of_bind hn).1 rfl,
    (safe_of_bind hpad).2 _ rfl, htext (base64Url_of_bind hct).1 rfl,
    htext (base64Url_of_bind htag).1 rfl, htext (base64Url_of_bind hsig).1 rfl⟩

theorem SabclResponseEnvelope.Valid.schema {e : SabclResponseEnvelope} (h : e.Valid) :
    sabclResponseEnvelopeSchema e.toJson = some e := by
  have hv : (Json.boundedString 0 7 fun s => s == SABCL_PROTOCOL_VERSION) (.string e.v) =
      some e.v := by
    rw [h.v]
    decide
  have hpad := safeNatural_filter (p := fun pad => 0 < pad) h.pad.2 (decide_eq_true h.pad.1)
  refine Option.bind_eq_some_iff.mpr ⟨e.v, hv, ?_⟩
  refine Option.bind_eq_some_iff.mpr ⟨e.cid, base64Url_string h.cid, ?_⟩
  refine Option.bind_eq_some_iff.mpr ⟨e.skid, sabclKeyIdSchema_string h.skid, ?_⟩
  refine Option.bind_eq_some_iff.mpr ⟨e.n, base64Url_string h.n, ?_⟩
  refine Option.bind_eq_some_iff.mpr ⟨e.pad, hpad, ?_⟩
  refine Option.bind_eq_some_iff.mpr ⟨e.ct, base64Url_string h.ct, ?_⟩
  refine Option.bind_eq_some_iff.mpr ⟨e.tag, base64Url_string h.tag, ?_⟩
  refine Option.bind_eq_some_iff.mpr ⟨e.sig, base64Url_string h.sig, ?_⟩
  rfl

/-! ## Canonical headers -/

theorem length_utf8_base64Url {s : String} (h : IsBase64Url max s) (hmax : max ≤ 64) :
    (utf8 s).length ≤ 256 := by
  have hutf8 := length_utf8_le s
  have hle := h.2.1
  omega

theorem length_utf8_keyId {s : String} (h : IsKeyId s) : (utf8 s).length ≤ 256 := by
  have hutf8 := length_utf8_le s
  have hle := h.2.1
  omega

theorem length_utf8_version {s : String} (h : s = SABCL_PROTOCOL_VERSION) :
    (utf8 s).length ≤ 256 := by
  have hutf8 := length_utf8_le s
  have hle : utf16Length s = 7 := by
    rw [h]
    decide
  omega

theorem length_canonicalEncode_le {fields : List Bytes} {n : ℕ}
    (h : ∀ field ∈ fields, field.length ≤ n) :
    (canonicalEncode fields).length ≤ fields.length * (n + 4) := by
  unfold canonicalEncode
  induction fields with
  | nil => simp
  | cons field fields ih =>
    have hfield := h field List.mem_cons_self
    have hrest := ih fun f hf => h f (List.mem_cons_of_mem _ hf)
    rw [List.flatMap_cons, List.length_append, List.length_append, length_uint32be,
      List.length_cons, Nat.succ_mul]
    omega

/-- An envelope without its ciphertext, tag and signature. -/
def SabclEnvelope.header (e : SabclEnvelope) : SabclEnvelope :=
  { e with ct := "", tag := "", sig := "" }

/-- No field of the canonical header is longer than 256 bytes. -/
theorem SabclEnvelope.Valid.short {e : SabclEnvelope} (he : e.Valid) :
    ∀ field ∈ [utf8 e.v, utf8 e.mid, utf8 e.rt, utf8 e.skid, utf8 e.rkid, utf8 e.epk,
      canonicalUInt e.iat, canonicalUInt e.exp, utf8 e.n, canonicalUInt e.hl,
      canonicalUInt e.pad], field.length ≤ 256 := by
  simp only [List.forall_mem_cons, List.not_mem_nil, false_implies, implies_true, and_true,
    length_canonicalUInt]
  exact ⟨length_utf8_version he.v, length_utf8_base64Url he.mid (by decide),
    length_utf8_base64Url he.rt (by decide), length_utf8_keyId he.skid,
    length_utf8_keyId he.rkid, length_utf8_base64Url he.epk (by decide), by decide, by decide,
    length_utf8_base64Url he.n (by decide), by decide, by decide⟩

theorem lt_of_short {fields : List Bytes} (h : ∀ field ∈ fields, field.length ≤ 256) :
    ∀ field ∈ fields, field.length < 2 ^ 32 := fun field hfield =>
  (h field hfield).trans_lt (by decide)

theorem SabclEnvelope.Valid.length_header {e : SabclEnvelope} (he : e.Valid) :
    (canonicalRequestHeader e).length < 2 ^ 32 :=
  (length_canonicalEncode_le he.short).trans_lt (by simp)

/-- The canonical header determines every field that it covers. -/
theorem canonicalRequestHeader_inj {e e' : SabclEnvelope} (he : e.Valid) (he' : e'.Valid)
    (h : canonicalRequestHeader e = canonicalRequestHeader e') : e.header = e'.header := by
  have hfields := canonicalEncode_inj (lt_of_short he.short) (lt_of_short he'.short) h
  simp only [List.cons.injEq, and_true] at hfields
  obtain ⟨hv, hmid, hrt, hskid, hrkid, hepk, hiat, hexp, hn, hhl, hpad⟩ := hfields
  have hhop : ∀ hl, hl ≤ SABCL_MAX_HOP_LIMIT → hl ≤ Json.maxSafeInteger :=
    fun hl hle => hle.trans (by decide)
  unfold SabclEnvelope.header
  rw [utf8_inj hv, utf8_inj hmid, utf8_inj hrt, utf8_inj hskid, utf8_inj hrkid, utf8_inj hepk,
    canonicalUInt_inj he.iat he'.iat hiat, canonicalUInt_inj he.exp he'.exp hexp, utf8_inj hn,
    canonicalUInt_inj (hhop _ he.hl) (hhop _ he'.hl) hhl,
    canonicalUInt_inj he.pad.2 he'.pad.2 hpad]

/-- A response without its ciphertext, tag and signature. -/
def SabclResponseEnvelope.header (e : SabclResponseEnvelope) : SabclResponseEnvelope :=
  { e with ct := "", tag := "", sig := "" }

theorem SabclResponseEnvelope.Valid.short {e : SabclResponseEnvelope} (he : e.Valid) :
    ∀ field ∈ [utf8 e.v, utf8 e.cid, utf8 e.skid, utf8 e.n, canonicalUInt e.pad],
      field.length ≤ 256 := by
  simp only [List.forall_mem_cons, List.not_mem_nil, false_implies, implies_true, and_true,
    length_canonicalUInt]
  exact ⟨length_utf8_version he.v, length_utf8_base64Url he.cid (by decide),
    length_utf8_keyId he.skid, length_utf8_base64Url he.n (by decide), by decide⟩

theorem SabclResponseEnvelope.Valid.length_header {e : SabclResponseEnvelope} (he : e.Valid) :
    (canonicalResponseHeader e).length < 2 ^ 32 :=
  (length_canonicalEncode_le he.short).trans_lt (by simp)

theorem canonicalResponseHeader_inj {e e' : SabclResponseEnvelope} (he : e.Valid)
    (he' : e'.Valid) (h : canonicalResponseHeader e = canonicalResponseHeader e') :
    e.header = e'.header := by
  have hfields := canonicalEncode_inj (lt_of_short he.short) (lt_of_short he'.short) h
  simp only [List.cons.injEq, and_true] at hfields
  obtain ⟨hv, hcid, hskid, hn, hpad⟩ := hfields
  unfold SabclResponseEnvelope.header
  rw [utf8_inj hv, utf8_inj hcid, utf8_inj hskid, utf8_inj hn,
    canonicalUInt_inj he.pad.2 he'.pad.2 hpad]

end AegisShield.Sabcl
