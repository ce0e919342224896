import AegisShield.Sabcl.Encoding

/-!
# Padding

`padPayload` and `unpadPayload` (`protocol/padding.ts`) at every length.

* `padding_exact`: a payload that fits the largest bucket with its length prefix is
  padded to the least bucket that holds both and is given back; a payload above the
  ceiling is refused; `unpadPayload` accepts a length prefix, a payload of that length
  and any bytes after it, and refuses everything else with a protocol error.
* `unpadded_outside_image`: it accepts strings that `padPayload` never makes, as it
  checks neither the fill nor the bucket.

**Deviation.** The ceiling of `padPayload` does not count the length prefix: a payload
of 65533 to 65536 bytes passes the check and finds no bucket, so that the call ends with
a `RangeError` (`padPayload_below_ceiling`).
-/

namespace AegisShield.Sabcl

open Common

/-! ## Padding -/

theorem paddingBucketFor_least {length bucket : ℕ} (h : paddingBucketFor length = .ok bucket) :
    IsLeast {b | b ∈ SABCL_PADDING_BUCKETS ∧ length ≤ b} bucket := by
  refine ⟨paddingBucketFor_ok h, ?_⟩
  rintro b ⟨hb, hle⟩
  unfold paddingBucketFor at h
  split at h
  next found hfound =>
    cases h
    -- the buckets ascend, so the first that fits is the least
    obtain ⟨-, before, after, hsplit, hbefore⟩ := List.find?_eq_some_iff_append.mp hfound
    have hsorted : SABCL_PADDING_BUCKETS.Pairwise (· ≤ ·) := by decide
    rw [hsplit] at hb hsorted
    rcases List.mem_append.mp hb with hb | hb
    · have hnot := hbefore b hb
      simp only [decide_eq_true hle] at hnot
      cases hnot
    · rcases List.mem_cons.mp hb with rfl | hb
      · exact le_rfl
      · exact List.rel_of_pairwise_cons (List.pairwise_append.mp hsorted).2.1 hb
  · cases h

variable {payload padded : Bytes}

/-- A payload that fits the largest bucket with its prefix is padded and given back. -/
theorem padPayload_fits (h : payload.length + LENGTH_PREFIX_BYTES ≤ SABCL_MAX_PLAINTEXT_BYTES) :
    ∃ padded bucket, padPayload payload = .ok (padded, bucket) ∧
      unpadPayload padded = .ok payload ∧ padded.length = bucket ∧
      IsLeast {b | b ∈ SABCL_PADDING_BUCKETS ∧ payload.length + LENGTH_PREFIX_BYTES ≤ b}
        bucket := by
  obtain ⟨padded, bucket, hpad⟩ := padPayload_of_length h
  obtain ⟨hlength, hunpad⟩ := unpadPayload_padPayload hpad
  refine ⟨padded, bucket, hpad, hunpad, hlength, ?_⟩
  unfold padPayload at hpad
  rw [if_neg (by omega)] at hpad
  obtain ⟨found, hbucket, hpad⟩ := bind_ok.mp hpad
  cases hpad
  exact paddingBucketFor_least hbucket

theorem padPayload_oversized (h : SABCL_MAX_PLAINTEXT_BYTES < payload.length) :
    padPayload payload = fail .SABCL_OVERSIZED "payload exceeds plaintext ceiling" := by
  unfold padPayload
  exact if_pos h

/-- A payload below the ceiling that leaves no room for its prefix finds no bucket. -/
theorem padPayload_below_ceiling (hceiling : payload.length ≤ SABCL_MAX_PLAINTEXT_BYTES)
    (hroom : SABCL_MAX_PLAINTEXT_BYTES < payload.length + LENGTH_PREFIX_BYTES) :
    padPayload payload =
      .error (.runtime "Payload exceeds the largest SABCL padding bucket.") := by
  have hnone : SABCL_PADDING_BUCKETS.find?
      (fun size => payload.length + LENGTH_PREFIX_BYTES ≤ size) = none := by
    rw [List.find?_eq_none]
    intro b hb
    have hle := (bucket_le hb).2
    rw [decide_eq_true_iff]
    omega
  unfold padPayload paddingBucketFor
  rw [if_neg (by omega), hnone]
  rfl

/-! ## Unpadding -/

theorem readUInt32be_lt (bytes : Bytes) : readUInt32be bytes < 2 ^ 32 := by
  unfold readUInt32be
  split
  next a b c d rest =>
    have ha := a.toNat_lt
    have hb := b.toNat_lt
    have hc := c.toNat_lt
    have hd := d.toNat_lt
    omega
  · decide

/-- The first four bytes are the number that they are read as. -/
theorem take_prefix {bytes : Bytes} (h : LENGTH_PREFIX_BYTES ≤ bytes.length) :
    bytes.take LENGTH_PREFIX_BYTES = uint32be (readUInt32be bytes) := by
  unfold LENGTH_PREFIX_BYTES at h ⊢
  rcases bytes with _ | ⟨a, _ | ⟨b, _ | ⟨c, _ | ⟨d, rest⟩⟩⟩⟩
  · exact absurd h (by decide)
  iterate 3
    · exact absurd h (by simp)
  · have ha := a.toNat_lt
    have hb := b.toNat_lt
    have hc := c.toNat_lt
    have hd := d.toNat_lt
    have hbyte : ∀ (n : ℕ) (u : UInt8), n % 256 = u.toNat → UInt8.ofNat n = u := by
      intro n u hn
      apply UInt8.toNat_inj.mp
      rw [UInt8.toNat_ofNat', hn]
    show [a, b, c, d] = _
    rw [uint32be, readUInt32be, hbyte _ a (by omega), hbyte _ b (by omega), hbyte _ c (by omega),
      hbyte _ d (by omega)]

/-- `unpadPayload` accepts a length prefix, a payload of that length and any bytes. -/
theorem unpadPayload_eq_ok :
    unpadPayload padded = .ok payload ↔
      payload.length < 2 ^ 32 ∧ ∃ fill, padded = uint32be payload.length ++ payload ++ fill := by
  unfold unpadPayload
  constructor
  · intro h
    dsimp only at h
    split_ifs at h with hshort hrange
    · cases h
    · cases h
    · have hread := readUInt32be_lt padded
      have htail : (padded.drop LENGTH_PREFIX_BYTES).length =
          padded.length - LENGTH_PREFIX_BYTES := List.length_drop
      have hlength : ((padded.drop LENGTH_PREFIX_BYTES).take (readUInt32be padded)).length =
          readUInt32be padded := by
        rw [List.length_take, htail]
        omega
      cases h
      rw [hlength]
      refine ⟨hread, (padded.drop LENGTH_PREFIX_BYTES).drop (readUInt32be padded), ?_⟩
      rw [List.append_assoc, List.take_append_drop, ← take_prefix (by omega),
        List.take_append_drop]
  · rintro ⟨hlt, fill, rfl⟩
    have hread : readUInt32be (uint32be payload.length ++ payload ++ fill) = payload.length := by
      rw [List.append_assoc, readUInt32be_uint32be hlt]
    have hlength : (uint32be payload.length ++ payload ++ fill).length =
        4 + payload.length + fill.length := by
      simp only [List.length_append, length_uint32be]
    rw [hread, hlength, if_neg (by unfold LENGTH_PREFIX_BYTES; omega)]
    simp only
    rw [if_neg (by unfold LENGTH_PREFIX_BYTES; omega), List.append_assoc,
      List.drop_left' (by rfl), List.take_left' rfl]

/-- `unpadPayload` throws nothing but a protocol error. -/
theorem unpadPayload_error {error : Thrown} (h : unpadPayload padded = .error error) :
    ∃ detail, error = .sabcl { code := .SABCL_MALFORMED, detail := some detail } := by
  unfold unpadPayload at h
  dsimp only at h
  split_ifs at h
  · cases h
    exact ⟨_, rfl⟩
  · cases h
    exact ⟨_, rfl⟩

/-- Padding is exact up to the largest bucket, and unpadding refuses what does not start
    with the length of what follows. -/
theorem padding_exact :
    (∀ payload : Bytes, payload.length + LENGTH_PREFIX_BYTES ≤ SABCL_MAX_PLAINTEXT_BYTES →
      ∃ padded bucket, padPayload payload = .ok (padded, bucket) ∧
        unpadPayload padded = .ok payload ∧ padded.length = bucket ∧
        IsLeast {b | b ∈ SABCL_PADDING_BUCKETS ∧ payload.length + LENGTH_PREFIX_BYTES ≤ b}
          bucket) ∧
    (∀ payload : Bytes, SABCL_MAX_PLAINTEXT_BYTES < payload.length →
      padPayload payload = fail .SABCL_OVERSIZED "payload exceeds plaintext ceiling") ∧
    ∀ padded : Bytes,
      (∀ payload fill : Bytes, payload.length < 2 ^ 32 →
        padded ≠ uint32be payload.length ++ payload ++ fill) →
      ∃ detail, unpadPayload padded = fail .SABCL_MALFORMED (some detail) := by
  refine ⟨fun payload h => padPayload_fits h, fun payload h => padPayload_oversized h, ?_⟩
  intro padded h
  rcases hunpad : unpadPayload padded with error | payload
  · obtain ⟨detail, rfl⟩ := unpadPayload_error hunpad
    exact ⟨detail, rfl⟩
  · obtain ⟨hlt, fill, hpadded⟩ := unpadPayload_eq_ok.mp hunpad
    exact absurd hpadded (h payload fill hlt)

/-- A short payload, one above the ceiling, and bytes that are too few for a length. -/
theorem padding_exact_short :
    (∃ padded bucket, padPayload [1, 2, 3] = .ok (padded, bucket) ∧
      unpadPayload padded = .ok [1, 2, 3]) ∧
    padPayload (List.replicate 65537 0) =
      fail .SABCL_OVERSIZED "payload exceeds plaintext ceiling" ∧
    ∃ detail, unpadPayload [0, 0, 0] = fail .SABCL_MALFORMED (some detail) := by
  obtain ⟨hfits, hoversized, hmalformed⟩ := padding_exact
  obtain ⟨padded, bucket, hpad, hunpad, -⟩ := hfits [1, 2, 3] (by decide)
  refine ⟨⟨padded, bucket, hpad, hunpad⟩, hoversized _ ?_, hmalformed _ ?_⟩
  · rw [List.length_replicate]
    decide
  · intro payload fill _ h
    have hlength := congrArg List.length h
    simp only [List.length_append, length_uint32be, List.length_cons, List.length_nil] at hlength
    omega

/-- Four zero bytes are no padded payload, and are unpadded. -/
theorem unpadded_outside_image :
    (∀ payload padded bucket, padPayload payload = .ok (padded, bucket) →
      padded ≠ [0, 0, 0, 0]) ∧
    unpadPayload [0, 0, 0, 0] = .ok [] := by
  refine ⟨?_, unpadPayload_eq_ok.mpr ⟨by decide, [], rfl⟩⟩
  rintro payload padded bucket hpad rfl
  obtain ⟨hlength, -⟩ := unpadPayload_padPayload hpad
  have hbucket : ∀ b ∈ SABCL_PADDING_BUCKETS, b ≠ 4 := by decide
  exact hbucket bucket (padPayload_ok hpad).1 hlength.symm

end AegisShield.Sabcl
