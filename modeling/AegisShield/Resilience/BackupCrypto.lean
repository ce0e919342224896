import AegisShield.Resilience.BackupSet

/-!
# What an encrypted backup file authenticates

`encryptBackupFile` and `decryptBackupFile` (`backup-crypto.ts`, lines 101-159) under an ideal
cipher: AES-256-GCM opens only what was sealed under the key.

Results:
* `decryptBackupFile_eq_ok`: a file that is decrypted is cut into header, nonce, tag and ciphertext
  without a rest.
* `backup_file_authentic`: what was encrypted is decrypted; every other file, and every other key,
  is rejected.
-/

namespace AegisShield.Resilience

open Common JsonText

/-! ## Sealings -/

/-- A call of the cipher that seals. -/
structure GcmSealing where
  key : Bytes
  nonce : Vector UInt8 12
  data : Bytes
  plaintext : Bytes

/-- The header of a file, which is the additional data. -/
def backupHeader : Bytes := BACKUP_MAGIC ++ [BACKUP_FORMAT_VERSION]

section
variable (rt : BackupRuntime)

/-- The tag and the ciphertext of a sealing. -/
def GcmSealing.output (s : GcmSealing) : Vector UInt8 16 × Bytes :=
  rt.gcmSeal s.key s.nonce s.data s.plaintext

/-- Ideal authenticated encryption, when these sealings were made. -/
structure IdealAead (made : Set GcmSealing) : Prop where
  /-- What opens was sealed under the key, with the nonce and the additional data. -/
  sealed_of_opens : ∀ key nonce data tag ciphertext plaintext,
    rt.gcmOpen key nonce data tag ciphertext = some plaintext →
    ∃ s ∈ made, s.key = key ∧ s.nonce.toList = nonce ∧ s.data = data ∧
      (s.output rt).1.toList = tag ∧ (s.output rt).2 = ciphertext
  /-- Two keys do not give one sealed text. -/
  key_of_output : ∀ s ∈ made, ∀ s' ∈ made, s.nonce = s'.nonce → s.data = s'.data →
    s.output rt = s'.output rt → s.key = s'.key

/-- The files that `encryptBackupFile` produced under a key. -/
def producedUnder (made : Set GcmSealing) (key : Bytes) : Set Bytes :=
  {file | ∃ s ∈ made, s.key = key ∧ s.data = backupHeader ∧
    encryptBackupFile rt s.plaintext s.key s.nonce = .ok file}

end

/-! ## The layout -/

variable {rt : BackupRuntime} {made : Set GcmSealing}

/-- A list is its first `n` elements, the next `m` and the rest. -/
theorem take_drop_take (file : Bytes) (n m : ℕ) :
    file = file.take n ++ ((file.drop n).take m ++ file.drop (n + m)) := by
  rw [← List.drop_drop, List.take_append_drop, List.take_append_drop]

theorem take_header {file : Bytes} (hmagic : file.take BACKUP_MAGIC.length = BACKUP_MAGIC)
    (hversion : (file.drop BACKUP_MAGIC.length).head? = some BACKUP_FORMAT_VERSION) :
    file.take (BACKUP_MAGIC.length + 1) = backupHeader := by
  rw [List.take_add, hmagic, List.take_one, hversion]
  rfl

/-- What a decrypted file consists of. -/
theorem decryptBackupFile_eq_ok {file key plaintext : Bytes}
    (h : decryptBackupFile rt file key = .ok plaintext) :
    key.length = BACKUP_KEY_BYTES ∧ ∃ nonce tag ciphertext,
      file = backupHeader ++ (nonce ++ (tag ++ ciphertext)) ∧
      rt.gcmOpen key nonce backupHeader tag ciphertext = some plaintext := by
  unfold decryptBackupFile at h
  split_ifs at h with hkey hshort hmagic hversion
  dsimp only at h
  rw [not_not] at hkey hmagic hversion
  rw [take_header hmagic hversion] at h
  split at h
  next opened hopen =>
    cases h
    refine ⟨hkey, _, _, _, ?_, hopen⟩
    rw [← take_header hmagic hversion]
    have hrest := take_drop_take (file.drop (BACKUP_MAGIC.length + 1)) BACKUP_NONCE_BYTES
      BACKUP_TAG_BYTES
    rw [List.drop_drop, List.drop_drop, ← Nat.add_assoc] at hrest
    rw [← hrest, List.take_append_drop]
  · cases h

/-- A file that is decrypted was produced under the key. -/
theorem produced_of_decrypted (hideal : IdealAead rt made) {file key plaintext : Bytes}
    (h : decryptBackupFile rt file key = .ok plaintext) : file ∈ producedUnder rt made key := by
  obtain ⟨hkey, nonce, tag, ciphertext, hfile, hopen⟩ := decryptBackupFile_eq_ok h
  obtain ⟨s, hs, rfl, rfl, hdata, rfl, rfl⟩ := hideal.sealed_of_opens _ _ _ _ _ _ hopen
  refine ⟨s, hs, rfl, hdata, ?_⟩
  unfold encryptBackupFile
  rw [if_neg (not_not.mpr hkey), hfile]
  unfold GcmSealing.output
  rw [hdata]
  simp only [backupHeader, List.append_assoc]

/-- A file is produced under one key only. -/
theorem key_of_produced (hideal : IdealAead rt made) {file key key' : Bytes}
    (h : file ∈ producedUnder rt made key) (h' : file ∈ producedUnder rt made key') :
    key = key' := by
  obtain ⟨s, hs, rfl, hdata, hfile⟩ := h
  obtain ⟨s', hs', rfl, hdata', hfile'⟩ := h'
  unfold encryptBackupFile at hfile hfile'
  split_ifs at hfile with hkey
  split_ifs at hfile' with hkey'
  have hsame := (Except.ok.inj hfile).trans (Except.ok.inj hfile').symm
  simp only [List.append_assoc, List.append_cancel_left_eq, List.cons_append, List.nil_append,
    List.cons.injEq, true_and] at hsame
  obtain ⟨hnonce, hrest⟩ := List.append_inj hsame (by simp)
  obtain ⟨htag, hciphertext⟩ := List.append_inj hrest (by simp)
  refine hideal.key_of_output s hs s' hs' (Vector.toList_inj.mp hnonce) (hdata.trans hdata'.symm) ?_
  unfold GcmSealing.output
  rw [hdata, hdata']
  exact Prod.ext (Vector.toList_inj.mp htag) hciphertext

/-! ## Main results -/

theorem exists_encryptBackupFile (rt : BackupRuntime) (plaintext : Bytes) {key : Bytes}
    (hkey : key.length = BACKUP_KEY_BYTES) (nonce : Vector UInt8 12) :
    ∃ file, encryptBackupFile rt plaintext key nonce = .ok file := by
  unfold encryptBackupFile
  rw [if_neg (not_not.mpr hkey)]
  exact ⟨_, rfl⟩

theorem rejected_of_not_decrypted {file key : Bytes}
    (h : ∀ plaintext, decryptBackupFile rt file key ≠ .ok plaintext) :
    ∃ failure, decryptBackupFile rt file key = .error failure := by
  rcases hresult : decryptBackupFile rt file key with failure | plaintext
  · exact ⟨failure, rfl⟩
  · exact absurd hresult (h plaintext)

/-- With a cipher that opens what it seals, every plaintext is encrypted under every key and
    decrypted again; with an ideal one, a byte string that was not produced under a key is
    rejected, and so is a produced file under any other key. -/
theorem backup_file_authentic (rt : BackupRuntime) :
    (rt.Lawful → ∀ plaintext key nonce, key.length = BACKUP_KEY_BYTES →
      ∃ file, encryptBackupFile rt plaintext key nonce = .ok file ∧
        decryptBackupFile rt file key = .ok plaintext) ∧
    ∀ made, IdealAead rt made →
      (∀ key file, file ∉ producedUnder rt made key →
        ∃ failure, decryptBackupFile rt file key = .error failure) ∧
      ∀ key key' file, file ∈ producedUnder rt made key → key' ≠ key →
        ∃ failure, decryptBackupFile rt file key' = .error failure := by
  refine ⟨fun hrt plaintext key nonce hkey => ?_, fun made hideal => ⟨?_, ?_⟩⟩
  · obtain ⟨file, hfile⟩ := exists_encryptBackupFile rt plaintext hkey nonce
    exact ⟨file, hfile, decryptBackupFile_encryptBackupFile hrt hfile⟩
  · intro key file hfile
    refine rejected_of_not_decrypted fun plaintext hplaintext => hfile ?_
    exact produced_of_decrypted hideal hplaintext
  · intro key key' file hfile hkey
    refine rejected_of_not_decrypted fun plaintext hplaintext => hkey ?_
    exact key_of_produced hideal (produced_of_decrypted hideal hplaintext) hfile

/-! ## Two sealings -/

/-- The beginning of the key for a tag, and the plaintext. -/
def keyTagged (key plaintext : Bytes) : Vector UInt8 16 × Bytes :=
  (Vector.ofFn fun i : Fin 16 => key.getD i 0, plaintext)

/-- A cipher that opens the recorded sealings. -/
def recordedRuntime (sealings : List GcmSealing) : BackupRuntime :=
  { plainBackupRuntime with
    gcmSeal := fun key _ _ plaintext => keyTagged key plaintext
    gcmOpen := fun key nonce data tag ciphertext =>
      (sealings.find? fun s => decide (s.key = key ∧ s.nonce.toList = nonce ∧ s.data = data ∧
        (keyTagged s.key s.plaintext).1.toList = tag ∧ s.plaintext = ciphertext)).map
          GcmSealing.plaintext }

/-- A dump sealed under a key. -/
def dumpSealing (key : Bytes) : GcmSealing := ⟨key, Vector.replicate 12 5, backupHeader, [1, 2, 3]⟩

/-- Another key. -/
def otherKey : Bytes := List.replicate 32 9

/-- One dump under two keys. -/
def twoSealings : List GcmSealing := [dumpSealing exampleKey, dumpSealing otherKey]

/-- The cipher is ideal for the recorded sealings, if their tags tell their keys. -/
theorem idealAead_recorded {sealings : List GcmSealing}
    (h : ∀ s ∈ sealings, ∀ s' ∈ sealings, (∀ i < 16, s.key.getD i 0 = s'.key.getD i 0) →
      s.key = s'.key) : IdealAead (recordedRuntime sealings) {s | s ∈ sealings} where
  sealed_of_opens key nonce data tag ciphertext plaintext hopen := by
    obtain ⟨s, hfind, -⟩ := Option.map_eq_some_iff.mp hopen
    have hmatch := List.find?_some hfind
    rw [decide_eq_true_iff] at hmatch
    obtain ⟨hkey, hnonce, hdata, htag, hciphertext⟩ := hmatch
    exact ⟨s, List.mem_of_find?_eq_some hfind, hkey, hnonce, hdata, htag, hciphertext⟩
  key_of_output s hs s' hs' _ _ houtput := by
    refine h s hs s' hs' fun i hi => ?_
    have htag : (keyTagged s.key s.plaintext).1[i] = (keyTagged s'.key s'.plaintext).1[i] := by
      rw [show keyTagged s.key s.plaintext = keyTagged s'.key s'.plaintext from houtput]
    simpa [keyTagged] using htag

/-- The dump is read under its key; its file is rejected under the other key, and without its last
    byte. -/
theorem backup_file_authentic_two :
    (∃ file, encryptBackupFile plainBackupRuntime [1, 2, 3] exampleKey (Vector.replicate 12 5) =
        .ok file ∧ decryptBackupFile plainBackupRuntime file exampleKey = .ok [1, 2, 3]) ∧
      (∃ failure, decryptBackupFile (recordedRuntime twoSealings)
        (backupHeader ++ List.replicate 12 5 ++ List.replicate 16 7 ++ [1, 2]) exampleKey =
          .error failure) ∧
      ∃ failure, decryptBackupFile (recordedRuntime twoSealings)
        (backupHeader ++ List.replicate 12 5 ++ List.replicate 16 7 ++ [1, 2, 3]) otherKey =
          .error failure := by
  have hideal : IdealAead (recordedRuntime twoSealings) {s | s ∈ twoSealings} := by
    refine idealAead_recorded fun s hs s' hs' hsame => ?_
    have hfirst := hsame 0 (by decide)
    simp only [twoSealings, List.mem_cons, List.not_mem_nil, or_false] at hs hs'
    rcases hs with rfl | rfl <;> rcases hs' with rfl | rfl
    · rfl
    · exact absurd hfirst (by decide)
    · exact absurd hfirst (by decide)
    · rfl
  have hlawful : plainBackupRuntime.Lawful := ⟨fun _ _ _ _ => rfl, fun _ => rfl⟩
  refine ⟨(backup_file_authentic _).1 hlawful _ _ _ (by decide), ?_, ?_⟩
  · refine ((backup_file_authentic _).2 _ hideal).1 _ _ ?_
    rintro ⟨s, hs, hkey, -, hfile⟩
    change s ∈ twoSealings at hs
    simp only [twoSealings, List.mem_cons, List.not_mem_nil, or_false] at hs
    rcases hs with rfl | rfl
    · exact absurd hfile (by decide)
    · exact absurd hkey (by decide)
  · refine ((backup_file_authentic _).2 _ hideal).2 exampleKey _ _ ?_ (by decide)
    exact ⟨dumpSealing exampleKey, List.mem_cons_self, rfl, rfl, by decide⟩

end AegisShield.Resilience
