import AegisShield.Common.JsonText
import AegisShield.Resilience.Drills

/-!
# Backup sets

The format of a backup set and its verification: the encryption of one dump
(`contracts/resilience/backup-crypto.ts`), the manifest schema
(`contracts/resilience/v1.ts`, lines 123-155) and `readBackupSet` and
`verifyBackupSet` (`scripts/dr-lib.mjs`, lines 180-271).

SHA-256, AES-256-GCM, the check of `z.iso.datetime()` and what `JSON` and `Date` do
beyond the text of objects, strings and safe natural numbers are parameters.

* `decryptBackupFile_encryptBackupFile`: what was encrypted is decrypted.
* `parseManifest_toJson`: the schema accepts every manifest that it has returned.
* `verifyBackupSet_eq_ok`: what an accepted set consists of.
* `verified_set_restorable`: an accepted set holds a file of its own for each service
  in scope if and only if its entries name distinct files.

**Deviation.** The schema refuses a service that appears twice, but not a file name that
does: `shared_file_verified` is an accepted set whose five entries name one file.
-/

namespace AegisShield.Resilience

open Common JsonText

abbrev Bytes := List UInt8

/-! ## The runtime -/

/-- What the tools take from Node and from `zod`. -/
structure BackupRuntime where
  numbers : NumberText
  /-- The decoding of bytes that are not UTF-8. -/
  decodeInvalid : Bytes → List Char
  sha256 : Bytes → Vector UInt8 32
  /-- AES-256-GCM on key, nonce, additional data and plaintext: the tag and the ciphertext. -/
  gcmSeal : Bytes → Vector UInt8 12 → Bytes → Bytes → Vector UInt8 16 × Bytes
  /-- AES-256-GCM on key, nonce, additional data, tag and ciphertext; `none` when `final` throws. -/
  gcmOpen : Bytes → Bytes → Bytes → Bytes → Bytes → Option Bytes
  /-- `z.iso.datetime()`. -/
  isIsoDateTime : JsString → Bool
  /-- `left.localeCompare(right) <= 0`. -/
  localeLe : JsString → JsString → Bool
  /-- `Date.prototype.toISOString`, on milliseconds since the epoch. -/
  toISOString : ℤ → JsString
  /-- `Date.parse`; `none` for `NaN`. -/
  dateParse : JsonValue → Option ℤ

/-- What the tools rely on. -/
structure BackupRuntime.Lawful (rt : BackupRuntime) : Prop where
  /-- AES-256-GCM opens what it sealed. -/
  gcmOpen_gcmSeal : ∀ (key : Bytes) (nonce : Vector UInt8 12) (data plaintext : Bytes),
    rt.gcmOpen key nonce.toList data (rt.gcmSeal key nonce data plaintext).1.toList
      (rt.gcmSeal key nonce data plaintext).2 = some plaintext
  /-- A printed date is read as a date. -/
  dateParse_toISOString : ∀ t, (rt.dateParse (.string (rt.toISOString t))).isSome = true

/-- `BackupCryptoError['code']`. -/
inductive BackupCryptoErrorCode where
  | KEY_INVALID
  | FORMAT_INVALID
  | TRUNCATED
  | DECRYPTION_FAILED
  | CHECKSUM_MISMATCH
  deriving DecidableEq

/-- What the tools throw. -/
inductive Failure where
  | error (message : String)
  | crypto (code : BackupCryptoErrorCode)
  /-- A `ZodError`. -/
  | schema
  /-- An error of the file system or of a child process. -/
  | system (message : String)
  deriving DecidableEq

/-- A value, or what is thrown in its absence. -/
def orThrow {α : Type} (failure : Failure) : Option α → Except Failure α
  | some a => .ok a
  | none => .error failure

theorem orThrow_eq_ok {α : Type} {failure : Failure} {o : Option α} {a : α} :
    orThrow failure o = .ok a ↔ o = some a := by
  cases o with
  | none | some => simp [orThrow]

theorem bind_eq_ok {α β : Type} {x : Except Failure α} {f : α → Except Failure β} {b : β} :
    (x >>= f) = .ok b ↔ ∃ a, x = .ok a ∧ f a = .ok b := by
  cases x with
  | error | ok => simp [bind, Except.bind]

/-! ## Bytes and texts -/

/-- `Buffer.from(text, 'utf8')`. -/
def utf8Bytes (text : List Char) : Bytes := (String.ofList text).toByteArray.data.toList

/-- `buffer.toString('utf8')`. -/
def utf8Text (rt : BackupRuntime) (bytes : Bytes) : List Char :=
  match (ByteArray.mk bytes.toArray).utf8Decode? with
  | some text => text.toList
  | none => rt.decodeInvalid bytes

/-- The code unit of a lower-case hexadecimal digit. -/
def hexUnit (n : ℕ) : UInt16 := UInt16.ofNat (if n < 10 then 48 + n else 87 + n)

/-- `bytes.toString('hex')`. -/
def hexText (bytes : Bytes) : JsString :=
  bytes.flatMap fun b => [hexUnit (b.toNat / 16), hexUnit (b.toNat % 16)]

/-- The value of a hexadecimal digit. -/
def hexUnitValue (u : UInt16) : Option ℕ :=
  if 48 ≤ u ∧ u ≤ 57 then some (u.toNat - 48)
  else if 97 ≤ u ∧ u ≤ 102 then some (u.toNat - 87)
  else if 65 ≤ u ∧ u ≤ 70 then some (u.toNat - 55)
  else none

/-- `Buffer.from(text, 'hex')`, which stops at the first pair that is not hexadecimal. -/
def bufferFromHex : JsString → Bytes
  | high :: low :: rest =>
    match hexUnitValue high, hexUnitValue low with
    | some h, some l => UInt8.ofNat (16 * h + l) :: bufferFromHex rest
    | _, _ => []
  | _ => []

/-- `[A-Za-z0-9]`. -/
def isAlphanumeric (u : UInt16) : Bool :=
  (48 ≤ u && u ≤ 57) || (65 ≤ u && u ≤ 90) || (97 ≤ u && u ≤ 122)

/-- `opaqueIdentifier`, `/^[A-Za-z0-9:_-]{8,128}$/u`. -/
def isOpaqueIdentifier (s : JsString) : Bool :=
  decide (8 ≤ s.length ∧ s.length ≤ 128) &&
    s.all fun u => isAlphanumeric u || u = 58 || u = 95 || u = 45

/-- `/^[A-Za-z0-9][A-Za-z0-9._-]{0,127}$/u`. -/
def isFileName : JsString → Bool
  | [] => false
  | first :: rest => isAlphanumeric first && decide (rest.length ≤ 127) &&
    rest.all fun u => isAlphanumeric u || u = 46 || u = 95 || u = 45

/-- `/^[0-9a-f]{64}$/u`. -/
def isChecksum (s : JsString) : Bool :=
  decide (s.length = 64) && s.all fun u => (48 ≤ u && u ≤ 57) || (97 ≤ u && u ≤ 102)

/-! ## Encryption of one dump (`backup-crypto.ts`) -/

section
variable (rt : BackupRuntime)

def BACKUP_KEY_BYTES : ℕ := 32
def BACKUP_NONCE_BYTES : ℕ := 12
def BACKUP_TAG_BYTES : ℕ := 16
def BACKUP_FORMAT_VERSION : UInt8 := 1

/-- `BACKUP_MAGIC`: `AEGISBK1`. -/
def BACKUP_MAGIC : Bytes := [65, 69, 71, 73, 83, 66, 75, 49]

def BACKUP_HEADER_BYTES : ℕ := BACKUP_MAGIC.length + 1 + BACKUP_NONCE_BYTES + BACKUP_TAG_BYTES

/-- `sha256Hex` (lines 90-92). -/
def sha256Hex (bytes : Bytes) : JsString := hexText (rt.sha256 bytes).toList

/-- `encryptBackupFile` (lines 101-116) with its random nonce. -/
def encryptBackupFile (plaintext key : Bytes) (nonce : Vector UInt8 12) : Except Failure Bytes :=
  if key.length ≠ BACKUP_KEY_BYTES then .error (.crypto .KEY_INVALID)
  else
    let header := BACKUP_MAGIC ++ [BACKUP_FORMAT_VERSION]
    let sealed := rt.gcmSeal key nonce header plaintext
    .ok (header ++ nonce.toList ++ sealed.1.toList ++ sealed.2)

/-- `decryptBackupFile` (lines 125-159). -/
def decryptBackupFile (file key : Bytes) : Except Failure Bytes :=
  if key.length ≠ BACKUP_KEY_BYTES then .error (.crypto .KEY_INVALID)
  else if file.length < BACKUP_HEADER_BYTES then .error (.crypto .TRUNCATED)
  else if file.take BACKUP_MAGIC.length ≠ BACKUP_MAGIC then .error (.crypto .FORMAT_INVALID)
  else if (file.drop BACKUP_MAGIC.length).head? ≠ some BACKUP_FORMAT_VERSION then
    .error (.crypto .FORMAT_INVALID)
  else
    let offset := BACKUP_MAGIC.length + 1
    let nonce := (file.drop offset).take BACKUP_NONCE_BYTES
    let offset := offset + BACKUP_NONCE_BYTES
    let tag := (file.drop offset).take BACKUP_TAG_BYTES
    let offset := offset + BACKUP_TAG_BYTES
    let ciphertext := file.drop offset
    match rt.gcmOpen key nonce (file.take (BACKUP_MAGIC.length + 1)) tag ciphertext with
    | some plaintext => .ok plaintext
    | none => .error (.crypto .DECRYPTION_FAILED)

/-- `verifyChecksum` (lines 162-169). -/
def verifyChecksum (file : Bytes) (expected : JsString) : Except Failure Unit :=
  if bufferFromHex (sha256Hex rt file) ≠ bufferFromHex expected then
    .error (.crypto .CHECKSUM_MISMATCH)
  else .ok ()

end

/-! ## The manifest (`v1.ts`) -/

/-- The name of a service. -/
def ResilienceServiceName.text : ResilienceServiceName → String
  | identity => "identity"
  | ledger => "ledger"
  | payments => "payments"
  | risk => "risk"
  | resilience => "resilience"

/-- `BACKUP_SCOPE` (`dr-lib.mjs`, lines 53-59): the services and the variables of
    their database URLs. -/
def BACKUP_SCOPE : List (ResilienceServiceName × String) :=
  [(.identity, "IDENTITY_DATABASE_URL"), (.ledger, "LEDGER_DATABASE_URL"),
    (.payments, "PAYMENTS_DATABASE_URL"), (.risk, "RISK_DATABASE_URL"),
    (.resilience, "RESILIENCE_DATABASE_URL")]

/-- The file name that `backup.mjs` gives to a dump. -/
def dumpName (service : ResilienceServiceName) : JsString := jsString (service.text ++ ".dump.enc")

/-- A value that `backupManifestEntrySchema` returns. -/
structure BackupManifestEntry where
  service : ResilienceServiceName
  fileName : JsString
  checksum : JsString
  sizeBytes : ℕ
  migrationVersion : Option JsString
  fileName_ok : isFileName fileName = true
  checksum_ok : isChecksum checksum = true
  sizeBytes_le : sizeBytes ≤ maxSafe
  migrationVersion_ok : ∀ v ∈ migrationVersion, 1 ≤ v.length ∧ v.length ≤ 128

/-- A value that `backupManifestSchema` returns, without its literals. -/
structure BackupManifest (rt : BackupRuntime) where
  backupSetId : JsString
  createdAt : JsString
  entries : List BackupManifestEntry
  backupSetId_ok : isOpaqueIdentifier backupSetId = true
  createdAt_ok : rt.isIsoDateTime createdAt = true
  length_ok : 1 ≤ entries.length ∧ entries.length ≤ 16
  services_nodup : (entries.map BackupManifestEntry.service).Nodup

/-- The members of an object, all of whose names are among `names`. -/
def strictMembers (names : List String) : JsonValue → Option (List (JsString × JsonValue))
  | .object members =>
    if members.all fun m => (names.map jsString).contains m.1 then some members else none
  | _ => none

/-- The string that a member holds. -/
def stringAt (members : List (JsString × JsonValue)) (name : String) : Option JsString :=
  match members.lookup (jsString name) with
  | some (.string s) => some s
  | _ => none

/-- `z.string().min(1).max(128).nullable()`, whose value `null` is `none`. -/
def migrationAt (members : List (JsString × JsonValue)) : Option (Option JsString) :=
  match members.lookup (jsString "migrationVersion") with
  | some .null => some none
  | some (.string s) => if 1 ≤ s.length ∧ s.length ≤ 128 then some (some s) else none
  | _ => none

/-- `z.number().int().nonnegative()`, which accepts safe integers only. -/
def sizeAt (members : List (JsString × JsonValue)) : Option ℕ :=
  match members.lookup (jsString "sizeBytes") with
  | some (.number q) =>
    if q.den = 1 ∧ 0 ≤ q.num ∧ q.num.toNat ≤ maxSafe then some q.num.toNat else none
  | _ => none

/-- `resilienceServiceNameSchema`. -/
def serviceAt (members : List (JsString × JsonValue)) : Option ResilienceServiceName := do
  let s ← stringAt members "service"
  (BACKUP_SCOPE.map Prod.fst).find? fun service => decide (jsString service.text = s)

/-- `backupManifestEntrySchema` (lines 123-133). -/
def parseEntry (value : JsonValue) : Option BackupManifestEntry := do
  let members ← strictMembers
    ["service", "fileName", "checksum", "sizeBytes", "migrationVersion"] value
  let service ← serviceAt members
  let fileName ← stringAt members "fileName"
  let checksum ← stringAt members "checksum"
  let sizeBytes ← sizeAt members
  let migrationVersion ← migrationAt members
  if h : isFileName fileName = true ∧ isChecksum checksum = true ∧ sizeBytes ≤ maxSafe ∧
      ∀ v ∈ migrationVersion, 1 ≤ v.length ∧ v.length ≤ 128 then
    some ⟨service, fileName, checksum, sizeBytes, migrationVersion, h.1, h.2.1, h.2.2.1, h.2.2.2⟩
  else none

/-- The entries of a manifest. -/
def entriesAt (members : List (JsString × JsonValue)) : Option (List BackupManifestEntry) :=
  match members.lookup (jsString "entries") with
  | some (.array items) => items.mapM parseEntry
  | _ => none

/-- `backupManifestSchema` (lines 135-155). -/
def parseManifest (rt : BackupRuntime) (value : JsonValue) : Option (BackupManifest rt) := do
  let members ← strictMembers ["manifestVersion", "backupSetId", "createdAt",
    "encryptionAlgorithm", "keyDerivation", "entries"] value
  let manifestVersion ← stringAt members "manifestVersion"
  let backupSetId ← stringAt members "backupSetId"
  let createdAt ← stringAt members "createdAt"
  let encryptionAlgorithm ← stringAt members "encryptionAlgorithm"
  let keyDerivation ← stringAt members "keyDerivation"
  let entries ← entriesAt members
  if manifestVersion = jsString "1.0" ∧ encryptionAlgorithm = jsString "AES-256-GCM" ∧
      keyDerivation = jsString "raw-256-bit" then
    if h : isOpaqueIdentifier backupSetId = true ∧ rt.isIsoDateTime createdAt = true ∧
        (1 ≤ entries.length ∧ entries.length ≤ 16) ∧
        (entries.map BackupManifestEntry.service).Nodup then
      some ⟨backupSetId, createdAt, entries, h.1, h.2.1, h.2.2.1, h.2.2.2⟩
    else none
  else none

/-- An entry as the schema returns it. -/
def BackupManifestEntry.toJson (entry : BackupManifestEntry) : JsonValue :=
  .object [(jsString "service", .string (jsString entry.service.text)),
    (jsString "fileName", .string entry.fileName),
    (jsString "checksum", .string entry.checksum),
    (jsString "sizeBytes", .number entry.sizeBytes),
    (jsString "migrationVersion", (entry.migrationVersion.map JsonValue.string).getD .null)]

/-- A manifest as the schema returns it. -/
def BackupManifest.toJson {rt : BackupRuntime} (m : BackupManifest rt) : JsonValue :=
  .object [(jsString "manifestVersion", .string (jsString "1.0")),
    (jsString "backupSetId", .string m.backupSetId),
    (jsString "createdAt", .string m.createdAt),
    (jsString "encryptionAlgorithm", .string (jsString "AES-256-GCM")),
    (jsString "keyDerivation", .string (jsString "raw-256-bit")),
    (jsString "entries", .array (m.entries.map BackupManifestEntry.toJson))]

/-! ## `canonicalManifestBytes` (`backup-crypto.ts`, lines 177-190) -/

mutual

/-- `sort`: the members of every object in the order of their names. -/
def sortKeys (rt : BackupRuntime) : JsonValue → JsonValue
  | .array items => .array (sortItems rt items)
  | .object members =>
    .object ((sortMembers rt members).mergeSort fun left right => rt.localeLe left.1 right.1)
  | value => value

/-- `sort` on the items of an array. -/
def sortItems (rt : BackupRuntime) : List JsonValue → List JsonValue
  | [] => []
  | item :: items => sortKeys rt item :: sortItems rt items

/-- `sort` on the values of the members. -/
def sortMembers (rt : BackupRuntime) : List (JsString × JsonValue) → List (JsString × JsonValue)
  | [] => []
  | (name, value) :: members => (name, sortKeys rt value) :: sortMembers rt members

end

/-- `canonicalManifestBytes`. -/
def canonicalManifestBytes {rt : BackupRuntime} (m : BackupManifest rt) : Bytes :=
  utf8Bytes (stringify rt.numbers [] (sortKeys rt m.toJson))

/-! ## Reading and verifying a set (`dr-lib.mjs`) -/

/-- What a name in a directory stands for. A link holds what reading through it gives. -/
inductive Node where
  | file (bytes : Bytes)
  | link (target : Option Bytes)
  | directory
  deriving DecidableEq

/-- A directory: distinct names. -/
structure Directory where
  nodes : List (JsString × Node)
  nodup : (nodes.map Prod.fst).Nodup

/-- What stands under a name. -/
def Directory.node (d : Directory) (name : JsString) : Option Node := d.nodes.lookup name

/-- `readFileSync`. -/
def Directory.readFile (d : Directory) (name : JsString) : Option Bytes :=
  match d.node name with
  | some (.file bytes) => some bytes
  | some (.link target) => target
  | _ => none

/-- `basename`: the part after the last slash, slashes at the end left out. -/
def basename (path : JsString) : JsString :=
  ((path.reverse.dropWhile (· = 47)).takeWhile (· ≠ 47)).reverse

/-- `assertSafeFileName` (lines 180-190). -/
def assertSafeFileName (fileName : JsString) : Except Failure Unit :=
  if fileName.length = 0 ∨ fileName ≠ basename fileName ∨ fileName.head? = some 46 ∨
      isFileName fileName = false then
    .error (.error "Manifest entry names an unsafe file.")
  else .ok ()

/-- `assertRegularFile` (lines 193-201). -/
def assertRegularFile (d : Directory) (name : JsString) : Except Failure Unit :=
  match d.node name with
  | none => .error (.system "ENOENT")
  | some (.link _) => .error (.error "Backup set contains a symbolic link.")
  | some .directory => .error (.error "Backup set entry is not a regular file.")
  | some (.file _) => .ok ()

/-- `assertKnownService` (lines 203-207). -/
def assertKnownService (service : ResilienceServiceName) : Except Failure Unit :=
  if service ∈ BACKUP_SCOPE.map Prod.fst then .ok ()
  else .error (.error "Manifest names an unknown service.")

section
variable (rt : BackupRuntime)

/-- `JSON.parse(readFileSync(join(directory, 'manifest.json'), 'utf8'))`. -/
def readManifestJson (d : Directory) : Option JsonValue := do
  let bytes ← d.readFile (jsString "manifest.json")
  parse rt.numbers (utf8Text rt bytes)

/-- The loop of `readBackupSet` over the entries (lines 230-236). -/
def checkEntries (present : List JsString) : List BackupManifestEntry → Except Failure Unit
  | [] => .ok ()
  | entry :: entries => do
    assertSafeFileName entry.fileName
    assertKnownService entry.service
    if entry.fileName ∉ present then
      .error (.error "Backup set is incomplete: a listed file is missing.")
    else checkEntries present entries

/-- The loop of `readBackupSet` over the scope (lines 241-245). -/
def checkScope (covered : List ResilienceServiceName) :
    List (ResilienceServiceName × String) → Except Failure Unit
  | [] => .ok ()
  | (service, _) :: scope =>
    if service ∉ covered then
      .error (.error ("Backup set is incomplete: " ++ service.text ++ " is missing."))
    else checkScope covered scope

/-- `readBackupSet` (lines 216-248). -/
def readBackupSet (d : Directory) : Except Failure (BackupManifest rt) := do
  let parsed ← orThrow (.error "Backup set manifest is missing or unreadable.")
    (readManifestJson rt d)
  let manifest ← orThrow .schema (parseManifest rt parsed)
  checkEntries ((d.nodes.map Prod.fst).filter fun name => decide (name ≠ jsString "manifest.json"))
    manifest.entries
  checkScope (manifest.entries.map BackupManifestEntry.service) BACKUP_SCOPE
  return manifest

/-- One round of the loop of `verifyBackupSet` (lines 254-268): the size of the file. -/
def verifyEntry (d : Directory) (key : Option Bytes) (entry : BackupManifestEntry) :
    Except Failure ℕ := do
  assertRegularFile d entry.fileName
  let file ← orThrow (.system "ENOENT") (d.readFile entry.fileName)
  if file.length ≠ entry.sizeBytes then
    .error (.error "Backup file size does not match the manifest.")
  else
    verifyChecksum rt file entry.checksum
    match key with
    | some key =>
      let _ ← decryptBackupFile rt file key
      return file.length
    | none => return file.length

/-- The loop of `verifyBackupSet` over the entries. -/
def verifyEntries (d : Directory) (key : Option Bytes) (totalBytes : ℕ) :
    List BackupManifestEntry → Except Failure ℕ
  | [] => .ok totalBytes
  | entry :: entries => do
    let size ← verifyEntry rt d key entry
    verifyEntries d key (totalBytes + size) entries

/-- What `verifyBackupSet` returns. -/
structure VerifiedSet where
  manifest : BackupManifest rt
  totalBytes : ℕ
  manifestChecksum : JsString

/-- `verifyBackupSet` (lines 251-271). -/
def verifyBackupSet (d : Directory) (key : Option Bytes) : Except Failure (VerifiedSet rt) := do
  let manifest ← readBackupSet rt d
  let totalBytes ← verifyEntries rt d key 0 manifest.entries
  return ⟨manifest, totalBytes, sha256Hex rt (canonicalManifestBytes manifest)⟩

end

/-! ## Bytes and texts -/

section
variable {rt : BackupRuntime}

theorem utf8Text_utf8Bytes (text : List Char) : utf8Text rt (utf8Bytes text) = text := by
  have hbytes : ByteArray.mk (utf8Bytes text).toArray = text.utf8Encode := by
    rw [utf8Bytes, String.toByteArray_ofList]
  rw [utf8Text, hbytes, List.utf8Decode?_utf8Encode]

theorem hexUnitValue_hexUnit : ∀ n < 16, hexUnitValue (hexUnit n) = some n := by decide

theorem bufferFromHex_hexText (bytes : Bytes) : bufferFromHex (hexText bytes) = bytes := by
  induction bytes with
  | nil => rfl
  | cons b bytes ih =>
    have hb : b.toNat < 256 := b.toNat_lt
    show bufferFromHex (hexUnit (b.toNat / 16) :: hexUnit (b.toNat % 16) :: hexText bytes) = _
    rw [bufferFromHex, hexUnitValue_hexUnit _ (by omega), hexUnitValue_hexUnit _ (by omega)]
    simp only [ih]
    rw [Nat.div_add_mod, UInt8.ofNat_toNat]

/-- A digit that the schema allows is the digit of its value. -/
theorem hexUnit_of_digit {u : UInt16} (h : ((48 ≤ u && u ≤ 57) || (97 ≤ u && u ≤ 102)) = true) :
    ∃ n < 16, hexUnitValue u = some n ∧ hexUnit n = u := by
  simp only [Bool.or_eq_true, Bool.and_eq_true, decide_eq_true_eq, UInt16.le_iff_toNat_le,
    UInt16.reduceToNat] at h
  have hall : ∀ n < 103, (48 ≤ n ∧ n ≤ 57 ∨ 97 ≤ n ∧ n ≤ 102) →
      ∃ k < 16, hexUnitValue (UInt16.ofNat n) = some k ∧ hexUnit k = UInt16.ofNat n := by decide
  obtain ⟨k, hk, hvalue, hunit⟩ := hall u.toNat (by rcases h with h | h <;> omega) h
  rw [UInt16.ofNat_toNat] at hvalue hunit
  exact ⟨k, hk, hvalue, hunit⟩

theorem hexText_bufferFromHex : ∀ (n : ℕ) (s : JsString), s.length = 2 * n →
    (∀ u ∈ s, ((48 ≤ u && u ≤ 57) || (97 ≤ u && u ≤ 102)) = true) →
    hexText (bufferFromHex s) = s := by
  intro n
  induction n with
  | zero =>
    intro s hlength hdigit
    rw [List.length_eq_zero_iff.mp hlength]
    rfl
  | succ n ih =>
    intro s hlength hdigit
    rcases s with _ | ⟨high, _ | ⟨low, s⟩⟩
    · simp at hlength
    · simp at hlength
      omega
    · obtain ⟨h, hh, hhvalue, hhunit⟩ := hexUnit_of_digit (hdigit high (by simp))
      obtain ⟨l, hl, hlvalue, hlunit⟩ := hexUnit_of_digit (hdigit low (by simp))
      have hrest := ih s (by simp at hlength; omega) fun u hu => hdigit u (by simp [hu])
      have hbyte : (UInt8.ofNat (16 * h + l)).toNat = 16 * h + l := by
        rw [UInt8.toNat_ofNat', Nat.mod_eq_of_lt (by omega)]
      rw [bufferFromHex, hhvalue, hlvalue]
      show hexUnit ((UInt8.ofNat (16 * h + l)).toNat / 16) ::
        hexUnit ((UInt8.ofNat (16 * h + l)).toNat % 16) :: hexText (bufferFromHex s) = _
      rw [hbyte, show (16 * h + l) / 16 = h by omega, show (16 * h + l) % 16 = l by omega, hhunit,
        hlunit, hrest]

variable {file : Bytes} {members : List (JsString × JsonValue)} {name : JsString}

/-- The checksum check accepts the digest as the schema spells it, and nothing else. -/
theorem verifyChecksum_eq_ok {expected : JsString} (hexpected : isChecksum expected = true) :
    verifyChecksum rt file expected = .ok () ↔ sha256Hex rt file = expected := by
  rw [isChecksum, Bool.and_eq_true, decide_eq_true_iff, List.all_eq_true] at hexpected
  unfold verifyChecksum
  constructor
  · intro h
    split_ifs at h with hne
    have heq : bufferFromHex (sha256Hex rt file) = bufferFromHex expected := not_not.mp hne
    rw [← hexText_bufferFromHex 32 expected hexpected.1 hexpected.2, ← heq, sha256Hex,
      bufferFromHex_hexText]
  · rintro rfl
    exact if_neg (not_not.mpr rfl)

/-! ## Encryption -/

/-- What was encrypted is decrypted under the same key. -/
theorem decryptBackupFile_encryptBackupFile (hrt : rt.Lawful) {plaintext key : Bytes}
    {nonce : Vector UInt8 12} (h : encryptBackupFile rt plaintext key nonce = .ok file) :
    decryptBackupFile rt file key = .ok plaintext := by
  unfold encryptBackupFile at h
  split_ifs at h with hkey
  cases h
  have hopen := hrt.gcmOpen_gcmSeal key nonce (BACKUP_MAGIC ++ [BACKUP_FORMAT_VERSION]) plaintext
  set sealed := rt.gcmSeal key nonce (BACKUP_MAGIC ++ [BACKUP_FORMAT_VERSION]) plaintext
  have hnonce : nonce.toList.length = BACKUP_NONCE_BYTES := nonce.length_toList
  have htag : sealed.1.toList.length = BACKUP_TAG_BYTES := sealed.1.length_toList
  obtain ⟨file, hfile⟩ : ∃ file, file = BACKUP_MAGIC ++ [BACKUP_FORMAT_VERSION] ++ nonce.toList ++
    sealed.1.toList ++ sealed.2 := ⟨_, rfl⟩
  have hbody : file = BACKUP_MAGIC ++ [BACKUP_FORMAT_VERSION] ++
      (nonce.toList ++ (sealed.1.toList ++ sealed.2)) := by
    rw [hfile, List.append_assoc, List.append_assoc]
  have hlength : BACKUP_HEADER_BYTES ≤ file.length := by
    rw [hbody]
    simp only [List.length_append, hnonce, htag]
    show 37 ≤ 9 + (12 + (16 + _))
    omega
  have hmagic : file.take BACKUP_MAGIC.length = BACKUP_MAGIC := by rw [hbody]; rfl
  have hversion : (file.drop BACKUP_MAGIC.length).head? = some BACKUP_FORMAT_VERSION := by
    rw [hbody]
    rfl
  have hheader : file.take (BACKUP_MAGIC.length + 1) = BACKUP_MAGIC ++ [BACKUP_FORMAT_VERSION] := by
    rw [hbody]
    rfl
  have hdrop : file.drop (BACKUP_MAGIC.length + 1) =
      nonce.toList ++ (sealed.1.toList ++ sealed.2) := by
    rw [hbody]
    rfl
  have hdropNonce : file.drop (BACKUP_MAGIC.length + 1 + BACKUP_NONCE_BYTES) =
      sealed.1.toList ++ sealed.2 := by
    rw [← List.drop_drop, hdrop, List.drop_left' hnonce]
  have hdropTag : file.drop (BACKUP_MAGIC.length + 1 + BACKUP_NONCE_BYTES + BACKUP_TAG_BYTES) =
      sealed.2 := by
    rw [← List.drop_drop, hdropNonce, List.drop_left' htag]
  rw [← hfile, decryptBackupFile, if_neg hkey, if_neg (by omega), if_neg (not_not.mpr hmagic),
    if_neg (not_not.mpr hversion)]
  simp only [hheader, hdrop, hdropNonce, hdropTag, List.take_left' hnonce, List.take_left' htag,
    hopen]

/-! ## The schema accepts what it has returned -/

theorem serviceAt_text (service : ResilienceServiceName)
    (h : members.lookup (jsString "service") = some (.string (jsString service.text))) :
    serviceAt members = some service := by
  have hstring : stringAt members "service" = some (jsString service.text) := by
    rw [stringAt, h]
  rw [serviceAt, hstring]
  cases service <;> rfl

theorem sizeAt_natCast {n : ℕ} (hn : n ≤ maxSafe)
    (h : members.lookup (jsString "sizeBytes") = some (.number n)) :
    sizeAt members = some n := by
  rw [sizeAt, h]
  simp only [Rat.den_natCast, Rat.num_natCast, Int.toNat_natCast]
  exact if_pos ⟨trivial, Int.natCast_nonneg n, hn⟩

theorem migrationAt_getD {v : Option JsString} (hv : ∀ s ∈ v, 1 ≤ s.length ∧ s.length ≤ 128)
    (h : members.lookup (jsString "migrationVersion") =
      some ((v.map JsonValue.string).getD .null)) : migrationAt members = some v := by
  rw [migrationAt, h]
  cases v with
  | none => rfl
  | some s => exact if_pos (hv s rfl)

theorem parseEntry_toJson (entry : BackupManifestEntry) :
    parseEntry entry.toJson = some entry := by
  have hmembers : strictMembers
      ["service", "fileName", "checksum", "sizeBytes", "migrationVersion"] entry.toJson =
      some [(jsString "service", .string (jsString entry.service.text)),
        (jsString "fileName", .string entry.fileName),
        (jsString "checksum", .string entry.checksum),
        (jsString "sizeBytes", .number entry.sizeBytes),
        (jsString "migrationVersion", (entry.migrationVersion.map JsonValue.string).getD .null)] :=
    rfl
  rw [parseEntry, hmembers]
  simp only [Option.bind_eq_bind, Option.bind_some]
  rw [serviceAt_text entry.service (by rfl), Option.bind_some]
  show (sizeAt _).bind _ = _
  rw [sizeAt_natCast entry.sizeBytes_le (by rfl), Option.bind_some,
    migrationAt_getD entry.migrationVersion_ok (by rfl), Option.bind_some,
    dif_pos ⟨entry.fileName_ok, entry.checksum_ok, entry.sizeBytes_le, entry.migrationVersion_ok⟩]

theorem mapM_parseEntry_toJson (entries : List BackupManifestEntry) :
    (entries.map BackupManifestEntry.toJson).mapM parseEntry = some entries := by
  induction entries with
  | nil => rfl
  | cons entry entries ih =>
    rw [List.map_cons, List.mapM_cons, parseEntry_toJson, ih]
    rfl

/-- The schema accepts every manifest that it has returned, unchanged. -/
theorem parseManifest_toJson (m : BackupManifest rt) : parseManifest rt m.toJson = some m := by
  have hmembers : strictMembers ["manifestVersion", "backupSetId", "createdAt",
      "encryptionAlgorithm", "keyDerivation", "entries"] m.toJson =
      some [(jsString "manifestVersion", .string (jsString "1.0")),
        (jsString "backupSetId", .string m.backupSetId),
        (jsString "createdAt", .string m.createdAt),
        (jsString "encryptionAlgorithm", .string (jsString "AES-256-GCM")),
        (jsString "keyDerivation", .string (jsString "raw-256-bit")),
        (jsString "entries", .array (m.entries.map BackupManifestEntry.toJson))] := rfl
  rw [parseManifest, hmembers]
  simp only [Option.bind_eq_bind, Option.bind_some]
  show ((m.entries.map BackupManifestEntry.toJson).mapM parseEntry).bind _ = _
  rw [mapM_parseEntry_toJson, Option.bind_some, if_pos ⟨rfl, rfl, rfl⟩,
    dif_pos ⟨m.backupSetId_ok, m.createdAt_ok, m.length_ok, m.services_nodup⟩]

/-- The text of a manifest determines it. -/
theorem plain_toJson (m : BackupManifest rt) : Plain m.toJson := by
  have hentry : ∀ entry : BackupManifestEntry, Plain entry.toJson := by
    intro entry
    apply Plain.object (by simp only [List.map_cons, List.map_nil]; decide)
    intro member hmember
    simp only [List.mem_cons, List.not_mem_nil, or_false] at hmember
    rcases hmember with rfl | rfl | rfl | rfl | rfl
    · exact .string _
    · exact .string _
    · exact .string _
    · exact .number entry.sizeBytes_le
    · cases entry.migrationVersion with
      | none => exact .null
      | some v => exact .string v
  apply Plain.object (by simp only [List.map_cons, List.map_nil]; decide)
  intro member hmember
  simp only [List.mem_cons, List.not_mem_nil, or_false] at hmember
  rcases hmember with rfl | rfl | rfl | rfl | rfl | rfl
  iterate 5
    · exact .string _
  · apply Plain.array
    rintro item hitem
    obtain ⟨entry, -, rfl⟩ := List.mem_map.mp hitem
    exact hentry entry

/-- What `backup.mjs` writes as `manifest.json`. -/
def manifestBytes (m : BackupManifest rt) : Bytes :=
  utf8Bytes (stringify rt.numbers [' ', ' '] m.toJson ++ ['\n'])

theorem parse_manifestBytes (m : BackupManifest rt) :
    parse rt.numbers (utf8Text rt (manifestBytes m)) = some m.toJson := by
  rw [manifestBytes, utf8Text_utf8Bytes]
  exact parse_stringify (by simp [isBlank]) (plain_toJson m) (by simp [isBlank])

/-! ## What an accepted set consists of -/

theorem isFileName_ne_slash (h : isFileName name = true) : ∀ u ∈ name, u ≠ 47 := by
  rcases name with _ | ⟨first, rest⟩
  · simp
  · rw [isFileName, Bool.and_eq_true, Bool.and_eq_true, List.all_eq_true] at h
    rintro u hu rfl
    rcases List.mem_cons.mp hu with hfirst | hrest
    · rw [← hfirst] at h
      exact absurd h.1.1 (by decide)
    · exact absurd (h.2 47 hrest) (by decide)

theorem basename_of_isFileName (h : isFileName name = true) :
    basename name = name := by
  have hslash := isFileName_ne_slash h
  have hdrop : name.reverse.dropWhile (fun u => decide (u = 47)) = name.reverse := by
    rw [List.dropWhile_eq_self_iff]
    intro hl
    rw [decide_eq_true_iff]
    exact hslash _ (List.mem_reverse.mp (List.getElem_mem hl))
  have htake : name.reverse.takeWhile (fun u => decide (u ≠ 47)) = name.reverse := by
    rw [List.takeWhile_eq_self_iff]
    intro u hu
    rw [decide_eq_true_iff]
    exact hslash u (List.mem_reverse.mp hu)
  rw [basename, hdrop, htake, List.reverse_reverse]

/-- The schema has already refused every name that the code refuses here. -/
theorem assertSafeFileName_of_isFileName (h : isFileName name = true) :
    assertSafeFileName name = .ok () := by
  apply if_neg
  rintro (hlength | hbase | hdot | hname)
  · rw [List.length_eq_zero_iff.mp hlength] at h
    cases h
  · exact hbase (basename_of_isFileName h).symm
  · rcases name with _ | ⟨first, rest⟩
    · cases hdot
    · cases hdot
      simp [isFileName, isAlphanumeric] at h
  · rw [h] at hname
    cases hname

theorem assertKnownService_eq_ok (service : ResilienceServiceName) :
    assertKnownService service = .ok () := by
  cases service <;> rfl

theorem checkEntries_eq_ok {present : List JsString} {entries : List BackupManifestEntry} :
    checkEntries present entries = .ok () ↔ ∀ entry ∈ entries, entry.fileName ∈ present := by
  induction entries with
  | nil => simp [checkEntries]
  | cons entry entries ih =>
    rw [checkEntries, assertSafeFileName_of_isFileName entry.fileName_ok,
      assertKnownService_eq_ok, List.forall_mem_cons]
    show (if entry.fileName ∉ present then _ else checkEntries present entries) = _ ↔ _
    by_cases h : entry.fileName ∈ present
    · rw [if_neg (not_not.mpr h), ih]
      exact (and_iff_right h).symm
    · rw [if_pos h]
      exact iff_of_false (by simp) fun hmem => h hmem.1

theorem checkScope_eq_ok {covered : List ResilienceServiceName}
    {scope : List (ResilienceServiceName × String)} :
    checkScope covered scope = .ok () ↔ ∀ s ∈ scope, s.1 ∈ covered := by
  induction scope with
  | nil => simp [checkScope]
  | cons s scope ih =>
    obtain ⟨service, urlVariable⟩ := s
    rw [checkScope, List.forall_mem_cons]
    by_cases h : service ∈ covered
    · rw [if_neg (not_not.mpr h), ih]
      exact (and_iff_right h).symm
    · rw [if_pos h]
      exact iff_of_false (by simp) fun hmem => h hmem.1

/-- The files that a set lists are there, other than the manifest, and the services in
    scope have an entry. -/
structure Complete (d : Directory) (m : BackupManifest rt) : Prop where
  present : ∀ entry ∈ m.entries,
    entry.fileName ∈ d.nodes.map Prod.fst ∧ entry.fileName ≠ jsString "manifest.json"
  covered : ∀ service : ResilienceServiceName, ∃ entry ∈ m.entries, entry.service = service

theorem scope_complete (service : ResilienceServiceName) : ∃ s ∈ BACKUP_SCOPE, s.1 = service := by
  cases service <;> decide

theorem complete_iff {d : Directory} {m : BackupManifest rt} :
    (checkEntries ((d.nodes.map Prod.fst).filter
        fun name => decide (name ≠ jsString "manifest.json")) m.entries = .ok () ∧
      checkScope (m.entries.map BackupManifestEntry.service) BACKUP_SCOPE = .ok ()) ↔
    Complete d m := by
  rw [checkEntries_eq_ok, checkScope_eq_ok]
  constructor
  · rintro ⟨hpresent, hcovered⟩
    refine ⟨fun entry hentry => ?_, fun service => ?_⟩
    · have hmem := List.mem_filter.mp (hpresent entry hentry)
      exact ⟨hmem.1, of_decide_eq_true hmem.2⟩
    · obtain ⟨s, hs, rfl⟩ := scope_complete service
      obtain ⟨entry, hentry, hservice⟩ := List.mem_map.mp (hcovered s hs)
      exact ⟨entry, hentry, hservice⟩
  · rintro ⟨hpresent, hcovered⟩
    refine ⟨fun entry hentry => ?_, fun s hs => ?_⟩
    · exact List.mem_filter.mpr ⟨(hpresent entry hentry).1,
        decide_eq_true (hpresent entry hentry).2⟩
    · obtain ⟨entry, hentry, hservice⟩ := hcovered s.1
      exact List.mem_map.mpr ⟨entry, hentry, hservice⟩

/-- The manifest that a directory holds. -/
def HasManifest (d : Directory) (m : BackupManifest rt) : Prop :=
  ∃ value, readManifestJson rt d = some value ∧ parseManifest rt value = some m

theorem readBackupSet_eq_ok {d : Directory} {m : BackupManifest rt} :
    readBackupSet rt d = .ok m ↔ HasManifest d m ∧ Complete d m := by
  unfold readBackupSet
  rw [← complete_iff]
  constructor
  · intro h
    obtain ⟨value, hvalue, h⟩ := bind_eq_ok.mp h
    obtain ⟨m', hm, h⟩ := bind_eq_ok.mp h
    obtain ⟨⟨⟩, hentries, h⟩ := bind_eq_ok.mp h
    obtain ⟨⟨⟩, hscope, h⟩ := bind_eq_ok.mp h
    cases h
    exact ⟨⟨value, orThrow_eq_ok.mp hvalue, orThrow_eq_ok.mp hm⟩, hentries, hscope⟩
  · rintro ⟨⟨value, hvalue, hm⟩, hentries, hscope⟩
    refine bind_eq_ok.mpr ⟨value, orThrow_eq_ok.mpr hvalue, ?_⟩
    refine bind_eq_ok.mpr ⟨m, orThrow_eq_ok.mpr hm, ?_⟩
    refine bind_eq_ok.mpr ⟨(), hentries, ?_⟩
    exact bind_eq_ok.mpr ⟨(), hscope, rfl⟩

/-- The file of an entry is what the manifest says, and opens under the key if there is one. -/
def Intact (rt : BackupRuntime) (d : Directory) (key : Option Bytes) (entry : BackupManifestEntry) :
    Prop :=
  ∃ file, d.node entry.fileName = some (.file file) ∧ file.length = entry.sizeBytes ∧
    sha256Hex rt file = entry.checksum ∧
    ∀ k ∈ key, ∃ plaintext, decryptBackupFile rt file k = .ok plaintext

theorem assertRegularFile_eq_ok {d : Directory} :
    assertRegularFile d name = .ok () ↔ ∃ file, d.node name = some (.file file) := by
  unfold assertRegularFile
  rcases d.node name with _ | (file | target | _) <;> simp

theorem readFile_of_node {d : Directory}
    (h : d.node name = some (.file file)) : d.readFile name = some file := by
  rw [Directory.readFile, h]

theorem verifyEntry_eq_ok {d : Directory} {key : Option Bytes} {entry : BackupManifestEntry}
    {size : ℕ} :
    verifyEntry rt d key entry = .ok size ↔ Intact rt d key entry ∧ size = entry.sizeBytes := by
  unfold verifyEntry
  constructor
  · intro h
    obtain ⟨⟨⟩, hregular, h⟩ := bind_eq_ok.mp h
    obtain ⟨file, hfile⟩ := assertRegularFile_eq_ok.mp hregular
    obtain ⟨file', hread, h⟩ := bind_eq_ok.mp h
    rw [orThrow_eq_ok, readFile_of_node hfile] at hread
    cases hread
    split_ifs at h with hsize
    rw [not_ne_iff] at hsize
    obtain ⟨⟨⟩, hchecksum, h⟩ := bind_eq_ok.mp h
    have hdigest := (verifyChecksum_eq_ok entry.checksum_ok).mp hchecksum
    cases key with
    | none =>
      cases h
      exact ⟨⟨file, hfile, hsize, hdigest, by simp⟩, hsize⟩
    | some k =>
      obtain ⟨plaintext, hplain, h⟩ := bind_eq_ok.mp h
      cases h
      refine ⟨⟨file, hfile, hsize, hdigest, ?_⟩, hsize⟩
      rintro k' hk
      cases hk
      exact ⟨plaintext, hplain⟩
  · rintro ⟨⟨file, hfile, hsize, hdigest, hkey⟩, rfl⟩
    refine bind_eq_ok.mpr ⟨(), assertRegularFile_eq_ok.mpr ⟨file, hfile⟩, ?_⟩
    refine bind_eq_ok.mpr ⟨file, orThrow_eq_ok.mpr (readFile_of_node hfile), ?_⟩
    rw [if_neg (not_not.mpr hsize)]
    refine bind_eq_ok.mpr ⟨(), (verifyChecksum_eq_ok entry.checksum_ok).mpr hdigest, ?_⟩
    cases key with
    | none => exact congrArg Except.ok hsize
    | some k =>
      obtain ⟨plaintext, hplain⟩ := hkey k rfl
      exact bind_eq_ok.mpr ⟨plaintext, hplain, congrArg Except.ok hsize⟩

theorem verifyEntries_eq_ok {d : Directory} {key : Option Bytes}
    {entries : List BackupManifestEntry} {total total' : ℕ} :
    verifyEntries rt d key total entries = .ok total' ↔
      (∀ entry ∈ entries, Intact rt d key entry) ∧
        total' = total + (entries.map BackupManifestEntry.sizeBytes).sum := by
  induction entries generalizing total with
  | nil => simp [verifyEntries, eq_comm]
  | cons entry entries ih =>
    rw [verifyEntries, bind_eq_ok, List.forall_mem_cons, List.map_cons, List.sum_cons]
    constructor
    · rintro ⟨size, hsize, h⟩
      obtain ⟨hintact, rfl⟩ := verifyEntry_eq_ok.mp hsize
      obtain ⟨hrest, htotal⟩ := ih.mp h
      exact ⟨⟨hintact, hrest⟩, by omega⟩
    · rintro ⟨⟨hintact, hrest⟩, htotal⟩
      exact ⟨entry.sizeBytes, verifyEntry_eq_ok.mpr ⟨hintact, rfl⟩, ih.mpr ⟨hrest, by omega⟩⟩

/-- What an accepted set consists of, and what its verification returns. -/
theorem verifyBackupSet_eq_ok {d : Directory} {key : Option Bytes} {verified : VerifiedSet rt} :
    verifyBackupSet rt d key = .ok verified ↔
      (HasManifest d verified.manifest ∧ Complete d verified.manifest ∧
        ∀ entry ∈ verified.manifest.entries, Intact rt d key entry) ∧
      verified.totalBytes = (verified.manifest.entries.map BackupManifestEntry.sizeBytes).sum ∧
      verified.manifestChecksum = sha256Hex rt (canonicalManifestBytes verified.manifest) := by
  unfold verifyBackupSet
  constructor
  · intro h
    obtain ⟨m, hread, h⟩ := bind_eq_ok.mp h
    obtain ⟨total, htotal, h⟩ := bind_eq_ok.mp h
    cases h
    obtain ⟨hmanifest, hcomplete⟩ := readBackupSet_eq_ok.mp hread
    obtain ⟨hintact, htotal⟩ := verifyEntries_eq_ok.mp htotal
    exact ⟨⟨hmanifest, hcomplete, hintact⟩, by rw [htotal, Nat.zero_add], rfl⟩
  · rintro ⟨⟨hmanifest, hcomplete, hintact⟩, htotal, hchecksum⟩
    obtain ⟨m, total, checksum⟩ := verified
    refine bind_eq_ok.mpr ⟨m, readBackupSet_eq_ok.mpr ⟨hmanifest, hcomplete⟩, ?_⟩
    refine bind_eq_ok.mpr ⟨total, verifyEntries_eq_ok.mpr ⟨hintact, ?_⟩, ?_⟩
    · rw [Nat.zero_add]
      exact htotal
    · rw [← hchecksum]
      rfl

/-! ## An accepted set is restorable -/

/-- Each service in scope has a file of its own in the set: it is what the manifest says
    and decrypts under the key. -/
def Restorable (d : Directory) (key : Bytes) (m : BackupManifest rt) : Prop :=
  ∃ file : ResilienceServiceName → JsString, Function.Injective file ∧
    ∀ s ∈ BACKUP_SCOPE, ∃ entry ∈ m.entries,
      entry.service = s.1 ∧ entry.fileName = file s.1 ∧ Intact rt d (some key) entry

/-- Two entries of one service are one entry. -/
theorem entry_unique {m : BackupManifest rt} {a b : BackupManifestEntry} (ha : a ∈ m.entries)
    (hb : b ∈ m.entries) (h : a.service = b.service) : a = b :=
  List.inj_on_of_nodup_map m.services_nodup ha hb h

theorem HasManifest.unique {d : Directory} {m m' : BackupManifest rt} (h : HasManifest d m)
    (h' : HasManifest d m') : m = m' := by
  obtain ⟨value, hvalue, hm⟩ := h
  obtain ⟨value', hvalue', hm'⟩ := h'
  rw [hvalue] at hvalue'
  cases hvalue'
  rw [hm] at hm'
  exact Option.some.inj hm'

theorem hasManifest_manifestBytes {d : Directory} {m : BackupManifest rt}
    (h : d.node (jsString "manifest.json") = some (.file (manifestBytes m))) :
    HasManifest d m := by
  refine ⟨m.toJson, ?_, parseManifest_toJson m⟩
  rw [readManifestJson, readFile_of_node h, Option.bind_eq_bind, Option.bind_some]
  exact parse_manifestBytes m

theorem accepted_iff {d : Directory} {key : Option Bytes} {m : BackupManifest rt}
    (h : HasManifest d m) :
    (verifyBackupSet rt d key).isOk = true ↔
      Complete d m ∧ ∀ entry ∈ m.entries, Intact rt d key entry := by
  constructor
  · intro haccepted
    rcases hverify : verifyBackupSet rt d key with failure | verified
    · rw [hverify] at haccepted
      cases haccepted
    · obtain ⟨⟨hmanifest, hcomplete, hintact⟩, -⟩ := verifyBackupSet_eq_ok.mp hverify
      rw [h.unique hmanifest]
      exact ⟨hcomplete, hintact⟩
  · rintro ⟨hcomplete, hintact⟩
    have hverify : verifyBackupSet rt d key =
        .ok ⟨m, (m.entries.map BackupManifestEntry.sizeBytes).sum,
          sha256Hex rt (canonicalManifestBytes m)⟩ :=
      verifyBackupSet_eq_ok.mpr ⟨⟨h, hcomplete, hintact⟩, rfl, rfl⟩
    rw [hverify]
    rfl

/-- An accepted set is restorable if and only if its entries name distinct files. -/
theorem verified_set_restorable (rt : BackupRuntime) (d : Directory) (key : Bytes)
    (m : BackupManifest rt) (hmanifest : HasManifest d m)
    (haccepted : (verifyBackupSet rt d (some key)).isOk = true) :
    Restorable d key m ↔ (m.entries.map BackupManifestEntry.fileName).Nodup := by
  obtain ⟨hcomplete, hintact⟩ := (accepted_iff hmanifest).mp haccepted
  have hentries : m.entries.Nodup := List.Nodup.of_map _ m.services_nodup
  constructor
  · rintro ⟨file, hinjective, hfile⟩
    refine hentries.map_on fun a ha b hb hab => ?_
    have hname : ∀ e ∈ m.entries, e.fileName = file e.service := by
      intro e he
      obtain ⟨s, hs, hservice⟩ := scope_complete e.service
      obtain ⟨entry, hentry, hentryService, hentryName, -⟩ := hfile s hs
      rw [entry_unique he hentry (by rw [hentryService, hservice]), hentryName, hentryService]
    rw [hname a ha, hname b hb] at hab
    exact entry_unique ha hb (hinjective hab)
  · intro hnames
    choose entry hentry hservice using hcomplete.covered
    refine ⟨fun service => (entry service).fileName, ?_, ?_⟩
    · intro service service' h
      have heq : entry service = entry service' :=
        List.inj_on_of_nodup_map hnames (hentry service) (hentry service') h
      rw [← hservice service, ← hservice service', heq]
    · rintro ⟨service, urlVariable⟩ -
      exact ⟨entry service, hentry service, hservice service, rfl, hintact _ (hentry service)⟩

end

/-! ## Fixed sets -/

/-- A runtime whose cipher copies its input. -/
def plainBackupRuntime : BackupRuntime where
  numbers := ⟨fun _ => [], fun _ => none⟩
  decodeInvalid := fun _ => []
  sha256 := fun bytes => Vector.replicate 32 (UInt8.ofNat bytes.length)
  gcmSeal := fun _ _ _ plaintext => (Vector.replicate 16 0, plaintext)
  gcmOpen := fun _ _ _ tag ciphertext =>
    if tag = List.replicate 16 0 then some ciphertext else none
  isIsoDateTime := fun s => decide (s = jsString "2026-08-01T00:00:00.000Z")
  localeLe := fun left right => decide (left ≤ right)
  toISOString := fun _ => jsString "2026-08-01T00:00:00.000Z"
  dateParse := fun _ => some 1785542400000

def exampleKey : Bytes := List.replicate 32 7

/-- An encrypted empty dump. -/
def exampleFile : Bytes := BACKUP_MAGIC ++ [1] ++ List.replicate 28 0

theorem isChecksum_exampleFile : isChecksum (sha256Hex plainBackupRuntime exampleFile) = true := by
  decide

/-- The entry of a service under a file name. -/
def exampleEntry (fileName : ResilienceServiceName → JsString)
    (h : ∀ service, isFileName (fileName service) = true) (service : ResilienceServiceName) :
    BackupManifestEntry where
  service := service
  fileName := fileName service
  checksum := sha256Hex plainBackupRuntime exampleFile
  sizeBytes := exampleFile.length
  migrationVersion := none
  fileName_ok := h service
  checksum_ok := isChecksum_exampleFile
  sizeBytes_le := Nat.le_of_ble_eq_true rfl
  migrationVersion_ok := fun _ h => nomatch h

/-- A manifest whose entries name files by their services. -/
def exampleManifest (fileName : ResilienceServiceName → JsString)
    (h : ∀ service, isFileName (fileName service) = true) : BackupManifest plainBackupRuntime where
  backupSetId := jsString "backup:2026-08-01:a1b2c3d4"
  createdAt := jsString "2026-08-01T00:00:00.000Z"
  entries := [.identity, .ledger, .payments, .risk, .resilience].map (exampleEntry fileName h)
  backupSetId_ok := rfl
  createdAt_ok := rfl
  length_ok := ⟨Nat.le_of_ble_eq_true rfl, Nat.le_of_ble_eq_true rfl⟩
  services_nodup := by
    show List.Nodup [ResilienceServiceName.identity, .ledger, .payments, .risk, .resilience]
    decide

/-- A set of a manifest and files that all hold the same bytes. -/
def exampleDirectory (m : BackupManifest plainBackupRuntime) (names : List JsString)
    (h : (jsString "manifest.json" :: names).Nodup) : Directory where
  nodes := (jsString "manifest.json", .file (manifestBytes m)) ::
    names.map fun name => (name, .file exampleFile)
  nodup := by
    rw [List.map_cons, List.map_map]
    simpa [Function.comp_def] using h

theorem isFileName_dumpName (service : ResilienceServiceName) :
    isFileName (dumpName service) = true := by
  cases service <;> decide

/-- A manifest whose entries name the files that `backup.mjs` writes. -/
def ownManifest : BackupManifest plainBackupRuntime := exampleManifest dumpName isFileName_dumpName

def ownSet : Directory :=
  exampleDirectory ownManifest
    [dumpName .identity, dumpName .ledger, dumpName .payments, dumpName .risk,
      dumpName .resilience] (by decide)

/-- A manifest whose entries all name the dump of the first service. -/
def sharedManifest : BackupManifest plainBackupRuntime :=
  exampleManifest (fun _ => dumpName .identity) fun _ => isFileName_dumpName .identity

def sharedSet : Directory := exampleDirectory sharedManifest [dumpName .identity] (by decide)

theorem hasManifest_ownSet : HasManifest ownSet ownManifest :=
  hasManifest_manifestBytes (by rfl)

theorem hasManifest_sharedSet : HasManifest sharedSet sharedManifest :=
  hasManifest_manifestBytes (by rfl)

/-- Every file of the examples holds the bytes that its entry describes. -/
theorem intact_example {d : Directory} {fileName : ResilienceServiceName → JsString}
    {h : ∀ service, isFileName (fileName service) = true} {service : ResilienceServiceName}
    (hnode : d.node (fileName service) = some (.file exampleFile)) :
    Intact plainBackupRuntime d (some exampleKey) (exampleEntry fileName h service) := by
  refine ⟨exampleFile, hnode, rfl, rfl, ?_⟩
  rintro k hk
  cases hk
  exact ⟨[], rfl⟩

theorem accepted_ownSet :
    (verifyBackupSet plainBackupRuntime ownSet (some exampleKey)).isOk = true := by
  refine (accepted_iff hasManifest_ownSet).mpr ⟨⟨?_, ?_⟩, ?_⟩
  · rintro entry hentry
    obtain ⟨service, -, rfl⟩ := List.mem_map.mp hentry
    show dumpName service ∈ _ ∧ dumpName service ≠ _
    cases service <;> decide
  · intro service
    refine ⟨exampleEntry dumpName isFileName_dumpName service, List.mem_map_of_mem ?_, rfl⟩
    cases service <;> decide
  · rintro entry hentry
    obtain ⟨service, -, rfl⟩ := List.mem_map.mp hentry
    apply intact_example
    cases service <;> rfl

theorem accepted_sharedSet :
    (verifyBackupSet plainBackupRuntime sharedSet (some exampleKey)).isOk = true := by
  refine (accepted_iff hasManifest_sharedSet).mpr ⟨⟨?_, ?_⟩, ?_⟩
  · rintro entry hentry
    obtain ⟨service, -, rfl⟩ := List.mem_map.mp hentry
    show dumpName .identity ∈ _ ∧ dumpName .identity ≠ _
    decide
  · intro service
    refine ⟨exampleEntry _ (fun _ => isFileName_dumpName .identity) service,
      List.mem_map_of_mem ?_, rfl⟩
    cases service <;> decide
  · rintro entry hentry
    obtain ⟨service, -, rfl⟩ := List.mem_map.mp hentry
    exact intact_example rfl

theorem verified_own_set_restorable : Restorable ownSet exampleKey ownManifest :=
  (verified_set_restorable plainBackupRuntime ownSet exampleKey ownManifest hasManifest_ownSet
    accepted_ownSet).mpr (by
      show List.Nodup [dumpName .identity, dumpName .ledger, dumpName .payments, dumpName .risk,
        dumpName .resilience]
      decide)

/-- An accepted set whose entries all name the dump of the first service. -/
theorem shared_file_verified : HasManifest sharedSet sharedManifest ∧
    (verifyBackupSet plainBackupRuntime sharedSet (some exampleKey)).isOk = true ∧
    ¬ Restorable sharedSet exampleKey sharedManifest := by
  refine ⟨hasManifest_sharedSet, accepted_sharedSet, ?_⟩
  rintro ⟨file, hinjective, hfile⟩
  have hname : ∀ s ∈ BACKUP_SCOPE, file s.1 = dumpName .identity := by
    intro s hs
    obtain ⟨entry, hentry, -, hfileName, -⟩ := hfile s hs
    obtain ⟨service, -, rfl⟩ := List.mem_map.mp hentry
    exact hfileName.symm
  have heq : file .identity = file .ledger := by
    rw [hname (.identity, _) List.mem_cons_self,
      hname (.ledger, _) (List.mem_cons_of_mem _ List.mem_cons_self)]
  cases hinjective heq

end AegisShield.Resilience
