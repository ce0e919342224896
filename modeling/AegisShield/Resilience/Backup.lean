import AegisShield.Resilience.RestoreVerify

/-!
# Writing a backup set

`backup.mjs`: the dumps, their encryption, the manifest, the publication by a rename and the
cleanup, any step of which may throw. A write that throws may leave a part of its file. A print
to a stream that is closed does not throw: the stream has no `error` listener, so the process
dies at its next `await`, or at its end, and runs neither `catch` nor `finally`.

Results:
* `published_set`: the set that a run publishes is accepted, with its manifest, size and checksum.
* `backup_agreement`: the reader agrees with the writer and selects the published set by both of
  its names in every run. A run that fails publishes nothing and leaves nothing exactly when its
  prints are taken and, if it does not publish, its cleanup does not fail.
* `dump_left`: a reader that stops reading the log leaves a plaintext dump behind.
-/

namespace AegisShield.Resilience

open Common JsonText Script

/-! ## Directories -/

/-- A directory without names. -/
def Directory.empty : Directory := ⟨[], List.nodup_nil⟩

/-- The directory without a name. -/
def Directory.remove (d : Directory) (name : JsString) : Directory where
  nodes := d.nodes.filter fun node => decide (node.1 ≠ name)
  nodup := d.nodup.sublist (List.filter_sublist.map _)

/-- The directory with a file under a name. -/
def Directory.write (d : Directory) (name : JsString) (bytes : Bytes) : Directory where
  nodes := (d.remove name).nodes ++ [(name, .file bytes)]
  nodup := by
    rw [List.map_append, List.nodup_append]
    refine ⟨(d.remove name).nodup, List.nodup_singleton _, fun a ha b hb hab => ?_⟩
    obtain ⟨node, hnode, rfl⟩ := List.mem_map.mp ha
    rw [List.mem_singleton.mp hb] at hab
    exact of_decide_eq_true (List.mem_filter.mp hnode).2 hab

/-- The root with a directory under a name. -/
def BackupRoot.put (root : BackupRoot) (name : JsString) (d : Directory) : BackupRoot where
  nodes := (root.nodes.filter fun node => decide (node.1 ≠ name)) ++ [(name, .directory d)]
  nodup := by
    rw [List.map_append, List.nodup_append]
    refine ⟨root.nodup.sublist (List.filter_sublist.map _), List.nodup_singleton _,
      fun a ha b hb hab => ?_⟩
    obtain ⟨node, hnode, rfl⟩ := List.mem_map.mp ha
    rw [List.mem_singleton.mp hb] at hab
    exact of_decide_eq_true (List.mem_filter.mp hnode).2 hab

/-- `renameSync` of a directory to a name in the root, which may be that of an empty directory. -/
def BackupRoot.rename (root : BackupRoot) (name : JsString) (d : Directory) :
    Except Failure BackupRoot :=
  match root.nodes.lookup name with
  | none => .ok (root.put name d)
  | some (.directory old) =>
    if old.nodes.isEmpty then .ok (root.put name d) else .error (.system "ENOTEMPTY")
  | some .other => .error (.system "ENOTDIR")

/-! ## The script -/

/-- What a write throws, and what it has written by then. -/
abbrev WriteFault := Option (Failure × Option Bytes)

/-- What the round of a service takes from outside: the dump, the nonce, the answer of `psql`,
    what its steps throw, and whether standard output takes the line of line 120. -/
structure DumpEnv where
  dump : Bytes
  pgDump : WriteFault
  read : Option Failure
  nonce : Vector UInt8 12
  write : WriteFault
  remove : Option Failure
  migration : Except String Bytes
  captured : Bool

/-- What a run of the script takes from outside. -/
structure BackupEnv where
  environment : ProcessEnv
  /-- `new Date()`. -/
  now : ℤ
  randomUUID : JsString
  /-- What `mkdirSync` and `makeTempDirectory` throw. -/
  mkdir : Option Failure
  temp : Option Failure
  dumps : ResilienceServiceName → DumpEnv
  manifest : WriteFault
  rename : Option Failure
  /-- What the removal of the staging directory throws. -/
  cleanup : Option Failure
  /-- Whether the streams take the lines of lines 75, 142, 150, 163 and 178. -/
  started : Bool
  completed : Bool
  nextSteps : Bool
  result : Bool
  failed : Bool

/-- An element of `entries`. -/
structure CapturedEntry where
  service : ResilienceServiceName
  fileName : JsString
  checksum : JsString
  sizeBytes : ℕ
  migrationVersion : Option JsString

/-- What a run prints, with its manifest. -/
structure BackupReport (rt : BackupRuntime) where
  backupSetId : JsString
  directory : JsString
  createdAt : JsString
  services : List ResilienceServiceName
  manifestChecksum : JsString
  sizeBytes : ℕ
  manifest : BackupManifest rt

/-- The backup root, the staging directory while it exists, whether a print has failed, and the
    variables of the script. -/
structure BackupState (rt : BackupRuntime) where
  root : BackupRoot
  broken : Bool
  staging : Option Directory
  entries : List CapturedEntry
  published : Bool
  report : Option (BackupReport rt)
  exitCode : ℕ

/-- How a script is stopped: it throws, or its process dies of a print that has failed. -/
inductive Halt where
  | thrown (failure : Failure)
  | died

/-- An operation that may throw. -/
def attempt {σ α : Type} (x : Except Failure α) : Script σ Halt α := lift (x.mapError .thrown)

section
variable (rt : ScriptRuntime) (env : BackupEnv)

/-- `backupSetId` (line 35). -/
def backupSetId : JsString :=
  jsString "backup:" ++ (rt.backup.toISOString env.now).take 10 ++ jsString ":" ++
    env.randomUUID.take 8

/-- `directoryName` (line 40). -/
def directoryName : JsString := (backupSetId rt env).map fun u => if u = 58 then 95 else u

/-- `migrationVersion` (lines 44-71) on the answer of `psql`. -/
def migrationVersion (answer : Except String Bytes) : Option JsString :=
  match answer with
  | .error _ => none
  | .ok output =>
    let value := trimText ((utf8Text rt.backup output).flatMap units)
    if 0 < value.length then some (value.take 128) else none

/-- A write to a standard stream. -/
def print (taken : Bool) : Script (BackupState rt.backup) Halt PUnit :=
  update fun s => { s with broken := s.broken || !taken }

/-- `await`: the event loop delivers the error of a print. -/
def pause : Script (BackupState rt.backup) Halt PUnit := of fun s =>
  (if s.broken then .error .died else .ok ⟨⟩, s)

/-- The staging directory after a write to it. -/
def stage (name : JsString) (bytes : Bytes) (fault : WriteFault) (s : BackupState rt.backup) :
    BackupState rt.backup :=
  match fault with
  | none => { s with staging := s.staging.map fun d => d.write name bytes }
  | some (_, none) => s
  | some (_, some written) => { s with staging := s.staging.map fun d => d.write name written }

/-- A file is written to the staging directory. -/
def writeStaging (name : JsString) (bytes : Bytes) (fault : WriteFault) :
    Script (BackupState rt.backup) Halt PUnit := do
  update (stage rt name bytes fault)
  attempt (throwing (fault.map Prod.fst))

/-- `await run('pg_dump', …)`: the child writes its file even if the process dies meanwhile. -/
def runDump (name : JsString) (dump : DumpEnv) : Script (BackupState rt.backup) Halt PUnit := do
  update (stage rt name dump.dump dump.pgDump)
  pause rt
  attempt (throwing (dump.pgDump.map Prod.fst))

/-- A file of the staging directory is read. -/
def readStaging (name : JsString) : Script (BackupState rt.backup) Halt Bytes := of fun s =>
  ((orThrow (.system "ENOENT") (s.staging.bind fun d => d.readFile name)).mapError .thrown, s)

/-- The element of `entries` for the encrypted dump of a service. -/
def entryOf (service : ResilienceServiceName) (encrypted : Bytes) : CapturedEntry where
  service := service
  fileName := dumpName service
  checksum := sha256Hex rt.backup encrypted
  sizeBytes := encrypted.length
  migrationVersion := migrationVersion rt (env.dumps service).migration

/-- A round of the loop over the scope (lines 78-121). -/
def captureService (key : Bytes) (scope : ResilienceServiceName × String) :
    Script (BackupState rt.backup) Halt PUnit := do
  let service := scope.1
  let dump := env.dumps service
  let _ ← attempt (connectionParts rt (env.environment scope.2) scope.2)
  runDump rt (plaintextName service) dump
  attempt (throwing dump.read)
  let plaintext ← readStaging rt (plaintextName service)
  let encrypted ← attempt (encryptBackupFile rt.backup plaintext key dump.nonce)
  writeStaging rt (dumpName service) encrypted dump.write
  attempt (throwing dump.remove)
  update fun s => { s with staging := s.staging.map fun d => d.remove (plaintextName service) }
  -- `psql` (line 118)
  pause rt
  update fun s => { s with entries := s.entries ++ [entryOf rt env service encrypted] }
  print rt dump.captured

/-- An entry as the schema sees it. -/
def CapturedEntry.toJson (entry : CapturedEntry) : JsonValue :=
  .object [(jsString "service", .string (jsString entry.service.text)),
    (jsString "fileName", .string entry.fileName),
    (jsString "checksum", .string entry.checksum),
    (jsString "sizeBytes", .number entry.sizeBytes),
    (jsString "migrationVersion", (entry.migrationVersion.map JsonValue.string).getD .null)]

/-- The object of lines 123-130. -/
def manifestInput (entries : List CapturedEntry) : JsonValue :=
  .object [(jsString "manifestVersion", .string (jsString "1.0")),
    (jsString "backupSetId", .string (backupSetId rt env)),
    (jsString "createdAt", .string (rt.backup.toISOString env.now)),
    (jsString "encryptionAlgorithm", .string (jsString "AES-256-GCM")),
    (jsString "keyDerivation", .string (jsString "raw-256-bit")),
    (jsString "entries", .array (entries.map CapturedEntry.toJson))]

/-- `renameSync(staging, final)` and the assignment after it (lines 137-138). -/
def renameStaging : Script (BackupState rt.backup) Halt PUnit := of fun s =>
  match s.staging with
  | none => (.error (.thrown (.system "ENOENT")), s)
  | some d =>
    match s.root.rename (directoryName rt env) d with
    | .error failure => (.error (.thrown failure), s)
    | .ok root => (.ok ⟨⟩, { s with root := root, staging := none, published := true })

/-- What is printed (lines 140-176). -/
def reportOf (entries : List CapturedEntry) (manifest : BackupManifest rt.backup) :
    BackupReport rt.backup where
  backupSetId := backupSetId rt env
  directory := directoryName rt env
  createdAt := rt.backup.toISOString env.now
  services := entries.map CapturedEntry.service
  manifestChecksum := sha256Hex rt.backup (canonicalManifestBytes manifest)
  sizeBytes := (entries.map CapturedEntry.sizeBytes).sum
  manifest := manifest

/-- The `try` block (lines 75-176). -/
def backupBody (key : Bytes) : Script (BackupState rt.backup) Halt PUnit := do
  print rt env.started
  forEach (captureService rt env key) BACKUP_SCOPE
  let entries ← of fun s => (.ok s.entries, s)
  let manifest ← attempt
    (orThrow .schema (parseManifest rt.backup (manifestInput rt env entries)))
  writeStaging rt (jsString "manifest.json") (manifestBytes manifest) env.manifest
  attempt (throwing env.rename)
  renameStaging rt env
  print rt env.completed
  print rt env.nextSteps
  print rt env.result
  update fun s => { s with report := some (reportOf rt env entries manifest) }

/-- The `finally` block (lines 183-186). -/
def backupCleanup : Script (BackupState rt.backup) Halt PUnit := do
  let published ← of fun s => (.ok s.published, s)
  if published then pure ⟨⟩
  else do
    attempt (throwing env.cleanup)
    update fun s => { s with staging := none }

/-- The `catch` block (lines 177-182), which throws nothing; a process that has died does not
    get to it. -/
def backupFailed : Halt → Script (BackupState rt.backup) Halt PUnit
  | .died => throw .died
  | .thrown _ => do
    print rt env.failed
    update fun s => { s with exitCode := 1 }

/-- The `try` statement (lines 74-186). -/
def backupMain (key : Bytes) : Script (BackupState rt.backup) Halt PUnit := do
  tryCatch (backupBody rt env key) (backupFailed rt env)
  backupCleanup rt env

/-- The state before the `try` block. -/
def backupStart (root : BackupRoot) : BackupState rt.backup where
  root := root
  broken := false
  staging := some Directory.empty
  entries := []
  published := false
  report := none
  exitCode := 0

/-- What the process leaves: what is thrown, or a print that has failed, ends it. -/
def leaves (r : Except Halt Unit) (s : BackupState rt.backup) : BackupState rt.backup :=
  if s.broken || !r.isOk then { s with exitCode := 1 } else s

/-- `backup.mjs` over the root that `mkdirSync` leaves. -/
def backup (root : BackupRoot) : BackupState rt.backup :=
  match loadBackupKey rt env.environment, env.mkdir, env.temp with
  | .ok key, none, none =>
    let ended := (backupMain rt env key).run (backupStart rt root)
    leaves rt ended.1 ended.2
  | _, _, _ => { backupStart rt root with staging := none, exitCode := 1 }

end

/-! ## When a run keeps its word -/

section
variable (rt : ScriptRuntime) (env : BackupEnv)

/-- The entry of a round in which nothing throws. -/
def capturedEntry (key : Bytes) (scope : ResilienceServiceName × String) : Option CapturedEntry :=
  let dump := env.dumps scope.1
  if (connectionParts rt (env.environment scope.2) scope.2).isOk && dump.pgDump.isNone &&
      dump.read.isNone && dump.write.isNone && dump.remove.isNone then
    (encryptBackupFile rt.backup dump.dump key dump.nonce).toOption.map (entryOf rt env scope.1)
  else none

/-- The entries, if nothing throws in any round. -/
def capturedEntries (key : Bytes) : List (ResilienceServiceName × String) →
    Option (List CapturedEntry)
  | [] => some []
  | scope :: rest =>
    (capturedEntry rt env key scope).bind fun entry =>
      (capturedEntries key rest).map fun entries => entry :: entries

/-- Whether the last print of the rounds has been taken when they are over, or when one throws;
    `none` when the process dies at `pg_dump` of a print before it. -/
def lastPrint (key : Bytes) (taken : Bool) : List (ResilienceServiceName × String) → Option Bool
  | [] => some taken
  | scope :: rest =>
    if (connectionParts rt (env.environment scope.2) scope.2).isOk then
      if taken then
        if (capturedEntry rt env key scope).isSome then
          lastPrint key (env.dumps scope.1).captured rest
        else some true
      else none
    else some taken

/-- Nothing throws up to the publication. -/
def publishes (root : BackupRoot) (key : Bytes) : Bool :=
  (capturedEntries rt env key BACKUP_SCOPE).any fun entries =>
    (parseManifest rt.backup (manifestInput rt env entries)).isSome && env.manifest.isNone &&
      env.rename.isNone && (root.rename (directoryName rt env) Directory.empty).isOk

/-- The run fails before it has a staging directory; or each print that it gets to before an
    `await` is taken and, if it publishes, those after it are too, and if not, the removal of
    the staging directory does not throw. -/
def keepsWord (root : BackupRoot) : Bool :=
  match loadBackupKey rt env.environment, env.mkdir, env.temp with
  | .ok key, none, none =>
    (lastPrint rt env key env.started BACKUP_SCOPE).any fun taken =>
      if publishes rt env root key then
        taken && env.completed && env.nextSteps && env.result
      else env.cleanup.isNone
  | _, _, _ => true

end

/-! ## Files of the staging directory -/

section Files

variable {d : Directory} {name name' : JsString} {bytes : Bytes} {node : Node}

theorem node_of_mem (h : (name, node) ∈ d.nodes) : d.node name = some node := by
  have hnodup := d.nodup
  unfold Directory.node
  revert h hnodup
  generalize d.nodes = nodes
  intro h hnodup
  induction nodes with
  | nil => cases h
  | cons first nodes ih =>
    obtain ⟨hfirst, hrest⟩ := List.nodup_cons.mp hnodup
    rcases List.mem_cons.mp h with rfl | h
    · exact List.lookup_cons_self
    · have hne : (name == first.1) = false := by
        refine beq_eq_false_iff_ne.mpr fun heq => hfirst ?_
        rw [← heq]
        exact List.mem_map_of_mem (f := Prod.fst) h
      rw [List.lookup_cons, hne]
      exact ih h hrest

theorem nodes_remove (h : name ∉ d.nodes.map Prod.fst) : (d.remove name).nodes = d.nodes := by
  refine List.filter_eq_self.mpr fun node hnode => decide_eq_true ?_
  rintro rfl
  exact h (List.mem_map_of_mem hnode)

theorem nodes_write (h : name ∉ d.nodes.map Prod.fst) :
    (d.write name bytes).nodes = d.nodes ++ [(name, .file bytes)] := by
  show (d.remove name).nodes ++ _ = _
  rw [nodes_remove h]

theorem readFile_write : (d.write name bytes).readFile name = some bytes :=
  readFile_of_node (node_of_mem (List.mem_append_right _ List.mem_cons_self))

/-- A dump is written, its encryption is written and the dump is removed. -/
theorem nodes_capture {dump encrypted : Bytes} (h : name ∉ d.nodes.map Prod.fst)
    (h' : name' ∉ d.nodes.map Prod.fst) (hne : name ≠ name') :
    (((d.write name dump).write name' encrypted).remove name).nodes =
      d.nodes ++ [(name', .file encrypted)] := by
  have hwritten : name' ∉ (d.write name dump).nodes.map Prod.fst := by
    rw [nodes_write h, List.map_append, List.mem_append]
    rintro (hmem | hmem)
    · exact h' hmem
    · exact hne (List.mem_singleton.mp hmem).symm
  show ((d.write name dump).write name' encrypted).nodes.filter _ = _
  rw [nodes_write hwritten, nodes_write h, List.filter_append, List.filter_append]
  have hold : d.nodes.filter (fun node => decide (node.1 ≠ name)) = d.nodes := nodes_remove h
  have hnew : [(name', Node.file encrypted)].filter (fun node => decide (node.1 ≠ name)) =
      [(name', Node.file encrypted)] :=
    List.filter_cons_of_pos (decide_eq_true (Ne.symm hne))
  have hdump : [(name, Node.file dump)].filter (fun node => decide (node.1 ≠ name)) = [] :=
    List.filter_cons_of_neg (by simp)
  rw [hold, hnew, hdump, List.append_nil]

theorem rename_ok {root root' : BackupRoot} (h : root.rename name d = .ok root') :
    root' = root.put name d := by
  unfold BackupRoot.rename at h
  split at h
  · cases h
    rfl
  · split_ifs at h
    cases h
    rfl
  · cases h

theorem plaintextName_ne (service service' : ResilienceServiceName) :
    plaintextName service ≠ dumpName service' := by
  cases service <;> cases service' <;> decide

theorem dumpName_inj {service service' : ResilienceServiceName}
    (h : dumpName service = dumpName service') : service = service' := by
  cases service <;> cases service' <;> first | rfl | exact absurd h (by decide)

theorem dumpName_ne_manifest (service : ResilienceServiceName) :
    dumpName service ≠ jsString "manifest.json" := by
  cases service <;> decide

end Files

/-! ## Rounds -/

section Rounds

variable {rt : ScriptRuntime} {env : BackupEnv} {root : BackupRoot} {key : Bytes}
  {s : BackupState rt.backup} {d : Directory} {files : List (CapturedEntry × Bytes)}

/-- Nothing is published, and the staging directory is there. -/
structure Unpublished (root : BackupRoot) (s : BackupState rt.backup) : Prop where
  root_eq : s.root = root
  published : s.published = false
  report : s.report = none
  exitCode : s.exitCode = 0
  staging : s.staging.isSome = true

/-- The file of an entry. -/
structure FileOf (rt : ScriptRuntime) (key : Bytes) (file : CapturedEntry × Bytes) : Prop where
  fileName : file.1.fileName = dumpName file.1.service
  checksum : file.1.checksum = sha256Hex rt.backup file.2
  sizeBytes : file.1.sizeBytes = file.2.length
  opens : ∃ plaintext, decryptBackupFile rt.backup file.2 key = .ok plaintext

/-- The staging directory holds the files of the entries, and nothing else. -/
structure Captured (root : BackupRoot) (key : Bytes) (s : BackupState rt.backup) (d : Directory)
    (files : List (CapturedEntry × Bytes)) : Prop where
  unpublished : Unpublished root s
  staging : s.staging = some d
  nodes : d.nodes = files.map fun file => (file.1.fileName, .file file.2)
  entries : s.entries = files.map Prod.fst
  files : ∀ file ∈ files, FileOf rt key file

theorem Captured.names (h : Captured root key s d files) :
    d.nodes.map Prod.fst = files.map fun file => dumpName file.1.service := by
  rw [h.nodes, List.map_map]
  exact List.map_congr_left fun file hfile => (h.files file hfile).fileName

theorem Captured.notMem {name : JsString} (h : Captured root key s d files)
    (hname : ∀ file ∈ files, dumpName file.1.service ≠ name) : name ∉ d.nodes.map Prod.fst := by
  rw [h.names]
  intro hmem
  obtain ⟨file, hfile, heq⟩ := List.mem_map.mp hmem
  exact hname file hfile heq

theorem Captured.notMem_plaintext (h : Captured root key s d files)
    (service : ResilienceServiceName) : plaintextName service ∉ d.nodes.map Prod.fst :=
  h.notMem fun file _ => (plaintextName_ne service file.1.service).symm

section Steps

variable {α β : Type} {name : JsString} {bytes : Bytes} {fault : WriteFault}
  {f : α → Script (BackupState rt.backup) Halt β}
  {g : PUnit → Script (BackupState rt.backup) Halt β}
  {post : Except Halt β → BackupState rt.backup → Prop}

theorem wp_attempt {x : Except Failure α} (hok : ∀ a, x = .ok a → Wp (f a) post s)
    (hthrown : ∀ failure, x = .error failure → post (.error (.thrown failure)) s) :
    Wp (attempt x >>= f) post s := by
  rw [wp_bind]
  cases x with
  | ok a => exact hok a rfl
  | error failure => exact hthrown failure rfl

theorem wp_throwing {failure : Option Failure} {g : Unit → Script (BackupState rt.backup) Halt β}
    (hok : failure = none → Wp (g ()) post s)
    (hthrown : ∀ e, failure = some e → post (.error (.thrown e)) s) :
    Wp (attempt (throwing failure) >>= g) post s := by
  rw [wp_bind]
  cases failure with
  | none => exact hok rfl
  | some e => exact hthrown e rfl

theorem wp_pause (hgo : s.broken = false → Wp (g ⟨⟩) post s)
    (hdied : s.broken = true → post (.error .died) s) : Wp (pause rt >>= g) post s := by
  rw [wp_bind]
  unfold pause
  rw [wp_of]
  cases hbroken : s.broken with
  | false => exact hgo hbroken
  | true => exact hdied hbroken

theorem Unpublished.stage (hs : Unpublished root s) (name : JsString) (bytes : Bytes)
    (fault : WriteFault) : Unpublished root (stage rt name bytes fault s) := by
  have hkept : ∀ written : Bytes, Unpublished root
      { s with staging := s.staging.map fun d => d.write name written } := fun written =>
    ⟨hs.root_eq, hs.published, hs.report, hs.exitCode, Option.isSome_map.trans hs.staging⟩
  rcases fault with _ | ⟨failure, _ | written⟩
  · exact hkept bytes
  · exact hs
  · exact hkept written

/-- A write that throws publishes nothing. -/
theorem wp_writeStaging (hs : Unpublished root s)
    (hok : fault = none →
      Wp (g ⟨⟩) post { s with staging := s.staging.map fun d => d.write name bytes })
    (hthrown : ∀ failure t, fault.isNone = false → Unpublished root t →
      post (.error (.thrown failure)) t) :
    Wp (writeStaging rt name bytes fault >>= g) post s := by
  unfold writeStaging
  rw [bind_assoc, wp_bind, wp_update, onReturn_ok, wp_bind]
  rcases fault with _ | ⟨failure, written⟩
  · exact hok rfl
  · exact hthrown failure _ rfl (hs.stage name bytes _)

/-- `pg_dump` writes its file; then the process dies, the child has failed, or the round goes on. -/
theorem wp_runDump {dump : DumpEnv} (hs : Unpublished root s)
    (hok : dump.pgDump.isNone = true → s.broken = false →
      Wp (g ⟨⟩) post { s with staging := s.staging.map fun d => d.write name dump.dump })
    (hthrown : ∀ failure t, dump.pgDump.isNone = false → s.broken = false → Unpublished root t →
      post (.error (.thrown failure)) t)
    (hdied : ∀ t, s.broken = true → Unpublished root t → post (.error .died) t) :
    Wp (runDump rt name dump >>= g) post s := by
  have hstage := hs.stage name dump.dump dump.pgDump
  have hsame : (stage rt name dump.dump dump.pgDump s).broken = s.broken := by
    rcases dump.pgDump with _ | ⟨failure, _ | written⟩ <;> rfl
  unfold runDump
  rw [bind_assoc, wp_bind, wp_update, onReturn_ok, bind_assoc]
  refine wp_pause (fun hgo => ?_) fun hbroken => hdied _ (hsame ▸ hbroken) hstage
  rw [hsame] at hgo
  rw [wp_bind]
  cases hfault : dump.pgDump with
  | none =>
    rw [stage]
    exact hok (by rw [hfault]; rfl) hgo
  | some fault =>
    rw [hfault] at hstage
    exact hthrown fault.1 _ (by rw [hfault]; rfl) hgo hstage

theorem wp_readStaging {f : Bytes → Script (BackupState rt.backup) Halt β}
    (hs : s.staging = some d) (hread : d.readFile name = some bytes) (hok : Wp (f bytes) post s) :
    Wp (readStaging rt name >>= f) post s := by
  unfold readStaging
  rw [wp_bind, wp_of, hs, Option.bind_some, hread]
  exact hok

/-- The staging directory becomes a set of the root, when its name is free. -/
theorem wp_renameStaging (hs : Unpublished root s) (hstaging : s.staging = some d)
    (hok : ∀ root', root.rename (directoryName rt env) d = .ok root' →
      Wp (g ⟨⟩) post { s with root := root', staging := none, published := true })
    (hthrown : ∀ failure, root.rename (directoryName rt env) d = .error failure →
      post (.error (.thrown failure)) s) : Wp (renameStaging rt env >>= g) post s := by
  unfold renameStaging
  rw [wp_bind, wp_of]
  simp only [hstaging]
  rw [hs.root_eq]
  rcases hrename : root.rename (directoryName rt env) d with failure | root'
  · exact hthrown failure hrename
  · exact hok root' hrename

end Steps

theorem capturedEntry_eq_some {scope : ResilienceServiceName × String} {encrypted : Bytes}
    (hparts : (connectionParts rt (env.environment scope.2) scope.2).isOk = true)
    (hdump : (env.dumps scope.1).pgDump.isNone = true) (hread : (env.dumps scope.1).read = none)
    (hwrite : (env.dumps scope.1).write = none) (hremove : (env.dumps scope.1).remove = none)
    (hencrypt : encryptBackupFile rt.backup (env.dumps scope.1).dump key (env.dumps scope.1).nonce =
      .ok encrypted) :
    capturedEntry rt env key scope = some (entryOf rt env scope.1 encrypted) := by
  simp [capturedEntry, hparts, hdump, hread, hwrite, hremove, hencrypt, Except.toOption]

/-- How a round stops: it throws what its entry lacks, or it dies before its dump is taken. -/
def RoundStops (rt : ScriptRuntime) (env : BackupEnv) (key : Bytes)
    (scope : ResilienceServiceName × String) (broken : Bool) : Halt → Prop
  | .thrown _ => capturedEntry rt env key scope = none ∧
      ((connectionParts rt (env.environment scope.2) scope.2).isOk = true → broken = false)
  | .died => (connectionParts rt (env.environment scope.2) scope.2).isOk = true ∧ broken = true

/-- A round that does not stop adds the file of its service. -/
theorem captureService_spec (hrt : rt.backup.Lawful) (hs : Captured root key s d files)
    {scope : ResilienceServiceName × String}
    (hservice : ∀ file ∈ files, file.1.service ≠ scope.1) :
    Wp (captureService rt env key scope)
      (ends (fun _ t => s.broken = false ∧ t.broken = !(env.dumps scope.1).captured ∧
        (connectionParts rt (env.environment scope.2) scope.2).isOk = true ∧
        ∃ d' file, file.1.service = scope.1 ∧ capturedEntry rt env key scope = some file.1 ∧
          Captured root key t d' (files ++ [file]))
        fun halt t => Unpublished root t ∧ RoundStops rt env key scope s.broken halt) s := by
  have hplain := hs.notMem_plaintext scope.1
  have hdump : dumpName scope.1 ∉ d.nodes.map Prod.fst := hs.notMem
    fun file hfile heq => hservice file hfile (dumpName_inj heq)
  unfold captureService
  dsimp only
  refine wp_attempt (fun parts hparts => ?_) fun failure hfailure => ?_
  swap
  · exact ⟨hs.unpublished, by simp [capturedEntry, hfailure, Except.isOk, Except.toBool],
      fun hok => by rw [hfailure] at hok; cases hok⟩
  have hconnected : (connectionParts rt (env.environment scope.2) scope.2).isOk = true := by
    rw [hparts]
    rfl
  refine wp_runDump hs.unpublished (fun hpgDump hgo => ?_)
    (fun failure t hfault hgo ht => ⟨ht, by simp [capturedEntry, hfault], fun _ => hgo⟩)
    fun t hbroken ht => ⟨ht, hconnected, hbroken⟩
  rw [hs.staging, Option.map_some]
  have hs₁ : Unpublished root { s with
      staging := some (d.write (plaintextName scope.1) (env.dumps scope.1).dump) } :=
    ⟨hs.unpublished.root_eq, hs.unpublished.published, hs.unpublished.report,
      hs.unpublished.exitCode, rfl⟩
  refine wp_throwing (fun hread => ?_) fun failure hread =>
    ⟨hs₁, by simp [capturedEntry, hread], fun _ => hgo⟩
  refine wp_readStaging rfl readFile_write ?_
  refine wp_attempt (fun encrypted hencrypt => ?_) fun failure hencrypt =>
    ⟨hs₁, by simp [capturedEntry, hencrypt, Except.toOption], fun _ => hgo⟩
  refine wp_writeStaging hs₁ (fun hwrite => ?_) fun failure t hwrite ht =>
    ⟨ht, by simp [capturedEntry, hwrite], fun _ => hgo⟩
  rw [Option.map_some]
  refine wp_throwing (fun hremove => ?_) fun failure hremove =>
    ⟨⟨hs₁.root_eq, hs₁.published, hs₁.report, hs₁.exitCode, rfl⟩,
      by simp [capturedEntry, hremove], fun _ => hgo⟩
  rw [wp_bind, wp_update, onReturn_ok]
  -- no print lies between the two children of a round
  refine wp_pause (fun _ => ?_) fun hbroken => absurd (hgo.symm.trans hbroken) Bool.false_ne_true
  rw [wp_bind, wp_update, onReturn_ok]
  refine ⟨hgo, by rw [hgo]; rfl, hconnected, ((d.write (plaintextName scope.1)
    (env.dumps scope.1).dump).write (dumpName scope.1) encrypted).remove (plaintextName scope.1),
    ⟨entryOf rt env scope.1 encrypted, encrypted⟩, rfl,
    capturedEntry_eq_some hconnected hpgDump hread hwrite hremove hencrypt, ?_⟩
  refine ⟨⟨hs₁.root_eq, hs₁.published, hs₁.report, hs₁.exitCode, rfl⟩, rfl, ?_, ?_, ?_⟩
  · rw [nodes_capture hplain hdump (plaintextName_ne _ _), hs.nodes, List.map_append]
    rfl
  · show s.entries ++ _ = _
    rw [hs.entries, List.map_append]
    rfl
  · intro file hfile
    rcases List.mem_append.mp hfile with hfile | hfile
    · exact hs.files file hfile
    · rw [List.mem_singleton.mp hfile]
      exact ⟨rfl, rfl, rfl, _, decryptBackupFile_encryptBackupFile hrt hencrypt⟩

end Rounds

/-! ## The manifest -/

/-- What the verification reads of an entry. -/
def BackupManifestEntry.fields (entry : BackupManifestEntry) :
    ResilienceServiceName × JsString × JsString × ℕ :=
  (entry.service, entry.fileName, entry.checksum, entry.sizeBytes)

def CapturedEntry.fields (entry : CapturedEntry) :
    ResilienceServiceName × JsString × JsString × ℕ :=
  (entry.service, entry.fileName, entry.checksum, entry.sizeBytes)

section Manifest

variable {rt : ScriptRuntime} {env : BackupEnv} {entries : List CapturedEntry}

theorem sizeAt_some {members : List (JsString × JsonValue)} {k n : ℕ}
    (hmember : members.lookup (jsString "sizeBytes") = some (.number k))
    (h : sizeAt members = some n) : n = k := by
  unfold sizeAt at h
  simp only [hmember, Rat.den_natCast, Rat.num_natCast, Int.toNat_natCast] at h
  split_ifs at h
  exact (Option.some.inj h).symm

/-- The schema keeps the fields of an entry. -/
theorem parseEntry_fields {captured : CapturedEntry} {entry : BackupManifestEntry}
    (h : parseEntry captured.toJson = some entry) : entry.fields = captured.fields := by
  have hmembers : strictMembers
      ["service", "fileName", "checksum", "sizeBytes", "migrationVersion"] captured.toJson =
      some [(jsString "service", .string (jsString captured.service.text)),
        (jsString "fileName", .string captured.fileName),
        (jsString "checksum", .string captured.checksum),
        (jsString "sizeBytes", .number captured.sizeBytes),
        (jsString "migrationVersion",
          (captured.migrationVersion.map JsonValue.string).getD .null)] := rfl
  rw [parseEntry, hmembers] at h
  simp only [Option.bind_eq_bind, Option.bind_some] at h
  rw [serviceAt_text captured.service (by rfl), Option.bind_some] at h
  obtain ⟨fileName, hfileName, h⟩ := Option.bind_eq_some_iff.mp h
  obtain ⟨checksum, hchecksum, h⟩ := Option.bind_eq_some_iff.mp h
  obtain ⟨sizeBytes, hsizeBytes, h⟩ := Option.bind_eq_some_iff.mp h
  obtain ⟨migration, -, h⟩ := Option.bind_eq_some_iff.mp h
  obtain rfl := sizeAt_some (by rfl) hsizeBytes
  split_ifs at h
  cases h
  cases hfileName
  cases hchecksum
  rfl

theorem mapM_parseEntry_fields {parsed : List BackupManifestEntry}
    (h : (entries.map CapturedEntry.toJson).mapM parseEntry = some parsed) :
    parsed.map BackupManifestEntry.fields = entries.map CapturedEntry.fields := by
  induction entries generalizing parsed with
  | nil =>
    cases h
    rfl
  | cons first entries ih =>
    rw [List.map_cons, List.mapM_cons] at h
    obtain ⟨entry, hentry, h⟩ := Option.bind_eq_some_iff.mp h
    obtain ⟨rest, hrest, h⟩ := Option.bind_eq_some_iff.mp h
    cases h
    rw [List.map_cons, List.map_cons, parseEntry_fields hentry, ih hrest]

/-- The schema keeps the fields of the manifest. -/
theorem parseManifest_fields {m : BackupManifest rt.backup}
    (h : parseManifest rt.backup (manifestInput rt env entries) = some m) :
    m.backupSetId = backupSetId rt env ∧ m.createdAt = rt.backup.toISOString env.now ∧
      m.entries.map BackupManifestEntry.fields = entries.map CapturedEntry.fields := by
  have hmembers : strictMembers ["manifestVersion", "backupSetId", "createdAt",
      "encryptionAlgorithm", "keyDerivation", "entries"] (manifestInput rt env entries) =
      some [(jsString "manifestVersion", .string (jsString "1.0")),
        (jsString "backupSetId", .string (backupSetId rt env)),
        (jsString "createdAt", .string (rt.backup.toISOString env.now)),
        (jsString "encryptionAlgorithm", .string (jsString "AES-256-GCM")),
        (jsString "keyDerivation", .string (jsString "raw-256-bit")),
        (jsString "entries", .array (entries.map CapturedEntry.toJson))] := rfl
  rw [parseManifest, hmembers] at h
  simp only [Option.bind_eq_bind, Option.bind_some] at h
  obtain ⟨version, -, h⟩ := Option.bind_eq_some_iff.mp h
  obtain ⟨id, hid, h⟩ := Option.bind_eq_some_iff.mp h
  obtain ⟨createdAt, hcreatedAt, h⟩ := Option.bind_eq_some_iff.mp h
  obtain ⟨algorithm, -, h⟩ := Option.bind_eq_some_iff.mp h
  obtain ⟨derivation, -, h⟩ := Option.bind_eq_some_iff.mp h
  obtain ⟨parsed, hparsed, h⟩ := Option.bind_eq_some_iff.mp h
  have hentries : (entries.map CapturedEntry.toJson).mapM parseEntry = some parsed := hparsed
  split_ifs at h
  cases h
  cases hid
  cases hcreatedAt
  exact ⟨rfl, rfl, mapM_parseEntry_fields hentries⟩

end Manifest

/-! ## The published set -/

section Publication

variable {rt : ScriptRuntime} {env : BackupEnv} {root : BackupRoot} {key : Bytes}
  {s : BackupState rt.backup} {d : Directory} {files : List (CapturedEntry × Bytes)}
  {m : BackupManifest rt.backup}

/-- The set is accepted, with the manifest, the size and the checksum of the run. -/
theorem published_set (hs : Captured root key s d files)
    (hscope : files.map (fun file => file.1.service) = BACKUP_SCOPE.map Prod.fst)
    (hm : parseManifest rt.backup (manifestInput rt env s.entries) = some m) :
    verifyBackupSet rt.backup (d.write (jsString "manifest.json") (manifestBytes m)) (some key) =
      .ok ⟨m, (reportOf rt env s.entries m).sizeBytes,
        (reportOf rt env s.entries m).manifestChecksum⟩ := by
  obtain ⟨-, -, hfields⟩ := parseManifest_fields hm
  rw [hs.entries, List.map_map] at hfields
  have hfree : jsString "manifest.json" ∉ d.nodes.map Prod.fst :=
    hs.notMem fun file _ => dumpName_ne_manifest file.1.service
  have hnodes : (d.write (jsString "manifest.json") (manifestBytes m)).nodes =
      files.map (fun file => (file.1.fileName, Node.file file.2)) ++
        [(jsString "manifest.json", .file (manifestBytes m))] := by
    rw [nodes_write hfree, hs.nodes]
  have hfile : ∀ entry ∈ m.entries, ∃ file ∈ files, file.1.fields = entry.fields := by
    intro entry hentry
    have hmem := List.mem_map_of_mem (f := BackupManifestEntry.fields) hentry
    rw [hfields] at hmem
    exact List.mem_map.mp hmem
  have hentry : ∀ file ∈ files, ∃ entry ∈ m.entries, entry.fields = file.1.fields := by
    intro file hfile
    have hmem := List.mem_map_of_mem (f := CapturedEntry.fields ∘ Prod.fst) hfile
    rw [← hfields] at hmem
    exact List.mem_map.mp hmem
  have hnode : ∀ file ∈ files, (file.1.fileName, Node.file file.2) ∈
      (d.write (jsString "manifest.json") (manifestBytes m)).nodes := by
    intro file hfile
    rw [hnodes]
    exact List.mem_append_left _ (List.mem_map_of_mem hfile)
  refine verifyBackupSet_eq_ok.mpr ⟨⟨?_, ⟨?_, ?_⟩, ?_⟩, ?_, rfl⟩
  · refine hasManifest_manifestBytes (node_of_mem ?_)
    rw [hnodes]
    exact List.mem_append_right _ List.mem_cons_self
  · intro entry hmem
    obtain ⟨file, hfile, heq⟩ := hfile entry hmem
    have hname : entry.fileName = file.1.fileName := (congrArg (fun f => f.2.1) heq).symm
    rw [hname]
    refine ⟨List.mem_map_of_mem (f := Prod.fst) (hnode file hfile), ?_⟩
    rw [(hs.files file hfile).fileName]
    exact dumpName_ne_manifest _
  · intro service
    obtain ⟨scope, hmem, rfl⟩ := scope_complete service
    have hservice := List.mem_map_of_mem (f := Prod.fst) hmem
    rw [← hscope] at hservice
    obtain ⟨file, hfile, hservice⟩ := List.mem_map.mp hservice
    obtain ⟨entry, hmem, heq⟩ := hentry file hfile
    exact ⟨entry, hmem, (congrArg Prod.fst heq).trans hservice⟩
  · intro entry hmem
    obtain ⟨file, hfile, heq⟩ := hfile entry hmem
    obtain ⟨-, hchecksum, hsize, hopens⟩ := hs.files file hfile
    have hname : entry.fileName = file.1.fileName := (congrArg (fun f => f.2.1) heq).symm
    have hsize' : entry.sizeBytes = file.1.sizeBytes := (congrArg (fun f => f.2.2.2) heq).symm
    have hchecksum' : entry.checksum = file.1.checksum := (congrArg (fun f => f.2.2.1) heq).symm
    refine ⟨file.2, ?_, hsize.symm.trans hsize'.symm, hchecksum.symm.trans hchecksum'.symm, ?_⟩
    · rw [hname]
      exact node_of_mem (hnode file hfile)
    · rintro k hk
      cases hk
      exact hopens
  · have hsizes := congrArg (List.map fun f => f.2.2.2) hfields
    rw [List.map_map, List.map_map] at hsizes
    show (s.entries.map CapturedEntry.sizeBytes).sum = _
    rw [hs.entries, List.map_map]
    exact (congrArg List.sum hsizes).symm

/-- The state after the publication. -/
structure Publication (rt : ScriptRuntime) (env : BackupEnv) (root : BackupRoot) (key : Bytes)
    (s : BackupState rt.backup) (d : Directory) (report : BackupReport rt.backup) : Prop where
  renamed : root.rename (directoryName rt env) d = .ok s.root
  staging : s.staging = none
  published : s.published = true
  report_eq : s.report = some report
  exitCode : s.exitCode = 0
  backupSetId : report.backupSetId = Resilience.backupSetId rt env
  directory : report.directory = directoryName rt env
  manifest : report.manifest.backupSetId = Resilience.backupSetId rt env
  createdAt : report.manifest.createdAt = rt.backup.toISOString env.now
  accepted : verifyBackupSet rt.backup d (some key) =
    .ok ⟨report.manifest, report.sizeBytes, report.manifestChecksum⟩

/-- What the rounds have done when these are left. -/
structure InRounds (rt : ScriptRuntime) (env : BackupEnv) (root : BackupRoot) (key : Bytes)
    (rest : List (ResilienceServiceName × String)) (t : BackupState rt.backup) : Prop where
  captured : ∃ d files, Captured root key t d files ∧
    files.map (fun file => file.1.service) ++ rest.map Prod.fst = BACKUP_SCOPE.map Prod.fst
  entries : capturedEntries rt env key BACKUP_SCOPE =
    (capturedEntries rt env key rest).map fun entries => t.entries ++ entries
  prints : lastPrint rt env key env.started BACKUP_SCOPE = lastPrint rt env key (!t.broken) rest

/-- How the `try` block stops. -/
def BodyStops (rt : ScriptRuntime) (env : BackupEnv) (root : BackupRoot) (key : Bytes) :
    Halt → Prop
  | .thrown _ => (lastPrint rt env key env.started BACKUP_SCOPE).isSome = true ∧
      publishes rt env root key = false
  | .died => lastPrint rt env key env.started BACKUP_SCOPE = none

variable {scope : ResilienceServiceName × String} {rest : List (ResilienceServiceName × String)}

theorem capturedEntries_cons :
    capturedEntries rt env key (scope :: rest) =
      (capturedEntry rt env key scope).bind fun entry =>
        (capturedEntries rt env key rest).map fun entries => entry :: entries := rfl

theorem lastPrint_cons {taken : Bool} :
    lastPrint rt env key taken (scope :: rest) =
      if (connectionParts rt (env.environment scope.2) scope.2).isOk then
        if taken then
          if (capturedEntry rt env key scope).isSome then
            lastPrint rt env key (env.dumps scope.1).captured rest
          else some true
        else none
      else some taken := rfl

theorem InRounds.stops (h : InRounds rt env root key (scope :: rest) s)
    {halt : Halt} (hstops : RoundStops rt env key scope s.broken halt) :
    BodyStops rt env root key halt := by
  have hprints := h.prints
  have hentries := h.entries
  rw [lastPrint_cons] at hprints
  rw [capturedEntries_cons] at hentries
  cases halt with
  | thrown failure =>
    obtain ⟨hnone, htaken⟩ := hstops
    rw [hnone] at hentries hprints
    refine ⟨?_, by rw [publishes, hentries]; rfl⟩
    rw [hprints]
    cases hparts : (connectionParts rt (env.environment scope.2) scope.2).isOk with
    | false => rfl
    | true => rw [htaken hparts]; rfl
  | died =>
    obtain ⟨hparts, hbroken⟩ := hstops
    rw [hparts, hbroken] at hprints
    exact hprints

theorem InRounds.next (h : InRounds rt env root key (scope :: rest) s)
    {t : BackupState rt.backup} {entry : CapturedEntry}
    (hcaptured : ∃ d files, Captured root key t d files ∧
      files.map (fun file => file.1.service) ++ rest.map Prod.fst = BACKUP_SCOPE.map Prod.fst)
    (hparts : (connectionParts rt (env.environment scope.2) scope.2).isOk = true)
    (hentry : capturedEntry rt env key scope = some entry)
    (hentries : t.entries = s.entries ++ [entry])
    (hgo : s.broken = false) (hprint : t.broken = !(env.dumps scope.1).captured) :
    InRounds rt env root key rest t := by
  refine ⟨hcaptured, ?_, ?_⟩
  · rw [h.entries, capturedEntries_cons, hentry, hentries]
    cases capturedEntries rt env key rest with
    | none => rfl
    | some entries => simp
  · rw [h.prints, lastPrint_cons, hparts, hgo, hentry, hprint, Bool.not_not]
    rfl

theorem rename_isOk (root : BackupRoot) (name : JsString) (d d' : Directory) :
    (root.rename name d).isOk = (root.rename name d').isOk := by
  unfold BackupRoot.rename
  split
  · rfl
  · split_ifs <;> rfl
  · rfl

/-- The `try` block publishes its set, or stops before. -/
theorem backupBody_spec (root : BackupRoot) (hrt : rt.backup.Lawful) :
    Wp (backupBody rt env key)
      (ends (fun _ t => publishes rt env root key = true ∧
        (∃ taken, lastPrint rt env key env.started BACKUP_SCOPE = some taken ∧
          t.broken = !(taken && env.completed && env.nextSteps && env.result)) ∧
        ∃ d report, Publication rt env root key t d report)
        fun halt t => Unpublished root t ∧ BodyStops rt env root key halt)
      (backupStart rt root) := by
  have hstart : Captured root key { backupStart rt root with broken := !env.started }
      Directory.empty [] :=
    ⟨⟨rfl, rfl, rfl, rfl, rfl⟩, rfl, rfl, rfl, fun _ h => nomatch h⟩
  have hfirst : InRounds rt env root key BACKUP_SCOPE
      { backupStart rt root with broken := !env.started } := by
    refine ⟨⟨_, [], hstart, rfl⟩, ?_, by rw [Bool.not_not]⟩
    show _ = Option.map (fun entries => entries) _
    rw [Option.map_id']
  unfold backupBody print
  rw [wp_bind, wp_update, onReturn_ok, wp_bind]
  have hloop := wp_forEach
    (E := fun halt t => Unpublished root t ∧ BodyStops rt env root key halt)
    (I := InRounds rt env root key) (g := captureService rt env key) (l := BACKUP_SCOPE) ?_ hfirst
  · refine hloop.mono fun r t h => ?_
    rcases r with halt | ⟨⟩
    · exact h
    obtain ⟨⟨d, files, ht, hscope⟩, hentries, hprints⟩ := h
    rw [List.map_nil, List.append_nil] at hscope
    have hpublishes : publishes rt env root key =
        ((parseManifest rt.backup (manifestInput rt env t.entries)).isSome && env.manifest.isNone &&
          env.rename.isNone && (root.rename (directoryName rt env) Directory.empty).isOk) := by
      rw [publishes, hentries, capturedEntries, Option.map_some, List.append_nil, Option.any_some]
    have hsome : (lastPrint rt env key env.started BACKUP_SCOPE).isSome = true := by
      rw [hprints]
      rfl
    rw [onReturn_ok, wp_bind, wp_of, onReturn_ok]
    refine wp_attempt (fun m hm => ?_) fun failure hm =>
      ⟨ht.unpublished, hsome, ?_⟩
    swap
    · cases hparsed : parseManifest rt.backup (manifestInput rt env t.entries) with
      | none =>
        rw [hpublishes, hparsed]
        rfl
      | some m =>
        rw [hparsed] at hm
        cases hm
    have hm' := orThrow_eq_ok.mp hm
    refine wp_writeStaging ht.unpublished (fun hwrite => ?_) fun failure u hwrite hu =>
      ⟨hu, hsome, by rw [hpublishes, hwrite, Bool.and_false, Bool.false_and, Bool.false_and]⟩
    rw [ht.staging, Option.map_some]
    have hu : Unpublished root { t with
        staging := some (d.write (jsString "manifest.json") (manifestBytes m)) } :=
      ⟨ht.unpublished.root_eq, ht.unpublished.published, ht.unpublished.report,
        ht.unpublished.exitCode, rfl⟩
    refine wp_throwing (fun hrename => ?_) fun failure hrename =>
      ⟨hu, hsome, by rw [hpublishes, hrename, Option.isNone_some, Bool.and_false, Bool.false_and]⟩
    have hfree : (root.rename (directoryName rt env) Directory.empty).isOk =
        (root.rename (directoryName rt env)
          (d.write (jsString "manifest.json") (manifestBytes m))).isOk := rename_isOk _ _ _ _
    refine wp_renameStaging hu rfl (fun root' hroot' => ?_) fun failure hroot' =>
      ⟨hu, hsome, ?_⟩
    swap
    · rw [hpublishes, hfree, hroot']
      exact Bool.and_false _
    obtain ⟨hid, hcreatedAt, -⟩ := parseManifest_fields hm'
    refine ⟨?_, ⟨!t.broken, hprints, ?_⟩, _, reportOf rt env t.entries m, hroot', rfl, rfl, rfl,
      hu.exitCode, rfl, rfl, hid, hcreatedAt, published_set ht hscope hm'⟩
    · rw [hpublishes, hm', hwrite, hrename, hfree, hroot']
      rfl
    · show (t.broken || !env.completed || !env.nextSteps || !env.result) = _
      simp only [Bool.not_and, Bool.not_not]
  · rintro scope rest t h
    obtain ⟨d, files, ht, hscope⟩ := h.captured
    have hnodup : (BACKUP_SCOPE.map Prod.fst).Nodup := by decide
    have hservice : ∀ file ∈ files, file.1.service ≠ scope.1 := by
      intro file hfile heq
      rw [← hscope, List.nodup_append] at hnodup
      exact hnodup.2.2 _ (List.mem_map_of_mem hfile) _ List.mem_cons_self heq
    refine (captureService_spec hrt ht hservice).mono fun r u hr => ?_
    rcases r with halt | ⟨⟩
    · exact ⟨hr.1, h.stops hr.2⟩
    · obtain ⟨hgo, hprint, hparts, d', file, hfile, hentry, hu⟩ := hr
      refine h.next ⟨d', files ++ [file], hu, ?_⟩ hparts hentry ?_ hgo hprint
      · rw [List.map_append, List.map_singleton, hfile, List.append_assoc]
        exact hscope
      · rw [hu.entries, ht.entries, List.map_append]
        rfl

end Publication

/-! ## The property -/

/-- No set of the root has a name of this run: its random suffix is new. -/
def FreshIn (rt : ScriptRuntime) (env : BackupEnv) (root : BackupRoot) : Prop :=
  ∀ set ∈ listBackupSets rt.backup (some root),
    ∀ id ∈ [backupSetId rt env, directoryName rt env], set.backupSetId ≠ id ∧ set.directory ≠ id

/-- The reader agrees with what a run has published. -/
structure ReaderAgrees (rt : ScriptRuntime) (env : BackupEnv) (root : BackupRoot)
    (s : BackupState rt.backup) : Prop where
  /-- The published set is accepted, with the manifest, the size and the checksum of the run. -/
  accepted : ∀ report, s.report = some report → ∃ key d,
    loadBackupKey rt env.environment = .ok key ∧ s.root.directory report.directory = some d ∧
      verifyBackupSet rt.backup d (some key) =
        .ok ⟨report.manifest, report.sizeBytes, report.manifestChecksum⟩
  /-- Both names that are printed select it. -/
  selected : ∀ report, s.report = some report → FreshIn rt env root →
    ∀ id ∈ [report.backupSetId, report.directory],
      parseSetSelection [jsString "--", jsString "--set", id] = .ok (.explicit id) ∧
        ∃ createdAt, resolveBackupSet rt.backup (.explicit id) (some s.root) =
          .ok ⟨report.directory, report.backupSetId, createdAt⟩

/-- The reader agrees with the writer, and a run that fails publishes nothing and leaves nothing. -/
structure BackupAgreement (rt : ScriptRuntime) (env : BackupEnv) (root : BackupRoot)
    (s : BackupState rt.backup) : Prop where
  agrees : ReaderAgrees rt env root s
  /-- Status 0 says that a set was published. -/
  published : s.exitCode = 0 → s.report.isSome = true ∧ s.staging = none
  /-- A run that fails publishes nothing. -/
  unpublished : s.exitCode ≠ 0 → s.root = root
  /-- It leaves no staging directory, with the dumps in it. -/
  cleaned : s.exitCode ≠ 0 → s.staging = none

section Agreement

variable {rt : ScriptRuntime} {env : BackupEnv} {root : BackupRoot} {key : Bytes}
  {s : BackupState rt.backup} {d : Directory} {report : BackupReport rt.backup}

theorem directory_put {name : JsString} : (root.put name d).directory name = some d := by
  have hlookup : (root.put name d).nodes.lookup name = some (.directory d) := by
    show (root.nodes.filter _ ++ [(name, RootNode.directory d)]).lookup name = _
    rw [List.lookup_append, List.lookup_cons_self]
    have hnone : (root.nodes.filter fun node => decide (node.1 ≠ name)).lookup name = none := by
      refine List.lookup_eq_none_iff.mpr fun node hnode => ?_
      simpa using (of_decide_eq_true (List.mem_filter.mp hnode).2).symm
    rw [hnone]
    rfl
  unfold BackupRoot.directory
  rw [hlookup]

/-- The root with a set lists it last. -/
theorem listBackupSets_put (root : BackupRoot) {rt : BackupRuntime} {name : JsString}
    {set : ListedSet} (hset : listedSet rt name d = some set) :
    ∃ others, listBackupSets rt (some (root.put name d)) = others ++ [set] ∧
      ∀ other ∈ others, other ∈ listBackupSets rt (some root) := by
  refine ⟨(root.nodes.filter fun node => decide (node.1 ≠ name)).filterMap (listedNode rt), ?_, ?_⟩
  · show (root.nodes.filter _ ++ [(name, RootNode.directory d)]).filterMap (listedNode rt) = _
    rw [List.filterMap_append]
    have hlast : [(name, RootNode.directory d)].filterMap (listedNode rt) = [set] := by
      rw [List.filterMap_cons_some (show listedNode rt (name, .directory d) = some set from hset)]
      rfl
    rw [hlast]
  · intro other hother
    obtain ⟨node, hnode, hlisted⟩ := List.mem_filterMap.mp hother
    exact List.mem_filterMap.mpr ⟨node, List.mem_of_mem_filter hnode, hlisted⟩

/-- Both names of a run start with `b` and have the characters of an opaque identifier. -/
theorem names_opaque (h : isOpaqueIdentifier (backupSetId rt env) = true) :
    ∀ id ∈ [backupSetId rt env, directoryName rt env], ∃ rest, id = 98 :: rest ∧
      isOpaqueIdentifier id = true := by
  have hb : ∃ rest, backupSetId rt env = 98 :: rest := ⟨_, rfl⟩
  obtain ⟨rest, hrest⟩ := hb
  have hdirectory : isOpaqueIdentifier (directoryName rt env) = true := by
    unfold directoryName
    rw [isOpaqueIdentifier, Bool.and_eq_true, List.all_eq_true] at h ⊢
    refine ⟨by rw [List.length_map]; exact h.1, fun u hu => ?_⟩
    obtain ⟨v, hv, rfl⟩ := List.mem_map.mp hu
    split_ifs with hcolon
    · decide
    · exact h.2 v hv
  intro id hid
  rcases List.mem_cons.mp hid with rfl | hid
  · exact ⟨rest, hrest, h⟩
  · rw [List.mem_singleton.mp hid]
    refine ⟨rest.map fun u => if u = 58 then 95 else u, ?_, hdirectory⟩
    unfold directoryName
    rw [hrest]
    rfl

theorem Publication.root_eq (h : Publication rt env root key s d report) :
    s.root = root.put (directoryName rt env) d := rename_ok h.renamed

/-- The reader agrees with a publication. -/
theorem Publication.agrees (hrt : rt.backup.Lawful)
    (hkey : loadBackupKey rt env.environment = .ok key)
    (h : Publication rt env root key s d report) : ReaderAgrees rt env root s := by
  have hreport : ∀ report', s.report = some report' → report' = report := by
    intro report' heq
    rw [h.report_eq] at heq
    exact (Option.some.inj heq).symm
  constructor
  · rintro report' heq
    cases hreport report' heq
    refine ⟨key, d, hkey, ?_, h.accepted⟩
    rw [h.root_eq, h.directory]
    exact directory_put
  · rintro report' heq hfresh id hid
    cases hreport report' heq
    rw [h.backupSetId, h.directory] at hid
    obtain ⟨⟨hmanifest, -, -⟩, -⟩ := verifyBackupSet_eq_ok.mp h.accepted
    have hopaque : isOpaqueIdentifier (Resilience.backupSetId rt env) = true := by
      rw [← h.manifest]
      exact report.manifest.backupSetId_ok
    obtain ⟨rest, rfl, hid'⟩ := names_opaque hopaque id hid
    refine ⟨parseSetSelection_set (assertSafeSetIdentifier_of_identifier hid' (by decide)), ?_⟩
    obtain ⟨createdAt, hcreatedAt⟩ :=
      Option.isSome_iff_exists.mp (hrt.dateParse_toISOString env.now)
    rw [← h.createdAt] at hcreatedAt
    obtain ⟨others, hlisted, hothers⟩ := listBackupSets_put root
      (listedSet_of_manifest (directoryName rt env) hmanifest hcreatedAt)
    refine ⟨createdAt, ?_⟩
    rw [h.root_eq, h.backupSetId, h.directory]
    rw [h.manifest] at hlisted
    refine resolveBackupSet_of_unique hlisted
      (fun other hother => hfresh other (hothers other hother) _ hid) ?_
    rcases List.mem_cons.mp hid with heq | hmem
    · exact .inl heq.symm
    · exact .inr (List.mem_singleton.mp hmem).symm

/-- The root is another one after a publication: a set is not renamed over a set. -/
theorem Publication.root_ne (h : Publication rt env root key s d report) : s.root ≠ root := by
  intro heq
  obtain ⟨⟨hmanifest, -, -⟩, -⟩ := verifyBackupSet_eq_ok.mp h.accepted
  have hlookup : root.directory (directoryName rt env) = some d := by
    rw [← heq, h.root_eq]
    exact directory_put
  have hrenamed := h.renamed
  unfold BackupRoot.directory at hlookup
  unfold BackupRoot.rename at hrenamed
  cases hnode : root.nodes.lookup (directoryName rt env) with
  | none =>
    rw [hnode] at hlookup
    cases hlookup
  | some node =>
    rw [hnode] at hlookup hrenamed
    cases node with
    | other => cases hlookup
    | directory old =>
      cases hlookup
      dsimp only at hrenamed
      split_ifs at hrenamed with hempty
      -- the set holds its manifest
      have hnone : d.node (jsString "manifest.json") = none := by
        rw [Directory.node, List.isEmpty_iff.mp hempty]
        rfl
      obtain ⟨value, hread, -⟩ := hmanifest
      rw [readManifestJson, Directory.readFile, hnone] at hread
      cases hread

/-- A run that publishes keeps its word when its prints are taken. -/
theorem Publication.agreement (hrt : rt.backup.Lawful)
    (hkey : loadBackupKey rt env.environment = .ok key)
    (h : Publication rt env root key s d report) :
    ReaderAgrees rt env root (leaves rt (.ok ⟨⟩) s) ∧
      (BackupAgreement rt env root (leaves rt (.ok ⟨⟩) s) ↔ s.broken = false) := by
  have hagrees := h.agrees hrt hkey
  cases hbroken : s.broken with
  | true =>
    have hleaves : leaves rt (.ok ⟨⟩) s = { s with exitCode := 1 } := by
      rw [leaves, hbroken, Bool.true_or, if_pos rfl]
    rw [hleaves]
    refine ⟨⟨hagrees.accepted, hagrees.selected⟩, fun hagreement => ?_, by rintro ⟨⟩⟩
    exact absurd (hagreement.unpublished Nat.one_ne_zero) h.root_ne
  | false =>
    have hleaves : leaves rt (.ok ⟨⟩) s = s := by
      rw [leaves, hbroken]
      rfl
    rw [hleaves]
    refine ⟨hagrees, fun _ => rfl, fun _ => ⟨hagrees, fun _ => ?_,
      fun hexit => absurd h.exitCode hexit, fun hexit => absurd h.exitCode hexit⟩⟩
    rw [h.report_eq]
    exact ⟨rfl, h.staging⟩

/-- A run that fails without a publication keeps its word when nothing is left. -/
theorem unpublished_agreement (env : BackupEnv) (s : BackupState rt.backup) (hroot : s.root = root)
    (hreport : s.report = none) (hexit : s.exitCode = 1) :
    ReaderAgrees rt env root s ∧ (BackupAgreement rt env root s ↔ s.staging = none) := by
  have hagrees : ReaderAgrees rt env root s := by
    constructor
    · intro report heq
      rw [hreport] at heq
      cases heq
    · intro report heq
      rw [hreport] at heq
      cases heq
  have hfailed : s.exitCode ≠ 0 := by
    rw [hexit]
    decide
  exact ⟨hagrees, fun h => h.cleaned hfailed, fun hstaging => ⟨hagrees,
    fun hzero => absurd hzero hfailed, fun _ => hroot, fun _ => hstaging⟩⟩

theorem leaves_failed (r : Except Halt Unit) (hexit : s.exitCode = 1) : leaves rt r s = s := by
  have hs : { s with exitCode := 1 } = s := by
    rw [← hexit]
  rw [leaves, hs, ite_self]

/-- The cleanup of a run that has published does nothing. -/
theorem wp_backupCleanup_published {post : Except Halt PUnit → BackupState rt.backup → Prop}
    (hs : s.published = true) (h : post (.ok ⟨⟩) s) : Wp (backupCleanup rt env) post s := by
  unfold backupCleanup
  rw [wp_bind, wp_of, onReturn_ok, hs]
  exact h

/-- The cleanup of a run that has not published removes the staging directory, or throws. -/
theorem wp_backupCleanup_unpublished {post : Except Halt PUnit → BackupState rt.backup → Prop}
    (hs : s.published = false)
    (hok : env.cleanup = none → post (.ok ⟨⟩) { s with staging := none })
    (hthrown : ∀ failure, env.cleanup = some failure → post (.error (.thrown failure)) s) :
    Wp (backupCleanup rt env) post s := by
  unfold backupCleanup
  rw [wp_bind, wp_of, onReturn_ok, hs]
  exact wp_throwing hok hthrown

/-- How the `try` statement ends. -/
theorem backupMain_spec (hrt : rt.backup.Lawful)
    (hkey : loadBackupKey rt env.environment = .ok key) :
    Wp (backupMain rt env key) (fun r s => ReaderAgrees rt env root (leaves rt r s) ∧
      (BackupAgreement rt env root (leaves rt r s) ↔
        ((lastPrint rt env key env.started BACKUP_SCOPE).any fun taken =>
          if publishes rt env root key then taken && env.completed && env.nextSteps && env.result
          else env.cleanup.isNone) = true)) (backupStart rt root) := by
  unfold backupMain
  rw [wp_bind, wp_tryCatch]
  refine (backupBody_spec root hrt).mono fun r s h => ?_
  rcases r with (failure | ⟨⟩) | ⟨⟩
  · -- `catch` prints, and the cleanup follows
    obtain ⟨hs, htaken, hpublishes⟩ := h
    obtain ⟨taken, htaken⟩ := Option.isSome_iff_exists.mp htaken
    rw [htaken, Option.any_some, hpublishes, if_neg Bool.false_ne_true]
    rw [onThrow_error, backupFailed, print, wp_bind, wp_update, onReturn_ok, wp_update,
      onReturn_ok]
    refine wp_backupCleanup_unpublished hs.published (fun hcleanup => ?_)
      fun failure hcleanup => ?_
    · rw [leaves_failed _ rfl, hcleanup]
      obtain ⟨hagrees, hiff⟩ := unpublished_agreement env
        { s with broken := s.broken || !env.failed, exitCode := 1, staging := none }
        hs.root_eq hs.report rfl
      exact ⟨hagrees, hiff.trans (iff_of_true rfl rfl)⟩
    · rw [leaves_failed _ rfl, hcleanup]
      obtain ⟨hagrees, hiff⟩ := unpublished_agreement env
        { s with broken := s.broken || !env.failed, exitCode := 1 } hs.root_eq hs.report rfl
      refine ⟨hagrees, hiff.trans (iff_of_false ?_ Bool.false_ne_true)⟩
      exact Option.isSome_iff_ne_none.mp hs.staging
  · -- the process has died
    obtain ⟨hs, hprints⟩ := h
    have hdied : leaves rt (.error .died) s = { s with exitCode := 1 } :=
      if_pos (Bool.or_true _)
    rw [onThrow_error, backupFailed, wp_throw, onReturn_error, hdied,
      show lastPrint rt env key env.started BACKUP_SCOPE = none from hprints]
    obtain ⟨hagrees, hiff⟩ := unpublished_agreement env { s with exitCode := 1 }
      hs.root_eq hs.report rfl
    exact ⟨hagrees, hiff.trans (iff_of_false (Option.isSome_iff_ne_none.mp hs.staging)
      Bool.false_ne_true)⟩
  · obtain ⟨hpublishes, ⟨taken, htaken, hbroken⟩, d, report, hs⟩ := h
    rw [onThrow_ok, onReturn_ok]
    refine wp_backupCleanup_published hs.published ?_
    rw [htaken, Option.any_some, hpublishes, if_pos rfl]
    obtain ⟨hagrees, hiff⟩ := hs.agreement hrt hkey
    rw [hbroken, Bool.not_eq_false'] at hiff
    exact ⟨hagrees, hiff⟩

/-- The reader agrees with the writer in every run. A run that fails publishes nothing and leaves
    nothing exactly when each print that it gets to before an `await` is taken and, if it
    publishes, those after it too, and if not, its cleanup does not fail. -/
theorem backup_agreement (rt : ScriptRuntime) (hrt : rt.backup.Lawful) (env : BackupEnv)
    (root : BackupRoot) : ReaderAgrees rt env root (backup rt env root) ∧
      (BackupAgreement rt env root (backup rt env root) ↔ keepsWord rt env root = true) := by
  have hnever :
      ReaderAgrees rt env root { backupStart rt root with staging := none, exitCode := 1 } ∧
      (BackupAgreement rt env root { backupStart rt root with staging := none, exitCode := 1 } ↔
        true = true) := by
    obtain ⟨hagrees, hiff⟩ := unpublished_agreement env
      { backupStart rt root with staging := none, exitCode := 1 } rfl rfl rfl
    exact ⟨hagrees, hiff.trans (iff_of_true rfl rfl)⟩
  unfold backup keepsWord
  rcases hkey : loadBackupKey rt env.environment with failure | key
  · exact hnever
  rcases env.mkdir with _ | failure
  swap
  · exact hnever
  rcases env.temp with _ | failure
  swap
  · exact hnever
  exact backupMain_spec hrt hkey

end Agreement

/-! ## Fixed runs -/

theorem plainBackupRuntime_lawful : plainBackupRuntime.Lawful where
  gcmOpen_gcmSeal _ _ _ _ := rfl
  dateParse_toISOString _ := rfl

/-- A runtime for which every URL is that of one database. -/
def plainScriptRuntime : ScriptRuntime where
  backup := plainBackupRuntime
  newUrl _ := some ⟨jsString "postgresql:", jsString "localhost", [], jsString "aegis", [],
    jsString "/app", none⟩
  decodeURIComponent := some
  bufferFromBase64 text := text.map fun u => UInt8.ofNat u.toNat
  number _ := some 1

/-- An empty dump of a service, taken without a failure. -/
def emptyDump : DumpEnv where
  dump := []
  pgDump := none
  read := none
  nonce := Vector.replicate 12 0
  write := none
  remove := none
  migration := .error "psql exited with code 1"
  captured := true

/-- A run in which nothing fails. -/
def plainBackupEnv : BackupEnv where
  environment _ := some (jsString "kkkkkkkkkkkkkkkkkkkkkkkkkkkkkkkk")
  now := 0
  randomUUID := jsString "a1b2c3d4-0000-4000-8000-000000000000"
  mkdir := none
  temp := none
  dumps _ := emptyDump
  manifest := none
  rename := none
  cleanup := none
  started := true
  completed := true
  nextSteps := true
  result := true
  failed := true

def emptyRoot : BackupRoot := ⟨[], List.nodup_nil⟩

/-- The reader agrees with a run that publishes its set. -/
theorem backup_agreement_published :
    (backup plainScriptRuntime plainBackupEnv emptyRoot).report.isSome = true ∧
      BackupAgreement plainScriptRuntime plainBackupEnv emptyRoot
        (backup plainScriptRuntime plainBackupEnv emptyRoot) :=
  ⟨by decide +kernel, (backup_agreement plainScriptRuntime plainBackupRuntime_lawful plainBackupEnv
    emptyRoot).2.mpr (by decide +kernel)⟩

/-- The reader of the log stops after its first line, so that of line 120 is not taken. -/
def closedEnv : BackupEnv :=
  { plainBackupEnv with
    dumps := fun service => { emptyDump with dump := [7], captured := service ≠ .identity } }

/-- The process dies while the second dump is taken, and the plaintext stays in the staging
    directory beside the encrypted dump of the first. -/
theorem dump_left :
    FreshIn plainScriptRuntime closedEnv emptyRoot ∧
      (backup plainScriptRuntime closedEnv emptyRoot).staging.map
        (fun d => d.nodes.map Prod.fst) = some [dumpName .identity, plaintextName .ledger] ∧
      ¬ BackupAgreement plainScriptRuntime closedEnv emptyRoot
        (backup plainScriptRuntime closedEnv emptyRoot) := by
  have hleft : (backup plainScriptRuntime closedEnv emptyRoot).staging.map
      (fun d => d.nodes.map Prod.fst) = some [dumpName .identity, plaintextName .ledger] := by
    decide +kernel
  refine ⟨(fun set hset => nomatch hset), hleft, fun h => ?_⟩
  rw [h.cleaned (by decide +kernel)] at hleft
  cases hleft

end AegisShield.Resilience
