import AegisShield.Resilience.BackupSet

/-!
# Selecting a backup set

The sets that a backup root holds, the selection that the command line names and the set
that it stands for (`scripts/dr-lib.mjs`, lines 273-434).

Results:
* `parseSetSelection_set`: the command line that `backup.mjs` prints names its set.
* `resolveBackupSet_of_unique`: a set whose identifier no other set has is the one that its
  identifier selects.
* `backup_set_selection`: the loop over the arguments accepts just the grammar, and a selection is
  resolved to the set that it stands for, whatever the order in which sets are listed.
-/

namespace AegisShield.Resilience

open Common JsonText

/-! ## The sets of a root -/

/-- What stands under a name in a backup root. -/
inductive RootNode where
  | directory (d : Directory)
  /-- A file, or a link. -/
  | other

/-- A backup root: distinct names, in the order in which they are listed. -/
structure BackupRoot where
  nodes : List (JsString × RootNode)
  nodup : (nodes.map Prod.fst).Nodup

/-- The directory under a name. -/
def BackupRoot.directory (root : BackupRoot) (name : JsString) : Option Directory :=
  match root.nodes.lookup name with
  | some (.directory d) => some d
  | _ => none

/-- An element of `listBackupSets`. -/
structure ListedSet where
  directory : JsString
  backupSetId : JsString
  createdAt : ℤ
  deriving DecidableEq

/-- `manifest?.name`. -/
def memberOf (value : JsonValue) (name : String) : Option JsonValue :=
  match value with
  | .object members => members.lookup (jsString name)
  | _ => none

section
variable (rt : BackupRuntime)

/-- A round of the loop of `listBackupSets` (lines 292-312); `none` when it continues. -/
def listedSet (name : JsString) (d : Directory) : Option ListedSet := do
  let manifest ← readManifestJson rt d
  let createdAt ← (memberOf manifest "createdAt").bind rt.dateParse
  match memberOf manifest "backupSetId" with
  | some (.string backupSetId) => some ⟨name, backupSetId, createdAt⟩
  | _ => none

/-- `listedSet` of what stands under a name. -/
def listedNode : JsString × RootNode → Option ListedSet
  | (name, .directory d) => listedSet rt name d
  | (_, .other) => none

/-- `listBackupSets` (lines 284-314); `none` is a root that cannot be listed. -/
def listBackupSets : Option BackupRoot → List ListedSet
  | none => []
  | some root => root.nodes.filterMap (listedNode rt)

end

/-! ## The command line -/

/-- `SET_IDENTIFIER`, `/^[A-Za-z0-9][A-Za-z0-9:._-]{7,127}$/u`. -/
def isSetIdentifier : JsString → Bool
  | [] => false
  | first :: rest => isAlphanumeric first && decide (7 ≤ rest.length ∧ rest.length ≤ 127) &&
    rest.all fun u => isAlphanumeric u || u = 58 || u = 46 || u = 95 || u = 45

/-- `assertSafeSetIdentifier` (lines 325-338). -/
def assertSafeSetIdentifier (value : JsString) : Except Failure JsString :=
  if isSetIdentifier value = false ∨ [46, 46] <:+: value ∨ 47 ∈ value ∨ 92 ∈ value then
    .error (.error "A backup set identifier must be an opaque token, not a path.")
  else .ok value

/-- `SELECTION_USAGE`. -/
def SELECTION_USAGE : String := "\n".intercalate [
  "A backup set must be named explicitly.",
  "",
  "  --set <backup-set-id>   operate on exactly this set",
  "  --latest                operate on the newest set by manifest creation time",
  "",
  "Refusing to guess: verifying or restoring a set the operator did not name is",
  "how a drill ends up recording evidence about bytes it never examined."]

/-- The text of code units, as it is printed: a surrogate without its other half is U+FFFD. -/
def printedText : JsString → List Char
  | high :: low :: rest =>
    if isHigh high && isLow low then pairChar high low :: printedText rest
    else (if isHigh high || isLow high then '\uFFFD' else unitChar high) ::
      printedText (low :: rest)
  | [u] => [if isHigh u || isLow u then '\uFFFD' else unitChar u]
  | [] => []

/-- A result of `parseSetSelection`. -/
inductive SetSelection where
  | explicit (id : JsString)
  | latest
  deriving DecidableEq

/-- The loop of `parseSetSelection` (lines 360-388), with `explicit` and `latest` so far. -/
def parseArguments (explicit : Option JsString) (latest : Bool) :
    List JsString → Except Failure (Option JsString × Bool)
  | [] => .ok (explicit, latest)
  | argument :: rest =>
    if argument = jsString "--" then parseArguments explicit latest rest
    else if argument = jsString "--latest" then parseArguments explicit true rest
    else if argument = jsString "--set" then
      if explicit.isSome then .error (.error "--set was given more than once.")
      else
        match rest with
        | [] => .error (.error "--set requires a value.")
        | value :: rest => do
          let id ← assertSafeSetIdentifier value
          parseArguments (some id) latest rest
    else if jsString "--set=" <+: argument then
      if explicit.isSome then .error (.error "--set was given more than once.")
      else do
        let id ← assertSafeSetIdentifier (argument.drop (jsString "--set=").length)
        parseArguments (some id) latest rest
    else .error (.error ("Unrecognised argument: " ++
      String.ofList (printedText (argument.take 40))))

/-- `parseSetSelection` (lines 357-395). -/
def parseSetSelection (argv : List JsString) : Except Failure SetSelection := do
  let (explicit, latest) ← parseArguments none false argv
  match explicit, latest with
  | some _, true => .error (.error "--set and --latest cannot be combined.")
  | some id, false => .ok (.explicit id)
  | none, true => .ok .latest
  | none, false => .error (.error SELECTION_USAGE)

/-! ## The set of a selection -/

/-- `resolveBackupSet` (lines 408-434). -/
def resolveBackupSet (rt : BackupRuntime) (selection : SetSelection) (root : Option BackupRoot) :
    Except Failure ListedSet :=
  let sets := listBackupSets rt root
  if sets = [] then .error (.error "No backup set was found.")
  else
    match selection with
    | .explicit id =>
      match sets.filter fun set => decide (set.backupSetId = id ∨ set.directory = id) with
      | [] => .error (.error "The named backup set was not found.")
      | [set] => .ok set
      | _ => .error (.error "The named backup set is ambiguous.")
    | .latest =>
      match sets.filter fun set =>
          decide (some set.createdAt = (sets.map ListedSet.createdAt).max?) with
      | [] => .error (.system "TypeError")
      | [set] => .ok set
      | _ => .error
        (.error "Two backup sets share the newest creation time. Name one with --set.")

/-! ## Results -/

section Results

variable {rt : BackupRuntime} {id : JsString} {set : ListedSet} {root : Option BackupRoot}

theorem notMem_of_opaque {u : UInt16} (h : isOpaqueIdentifier id = true)
    (hu : (isAlphanumeric u || u = 58 || u = 95 || u = 45) = false) : u ∉ id := by
  intro hmem
  rw [isOpaqueIdentifier, Bool.and_eq_true, List.all_eq_true] at h
  rw [h.2 u hmem] at hu
  cases hu

/-- An identifier that the manifest admits is one that the command line admits, if it starts with
    a letter or a digit. -/
theorem assertSafeSetIdentifier_of_identifier {first : UInt16} {rest : JsString}
    (h : isOpaqueIdentifier (first :: rest) = true) (hfirst : isAlphanumeric first = true) :
    assertSafeSetIdentifier (first :: rest) = .ok (first :: rest) := by
  have hdot : (46 : UInt16) ∉ first :: rest := notMem_of_opaque h (by decide)
  have hslash : (47 : UInt16) ∉ first :: rest := notMem_of_opaque h (by decide)
  have hbackslash : (92 : UInt16) ∉ first :: rest := notMem_of_opaque h (by decide)
  rw [isOpaqueIdentifier, Bool.and_eq_true, decide_eq_true_iff, List.length_cons] at h
  have hset : isSetIdentifier (first :: rest) = true := by
    rw [isSetIdentifier, hfirst, Bool.true_and, Bool.and_eq_true, decide_eq_true_iff,
      List.all_eq_true]
    refine ⟨by omega, fun u hu => ?_⟩
    have hunit := List.all_eq_true.mp h.2 u (List.mem_cons_of_mem _ hu)
    simp only [Bool.or_eq_true, decide_eq_true_eq] at hunit ⊢
    tauto
  refine if_neg ?_
  rintro (hnot | hdots | hmem | hmem)
  · rw [hset] at hnot
    cases hnot
  · obtain ⟨before, after, heq⟩ := hdots
    exact hdot (heq ▸ by simp)
  · exact hslash hmem
  · exact hbackslash hmem

/-- The arguments that `backup.mjs` prints name the set. -/
theorem parseSetSelection_set (h : assertSafeSetIdentifier id = .ok id) :
    parseSetSelection [jsString "--", jsString "--set", id] = .ok (.explicit id) := by
  have hloop : parseArguments none false [jsString "--", jsString "--set", id] =
      .ok (some id, false) := by
    rw [parseArguments, if_pos rfl, parseArguments, if_neg (by decide), if_neg (by decide),
      if_pos rfl]
    show (assertSafeSetIdentifier id >>= fun id => parseArguments (some id) false []) = _
    rw [h]
    rfl
  rw [parseSetSelection, hloop]
  rfl

/-- The set that alone has the identifier is selected by it. -/
theorem resolveBackupSet_of_unique {others : List ListedSet}
    (hroot : listBackupSets rt root = others ++ [set])
    (hothers : ∀ other ∈ others, other.backupSetId ≠ id ∧ other.directory ≠ id)
    (hset : set.backupSetId = id ∨ set.directory = id) :
    resolveBackupSet rt (.explicit id) root = .ok set := by
  have hself : [set].filter (fun set => decide (set.backupSetId = id ∨ set.directory = id)) =
      [set] := List.filter_cons_of_pos (decide_eq_true hset)
  have hnone : others.filter
      (fun set => decide (set.backupSetId = id ∨ set.directory = id)) = [] := by
    refine List.filter_eq_nil_iff.mpr fun other hother => ?_
    obtain ⟨hid, hdirectory⟩ := hothers other hother
    simp [hid, hdirectory]
  have hmatches : (others ++ [set]).filter
      (fun set => decide (set.backupSetId = id ∨ set.directory = id)) = [set] := by
    rw [List.filter_append, hself, hnone]
    rfl
  unfold resolveBackupSet
  rw [hroot]
  dsimp only
  rw [if_neg (List.append_ne_nil_of_right_ne_nil _ (List.cons_ne_nil _ _)), hmatches]

theorem memberOf_of_stringAt {value : JsonValue} {names : List String}
    {members : List (JsString × JsonValue)} {name : String} {s : JsString}
    (hvalue : strictMembers names value = some members) (h : stringAt members name = some s) :
    memberOf value name = some (.string s) := by
  unfold strictMembers at hvalue
  split at hvalue
  · split_ifs at hvalue
    cases hvalue
    unfold stringAt at h
    split at h
    · cases h
      assumption
    · cases h
  · cases hvalue

/-- A directory with a manifest is listed with its identifier. -/
theorem listedSet_of_manifest (name : JsString) {d : Directory} {m : BackupManifest rt}
    (hmanifest : HasManifest d m) {createdAt : ℤ}
    (hcreatedAt : rt.dateParse (.string m.createdAt) = some createdAt) :
    listedSet rt name d = some ⟨name, m.backupSetId, createdAt⟩ := by
  obtain ⟨value, hvalue, hm⟩ := hmanifest
  unfold parseManifest at hm
  obtain ⟨members, hmembers, hm⟩ := Option.bind_eq_some_iff.mp hm
  obtain ⟨version, -, hm⟩ := Option.bind_eq_some_iff.mp hm
  obtain ⟨backupSetId, hbackupSetId, hm⟩ := Option.bind_eq_some_iff.mp hm
  obtain ⟨created, hcreated, hm⟩ := Option.bind_eq_some_iff.mp hm
  obtain ⟨algorithm, -, hm⟩ := Option.bind_eq_some_iff.mp hm
  obtain ⟨derivation, -, hm⟩ := Option.bind_eq_some_iff.mp hm
  obtain ⟨entries, -, hm⟩ := Option.bind_eq_some_iff.mp hm
  split_ifs at hm
  cases hm
  have hid := memberOf_of_stringAt hmembers hbackupSetId
  have hdate := memberOf_of_stringAt hmembers hcreated
  unfold listedSet
  simp only [hvalue, hdate, hid, hcreatedAt, Option.bind_eq_bind, Option.bind_some]

end Results

/-! ## The grammar of the command line -/

/-- An item of the command line. -/
inductive SelectionItem where
  | separator
  | latest
  /-- `--set value` -/
  | set (value : JsString)
  /-- `--set=value` -/
  | setEquals (value : JsString)
  deriving DecidableEq

namespace SelectionItem

/-- The arguments of an item. -/
def arguments : SelectionItem → List JsString
  | .separator => [jsString "--"]
  | .latest => [jsString "--latest"]
  | .set value => [jsString "--set", value]
  | .setEquals value => [jsString "--set=" ++ value]

/-- The value of a set selector. -/
def value? : SelectionItem → Option JsString
  | .separator => none
  | .latest => none
  | .set value => some value
  | .setEquals value => some value

end SelectionItem

/-- A command line of safe items. -/
structure Itemised (argv : List JsString) (items : List SelectionItem) : Prop where
  arguments : argv = items.flatMap SelectionItem.arguments
  safe : ∀ value ∈ items.filterMap SelectionItem.value?, assertSafeSetIdentifier value = .ok value

/-- A command line that selects: one set selector and no `--latest`, or no set selector and a
    `--latest`. -/
def Selects (argv : List JsString) : SetSelection → Prop
  | .explicit id => ∃ items, Itemised argv items ∧
    items.filterMap SelectionItem.value? = [id] ∧ .latest ∉ items
  | .latest => ∃ items, Itemised argv items ∧
    items.filterMap SelectionItem.value? = [] ∧ .latest ∈ items

section CommandLine

variable {explicit : Option JsString} {latest : Bool} {argv : List JsString}

theorem assertSafe_ok {value id : JsString} (h : assertSafeSetIdentifier value = .ok id) :
    id = value := by
  unfold assertSafeSetIdentifier at h
  split_ifs at h
  exact (Except.ok.inj h).symm

variable {items : List SelectionItem}

/-- An item in front of a command line. -/
theorem Itemised.cons (h : Itemised argv items) (item : SelectionItem)
    (hsafe : ∀ value ∈ item.value?, assertSafeSetIdentifier value = .ok value) :
    Itemised (item.arguments ++ argv) (item :: items) where
  arguments := by rw [h.arguments, List.flatMap_cons]
  safe value hvalue := by
    obtain ⟨other, hother, hsome⟩ := List.mem_filterMap.mp hvalue
    rcases List.mem_cons.mp hother with rfl | hother
    · exact hsafe value hsome
    · exact h.safe value (List.mem_filterMap.mpr ⟨other, hother, hsome⟩)

/-- What the loop returns it has read from safe items, at most one of them a set selector. -/
theorem itemised_of_parseArguments {r : Option JsString × Bool}
    (h : parseArguments explicit latest argv = .ok r) : ∃ items, Itemised argv items ∧
      r.1.toList = explicit.toList ++ items.filterMap SelectionItem.value? ∧
      r.2 = (latest || decide (.latest ∈ items)) := by
  fun_induction parseArguments explicit latest argv with
  | case1 explicit latest =>
    cases h
    exact ⟨[], ⟨rfl, by simp⟩, by simp, by simp⟩
  | case2 explicit latest rest ih =>
    obtain ⟨items, hitems, hvalue, hlatest⟩ := ih h
    exact ⟨.separator :: items, hitems.cons .separator (by simp [SelectionItem.value?]), hvalue,
      by simpa using hlatest⟩
  | case3 explicit latest rest hne ih =>
    obtain ⟨items, hitems, hvalue, hlatest⟩ := ih h
    exact ⟨.latest :: items, hitems.cons .latest (by simp [SelectionItem.value?]), hvalue,
      by simpa using hlatest⟩
  | case4 => cases h
  | case5 => cases h
  | case6 explicit latest hnone value rest _ _ ih =>
    obtain ⟨id, hsafe, h⟩ := bind_eq_ok.mp h
    obtain ⟨items, hitems, hvalue, hlatest⟩ := ih id h
    cases assertSafe_ok hsafe
    refine ⟨.set value :: items, hitems.cons (.set value) (by simpa [SelectionItem.value?]), ?_,
      by simpa using hlatest⟩
    rw [Option.not_isSome_iff_eq_none.mp hnone, hvalue]
    rfl
  | case7 => cases h
  | case8 explicit latest argument rest _ _ _ hprefix hnone ih =>
    obtain ⟨id, hsafe, h⟩ := bind_eq_ok.mp h
    obtain ⟨items, hitems, hvalue, hlatest⟩ := ih id h
    obtain ⟨value, rfl⟩ := hprefix
    rw [List.drop_left] at hsafe
    cases assertSafe_ok hsafe
    refine ⟨.setEquals id :: items, hitems.cons (.setEquals id) (by simpa [SelectionItem.value?]),
      ?_, by simpa using hlatest⟩
    rw [Option.not_isSome_iff_eq_none.mp hnone, hvalue]
    rfl
  | case9 => cases h

/-- `--set=` starts with none of the other arguments and is none of them. -/
theorem setEquals_ne (value : JsString) : jsString "--set=" ++ value ≠ jsString "--" ∧
    jsString "--set=" ++ value ≠ jsString "--latest" ∧
    jsString "--set=" ++ value ≠ jsString "--set" := by
  refine ⟨fun h => ?_, fun h => ?_, fun h => ?_⟩
  · have hlength := congrArg List.length h
    rw [List.length_append, show (jsString "--set=").length = 6 by decide,
      show (jsString "--").length = 2 by decide] at hlength
    omega
  · have hthird := congrArg (fun argument => argument.take 3) h
    rw [List.take_append_of_le_length (by decide)] at hthird
    exact absurd hthird (by decide)
  · have hlength := congrArg List.length h
    rw [List.length_append, show (jsString "--set=").length = 6 by decide,
      show (jsString "--set").length = 5 by decide] at hlength
    omega

theorem parseArguments_separator :
    parseArguments explicit latest (jsString "--" :: argv) =
      parseArguments explicit latest argv := by
  rw [parseArguments.eq_def]
  exact if_pos rfl

theorem parseArguments_latest :
    parseArguments explicit latest (jsString "--latest" :: argv) =
      parseArguments explicit true argv := by
  rw [parseArguments.eq_def]
  dsimp only
  rw [if_neg (by decide), if_pos rfl]

theorem parseArguments_set {value : JsString} (h : assertSafeSetIdentifier value = .ok value) :
    parseArguments none latest (jsString "--set" :: value :: argv) =
      parseArguments (some value) latest argv := by
  rw [parseArguments.eq_def]
  dsimp only
  rw [if_neg (by decide), if_neg (by decide), if_pos rfl, if_neg (by decide), h]
  rfl

theorem parseArguments_setEquals {value : JsString}
    (h : assertSafeSetIdentifier value = .ok value) :
    parseArguments none latest ((jsString "--set=" ++ value) :: argv) =
      parseArguments (some value) latest argv := by
  obtain ⟨hseparator, hlatest, hset⟩ := setEquals_ne value
  rw [parseArguments.eq_def]
  dsimp only
  rw [if_neg hseparator, if_neg hlatest, if_neg hset, if_pos (List.prefix_append _ _),
    if_neg (by decide), List.drop_left, h]
  rfl

variable (explicit latest) in
/-- The loop reads safe items with at most one set selector. -/
theorem parseArguments_items (hitems : Itemised argv items)
    (hone : (explicit.toList ++ items.filterMap SelectionItem.value?).length ≤ 1) :
    parseArguments explicit latest argv =
      .ok ((explicit.toList ++ items.filterMap SelectionItem.value?).head?,
        latest || decide (.latest ∈ items)) := by
  obtain ⟨rfl, hsafe⟩ := hitems
  induction items generalizing explicit latest with
  | nil => cases explicit <;> simp [parseArguments]
  | cons item items ih =>
    have hrest : ∀ value ∈ items.filterMap SelectionItem.value?,
        assertSafeSetIdentifier value = .ok value := by
      intro value hvalue
      obtain ⟨other, hother, hsome⟩ := List.mem_filterMap.mp hvalue
      exact hsafe value (List.mem_filterMap.mpr ⟨other, List.mem_cons_of_mem _ hother, hsome⟩)
    -- a set selector is the first one
    have hnone : ∀ value, item.value? = some value → explicit = none ∧
        (items.filterMap SelectionItem.value?).length = 0 := by
      intro value hvalue
      rw [List.filterMap_cons_some hvalue, List.length_append, List.length_cons] at hone
      exact ⟨Option.toList_eq_nil_iff.mp (List.length_eq_zero_iff.mp (by omega)), by omega⟩
    cases item with
    | separator =>
      rw [List.filterMap_cons_none rfl] at hone ⊢
      refine parseArguments_separator.trans ((ih explicit latest hone hrest).trans ?_)
      simp
    | latest =>
      rw [List.filterMap_cons_none rfl] at hone ⊢
      refine parseArguments_latest.trans ((ih explicit true hone hrest).trans ?_)
      simp
    | set value =>
      obtain ⟨rfl, hlength⟩ := hnone value rfl
      have hvalue := hsafe value (by simp [SelectionItem.value?])
      rw [List.filterMap_cons_some (show (SelectionItem.set value).value? = some value from rfl)]
      refine (parseArguments_set hvalue).trans ((ih (some value) latest ?_ hrest).trans ?_)
      · simp [hlength]
      · simp
    | setEquals value =>
      obtain ⟨rfl, hlength⟩ := hnone value rfl
      have hvalue := hsafe value (by simp [SelectionItem.value?])
      rw [List.filterMap_cons_some
        (show (SelectionItem.setEquals value).value? = some value from rfl)]
      refine (parseArguments_setEquals hvalue).trans ((ih (some value) latest ?_ hrest).trans ?_)
      · simp [hlength]
      · simp

/-- `parseSetSelection` accepts just the command lines that select. -/
theorem parseSetSelection_iff {selection : SetSelection} :
    parseSetSelection argv = .ok selection ↔ Selects argv selection := by
  unfold parseSetSelection
  constructor
  · intro h
    obtain ⟨⟨explicit, latest⟩, hloop, h⟩ := bind_eq_ok.mp h
    obtain ⟨items, hitems, hvalue, hlatest⟩ := itemised_of_parseArguments hloop
    rw [Option.toList_none, List.nil_append] at hvalue
    rw [Bool.false_or] at hlatest
    rcases explicit with _ | id <;> rcases latest with _ | _ <;> cases h
    · exact ⟨items, hitems, hvalue.symm, of_decide_eq_true hlatest.symm⟩
    · exact ⟨items, hitems, hvalue.symm, of_decide_eq_false hlatest.symm⟩
  · intro h
    cases selection with
    | explicit id =>
      obtain ⟨items, hitems, hvalue, hlatest⟩ := h
      have hloop := parseArguments_items none false hitems (by simp [hvalue])
      rw [hloop, hvalue, decide_eq_false hlatest]
      rfl
    | latest =>
      obtain ⟨items, hitems, hvalue, hlatest⟩ := h
      have hloop := parseArguments_items none false hitems (by simp [hvalue])
      rw [hloop, hvalue, decide_eq_true hlatest]
      rfl

end CommandLine

/-! ## The set that is chosen -/

/-- The set that a selection stands for: the only one with the identifier or the directory name, or
    the only one that no other is as new as. -/
def Chosen (sets : List ListedSet) (set : ListedSet) : SetSelection → Prop
  | .explicit id => set ∈ sets ∧ (set.backupSetId = id ∨ set.directory = id) ∧
    ∀ other ∈ sets, other.backupSetId = id ∨ other.directory = id → other = set
  | .latest => set ∈ sets ∧ ∀ other ∈ sets, other ≠ set → other.createdAt < set.createdAt

section Choice

variable {rt : BackupRuntime} {sets : List ListedSet} {set : ListedSet} {selection : SetSelection}

/-- A set is listed under the name of its directory. -/
theorem directory_listedNode {p : JsString × RootNode} (h : set ∈ listedNode rt p) :
    set.directory = p.1 := by
  obtain ⟨name, node⟩ := p
  cases node with
  | other => cases h
  | directory d =>
    unfold listedNode listedSet at h
    obtain ⟨manifest, -, h⟩ := Option.bind_eq_some_iff.mp h
    obtain ⟨createdAt, -, h⟩ := Option.bind_eq_some_iff.mp h
    split at h
    · cases h
      rfl
    · cases h

variable (rt) in
/-- No two listed sets have one directory. -/
theorem nodup_listBackupSets (root : Option BackupRoot) : (listBackupSets rt root).Nodup := by
  cases root with
  | none => exact List.nodup_nil
  | some root =>
    refine (List.pairwise_map.mp root.nodup).filterMap _ fun p q hne s hs t ht => ?_
    rintro rfl
    exact hne ((directory_listedNode hs).symm.trans (directory_listedNode ht))

variable {α : Type}

/-- A filter leaves one element just when that is the only one that passes. -/
theorem filter_eq_singleton {p : α → Bool} {l : List α} (hl : l.Nodup) {a : α} :
    l.filter p = [a] ↔ a ∈ l ∧ p a = true ∧ ∀ b ∈ l, p b = true → b = a := by
  constructor
  · intro h
    have ha : a ∈ l.filter p := h ▸ List.mem_singleton_self a
    refine ⟨(List.mem_filter.mp ha).1, (List.mem_filter.mp ha).2, fun b hb hpb => ?_⟩
    exact List.mem_singleton.mp (h ▸ List.mem_filter.mpr ⟨hb, hpb⟩)
  · rintro ⟨ha, hpa, honly⟩
    refine List.perm_singleton.mp ((List.perm_ext_iff_of_nodup (hl.filter p)
      (List.nodup_singleton a)).mpr fun b => ?_)
    rw [List.mem_filter, List.mem_singleton]
    constructor
    · rintro ⟨hb, hpb⟩
      exact honly b hb hpb
    · rintro rfl
      exact ⟨ha, hpa⟩

theorem newest_iff (hset : set ∈ sets) :
    some set.createdAt = (sets.map ListedSet.createdAt).max? ↔
      ∀ other ∈ sets, other.createdAt ≤ set.createdAt := by
  rw [eq_comm, List.max?_eq_some_iff]
  constructor
  · rintro ⟨-, hmax⟩ other hother
    exact hmax _ (List.mem_map_of_mem hother)
  · intro hmax
    refine ⟨List.mem_map_of_mem hset, fun t ht => ?_⟩
    obtain ⟨other, hother, rfl⟩ := List.mem_map.mp ht
    exact hmax other hother

/-- A set that all others are older than is the only newest one. -/
theorem chosen_latest : (set ∈ sets ∧ ∀ other ∈ sets, other ≠ set →
      other.createdAt < set.createdAt) ↔
    set ∈ sets ∧ some set.createdAt = (sets.map ListedSet.createdAt).max? ∧
      ∀ other ∈ sets, some other.createdAt = (sets.map ListedSet.createdAt).max? → other = set := by
  constructor
  · rintro ⟨hset, holder⟩
    have hnewest : ∀ other ∈ sets, other.createdAt ≤ set.createdAt := by
      intro other hother
      by_cases hsame : other = set
      · rw [hsame]
      · exact (holder other hother hsame).le
    refine ⟨hset, (newest_iff hset).mpr hnewest, fun other hother hmax => ?_⟩
    by_contra hne
    have hle := (newest_iff hother).mp hmax set hset
    have hlt := holder other hother hne
    omega
  · rintro ⟨hset, hmax, honly⟩
    refine ⟨hset, fun other hother hne => ?_⟩
    have hle := (newest_iff hset).mp hmax other hother
    refine lt_of_le_of_ne hle fun hsame => hne (honly other hother ?_)
    rw [hsame]
    exact hmax

/-- `resolveBackupSet` returns just the chosen set. -/
theorem resolveBackupSet_iff {root : Option BackupRoot} :
    resolveBackupSet rt selection root = .ok set ↔
      Chosen (listBackupSets rt root) set selection := by
  have hnodup := nodup_listBackupSets rt root
  unfold resolveBackupSet
  generalize listBackupSets rt root = sets at hnodup
  dsimp only
  by_cases hempty : sets = []
  · rw [if_pos hempty, hempty]
    cases selection <;> simp [Chosen]
  · rw [if_neg hempty]
    cases selection with
    | explicit id =>
      have hone := filter_eq_singleton (a := set)
        (p := fun set => decide (set.backupSetId = id ∨ set.directory = id)) hnodup
      simp only [decide_eq_true_eq] at hone
      show _ ↔ set ∈ sets ∧ _ ∧ _
      rw [← hone]
      dsimp only
      generalize sets.filter _ = found
      rcases found with _ | ⟨a, _ | ⟨b, rest⟩⟩ <;> simp
    | latest =>
      have hone := filter_eq_singleton (a := set) (p := fun set : ListedSet =>
        decide (some set.createdAt = (sets.map ListedSet.createdAt).max?)) hnodup
      simp only [decide_eq_true_eq] at hone
      show _ ↔ set ∈ sets ∧ _
      rw [show (set ∈ sets ∧ ∀ other ∈ sets, other ≠ set → other.createdAt < set.createdAt) ↔ _ from
        chosen_latest.trans hone.symm]
      dsimp only
      generalize sets.filter _ = found
      rcases found with _ | ⟨a, _ | ⟨b, rest⟩⟩ <;> simp

/-- Two orders of a list are both empty, both one element, or both more. -/
theorem perm_cases {l l' : List α} (h : l.Perm l') :
    (l = [] ∧ l' = []) ∨ (∃ a, l = [a] ∧ l' = [a]) ∨
      ((∃ a b rest, l = a :: b :: rest) ∧ ∃ a b rest, l' = a :: b :: rest) := by
  rcases l with _ | ⟨a, _ | ⟨b, rest⟩⟩
  · exact .inl ⟨rfl, List.nil_perm.mp h⟩
  · exact .inr (.inl ⟨a, rfl, (List.singleton_perm.mp h).symm⟩)
  · have hlength := h.length_eq
    rcases l' with _ | ⟨a', _ | ⟨b', rest'⟩⟩
    · cases hlength
    · simp at hlength
    · exact .inr (.inr ⟨⟨a, b, rest, rfl⟩, a', b', rest', rfl⟩)

/-- The order in which a root is listed does not matter. -/
theorem resolveBackupSet_perm {root root' : BackupRoot} (h : root.nodes.Perm root'.nodes) :
    resolveBackupSet rt selection (some root) = resolveBackupSet rt selection (some root') := by
  have hsets : (listBackupSets rt (some root)).Perm (listBackupSets rt (some root')) :=
    h.filterMap _
  unfold resolveBackupSet
  generalize listBackupSets rt (some root) = sets at hsets
  generalize listBackupSets rt (some root') = sets' at hsets
  dsimp only
  by_cases hempty : sets = []
  · rw [hempty] at hsets
    rw [if_pos hempty, if_pos (List.nil_perm.mp hsets)]
  · have hempty' : sets' ≠ [] := fun h => hempty (List.perm_nil.mp (h ▸ hsets))
    have hmax : (sets.map ListedSet.createdAt).max? = (sets'.map ListedSet.createdAt).max? := by
      refine Option.ext fun m => ?_
      rw [List.max?_eq_some_iff, List.max?_eq_some_iff, (hsets.map _).mem_iff]
      exact and_congr_right fun _ => forall_congr' fun t => by rw [(hsets.map _).mem_iff]
    rw [if_neg hempty, if_neg hempty', hmax]
    cases selection with
    | explicit id =>
      dsimp only
      rcases perm_cases (hsets.filter fun set : ListedSet =>
          decide (set.backupSetId = id ∨ set.directory = id)) with
        ⟨hl, hl'⟩ | ⟨a, hl, hl'⟩ | ⟨⟨a, b, rest, hl⟩, a', b', rest', hl'⟩
      all_goals rw [hl, hl']
    | latest =>
      dsimp only
      rcases perm_cases (hsets.filter fun set : ListedSet =>
          decide (some set.createdAt = (sets'.map ListedSet.createdAt).max?)) with
        ⟨hl, hl'⟩ | ⟨a, hl, hl'⟩ | ⟨⟨a, b, rest, hl⟩, a', b', rest', hl'⟩
      all_goals rw [hl, hl']

end Choice

/-- The command line is parsed just by the grammar, and a selection is resolved to the set that it
    stands for, in whatever order the sets are listed. -/
theorem backup_set_selection (rt : BackupRuntime) :
    (∀ argv selection, parseSetSelection argv = .ok selection ↔ Selects argv selection) ∧
    (∀ selection root set, resolveBackupSet rt selection root = .ok set ↔
      Chosen (listBackupSets rt root) set selection) ∧
    ∀ selection (root root' : BackupRoot), root.nodes.Perm root'.nodes →
      resolveBackupSet rt selection (some root) = resolveBackupSet rt selection (some root') :=
  ⟨fun _ _ => parseSetSelection_iff, fun _ _ _ => resolveBackupSet_iff,
    fun _ _ _ => resolveBackupSet_perm⟩

/-- A runtime that takes the length of a date for its time. -/
def lengthDates : BackupRuntime :=
  { plainBackupRuntime with
    dateParse := fun
      | .string date => some date.length
      | _ => none }

/-- A set whose manifest holds an identifier and a date. -/
def datedSet (id createdAt : String) : RootNode := .directory {
  nodes := [(jsString "manifest.json", .file (utf8Bytes
    ("\x7b\"backupSetId\":\"" ++ id ++ "\",\"createdAt\":\"" ++ createdAt ++ "\"\x7d").toList))]
  nodup := List.nodup_singleton _ }

/-- An older set before a newer one. -/
def twoSets : BackupRoot where
  nodes := [(jsString "a", datedSet "set-a" "1"), (jsString "b", datedSet "set-b" "12")]
  nodup := by decide

def twoSetsReversed : BackupRoot where
  nodes := twoSets.nodes.reverse
  nodup := by decide

/-- `-- --latest` selects the newer one of two sets in either order. -/
theorem backup_set_selection_latest :
    parseSetSelection [jsString "--", jsString "--latest"] = .ok .latest ∧
      ∀ root ∈ [twoSets, twoSetsReversed], resolveBackupSet lengthDates .latest (some root) =
        .ok ⟨jsString "b", jsString "set-b", 2⟩ := by
  obtain ⟨hparse, -, horder⟩ := backup_set_selection lengthDates
  have holder : resolveBackupSet lengthDates .latest (some twoSets) =
      .ok ⟨jsString "b", jsString "set-b", 2⟩ := by decide +kernel
  refine ⟨(hparse _ _).mpr ?_, ?_⟩
  · exact ⟨[.separator, .latest], ⟨rfl, by simp [SelectionItem.value?]⟩, rfl, by decide⟩
  · simp only [List.forall_mem_cons, List.not_mem_nil, false_imp_iff, implies_true, and_true]
    exact ⟨holder, (horder _ _ _ (List.reverse_perm _)).trans holder⟩

end AegisShield.Resilience
