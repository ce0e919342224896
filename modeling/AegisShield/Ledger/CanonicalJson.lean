import AegisShield.Common.JsonMeaning
import AegisShield.Common.NumberText
import AegisShield.Ledger.Locking

/-!
# Canonical JSON decides equality

`canonicalJson` and `canonicalRequestHash` (`security.ts`, lines 21-38) on JSON values.

Results:
* `told_canonicalJson`: the text of a value determines its meaning, whatever follows it.
* `canonicalJson_congr`: values of one meaning have one text.
* `canonicalJson_iff`: texts, and hashes, are equal exactly when the meanings are.
-/

namespace AegisShield.Ledger

open Common Json

/-! ## Sorted members -/

/-- The order of the members of an object. -/
def memberLe (m n : String × Json) : Prop := lexLe (utf16 m.1) (utf16 n.1) = true

instance : DecidableRel memberLe := fun _ _ => inferInstanceAs (Decidable (_ = true))

/-- The members in the order of their names, those that are `undefined` left out. -/
def sortedMembers (members : List (String × Json)) : List (String × Json) :=
  (definedMembers members).insertionSort memberLe

variable (runtime : Runtime)

/-- The text of a member. -/
def memberText (m : String × Json) : List Char :=
  (stringifyString m.1).toList ++ ':' :: (canonicalJson runtime m.2).toList

theorem canonicalItems_eq (items : List Json) :
    canonicalItems runtime items = items.map (canonicalJson runtime) := by
  induction items with
  | nil => rw [canonicalItems, List.map_nil]
  | cons item items ih => rw [canonicalItems, List.map_cons, ih]

theorem canonicalMembers_eq (members : List (String × Json)) :
    canonicalMembers runtime members =
      (definedMembers members).map fun m => (m.1, canonicalJson runtime m.2) := by
  induction members with
  | nil =>
    rw [canonicalMembers]
    rfl
  | cons m members ih =>
    obtain ⟨name, value⟩ := m
    by_cases hvalue : value = .undefined
    · subst hvalue
      rw [canonicalMembers, ih]
      rfl
    · rw [canonicalMembers, ih, definedMembers_cons hvalue, List.map_cons]
      exact hvalue

theorem toList_array (items : List Json) : (canonicalJson runtime (.array items)).toList =
    '[' :: ([','].intercalate (items.map fun item => (canonicalJson runtime item).toList) ++
      [']']) := by
  rw [canonicalJson, canonicalItems_eq]
  simp [String.toList_intercalate, List.map_map, Function.comp_def]

theorem toList_object (members : List (String × Json)) :
    (canonicalJson runtime (.object members)).toList =
      '\x7b' :: ([','].intercalate ((sortedMembers members).map (memberText runtime)) ++
        ['\x7d']) := by
  have hsort : (canonicalMembers runtime members).insertionSort keyLe =
      (sortedMembers members).map fun m => (m.1, canonicalJson runtime m.2) := by
    rw [canonicalMembers_eq]
    exact (List.map_insertionSort memberLe keyLe _ _ fun m _ n _ => Iff.rfl).symm
  rw [canonicalJson, hsort]
  simp [String.toList_intercalate, List.map_map, Function.comp_def]
  rfl

/-! ## The text tells the meaning -/

/-- A character of a number. -/
def isNumeral (c : Char) : Bool := c.isDigit || decide (c ∈ ['-', '+', '.', 'e'])

/-- The kind of a value. -/
inductive Kind where
  | null
  | bool
  | number
  | string
  | array
  | object
  | none
  deriving DecidableEq

/-- The kind of a value. -/
def kind : Json → Kind
  | .undefined => .none
  | .null => .null
  | .bool _ => .bool
  | .number _ => .number
  | .string _ => .string
  | .array _ => .array
  | .object _ => .object

/-- The kind of the value that a character starts. -/
def kindOf (c : Char) : Kind :=
  if isNumeral c then .number
  else if c = 'n' then .null
  else if c = 't' ∨ c = 'f' then .bool
  else if c = '"' then .string
  else if c = '[' then .array
  else if c = '\x7b' then .object
  else .none

/-- What may follow a value. -/
def Stops (rest : List Char) : Prop := ∀ c ∈ rest.head?, c ∈ [',', ']', '\x7d']

/-- The text of a value. -/
def text (value : Json) : List Char := (canonicalJson runtime value).toList

variable {runtime} (hnumbers : PrintsNumbers runtime.numberToString)
include hnumbers

variable {value : Json}

theorem exists_head (h : IsJson value) :
    ∃ c cs, text runtime value = c :: cs ∧ kindOf c = kind value := by
  unfold text
  cases h with
  | null =>
    rw [canonicalJson]
    exact ⟨'n', _, rfl, by decide⟩
  | bool b =>
    rw [canonicalJson]
    cases b with
    | true => exact ⟨'t', _, rfl, by decide⟩
    | false => exact ⟨'f', _, rfl, by decide⟩
  | number q =>
    rw [canonicalJson]
    obtain ⟨c, cs, hq⟩ := List.exists_cons_of_ne_nil (hnumbers.nonempty q)
    refine ⟨c, cs, hq, ?_⟩
    have hc := hnumbers.chars q c (by rw [hq]; exact List.mem_cons_self)
    unfold kindOf isNumeral
    rw [if_pos]
    · rfl
    · rcases hc with hc | hc
      · rw [hc, Bool.true_or]
      · rw [decide_eq_true hc, Bool.or_true]
  | string s =>
    rw [canonicalJson, toList_stringifyString]
    exact ⟨'"', _, rfl, (by decide : kindOf '"' = .string)⟩
  | array hitems =>
    rw [toList_array]
    exact ⟨'[', _, rfl, (by decide : kindOf '[' = .array)⟩
  | object hnames hmembers =>
    rw [toList_object]
    exact ⟨'\x7b', _, rfl, (by decide : kindOf '\x7b' = .object)⟩

theorem text_ne_mark (h : IsJson value) {mark : Char} (hmark : kindOf mark = .none)
    (rest rest' : List Char) : text runtime value ++ rest ≠ mark :: rest' := by
  intro hsame
  obtain ⟨c, cs, htext, hkind⟩ := exists_head hnumbers h
  rw [htext] at hsame
  rw [(List.cons.inj hsame).1, hmark] at hkind
  cases h <;> cases hkind

theorem told_number {q r : ℚ} {rest rest' : List Char} (hrest : Stops rest) (hrest' : Stops rest')
    (h : text runtime (.number q) ++ rest = text runtime (.number r) ++ rest') :
    q = r ∧ rest = rest' := by
  have hnumeral : ∀ q, ∀ c ∈ text runtime (.number q), isNumeral c = true := by
    intro q c hc
    unfold text at hc
    rw [canonicalJson] at hc
    unfold isNumeral
    rcases hnumbers.chars q c hc with hc | hc
    · rw [hc, Bool.true_or]
    · rw [decide_eq_true hc, Bool.or_true]
  have hstop : ∀ rest, Stops rest → rest.takeWhile isNumeral = [] := by
    intro rest hrest
    rcases rest with _ | ⟨c, rest⟩
    · rfl
    · have hc := hrest c rfl
      refine List.takeWhile_cons_of_neg ?_
      simp only [List.mem_cons, List.not_mem_nil, or_false] at hc
      rcases hc with rfl | rfl | rfl
      · decide
      · decide
      · decide
  have htake := congrArg (List.takeWhile isNumeral) h
  rw [List.takeWhile_append_of_pos (hnumeral q), List.takeWhile_append_of_pos (hnumeral r),
    hstop rest hrest, hstop rest' hrest', List.append_nil, List.append_nil] at htake
  rw [htake] at h
  unfold text at htake
  rw [canonicalJson, canonicalJson] at htake
  exact ⟨hnumbers.inj _ _ (String.toList_injective htake), List.append_cancel_left h⟩

theorem kind_eq {other : Json} (h : IsJson value) (hother : IsJson other)
    {rest rest' : List Char} (hsame : text runtime value ++ rest = text runtime other ++ rest') :
    kind value = kind other := by
  obtain ⟨c, cs, hc, hkind⟩ := exists_head hnumbers h
  obtain ⟨d, ds, hd, hkind'⟩ := exists_head hnumbers hother
  rw [hc, hd] at hsame
  rw [← hkind, ← hkind', (List.cons.inj hsame).1]

omit hnumbers in
theorem told_member {m : String × Json} (h : Told Stops IsJson (text runtime) meaning m.2) :
    Told Stops (fun m => IsJson m.2) (memberText runtime) (fun m => (m.1, meaning m.2)) m := by
  intro n rest rest' hn hrest hrest' hsame
  unfold memberText at hsame
  rw [List.append_assoc, List.append_assoc] at hsame
  obtain ⟨hname, hvalue⟩ := prefixFree_stringifyString _ _ _ _ hsame
  obtain ⟨hmeaning, hrest⟩ := h n.2 rest rest' hn hrest hrest' (List.cons.inj hvalue).2
  exact ⟨Prod.ext hname hmeaning, hrest⟩

omit hnumbers in
theorem memberText_ne (m : String × Json) (rest rest' : List Char) :
    memberText runtime m ++ rest ≠ '\x7d' :: rest' := by
  intro hsame
  unfold memberText at hsame
  rw [toList_stringifyString] at hsame
  exact absurd (List.cons.inj hsame).1 (by decide)

omit hnumbers in
theorem mem_sortedMembers {members : List (String × Json)} {m : String × Json} :
    m ∈ sortedMembers members ↔ m ∈ members ∧ m.2 ≠ .undefined := by
  unfold sortedMembers definedMembers
  rw [(List.perm_insertionSort memberLe _).mem_iff, List.mem_filter, isDefined_iff]

omit hnumbers in
/-- The sorted members are the members with a value, in some order. -/
theorem perm_sortedMembers (members : List (String × Json)) :
    ((sortedMembers members).map fun m => (m.1, meaning m.2)).Perm (memberMeanings members) := by
  rw [memberMeanings_eq]
  exact (List.perm_insertionSort memberLe _).map _

/-- **The text of a value tells its meaning, whatever follows it.** -/
theorem told_canonicalJson (h : IsJson value) :
    Told Stops IsJson (text runtime) meaning value := by
  have hcomma : ∀ rest, Stops (',' :: rest) := fun rest c hc => by cases hc; decide
  induction h with
  | null =>
    intro other rest rest' hother hrest hrest' hsame
    have hkind := kind_eq hnumbers .null hother hsame
    cases hother with
    | null => exact ⟨rfl, List.append_cancel_left hsame⟩
    | bool b | number q | string s | array h | object h h' => cases hkind
  | bool b =>
    intro other rest rest' hother hrest hrest' hsame
    have hkind := kind_eq hnumbers (.bool b) hother hsame
    cases hother with
    | bool b' =>
      have hb : b = b' := by
        unfold text at hsame
        rw [canonicalJson, canonicalJson] at hsame
        cases b
        · cases b'
          · rfl
          · exact absurd (List.cons.inj hsame).1 (by decide)
        · cases b'
          · exact absurd (List.cons.inj hsame).1 (by decide)
          · rfl
      subst hb
      exact ⟨rfl, List.append_cancel_left hsame⟩
    | null | number q | string s | array h | object h h' => cases hkind
  | number q =>
    intro other rest rest' hother hrest hrest' hsame
    have hkind := kind_eq hnumbers (.number q) hother hsame
    cases hother with
    | number r =>
      obtain ⟨rfl, hrest⟩ := told_number hnumbers hrest hrest' hsame
      exact ⟨rfl, hrest⟩
    | null | bool b | string s | array h | object h h' => cases hkind
  | string s =>
    intro other rest rest' hother hrest hrest' hsame
    have hkind := kind_eq hnumbers (.string s) hother hsame
    cases hother with
    | string t =>
      unfold text at hsame
      rw [canonicalJson, canonicalJson] at hsame
      obtain ⟨rfl, hrest⟩ := prefixFree_stringifyString _ _ _ _ hsame
      exact ⟨rfl, hrest⟩
    | null | bool b | number q | array h | object h h' => cases hkind
  | @array items hitems ih =>
    intro other rest rest' hother hrest hrest' hsame
    have hkind := kind_eq hnumbers (.array hitems) hother hsame
    cases hother with
    | @array items' hitems' =>
      unfold text at hsame
      rw [toList_array, toList_array, List.cons_append, List.cons_append, List.append_assoc,
        List.append_assoc] at hsame
      obtain ⟨hmap, hrest⟩ := told_intercalate hcomma (fun rest c hc => by cases hc; decide)
        (by decide) (fun item hitem => text_ne_mark hnumbers hitem (by decide))
        (fun item hitem => ⟨hitems item hitem, ih item hitem⟩) hitems' (List.cons.inj hsame).2
      rw [meaning, meaning, meanings_eq, meanings_eq, hmap]
      exact ⟨rfl, hrest⟩
    | null | bool b | number q | string s | object h h' => cases hkind
  | @object members hnames hmembers ih =>
    intro other rest rest' hother hrest hrest' hsame
    have hkind := kind_eq hnumbers (.object hnames hmembers) hother hsame
    cases hother with
    | @object members' hnames' hmembers' =>
      unfold text at hsame
      rw [toList_object, toList_object, List.cons_append, List.cons_append, List.append_assoc,
        List.append_assoc] at hsame
      obtain ⟨hmap, hrest⟩ := told_intercalate hcomma (fun rest c hc => by cases hc; decide)
        (by decide) (fun m _ => memberText_ne m)
        (fun m hm => ⟨hmembers m (mem_sortedMembers.mp hm).1 (mem_sortedMembers.mp hm).2,
          told_member (ih m (mem_sortedMembers.mp hm).1 (mem_sortedMembers.mp hm).2)⟩)
        (fun m hm => hmembers' m (mem_sortedMembers.mp hm).1 (mem_sortedMembers.mp hm).2)
        (List.cons.inj hsame).2
      refine ⟨(meaning_object_iff hnames hnames').mpr ?_, hrest⟩
      exact (perm_sortedMembers members).symm.trans (hmap ▸ perm_sortedMembers members')
    | null | bool b | number q | string s | array h => cases hkind

/-! ## The meaning determines the text -/

section Congr

omit hnumbers

theorem map_canonicalJson {items items' : List Json}
    (ih : ∀ item ∈ items, ∀ other, IsJson other → meaning item = meaning other →
      canonicalJson runtime item = canonicalJson runtime other)
    (hitems' : ∀ item ∈ items', IsJson item) (h : items.map meaning = items'.map meaning) :
    items.map (canonicalJson runtime) = items'.map (canonicalJson runtime) := by
  induction items generalizing items' with
  | nil =>
    rw [List.map_eq_nil_iff.mp h.symm]
  | cons item items ihs =>
    rcases items' with _ | ⟨item', items'⟩
    · cases h
    · rw [List.forall_mem_cons] at ih hitems'
      rw [List.map_cons, List.map_cons, ih.1 item' hitems'.1 (List.cons.inj h).1,
        ihs ih.2 hitems'.2 (List.cons.inj h).2]

/-- Sorting by names that differ does not depend on the order before. -/
theorem insertionSort_keyLe {entries entries' : List (String × String)}
    (h : (entries.map Prod.fst).Nodup) (hperm : entries.Perm entries') :
    entries.insertionSort keyLe = entries'.insertionSort keyLe := by
  have htotal : Std.Total keyLe :=
    ⟨fun a b => (le_total (utf16 a.1) (utf16 b.1)).imp lexLe_iff.mpr lexLe_iff.mpr⟩
  have htrans : IsTrans (String × String) keyLe :=
    ⟨fun a b c hab hbc => lexLe_iff.mpr ((lexLe_iff.mp hab).trans (lexLe_iff.mp hbc))⟩
  have hsorted := List.perm_insertionSort keyLe entries
  have hsorted' := List.perm_insertionSort keyLe entries'
  refine List.Perm.eq_of_pairwise (fun a b ha hb hab hba => ?_)
    (List.pairwise_insertionSort keyLe entries) (List.pairwise_insertionSort keyLe entries')
    (hsorted.trans (hperm.trans hsorted'.symm))
  have hname : a.1 = b.1 := utf16_inj (le_antisymm (lexLe_iff.mp hab) (lexLe_iff.mp hba))
  exact List.inj_on_of_nodup_map h (hsorted.mem_iff.mp ha)
    (hperm.mem_iff.mpr (hsorted'.mem_iff.mp hb)) hname

variable {members : List (String × Json)}

variable (runtime) in
theorem canonicalMembers_names (h : (members.map Prod.fst).Nodup) :
    ((canonicalMembers runtime members).map Prod.fst).Nodup := by
  rw [canonicalMembers_eq, List.map_map]
  exact nodup_definedMembers h

/-- The members of objects of one meaning have the same texts. -/
theorem perm_canonicalMembers {members' : List (String × Json)}
    (hnames : (members.map Prod.fst).Nodup) (hnames' : (members'.map Prod.fst).Nodup)
    (ih : ∀ m ∈ members, m.2 ≠ .undefined → ∀ other, IsJson other → meaning m.2 = meaning other →
      canonicalJson runtime m.2 = canonicalJson runtime other)
    (hmembers' : ∀ m ∈ members', m.2 ≠ .undefined → IsJson m.2)
    (h : (memberMeanings members).Perm (memberMeanings members')) :
    (canonicalMembers runtime members).Perm (canonicalMembers runtime members') := by
  rw [memberMeanings_eq, memberMeanings_eq] at h
  have hentries := canonicalMembers_names runtime hnames
  have hentries' := canonicalMembers_names runtime hnames'
  rw [canonicalMembers_eq] at hentries hentries' ⊢
  rw [canonicalMembers_eq]
  have hdefined : ∀ {members m}, m ∈ definedMembers members ↔ m ∈ members ∧ m.2 ≠ .undefined := by
    intro members m
    unfold definedMembers
    rw [List.mem_filter, isDefined_iff]
  have htext : ∀ m ∈ definedMembers members, ∀ n ∈ definedMembers members',
      (m.1, meaning m.2) = (n.1, meaning n.2) →
      (m.1, canonicalJson runtime m.2) = (n.1, canonicalJson runtime n.2) := by
    intro m hm n hn hsame
    obtain ⟨hname, hmeaning⟩ := Prod.mk.inj hsame
    rw [hname, ih m (hdefined.mp hm).1 (hdefined.mp hm).2 n.2
      (hmembers' n (hdefined.mp hn).1 (hdefined.mp hn).2) hmeaning]
  refine (List.perm_ext_iff_of_nodup hentries.of_map hentries'.of_map).mpr fun e => ?_
  rw [List.mem_map, List.mem_map]
  constructor
  · rintro ⟨m, hm, rfl⟩
    obtain ⟨n, hn, hsame⟩ := List.mem_map.mp (h.subset (List.mem_map_of_mem hm))
    exact ⟨n, hn, (htext m hm n hn hsame.symm).symm⟩
  · rintro ⟨n, hn, rfl⟩
    obtain ⟨m, hm, hsame⟩ := List.mem_map.mp (h.symm.subset (List.mem_map_of_mem hn))
    exact ⟨m, hm, htext m hm n hn hsame⟩

/-- **Values of one meaning have one text.** -/
theorem canonicalJson_congr {value : Json} (h : IsJson value) : ∀ other, IsJson other →
    meaning value = meaning other → canonicalJson runtime value = canonicalJson runtime other := by
  induction h with
  | null | bool b | number q | string s =>
    intro other hother hmeaning
    rw [meaning] at hmeaning
    cases hother <;> rw [meaning] at hmeaning <;> cases hmeaning <;> rfl
  | @array items hitems ih =>
    intro other hother hmeaning
    cases hother with
    | @array items' hitems' =>
      rw [meaning, meaning, meanings_eq, meanings_eq, Meaning.array.injEq] at hmeaning
      rw [canonicalJson, canonicalJson, canonicalItems_eq, canonicalItems_eq,
        map_canonicalJson ih hitems' hmeaning]
    | null | bool b | number q | string s | object h h' =>
      rw [meaning, meaning] at hmeaning
      cases hmeaning
  | @object members hnames hmembers ih =>
    intro other hother hmeaning
    cases hother with
    | @object members' hnames' hmembers' =>
      have hperm := perm_canonicalMembers hnames hnames' ih hmembers'
        ((meaning_object_iff hnames hnames').mp hmeaning)
      rw [canonicalJson, canonicalJson, insertionSort_keyLe (canonicalMembers_names _ hnames) hperm]
    | null | bool b | number q | string s | array h =>
      rw [meaning, meaning] at hmeaning
      cases hmeaning

end Congr

omit hnumbers

/-- **Texts, and hashes, are equal exactly when the meanings are.** SHA-256 does not collide on
    the two texts. -/
theorem canonicalJson_iff (runtime : Runtime) (hnumbers : PrintsNumbers runtime.numberToString)
    (a b : Json) (hsha256 : runtime.sha256 (canonicalJson runtime a) =
      runtime.sha256 (canonicalJson runtime b) → canonicalJson runtime a = canonicalJson runtime b)
    (ha : IsJson a) (hb : IsJson b) :
    (canonicalJson runtime a = canonicalJson runtime b ↔ meaning a = meaning b) ∧
      (canonicalRequestHash runtime a = canonicalRequestHash runtime b ↔
        meaning a = meaning b) := by
  have hstop : Stops [] := fun c hc => by cases hc
  have htext : canonicalJson runtime a = canonicalJson runtime b ↔ meaning a = meaning b := by
    refine ⟨fun h => ?_, fun h => canonicalJson_congr ha b hb h⟩
    refine (told_canonicalJson hnumbers ha b [] [] hb hstop hstop ?_).1
    unfold text
    rw [h]
  refine ⟨htext, ?_⟩
  rw [← htext]
  unfold canonicalRequestHash
  exact ⟨hsha256, congrArg _⟩

/-- Two requests, the second without the absent member and in another order. -/
theorem canonicalJson_reordered :
    let runtime := { plainRuntime with numberToString := plainNumber }
    let request := Json.object [("amount", .number 1), ("note", .undefined), ("memo", .string "x")]
    let other := Json.object [("memo", .string "x"), ("amount", .number 1)]
    canonicalJson runtime request = canonicalJson runtime other ∧
      canonicalRequestHash runtime request = canonicalRequestHash runtime other := by
  intro runtime request other
  have hsha256 : runtime.sha256 (canonicalJson runtime request) =
      runtime.sha256 (canonicalJson runtime other) →
      canonicalJson runtime request = canonicalJson runtime other := by
    intro h
    have hlist := congrArg String.toList h
    exact String.toList_injective (by simpa [runtime, plainRuntime] using hlist)
  have hrequest : IsJson request := by
    refine .object (by decide) ?_
    simp only [List.forall_mem_cons, List.not_mem_nil, false_imp_iff, implies_true, and_true]
    exact ⟨fun _ => .number 1, fun h => absurd rfl h, fun _ => .string "x"⟩
  have hother : IsJson other := by
    refine .object (by decide) ?_
    simp only [List.forall_mem_cons, List.not_mem_nil, false_imp_iff, implies_true, and_true]
    exact ⟨fun _ => .string "x", fun _ => .number 1⟩
  have hmeaning : meaning request = meaning other := by
    refine (meaning_object_iff (by decide) (by decide)).mpr ?_
    simp only [memberMeanings, meaning]
    exact List.Perm.swap _ _ _
  obtain ⟨htext, hhash⟩ := canonicalJson_iff runtime PrintsNumbers.plainNumber request other
    hsha256 hrequest hother
  exact ⟨htext.mpr hmeaning, hhash.mpr hmeaning⟩

end AegisShield.Ledger
