import AegisShield.Common.Json

/-!
# What a JSON value means

A JSON value up to the order of the members of its objects: an object is a function from names
to values, and members whose value is `undefined` are absent.

Results:
* `meaning_object_iff`: objects mean the same when they have the same members in some order.
-/

namespace AegisShield.Common.Json

/-- A value, with objects as functions. -/
inductive Meaning where
  | undefined
  | null
  | bool (b : Bool)
  | number (q : ℚ)
  | string (s : String)
  | array (items : List Meaning)
  | object (members : String → Option Meaning)

mutual

/-- The meaning of a value. -/
def meaning : Json → Meaning
  | .undefined => .undefined
  | .null => .null
  | .bool b => .bool b
  | .number q => .number q
  | .string s => .string s
  | .array items => .array (meanings items)
  | .object members => .object fun name => (memberMeanings members).lookup name

/-- The meanings of the items of an array. -/
def meanings : List Json → List Meaning
  | [] => []
  | item :: items => meaning item :: meanings items

/-- The meanings of the members that are not `undefined`. -/
def memberMeanings : List (String × Json) → List (String × Meaning)
  | [] => []
  | (_, .undefined) :: members => memberMeanings members
  | (name, value) :: members => (name, meaning value) :: memberMeanings members

end

/-- A JSON value: only members may be `undefined`, and their names are distinct. -/
inductive IsJson : Json → Prop where
  | null : IsJson .null
  | bool (b : Bool) : IsJson (.bool b)
  | number (q : ℚ) : IsJson (.number q)
  | string (s : String) : IsJson (.string s)
  | array {items : List Json} : (∀ item ∈ items, IsJson item) → IsJson (.array items)
  | object {members : List (String × Json)} : (members.map Prod.fst).Nodup →
      (∀ m ∈ members, m.2 ≠ .undefined → IsJson m.2) → IsJson (.object members)

/-- A member with a value. -/
def isDefined : String × Json → Bool
  | (_, .undefined) => false
  | _ => true

/-- The members that are not `undefined`. -/
def definedMembers (members : List (String × Json)) : List (String × Json) :=
  members.filter isDefined

/-! ## Lists of members -/

theorem isDefined_iff {m : String × Json} : isDefined m = true ↔ m.2 ≠ .undefined := by
  obtain ⟨name, value⟩ := m
  cases value <;> simp [isDefined]

theorem definedMembers_cons {name : String} {value : Json} (h : value ≠ .undefined)
    (members : List (String × Json)) :
    definedMembers ((name, value) :: members) = (name, value) :: definedMembers members :=
  List.filter_cons_of_pos (isDefined_iff.mpr h)

theorem meanings_eq (items : List Json) : meanings items = items.map meaning := by
  induction items with
  | nil => rw [meanings, List.map_nil]
  | cons item items ih => rw [meanings, List.map_cons, ih]

/-- A function of the members with a value. -/
theorem memberMeanings_eq (members : List (String × Json)) :
    memberMeanings members = (definedMembers members).map fun m => (m.1, meaning m.2) := by
  induction members with
  | nil =>
    rw [memberMeanings]
    rfl
  | cons m members ih =>
    obtain ⟨name, value⟩ := m
    by_cases hvalue : value = .undefined
    · subst hvalue
      rw [memberMeanings, ih]
      rfl
    · rw [memberMeanings, ih, definedMembers_cons hvalue, List.map_cons]
      exact hvalue

variable {α : Type*} {members members' : List (String × Json)}

theorem nodup_definedMembers (h : (members.map Prod.fst).Nodup) :
    ((definedMembers members).map Prod.fst).Nodup :=
  h.sublist (List.filter_sublist.map _)

variable {entries entries' : List (String × α)}

/-- Looking a name up in a list without repeated names. -/
theorem lookup_eq_some_iff (h : (entries.map Prod.fst).Nodup)
    {name : String} {value : α} : entries.lookup name = some value ↔ (name, value) ∈ entries := by
  induction entries with
  | nil => simp
  | cons e entries ih =>
    rw [List.map_cons, List.nodup_cons] at h
    obtain ⟨key, first⟩ := e
    rw [List.lookup_cons]
    by_cases hname : name = key
    · subst hname
      have hnot : (name, value) ∉ entries := fun hmem =>
        h.1 (List.mem_map.mpr ⟨(name, value), hmem, rfl⟩)
      simp [hnot, eq_comm]
    · have hbeq : (name == key) = false := beq_eq_false_iff_ne.mpr hname
      rw [hbeq]
      simp [ih h.2, hname]

theorem lookup_congr (h : (entries.map Prod.fst).Nodup) (h' : (entries'.map Prod.fst).Nodup)
    (hsame : ∀ name, entries.lookup name = entries'.lookup name) : entries.Perm entries' := by
  refine (List.perm_ext_iff_of_nodup h.of_map h'.of_map).mpr fun e => ?_
  obtain ⟨name, value⟩ := e
  rw [← lookup_eq_some_iff h, hsame, lookup_eq_some_iff h']

theorem lookup_of_perm
    (h : (entries.map Prod.fst).Nodup) (hperm : entries.Perm entries') (name : String) :
    entries.lookup name = entries'.lookup name := by
  have h' : (entries'.map Prod.fst).Nodup := (hperm.map Prod.fst).nodup_iff.mp h
  refine Option.ext fun value => ?_
  rw [lookup_eq_some_iff h, lookup_eq_some_iff h', hperm.mem_iff]

theorem memberMeanings_names (h : (members.map Prod.fst).Nodup) :
    ((memberMeanings members).map Prod.fst).Nodup := by
  rw [memberMeanings_eq, List.map_map]
  exact nodup_definedMembers h

/-- **Objects mean the same when they have the same members in some order.** -/
theorem meaning_object_iff (h : (members.map Prod.fst).Nodup)
    (h' : (members'.map Prod.fst).Nodup) :
    meaning (.object members) = meaning (.object members') ↔
      (memberMeanings members).Perm (memberMeanings members') := by
  rw [meaning, meaning, Meaning.object.injEq]
  constructor
  · intro hsame
    exact lookup_congr (memberMeanings_names h) (memberMeanings_names h') (congrFun hsame)
  · intro hperm
    funext name
    exact lookup_of_perm (memberMeanings_names h) hperm name

end AegisShield.Common.Json
