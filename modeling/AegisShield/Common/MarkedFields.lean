import Mathlib

/-!
# Fields between marks

Texts `v₀ m₁ v₁ … mₖ vₖ` of values with fixed marks between them, as `name=value` joined with
`&`. The values are free texts, and may contain the marks.

Results:
* `mark_cases`: two marks in one text do not overlap.
* `last_field`: the value behind the last mark, if it contains no `&`, is determined.
* `separated_iff`: a text has one reading exactly when no value contains the mark in front of it
  or the one behind it.
-/

namespace AegisShield.Common.MarkedFields

/-- `&name=`: no other character of a mark is the first one, or the last. -/
def IsMark (m : List Char) : Prop :=
  ∃ name, m = '&' :: (name ++ ['=']) ∧ '&' ∉ name ∧ '=' ∉ name

/-- A value, and the fields behind it, each with its mark in front. -/
def written : List Char → List (List Char × List Char) → List Char
  | v, [] => v
  | v, (m, w) :: fields => v ++ (m ++ written w fields)

/-- No value contains the mark in front of it, or the one behind it. -/
def Separated : List Char → List (List Char × List Char) → Prop
  | _, [] => True
  | v, (m, w) :: fields => ¬ m <:+: v ∧ ¬ m <:+: w ∧ Separated w fields

instance decidableSeparated : ∀ v fields, Decidable (Separated v fields)
  | _, [] => isTrue trivial
  | v, (m, w) :: fields =>
    haveI := decidableSeparated w fields
    inferInstanceAs (Decidable (¬ m <:+: v ∧ ¬ m <:+: w ∧ Separated w fields))

/-! ## Marks do not overlap -/

section Marks

variable {m n : List Char}

theorem IsMark.ne_nil (hm : IsMark m) : m ≠ [] := by
  obtain ⟨name, rfl, -, -⟩ := hm
  exact List.cons_ne_nil _ _

/-- What a mark leaves of another one is all of it. -/
theorem IsMark.eq_nil_of_append (hm : IsMark m) {x y : List Char} (h : m = x ++ '&' :: y) :
    x = [] := by
  obtain ⟨name, rfl, hname, -⟩ := hm
  rcases x with _ | ⟨c, x⟩
  · rfl
  · have htail : name ++ ['='] = x ++ '&' :: y := (List.cons.inj h).2
    have hmem : '&' ∈ name ++ ['='] := by
      rw [htail]
      simp
    rcases List.mem_append.mp hmem with hmem | hmem
    · exact absurd hmem hname
    · exact absurd hmem (by decide)

/-- Marks at one place are the same. -/
theorem IsMark.eq_of_append (hm : IsMark m) (hn : IsMark n) {y z : List Char}
    (h : m ++ y = n ++ z) : m = n ∧ y = z := by
  obtain ⟨a, rfl, -, ha⟩ := hm
  obtain ⟨b, rfl, -, hb⟩ := hn
  have htail : a ++ '=' :: y = b ++ '=' :: z := by simpa using h
  have hname : a = b := by
    have hplain : ∀ name : List Char, '=' ∉ name → ∀ rest : List Char,
        (name ++ '=' :: rest).takeWhile (· ≠ '=') = name := by
      intro name hname rest
      rw [List.takeWhile_append_of_pos, List.takeWhile_cons_of_neg (by simp), List.append_nil]
      intro c hc
      refine decide_eq_true ?_
      rintro rfl
      exact hname hc
    rw [← hplain a ha y, htail, hplain b hb z]
  subst hname
  exact ⟨rfl, (List.cons.inj (List.append_cancel_left htail)).2⟩

/-- A mark at one place of a text and one at another place: the first one ends before the second
    starts, or starts where it starts, or starts after it has ended. -/
theorem mark_cases (hm : IsMark m) (hn : IsMark n) {u v y z : List Char}
    (h : u ++ (m ++ y) = v ++ (n ++ z)) :
    m <:+: v ∨ (u = v ∧ y = z) ∨ ∃ x, z = x ++ (m ++ y) := by
  obtain ⟨a, hma, -, -⟩ := id hm
  obtain ⟨b, hnb, -, -⟩ := id hn
  rcases List.append_eq_append_iff.mp h with ⟨x, hv, hx⟩ | ⟨x, hu, hx⟩
  · rcases List.append_eq_append_iff.mp hx with ⟨x', hx', -⟩ | ⟨x', hm', hx'⟩
    · left
      rw [hv, hx']
      exact ⟨u, x', by simp⟩
    · rcases x' with _ | ⟨c, x'⟩
      · left
        rw [hv, hm', List.append_nil]
        exact ⟨u, [], by simp⟩
      · right; left
        rw [hnb] at hx'
        obtain rfl := (List.cons.inj hx').1
        obtain rfl := hm.eq_nil_of_append hm'
        exact ⟨by rw [hv, List.append_nil], (hm.eq_of_append hn hx).2⟩
  · rcases List.append_eq_append_iff.mp hx with ⟨x', hx', hz⟩ | ⟨x', hn', hx'⟩
    · exact .inr (.inr ⟨x', hz⟩)
    · rcases x' with _ | ⟨c, x'⟩
      · exact .inr (.inr ⟨[], hx'.symm⟩)
      · right; left
        rw [hma] at hx'
        obtain rfl := (List.cons.inj hx').1
        obtain rfl := hn.eq_nil_of_append hn'
        exact ⟨by rw [hu, List.append_nil], (hn.eq_of_append hm hx).2.symm⟩

end Marks

/-- What stands behind the last `&` of a text. -/
theorem last_field {x y s t : List Char} (hs : '&' ∉ s) (ht : '&' ∉ t)
    (h : x ++ '&' :: s = y ++ '&' :: t) : x = y ∧ s = t := by
  rcases List.append_eq_append_iff.mp h with ⟨a, hy, ha⟩ | ⟨a, hx, ha⟩
  · rcases a with _ | ⟨c, a⟩
    · exact ⟨by rw [hy, List.append_nil], (List.cons.inj ha).2⟩
    · refine absurd ?_ hs
      rw [(List.cons.inj ha).2]
      simp
  · rcases a with _ | ⟨c, a⟩
    · exact ⟨by rw [hx, List.append_nil], (List.cons.inj ha).2.symm⟩
    · refine absurd ?_ ht
      rw [(List.cons.inj ha).2]
      simp

/-! ## Readings -/

section Readings

variable {m v v' : List Char} {fields fields' : List (List Char × List Char)}

theorem written_append (x v : List Char) (fields : List (List Char × List Char)) :
    written (x ++ v) fields = x ++ written v fields := by
  cases fields with
  | nil => rfl
  | cons f fields => exact List.append_assoc _ _ _

/-- A text has no reading whose first mark is behind the place it has in a separated one. -/
theorem no_late_reading (hm : IsMark m) (hmarks : ∀ f ∈ fields, IsMark f.1) (hown : ¬ m <:+: v)
    (h : Separated v fields) (hsame : fields'.map Prod.fst = fields.map Prod.fst)
    (u w : List Char) : written v fields ≠ u ++ (m ++ written w fields') := by
  induction fields generalizing v m fields' u w with
  | nil =>
    intro htext
    refine hown ⟨u, written w fields', ?_⟩
    rw [List.append_assoc]
    exact htext.symm
  | cons f fields ih =>
    obtain ⟨n, x⟩ := f
    rcases fields' with _ | ⟨⟨n', x'⟩, fields'⟩
    · cases hsame
    obtain ⟨rfl, hsame'⟩ := List.cons.inj hsame
    rw [List.forall_mem_cons] at hmarks
    obtain ⟨-, hfront, hrest⟩ := h
    intro htext
    rcases mark_cases hm hmarks.1 htext.symm with hinfix | ⟨-, htext'⟩ | ⟨z, hz⟩
    · exact hown hinfix
    · exact ih hmarks.1 hmarks.2 hfront hrest hsame' w x' htext'.symm
    · refine ih hmarks.1 hmarks.2 hfront hrest hsame' (z ++ m ++ w) x' ?_
      rw [hz]
      simp [written]

/-- A separated text has one reading. -/
theorem Separated.unique (hmarks : ∀ f ∈ fields, IsMark f.1) (h : Separated v fields)
    (hsame : fields'.map Prod.fst = fields.map Prod.fst)
    (htext : written v' fields' = written v fields) : v' = v ∧ fields' = fields := by
  induction fields generalizing v v' fields' with
  | nil =>
    obtain rfl := List.map_eq_nil_iff.mp hsame
    exact ⟨htext, rfl⟩
  | cons f fields ih =>
    obtain ⟨m, w⟩ := f
    rcases fields' with _ | ⟨⟨m', w'⟩, fields'⟩
    · cases hsame
    obtain ⟨rfl, hsame'⟩ := List.cons.inj hsame
    rw [List.forall_mem_cons] at hmarks
    obtain ⟨hbehind, hfront, hrest⟩ := h
    have hm : IsMark m' := hmarks.1
    rcases mark_cases hm hm htext with hinfix | ⟨rfl, htext'⟩ | ⟨x, hx⟩
    · exact absurd hinfix hbehind
    · obtain ⟨rfl, rfl⟩ := ih hmarks.2 hrest hsame' htext'
      exact ⟨rfl, rfl⟩
    · exact absurd hx (no_late_reading hm hmarks.2 hfront hrest hsame' x w')

/-- A text that is not separated has another reading. -/
theorem exists_reading (hmarks : ∀ f ∈ fields, IsMark f.1) (h : ¬ Separated v fields) :
    ∃ v' fields', fields'.map Prod.fst = fields.map Prod.fst ∧
      written v' fields' = written v fields ∧ ¬ (v' = v ∧ fields' = fields) := by
  induction fields generalizing v with
  | nil => exact absurd trivial h
  | cons f fields ih =>
    obtain ⟨m, w⟩ := f
    rw [List.forall_mem_cons] at hmarks
    have hne := hmarks.1.ne_nil
    by_cases hbehind : m <:+: v
    · obtain ⟨a, b, rfl⟩ := hbehind
      refine ⟨a, (m, b ++ m ++ w) :: fields, rfl, ?_, ?_⟩
      · show a ++ (m ++ written (b ++ m ++ w) fields) = a ++ m ++ b ++ (m ++ written w fields)
        rw [written_append]
        simp
      · rintro ⟨ha, -⟩
        rw [List.append_assoc, List.self_eq_append_right, List.append_eq_nil_iff] at ha
        exact hne ha.1
    by_cases hfront : m <:+: w
    · obtain ⟨a, b, rfl⟩ := hfront
      refine ⟨v ++ m ++ a, (m, b) :: fields, rfl, ?_, ?_⟩
      · show v ++ m ++ a ++ (m ++ written b fields) = v ++ (m ++ written (a ++ m ++ b) fields)
        rw [written_append]
        simp
      · rintro ⟨ha, -⟩
        rw [List.append_assoc, List.append_right_eq_self, List.append_eq_nil_iff] at ha
        exact hne ha.1
    obtain ⟨v', fields', hsame, htext, hother⟩ := ih hmarks.2 fun hrest =>
      h ⟨hbehind, hfront, hrest⟩
    refine ⟨v, (m, v') :: fields', by rw [List.map_cons, hsame]; rfl, ?_, ?_⟩
    · show v ++ (m ++ written v' fields') = v ++ (m ++ written w fields)
      rw [htext]
    · rintro ⟨-, hfields⟩
      obtain ⟨hfield, hrest⟩ := List.cons.inj hfields
      exact hother ⟨(Prod.mk.inj hfield).2, hrest⟩

/-- **A text has one reading exactly when it is separated.** -/
theorem separated_iff (hmarks : ∀ f ∈ fields, IsMark f.1) :
    Separated v fields ↔ ∀ v' fields', fields'.map Prod.fst = fields.map Prod.fst →
      written v' fields' = written v fields → v' = v ∧ fields' = fields := by
  constructor
  · intro h v' fields' hsame htext
    exact h.unique hmarks hsame htext
  · intro h
    by_contra hnot
    obtain ⟨v', fields', hsame, htext, hother⟩ := exists_reading hmarks hnot
    exact hother (h v' fields' hsame htext)

end Readings

end AegisShield.Common.MarkedFields
