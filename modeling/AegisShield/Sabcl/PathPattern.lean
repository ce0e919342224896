import AegisShield.Sabcl.Capability

/-!
# What a path pattern matches

Results:
* `matchesPath_iff`: a pattern matches a path when the path splits into what its
  parts consume, in order.
* `matches_literal_iff`, `matches_id_iff`, `matches_query_iff`: what the first part decides.
* `flat_separate_iff`: what `hasTraversal` looks for lies on one side of any other character.
-/

namespace AegisShield.Sabcl

namespace PathPart

/-- What a part can consume. -/
def Consumes : PathPart → List Char → Prop
  | lit s, consumed => consumed = s.toList
  | ID, consumed =>
    1 ≤ consumed.length ∧ consumed.length ≤ 128 ∧ ∀ c ∈ consumed, isIdChar c = true
  | QUERY, consumed =>
    consumed = [] ∨
      ∃ query, consumed = '?' :: query ∧ query.length ≤ 512 ∧ ∀ c ∈ query, isQueryChar c = true

/-- A text is consumed by parts one after the other. -/
def Matches : List PathPart → List Char → Prop
  | [], text => text = []
  | part :: parts, text =>
    ∃ consumed rest, text = consumed ++ rest ∧ part.Consumes consumed ∧ Matches parts rest

theorem mem_afterRun {p : Char → Bool} {lo hi : ℕ} {text rest : List Char} :
    rest ∈ afterRun p lo hi text ↔
      ∃ run, text = run ++ rest ∧ lo ≤ run.length ∧ run.length ≤ hi ∧ ∀ c ∈ run, p c = true := by
  simp only [afterRun, List.mem_map, List.mem_filter, List.mem_range, Bool.and_eq_true,
    decide_eq_true_iff, List.all_eq_true]
  constructor
  · rintro ⟨k, ⟨hk, ⟨hlo, hle⟩, hall⟩, rfl⟩
    have hlength : (text.take k).length = k := List.length_take_of_le hle
    exact ⟨text.take k, (List.take_append_drop k text).symm, by omega, by omega, hall⟩
  · rintro ⟨run, rfl, hlo, hhi, hall⟩
    refine ⟨run.length, ⟨by omega, ⟨hlo, by simp⟩, ?_⟩, List.drop_left⟩
    rw [List.take_left]
    exact hall

theorem mem_rests {part : PathPart} {text rest : List Char} :
    rest ∈ part.rests text ↔ ∃ consumed, text = consumed ++ rest ∧ part.Consumes consumed := by
  cases part with
  | lit s =>
    simp only [rests, Consumes, exists_eq_right]
    split
    next hprefix =>
      obtain ⟨tail, htail⟩ := List.isPrefixOf_iff_prefix.mp hprefix
      rw [List.mem_singleton, ← htail, List.drop_left, List.append_cancel_left_eq]
      exact eq_comm
    next hprefix =>
      constructor
      · intro h
        cases h
      · intro h
        exact absurd (List.isPrefixOf_iff_prefix.mpr ⟨rest, h.symm⟩) hprefix
  | ID =>
    simp only [rests, mem_afterRun]
    rfl
  | QUERY =>
    have hquery : rest ∈ QUERY.rests text ↔
        rest = text ∨ ∃ tail, text = '?' :: tail ∧ rest ∈ afterRun isQueryChar 0 512 tail := by
      simp only [rests]
      split
      next tail =>
        simp
      next hhead =>
        rw [List.mem_singleton]
        constructor
        · exact .inl
        · rintro (h | ⟨tail, htail, -⟩)
          · exact h
          · exact absurd htail (hhead tail)
    rw [hquery]
    constructor
    · rintro (rfl | ⟨tail, rfl, hrest⟩)
      · exact ⟨[], rfl, .inl rfl⟩
      · obtain ⟨query, rfl, -, hlength, hall⟩ := mem_afterRun.mp hrest
        exact ⟨'?' :: query, rfl, .inr ⟨query, rfl, hlength, hall⟩⟩
    · rintro ⟨consumed, rfl, rfl | ⟨query, rfl, hlength, hall⟩⟩
      · exact .inl rfl
      · exact .inr ⟨query ++ rest, rfl, mem_afterRun.mpr ⟨query, rfl, Nat.zero_le _, hlength, hall⟩⟩

end PathPart

open PathPart

variable {path s : String} {c : Char}

theorem matchesPath_iff {parts : List PathPart} :
    matchesPath parts path = true ↔ Matches parts path.toList := by
  suffices h : ∀ texts : List (List Char),
      (parts.foldl (fun texts part => texts.flatMap fun text => part.rests text) texts).any
          List.isEmpty = true ↔ ∃ text ∈ texts, Matches parts text by
    unfold matchesPath
    rw [h]
    simp
  induction parts with
  | nil =>
    intro texts
    simp [Matches]
  | cons part parts ih =>
    intro texts
    rw [List.foldl_cons, ih]
    simp only [List.mem_flatMap, mem_rests, Matches]
    constructor
    · rintro ⟨rest, ⟨text, htext, consumed, hsplit, hconsumed⟩, hmatches⟩
      exact ⟨text, htext, consumed, rest, hsplit, hconsumed, hmatches⟩
    · rintro ⟨text, htext, consumed, rest, hsplit, hconsumed, hmatches⟩
      exact ⟨rest, ⟨text, htext, consumed, hsplit, hconsumed⟩, hmatches⟩

variable {parts : List PathPart} {text rest : List Char}

/-- A literal part decides by its own text. -/
theorem matches_literal_iff :
    Matches (.lit s :: parts) (s.toList ++ rest) ↔ Matches parts rest := by
  constructor
  · rintro ⟨consumed, rest', hsplit, rfl, hmatches⟩
    rw [List.append_cancel_left hsplit]
    exact hmatches
  · intro h
    exact ⟨s.toList, rest, rfl, rfl, h⟩

/-- A text that a pattern matches starts with its first literal. -/
theorem PathPart.Matches.literal (h : Matches (.lit s :: parts) text) :
    s.toList <+: text := by
  obtain ⟨consumed, rest, rfl, rfl, -⟩ := h
  exact List.prefix_append _ _

/-- An identifier is consumed whole when no character of the class follows it and the
    other parts cannot start with one. -/
theorem matches_id_iff {id : List Char} (hid : ∀ d ∈ id, isIdChar d = true)
    (hrest : ∀ d ∈ rest.head?, isIdChar d = false)
    (hparts : ∀ d more, isIdChar d = true → ¬ Matches parts (d :: more)) :
    Matches (.ID :: parts) (id ++ rest) ↔
      1 ≤ id.length ∧ id.length ≤ 128 ∧ Matches parts rest := by
  constructor
  · rintro ⟨consumed, rest', hsplit, ⟨hlo, hhi, hall⟩, hmatches⟩
    have hsame : consumed = id ∧ rest' = rest := by
      rcases List.append_eq_append_iff.mp hsplit with ⟨more, hmore, hrest'⟩ | ⟨more, hmore, hrest'⟩
      · cases more with
        | nil =>
          rw [List.append_nil] at hmore
          exact ⟨hmore, hrest'.symm⟩
        | cons d more =>
          have hin := hall d (by rw [hmore]; simp)
          have hout := hrest d (by rw [hrest']; rfl)
          rw [hin] at hout
          cases hout
      · cases more with
        | nil =>
          rw [List.append_nil] at hmore
          exact ⟨hmore.symm, hrest'⟩
        | cons d more =>
          have hin := hid d (by rw [hmore]; simp)
          rw [hrest'] at hmatches
          exact absurd hmatches (hparts d _ hin)
    obtain ⟨rfl, rfl⟩ := hsame
    exact ⟨hlo, hhi, hmatches⟩
  · rintro ⟨hlo, hhi, hmatches⟩
    exact ⟨id, rest, rfl, ⟨hlo, hhi, hid⟩, hmatches⟩

/-- A query string is consumed whole at the end of a pattern. -/
theorem matches_query_iff {query : List Char} :
    Matches [.QUERY] ('?' :: query) ↔
      query.length ≤ 512 ∧ ∀ c ∈ query, isQueryChar c = true := by
  constructor
  · rintro ⟨consumed, rest, hsplit, hconsumed, hrest⟩
    have hnil : rest = [] := hrest
    rw [hnil, List.append_nil] at hsplit
    rcases hconsumed with rfl | ⟨query', rfl, hlength, hall⟩
    · cases hsplit
    · obtain ⟨-, rfl⟩ := List.cons.inj hsplit
      exact ⟨hlength, hall⟩
  · rintro ⟨hlength, hall⟩
    exact ⟨'?' :: query, [], by simp, .inr ⟨query, rfl, hlength, hall⟩, rfl⟩

/-- The parts after a literal that starts outside the identifier class cannot start in it. -/
theorem not_matches_literal {d : Char} {tail more : List Char}
    (hs : s.toList = c :: tail) (hc : isIdChar c = false) (hd : isIdChar d = true) :
    ¬ Matches (.lit s :: parts) (d :: more) := by
  intro h
  obtain ⟨t, ht⟩ := Matches.literal h
  rw [hs] at ht
  obtain ⟨rfl, -⟩ := List.cons.inj ht
  rw [hc] at hd
  cases hd

/-- Two literals that differ before either ends do not match the same text. -/
theorem not_matches_apart {t : String} (hst : ¬ s.toList <+: t.toList)
    (hts : ¬ t.toList <+: s.toList) : ¬ Matches (.lit s :: parts) (t.toList ++ rest) := by
  intro h
  rcases List.prefix_or_prefix_of_prefix (Matches.literal h) (List.prefix_append _ _) with h | h
  · exact hst h
  · exact hts h

/-! ## Traversal -/

/-- What `hasTraversal` looks for does not occur in a text. -/
def Flat (text : List Char) : Prop := includes ['.', '.'] text = false ∧ '\\' ∉ text

theorem includes_iff {part text : List Char} : includes part text = true ↔ part <:+: text := by
  unfold includes
  simp only [List.any_eq_true, List.mem_tails, List.isPrefixOf_iff_prefix]
  constructor
  · rintro ⟨tail, hsuffix, hprefix⟩
    exact hprefix.isInfix.trans hsuffix.isInfix
  · intro h
    obtain ⟨tail, hprefix, hsuffix⟩ := List.infix_iff_prefix_suffix.mp h
    exact ⟨tail, hsuffix, hprefix⟩

theorem includes_dots_iff {text : List Char} :
    includes ['.', '.'] text = false ↔ text.IsChain fun a b => ¬ (a = '.' ∧ b = '.') := by
  rw [← Bool.not_eq_true, includes_iff, List.isChain_iff_forall_rel_of_append_cons_cons]
  constructor
  · rintro h a b before after rfl ⟨rfl, rfl⟩
    exact h ⟨before, after, by simp⟩
  · rintro h ⟨before, after, rfl⟩
    exact h (List.append_assoc before ['.', '.'] after) ⟨rfl, rfl⟩

/-- What `hasTraversal` looks for lies on one side of any other character. -/
theorem flat_separate_iff {before after : List Char} (hdot : c ≠ '.')
    (hslash : c ≠ '\\') : Flat (before ++ c :: after) ↔ Flat before ∧ Flat after := by
  have hdots : includes ['.', '.'] (before ++ c :: after) = false ↔
      includes ['.', '.'] before = false ∧ includes ['.', '.'] after = false := by
    simp only [includes_dots_iff]
    rw [List.isChain_append]
    constructor
    · rintro ⟨hbefore, hafter, -⟩
      exact ⟨hbefore, hafter.tail⟩
    · rintro ⟨hbefore, hafter⟩
      refine ⟨hbefore, hafter.cons ?_, ?_⟩
      · rintro d - ⟨rfl, -⟩
        exact hdot rfl
      · rintro d - e he ⟨-, rfl⟩
        rw [List.head?_cons, Option.mem_some_iff] at he
        exact hdot he
  have hslashes : '\\' ∉ before ++ c :: after ↔ '\\' ∉ before ∧ '\\' ∉ after := by
    simp only [List.mem_append, List.mem_cons, hslash.symm, false_or, not_or]
  unfold Flat
  rw [hdots, hslashes]
  tauto

theorem flat_of_forall {text : List Char} (h : ∀ c ∈ text, c ≠ '.' ∧ c ≠ '\\') : Flat text := by
  refine ⟨?_, fun hmem => (h _ hmem).2 rfl⟩
  rw [← Bool.not_eq_true, includes_iff]
  intro hinfix
  exact (h '.' (List.IsInfix.subset hinfix List.mem_cons_self)).1 rfl

theorem hasTraversal_eq_false_iff :
    hasTraversal path = false ↔ Flat (safeDecode path.toList) := by
  unfold hasTraversal Flat
  rw [Bool.or_eq_false_iff]
  refine and_congr_right fun _ => ?_
  rw [← Bool.not_eq_true, includes_iff, List.singleton_infix_iff]

end AegisShield.Sabcl
