import AegisShield.Common.DateTime
import AegisShield.Gateway.Catalogue

/-!
# The date ranges of the list queries

`transactionHistoryQuerySchema` (`contracts/accounts/v1.ts`, lines 274-296) and
`transferListQuerySchema` (`contracts/payments/v1.ts`, lines 169-190) compare `dateFrom` and
`dateTo` as texts.

Results:
* `date_ranges_iff`: the ranges are those of the instants just where the texts are comparable.
* `date_range_refused`: a range of thirty seconds that both schemas refuse.
-/

namespace AegisShield.Gateway

open Common Sabcl Payments DateTime

/-! ## The grammar of the dates -/

theorem dateTime_chars {text : String} (h : isDateTime text = true) :
    ∀ c ∈ text.toList, (c.isDigit || decide (c ∈ ['-', ':', '.', 'T', 'Z'])) = true := by
  obtain ⟨v, hv⟩ := Option.isSome_iff_exists.mp h
  obtain ⟨front, back, htext, hfront, hback⟩ := chars_of_instantOf hv
  have hdigit : ∀ c : Char, c.isDigit = true →
      (c.isDigit || decide (c ∈ ['-', ':', '.', 'T', 'Z'])) = true := by
    intro c hc
    rw [hc, Bool.true_or]
  rw [htext, List.forall_mem_append, List.forall_mem_append]
  refine ⟨fun c hc => ?_, ?_, by simp⟩
  · rcases hfront c hc with hc | hc
    · exact hdigit c hc
    · simp only [List.mem_cons, List.not_mem_nil, or_false] at hc
      rcases hc with rfl | rfl | rfl
      · decide
      · decide
      · decide
  · rcases hback with rfl | ⟨f, rfl, hf⟩
    · simp
    · rw [List.forall_mem_cons]
      exact ⟨by decide, fun c hc => hdigit c (hf c hc)⟩

theorem dateTime_dots {text : String} (h : isDateTime text = true) :
    includes ['.', '.'] text.toList = false := by
  obtain ⟨v, hv⟩ := Option.isSome_iff_exists.mp h
  obtain ⟨front, back, htext, hfront, hback⟩ := chars_of_instantOf hv
  have hplain : ∀ c : Char, c.isDigit = true → '.' ≠ c := by
    rintro c hc rfl
    cases hc
  have hdots : text.toList.count '.' ≤ 1 := by
    have hnone : front.count '.' = 0 := by
      refine List.count_eq_zero.mpr fun hmem => ?_
      exact absurd (hfront '.' hmem) (by decide)
    rw [htext, List.count_append, List.count_append, hnone]
    rcases hback with rfl | ⟨f, rfl, hf⟩
    · decide
    · have hf' : f.count '.' = 0 := List.count_eq_zero.mpr fun hmem => hplain '.' (hf '.' hmem) rfl
      rw [List.count_cons_self, hf']
      decide
  by_contra hincludes
  have hinfix := includes_iff.mp (Bool.eq_true_of_not_eq_false hincludes)
  have htwo := hinfix.sublist.count_le '.'
  have hcount : ['.', '.'].count '.' = 2 := by decide
  omega

/-- What the schemas take from zod, with the grammar of `z.iso.datetime()`. -/
def grammarZod (zod : Payments.Zod) (toInteger : Json → Option ℤ) : Zod where
  toZod := zod
  isDateTime := isDateTime
  dateTime_chars _ := dateTime_chars
  dateTime_dots _ := dateTime_dots
  toInteger := toInteger

/-! ## The range of a query -/

/-- The query without its dates. -/
def withoutDates (members : List (String × Json)) : List (String × Json) :=
  members.filter fun m => m.1 ≠ "dateFrom" && m.1 ≠ "dateTo"

/-- A query with the two dates passes if and only if it passes without them and the dates are
    in range. -/
def RangeAccepted {α : Type} (schema : Json → Option α) (dateFrom dateTo : String)
    (inRange : Prop) : Prop :=
  ∀ members, Json.member members "dateFrom" = some (.string dateFrom) →
    Json.member members "dateTo" = some (.string dateTo) →
    ((schema (.object members)).isSome = true ↔
      (schema (.object (withoutDates members))).isSome = true ∧ inRange)

section Query

variable (members : List (String × Json))

theorem member_withoutDates {name : String} (hfrom : name ≠ "dateFrom") (hto : name ≠ "dateTo") :
    Json.member (withoutDates members) name = Json.member members name := by
  have hlookup : (withoutDates members).lookup name = members.lookup name := by
    unfold withoutDates
    induction members with
    | nil => rfl
    | cons m members ih =>
      rw [List.filter_cons]
      split
      · rw [List.lookup_cons, List.lookup_cons, ih]
      next hdate =>
        have hname : (name == m.1) = false := by
          refine beq_eq_false_iff_ne.mpr ?_
          rintro rfl
          simp [hfrom, hto] at hdate
        rw [List.lookup_cons, hname, ih]
  unfold Json.member
  rw [hlookup]

theorem member_date {name : String} (hname : name = "dateFrom" ∨ name = "dateTo") :
    Json.member (withoutDates members) name = none := by
  have hlookup : (withoutDates members).lookup name = none := by
    rw [List.lookup_eq_none_iff]
    intro m hm
    have hkept := (List.mem_filter.mp hm).2
    refine bne_iff_ne.mpr ?_
    rintro rfl
    rcases hname with hname | hname
    · simp [hname] at hkept
    · simp [hname] at hkept
  unfold Json.member
  rw [hlookup]

theorem names_withoutDates {names : List String} (hfrom : "dateFrom" ∈ names)
    (hto : "dateTo" ∈ names) :
    ((withoutDates members).all fun m => names.contains m.1) =
      members.all fun m => names.contains m.1 := by
  unfold withoutDates
  rw [Bool.eq_iff_iff, List.all_eq_true, List.all_eq_true]
  constructor
  · intro h m hm
    by_cases hdate : m.1 = "dateFrom" ∨ m.1 = "dateTo"
    · rcases hdate with hdate | hdate
      · rw [hdate]
        exact List.contains_iff_mem.mpr hfrom
      · rw [hdate]
        exact List.contains_iff_mem.mpr hto
    · rw [not_or] at hdate
      exact h m (List.mem_filter.mpr ⟨hm, by simp [hdate]⟩)
  · intro h m hm
    exact h m (List.mem_filter.mp hm).1

end Query

section Schemas

variable {zod : Zod} {members : List (String × Json)} {dateFrom dateTo : String}

theorem optional_date (h : zod.isDateTime dateFrom = true) :
    optional (isoDateTime zod) (some (.string dateFrom)) = some (some dateFrom) := by
  show Option.map some (if zod.isDateTime dateFrom = true then some dateFrom else none) = _
  rw [if_pos h]
  rfl

theorem strictObject_object (names : List String) (members : List (String × Json)) :
    Json.strictObject names (.object members) =
      if (members.all fun m => names.contains m.1) = true then some members else none := rfl

/-- The last steps of both schemas: the fields, then the order of the dates. -/
theorem range_of_fields {α β γ δ ε : Type} (kind : Option α) (group : Option β)
    (pageSize : Option γ) (cursor : Option δ)
    (query : α → β → Option String → Option String → γ → δ → ε) :
    (kind.bind fun k => group.bind fun g => (some (some dateFrom)).bind fun first =>
      (some (some dateTo)).bind fun last => pageSize.bind fun p => cursor.bind fun c =>
      if inOrder first last = true then pure (query k g first last p c) else none).isSome = true ↔
    (kind.bind fun k => group.bind fun g => (optional (isoDateTime zod) none).bind fun first =>
      (optional (isoDateTime zod) none).bind fun last => pageSize.bind fun p =>
      cursor.bind fun c =>
      if inOrder first last = true then pure (query k g first last p c) else none).isSome = true ∧
    dateFrom ≤ dateTo := by
  have hnone : optional (isoDateTime zod) none = some none := rfl
  rw [hnone]
  rcases kind with _ | k
  · simp
  rcases group with _ | g
  · simp
  rcases pageSize with _ | p
  · simp
  rcases cursor with _ | c
  · simp
  by_cases hle : dateFrom ≤ dateTo
  · simp [inOrder, hle]
  · simp [inOrder, hle]

variable (hfrom : zod.isDateTime dateFrom = true) (hto : zod.isDateTime dateTo = true)
include hfrom hto

theorem transferListQuerySchema_range :
    RangeAccepted (transferListQuerySchema zod) dateFrom dateTo (dateFrom ≤ dateTo) := by
  intro members hmfrom hmto
  have hdirection := member_withoutDates members (show "direction" ≠ _ by decide) (by decide)
  have hstatus := member_withoutDates members (show "status" ≠ _ by decide) (by decide)
  have hsize := member_withoutDates members (show "pageSize" ≠ _ by decide) (by decide)
  have hcursor := member_withoutDates members (show "cursor" ≠ _ by decide) (by decide)
  unfold transferListQuerySchema
  rw [strictObject_object, strictObject_object, names_withoutDates members (by decide) (by decide)]
  split
  · dsimp only [Option.bind_eq_bind, Option.bind_some]
    rw [hdirection, hstatus, hsize, hcursor, member_date members (.inl rfl),
      member_date members (.inr rfl), hmfrom, hmto, optional_date hfrom, optional_date hto]
    exact range_of_fields _ _ _ _ _
  · simp

theorem transactionHistoryQuerySchema_range :
    RangeAccepted (transactionHistoryQuerySchema zod) dateFrom dateTo (dateFrom ≤ dateTo) := by
  intro members hmfrom hmto
  have hdirection := member_withoutDates members (show "direction" ≠ _ by decide) (by decide)
  have hcategory := member_withoutDates members (show "category" ≠ _ by decide) (by decide)
  have hsize := member_withoutDates members (show "pageSize" ≠ _ by decide) (by decide)
  have hcursor := member_withoutDates members (show "cursor" ≠ _ by decide) (by decide)
  unfold transactionHistoryQuerySchema
  rw [strictObject_object, strictObject_object, names_withoutDates members (by decide) (by decide)]
  split
  · dsimp only [Option.bind_eq_bind, Option.bind_some]
    rw [hdirection, hcategory, hsize, hcursor, member_date members (.inl rfl),
      member_date members (.inr rfl), hmfrom, hmto, optional_date hfrom, optional_date hto]
    exact range_of_fields _ _ _ _ _
  · simp

omit hfrom hto

/-- A schema that takes the dates alone decides one range. -/
theorem rangeAccepted_iff {α : Type} {schema : Json → Option α} {P Q : Prop}
    (h : RangeAccepted schema dateFrom dateTo P) (hnone : (schema (.object [])).isSome = true) :
    RangeAccepted schema dateFrom dateTo Q ↔ (P ↔ Q) := by
  constructor
  · intro hQ
    let members := [("dateFrom", Json.string dateFrom), ("dateTo", Json.string dateTo)]
    have hboth := (h members rfl rfl).symm.trans (hQ members rfl rfl)
    have hempty : withoutDates members = [] := rfl
    rw [hempty, and_iff_right hnone, and_iff_right hnone] at hboth
    exact hboth
  · intro hPQ members hmfrom hmto
    rw [← hPQ]
    exact h members hmfrom hmto

end Schemas

/-- **The ranges are those of the instants just where the texts are comparable.** -/
theorem date_ranges_iff (zod : Payments.Zod) (toInteger : Json → Option ℤ)
    {dateFrom dateTo : String} {first last : ℚ} (hfrom : instantOf dateFrom = some first)
    (hto : instantOf dateTo = some last) :
    (RangeAccepted (transactionHistoryQuerySchema (grammarZod zod toInteger)) dateFrom dateTo
        (first ≤ last) ↔ Comparable (body dateFrom) (body dateTo)) ∧
      (RangeAccepted (transferListQuerySchema (grammarZod zod toInteger)) dateFrom dateTo
        (first ≤ last) ↔ Comparable (body dateFrom) (body dateTo)) := by
  have hfrom' : (grammarZod zod toInteger).isDateTime dateFrom = true :=
    Option.isSome_iff_exists.mpr ⟨first, hfrom⟩
  have hto' : (grammarZod zod toInteger).isDateTime dateTo = true :=
    Option.isSome_iff_exists.mpr ⟨last, hto⟩
  rw [← le_iff_instant hfrom hto]
  exact ⟨rangeAccepted_iff (transactionHistoryQuerySchema_range hfrom' hto') rfl,
    rangeAccepted_iff (transferListQuerySchema_range hfrom' hto') rfl⟩

/-- A day with half a second in front: both schemas take the range. -/
theorem date_ranges_day : ∃ first last : ℚ,
    instantOf "2026-08-01T10:00:00Z" = some first ∧
    instantOf "2026-08-02T10:00:00.5Z" = some last ∧
    Comparable (body "2026-08-01T10:00:00Z") (body "2026-08-02T10:00:00.5Z") ∧
    (RangeAccepted (transactionHistoryQuerySchema (grammarZod plainZod fun _ => none))
        "2026-08-01T10:00:00Z" "2026-08-02T10:00:00.5Z" (first ≤ last) ∧
      RangeAccepted (transferListQuerySchema (grammarZod plainZod fun _ => none))
        "2026-08-01T10:00:00Z" "2026-08-02T10:00:00.5Z" (first ≤ last)) := by
  obtain ⟨first, hfirst⟩ := Option.isSome_iff_exists.mp
    (show (instantOf "2026-08-01T10:00:00Z").isSome = true by decide +kernel)
  obtain ⟨last, hlast⟩ := Option.isSome_iff_exists.mp
    (show (instantOf "2026-08-02T10:00:00.5Z").isSome = true by decide +kernel)
  have hcomparable : Comparable (body "2026-08-01T10:00:00Z") (body "2026-08-02T10:00:00.5Z") := by
    have hfrom : body "2026-08-01T10:00:00Z" = "2026-08-01".toList ++ "T10:00:00".toList := by
      decide
    have hto : body "2026-08-02T10:00:00.5Z" = "2026-08-02".toList ++ "T10:00:00.5".toList := by
      decide
    rw [hfrom, hto]
    exact comparable_of_ne (by decide) (by decide) _ _
  obtain ⟨hhistory, htransfers⟩ := date_ranges_iff plainZod (fun _ => none) hfirst hlast
  exact ⟨first, last, hfirst, hlast, hcomparable, hhistory.mpr hcomparable,
    htransfers.mpr hcomparable⟩

/-- Thirty seconds, the start without its seconds: both schemas refuse the range. -/
theorem date_range_refused :
    ¬ ∀ (zod : Payments.Zod) (toInteger : Json → Option ℤ) (dateFrom dateTo : String)
      (first last : ℚ), instantOf dateFrom = some first → instantOf dateTo = some last →
      RangeAccepted (transactionHistoryQuerySchema (grammarZod zod toInteger)) dateFrom dateTo
        (first ≤ last) ∧
      RangeAccepted (transferListQuerySchema (grammarZod zod toInteger)) dateFrom dateTo
        (first ≤ last) := by
  intro hall
  obtain ⟨first, hfirst⟩ := Option.isSome_iff_exists.mp
    (show (instantOf "2026-08-01T10:00Z").isSome = true by decide +kernel)
  obtain ⟨last, hlast⟩ := Option.isSome_iff_exists.mp
    (show (instantOf "2026-08-01T10:00:30Z").isSome = true by decide +kernel)
  have hfrom : (grammarZod plainZod fun _ => none).isDateTime "2026-08-01T10:00Z" = true :=
    Option.isSome_iff_exists.mpr ⟨first, hfirst⟩
  have hto : (grammarZod plainZod fun _ => none).isDateTime "2026-08-01T10:00:30Z" = true :=
    Option.isSome_iff_exists.mpr ⟨last, hlast⟩
  have hrange := (hall plainZod (fun _ => none) _ _ first last hfirst hlast).1
  have htexts := (rangeAccepted_iff (transactionHistoryQuerySchema_range hfrom hto) rfl).mp hrange
  have hcomparable := (le_iff_instant hfirst hlast).mp htexts
  exact absurd (hcomparable.1 ⟨":30".toList, rfl⟩) (by decide)

end AegisShield.Gateway
