import AegisShield.Common.WebUrl
import AegisShield.Sabcl.PathPattern

/-!
# The paths of the catalogue as URLs

The target that the loopback dispatcher (`server/loopback-dispatch.ts`) makes of an
accepted path. The URL parser on inputs that name no path on the base is a parameter.

Results:
* `path_confined`: the target of an accepted path has the origin of the base, the matched
  path as its pathname and the matched query as its query; no path belongs to two
  capabilities of one service.
-/

namespace AegisShield.Sabcl

open Common.WebUrl PathPart

/-- The target of a request (`createLoopbackDispatcher`, lines 54-59); a `TypeError` of
    the URL parser ends as an unavailable recipient. -/
def loopbackTarget (elsewhere : List Char → Option Url) (base : Url)
    (request : SabclInnerRequest) : Except Thrown Url :=
  match parse elsewhere base request.path.toList with
  | none => fail .SABCL_RECIPIENT_UNAVAILABLE
  | some target =>
    if target.origin ≠ base.origin then fail .SABCL_ROUTE_INVALID "path changed origin"
    else .ok target

/-! ## Characters -/

variable {c : Char} {parts : List PathPart} {text : List Char}

theorem c0ControlSet_of_isAlphanum (h : c.isAlphanum = true) :
    c0ControlSet c = false := by
  have hrange : 0x20 ≤ c.toNat ∧ c.toNat ≤ 0x7E := by
    simp only [Char.isAlphanum, Char.isAlpha, Char.isUpper, Char.isLower, Char.isDigit,
      Bool.or_eq_true, Bool.and_eq_true, decide_eq_true_eq, ge_iff_le, UInt32.le_iff_toNat_le] at h
    change ((65 ≤ c.toNat ∧ c.toNat ≤ 90) ∨ (97 ≤ c.toNat ∧ c.toNat ≤ 122)) ∨
      (48 ≤ c.toNat ∧ c.toNat ≤ 57) at h
    omega
  unfold c0ControlSet
  simp only [Bool.or_eq_false_iff, decide_eq_false_iff_not]
  omega

theorem not_contains_of_isAlphanum {marks : List Char} (h : c.isAlphanum = true)
    (hmarks : marks.all (fun d => !d.isAlphanum) = true) : marks.contains c = false := by
  rw [← Bool.not_eq_true, List.contains_iff_mem]
  intro hmem
  have hmark := List.all_eq_true.mp hmarks c hmem
  rw [h] at hmark
  cases hmark

/-- The characters of identifiers stand in a path as they are. -/
theorem isPlain_of_isIdChar (h : isIdChar c = true) : isPlain c = true := by
  unfold isIdChar at h
  simp only [Bool.or_eq_true, beq_iff_eq] at h
  rcases h with (halpha | rfl) | rfl
  · unfold isPlain pathSet
    rw [c0ControlSet_of_isAlphanum halpha, not_contains_of_isAlphanum halpha (by rfl),
      not_contains_of_isAlphanum halpha (by rfl)]
    rfl
  · rfl
  · rfl

/-- The characters of `QUERY` stand in a query as they are. -/
theorem specialQuerySet_of_isQueryChar (h : isQueryChar c = true) :
    specialQuerySet c = false := by
  have hmarks : (['_', '=', '&', '%', '.', ',', ':', '-'].all fun d => !specialQuerySet d) = true :=
    by rfl
  unfold isQueryChar at h
  rcases Bool.or_eq_true_iff.mp h with halpha | hmark
  · unfold specialQuerySet
    rw [c0ControlSet_of_isAlphanum halpha, not_contains_of_isAlphanum halpha (by rfl)]
    rfl
  · have hkept := List.all_eq_true.mp hmarks c (List.contains_iff_mem.mp hmark)
    rw [Bool.not_eq_true'] at hkept
    exact hkept

/-! ## Patterns -/

/-- A character that a pattern of the catalogue can put in the path. -/
def isPathChar (c : Char) : Bool := c == '/' || isIdChar c

/-- The literals of a pattern are made of path characters, and a query string can only be
    its last part. -/
def confined : List PathPart → Bool
  | [] | [.QUERY] => true
  | .QUERY :: _ :: _ => false
  | .ID :: parts => confined parts
  | .lit s :: parts => s.toList.all isPathChar && confined parts

/-- A pattern starts with one slash. -/
def rooted : List PathPart → Bool
  | .lit s :: _ =>
    match s.toList with
    | '/' :: c :: _ => c != '/'
    | _ => false
  | _ => false

theorem catalogue_confined : ∀ entry ∈ SABCL_CAPABILITIES,
    ∀ pattern ∈ entry.capability.pathPatterns,
      confined pattern = true ∧ rooted pattern = true := by
  decide

/-- A text that a confined pattern matches is a path and a query. -/
theorem PathPart.Matches.confined (h : Matches parts text) (hparts : Sabcl.confined parts = true) :
    ∃ path query, text = path ++ queryText query ∧ (∀ c ∈ path, isPathChar c = true) ∧
      ∀ q ∈ query, ∀ c ∈ q, isQueryChar c = true := by
  induction parts generalizing text with
  | nil => exact ⟨[], none, h, by simp, by simp⟩
  | cons part parts ih =>
    obtain ⟨consumed, rest, rfl, hconsumed, hrest⟩ := h
    -- a literal or an identifier goes to the path, and the rest is split as before
    have hpath : Sabcl.confined parts = true → (∀ c ∈ consumed, isPathChar c = true) →
        ∃ path query, consumed ++ rest = path ++ queryText query ∧
          (∀ c ∈ path, isPathChar c = true) ∧ ∀ q ∈ query, ∀ c ∈ q, isQueryChar c = true := by
      intro hconfined hchars
      obtain ⟨path, query, rfl, hpath, hquery⟩ := ih hrest hconfined
      refine ⟨consumed ++ path, query, (List.append_assoc _ _ _).symm, ?_, hquery⟩
      exact List.forall_mem_append.mpr ⟨hchars, hpath⟩
    cases part with
    | lit s =>
      obtain ⟨hall, hconfined⟩ := Bool.and_eq_true_iff.mp hparts
      cases hconsumed
      exact hpath hconfined (List.all_eq_true.mp hall)
    | ID =>
      refine hpath hparts fun c hc => ?_
      rw [isPathChar, hconsumed.2.2 c hc, Bool.or_true]
    | QUERY =>
      cases parts with
      | cons part parts => cases hparts
      | nil =>
        cases hrest
        rcases hconsumed with rfl | ⟨query, rfl, -, hquery⟩
        · exact ⟨[], none, rfl, by simp, by simp⟩
        · refine ⟨[], some query, by simp [queryText], by simp, fun q hq => ?_⟩
          cases hq
          exact hquery

/-- A text that a rooted pattern matches starts with one slash. -/
theorem PathPart.Matches.rooted (h : Matches parts text)
    (hparts : Sabcl.rooted parts = true) : ∃ c rest, text = '/' :: c :: rest ∧ c ≠ '/' := by
  unfold Sabcl.rooted at hparts
  split at hparts
  next s rest =>
    obtain ⟨tail, rfl⟩ := Matches.literal h
    split at hparts
    next c more hs =>
      rw [hs]
      exact ⟨c, more ++ tail, rfl, by simpa using hparts⟩
    · cases hparts
  · cases hparts

/-! ## The targets -/

theorem isPlainPath_of_isPathChar {path : List Char} (h : ∀ c ∈ path, isPathChar c = true) :
    IsPlainPath path := by
  intro c hc
  have hchar := h c hc
  unfold isPathChar at hchar
  simp only [Bool.or_eq_true, beq_iff_eq] at hchar
  exact hchar.imp_right isPlain_of_isIdChar

/-- A path that a pattern of the catalogue matches is its target's path and query. -/
theorem target_of_pathAllowed (elsewhere : List Char → Option Url) (base : Url)
    {entry : CatalogueEntry} {request : SabclInnerRequest} (hentry : entry ∈ SABCL_CAPABILITIES)
    (h : pathAllowed entry.capability request.path = true) :
    ∃ path query target, request.path.toList = path ++ queryText query ∧
      (∀ c ∈ path, isPathChar c = true) ∧
      parse elsewhere base request.path.toList = some target ∧ target.origin = base.origin ∧
      target.pathname = path ∧ target.query = query ∧ target.fragment = none := by
  obtain ⟨pattern, hpattern, hmatches⟩ := List.any_eq_true.mp h
  obtain ⟨hconfined, hrooted⟩ := catalogue_confined entry hentry pattern hpattern
  have hm := matchesPath_iff.mp hmatches
  obtain ⟨path, query, hsplit, hpath, hquery⟩ := hm.confined hconfined
  obtain ⟨c, rest, hroot, hc⟩ := hm.rooted hrooted
  obtain ⟨text, rfl, hhead⟩ : ∃ text, path = '/' :: text ∧ ∀ d ∈ text.head?, d ≠ '/' := by
    rw [hroot] at hsplit
    rcases path with _ | ⟨d, text⟩
    · rcases query with _ | query
      · cases hsplit
      · cases hsplit
    · obtain ⟨rfl, hrest⟩ := List.cons.inj hsplit
      refine ⟨text, rfl, ?_⟩
      rcases text with _ | ⟨d, text⟩
      · simp
      · rintro _ ⟨⟩
        rw [← (List.cons.inj hrest).1]
        exact hc
  have hplain : IsPlainPath text := fun d hd =>
    isPlainPath_of_isPathChar hpath d (List.mem_cons_of_mem _ hd)
  obtain ⟨segments, hsegments, hparse⟩ := parse_path elsewhere base
    hplain hhead fun q hq d hd => specialQuerySet_of_isQueryChar (hquery q hq d hd)
  refine ⟨'/' :: text, query, { base with path := segments, query := query, fragment := none },
    hsplit, hpath, ?_, rfl, hsegments, rfl, rfl⟩
  rw [hsplit]
  exact hparse

/-! ## Disjoint capabilities -/

/-- The literal that a pattern starts with. -/
def firstLiteral : List PathPart → List Char
  | .lit s :: _ => s.toList
  | _ => []

theorem firstLiteral_prefix (h : Matches parts text) :
    firstLiteral parts <+: text := by
  unfold firstLiteral
  split
  · exact Matches.literal h
  · exact List.nil_prefix

/-- The patterns of two capabilities of one service start with literals that are apart. -/
theorem catalogue_apart : ∀ e ∈ SABCL_CAPABILITIES, ∀ e' ∈ SABCL_CAPABILITIES,
    e.service = e'.service → e ≠ e' → ∀ pattern ∈ e.capability.pathPatterns,
      ∀ pattern' ∈ e'.capability.pathPatterns,
        ¬ firstLiteral pattern <+: firstLiteral pattern' := by
  decide

theorem pathAllowed_disjoint {e e' : CatalogueEntry} (he : e ∈ SABCL_CAPABILITIES)
    (he' : e' ∈ SABCL_CAPABILITIES) (hservice : e.service = e'.service) (hne : e ≠ e')
    {path : String} (h : pathAllowed e.capability path = true) :
    pathAllowed e'.capability path = false := by
  rw [← Bool.not_eq_true]
  intro h'
  obtain ⟨pattern, hpattern, hmatches⟩ := List.any_eq_true.mp h
  obtain ⟨pattern', hpattern', hmatches'⟩ := List.any_eq_true.mp h'
  have hfirst := firstLiteral_prefix (matchesPath_iff.mp hmatches)
  have hfirst' := firstLiteral_prefix (matchesPath_iff.mp hmatches')
  rcases List.prefix_or_prefix_of_prefix hfirst hfirst' with hle | hle
  · exact catalogue_apart e he e' he' hservice hne pattern hpattern pattern' hpattern' hle
  · exact catalogue_apart e' he' e he hservice.symm hne.symm pattern' hpattern' pattern hpattern hle

/-- The target of a path that `assertCapability` accepts has the origin of the base, and its
    pathname and query are the matched ones; the path languages of two capabilities of one service
    are disjoint. -/
theorem path_confined :
    (∀ (elsewhere : List Char → Option Url) (base : Url) (capabilities : List SabclCapability)
      (request : SabclInnerRequest),
      capabilities ⊆ SABCL_CAPABILITIES.map CatalogueEntry.capability →
      assertCapability capabilities request = .ok () →
      ∃ path query target, request.path.toList = path ++ queryText query ∧
        (∀ c ∈ path, c = '/' ∨ isIdChar c = true) ∧
        parse elsewhere base request.path.toList = some target ∧
        loopbackTarget elsewhere base request = .ok target ∧
        target.origin = base.origin ∧ target.pathname = path ∧ target.query = query ∧
        target.fragment = none) ∧
    ∀ e ∈ SABCL_CAPABILITIES, ∀ e' ∈ SABCL_CAPABILITIES, e.service = e'.service → e ≠ e' →
      ∀ path, ¬ (pathAllowed e.capability path = true ∧ pathAllowed e'.capability path = true) := by
  refine ⟨?_, ?_⟩
  · intro elsewhere base capabilities request hcatalogue h
    obtain ⟨capability, hfind, hbelongs, -⟩ := (assertCapability_ok_iff _ _).mp h
    obtain ⟨entry, hentry, rfl⟩ :=
      List.mem_map.mp (hcatalogue (List.mem_of_find?_eq_some hfind))
    obtain ⟨path, query, target, hsplit, hpath, hparse, horigin, hrest⟩ :=
      target_of_pathAllowed elsewhere base hentry hbelongs.path
    refine ⟨path, query, target, hsplit, fun c hc => ?_, hparse, ?_, horigin, hrest⟩
    · have hchar := hpath c hc
      unfold isPathChar at hchar
      simpa only [Bool.or_eq_true, beq_iff_eq] using hchar
    · unfold loopbackTarget
      rw [hparse]
      exact if_neg (not_not.mpr horigin)
  · rintro e he e' he' hservice hne path ⟨h, h'⟩
    rw [pathAllowed_disjoint he he' hservice hne h] at h'
    cases h'

/-- A query for an account's balance. -/
def balanceRequest : SabclInnerRequest where
  op := "ledger.accounts.balance"
  method := .GET
  path := "/internal/customer-accounts/a-1/balance"
  body := none
  actor := none
  correlationId := "c-1"

/-- The base of the Ledger's dispatcher. -/
def ledgerBase : Url where
  scheme := .http
  username := ""
  password := ""
  host := "127.0.0.1"
  port := some 4102
  path := [[]]
  query := none
  fragment := none

/-- The balance query stays on the Ledger's base, and no path is one of both its capabilities. -/
theorem path_confined_balance :
    (∃ target, loopbackTarget (fun _ => none) ledgerBase balanceRequest = .ok target ∧
      target.origin = ledgerBase.origin) ∧
    ∀ path, ¬ (pathAllowed SABCL_CAPABILITIES[1].capability path = true ∧
      pathAllowed SABCL_CAPABILITIES[2].capability path = true) := by
  obtain ⟨hconfined, hdisjoint⟩ := path_confined
  obtain ⟨-, -, target, -, -, -, htarget, horigin, -⟩ := hconfined (fun _ => none) ledgerBase
    (capabilitiesForService "ledger") balanceRequest
    (List.map_subset _ (List.filter_subset_self _)) (by decide)
  exact ⟨⟨target, htarget, horigin⟩, hdisjoint _ (by simp) _ (by simp) rfl (by decide)⟩

end AegisShield.Sabcl
