import Mathlib

/-!
# Routes and path segments

The matching of a router (literal segments without regard to ASCII case, parameters that are not
empty, one optional slash at the end), and the segments that are left when a path is cut at its
slashes and the empty ones are dropped.

Results:
* `pathMatches_segments`: the segments of a path that a route matches are what it matched.
* `pathMatches_literal`: at a literal, the path has that literal in some case.
-/

namespace AegisShield.Common

/-- The segments of a route, `none` for a parameter. -/
abbrev RoutePath := List (Option String)

/-- The letters of a segment in lower case. -/
def lowered (segment : List Char) : List Char := segment.map Char.toLower

/-- A literal matches a segment in any case, and a parameter one that is not empty. -/
def segmentMatches : Option String → List Char → Bool
  | some text, segment => decide (lowered segment = lowered text.toList)
  | none, segment => !segment.isEmpty

/-- The pieces are matched one by one. -/
def piecesMatch : RoutePath → List (List Char) → Bool
  | [], [] => true
  | part :: route, piece :: pieces => segmentMatches part piece && piecesMatch route pieces
  | _, _ => false

/-- The route matches the path, with or without a slash at its end. -/
def pathMatches (route : RoutePath) (path : List Char) : Bool :=
  match path.splitOn '/' with
  | [] :: pieces =>
    piecesMatch route pieces ||
      (decide (pieces.getLast? = some []) && piecesMatch route pieces.dropLast)
  | _ => false

/-- `path.split('/').filter(Boolean)`. -/
def segments (path : List Char) : List (List Char) :=
  (path.splitOn '/').filter fun piece => !piece.isEmpty

@[simp] theorem lowered_nil : lowered [] = [] := rfl

theorem lowered_eq_nil {segment : List Char} : lowered segment = [] ↔ segment = [] :=
  List.map_eq_nil_iff

/-- No literal of the route is empty. -/
def NonemptyLiterals (route : RoutePath) : Prop := some "" ∉ route

section Matching

variable {route : RoutePath} {pieces : List (List Char)} {path : List Char}

theorem segmentMatches_ne_nil {part : Option String} {piece : List Char}
    (h : segmentMatches part piece = true) (hpart : part ≠ some "") : piece ≠ [] := by
  rintro rfl
  cases part with
  | none => cases h
  | some text =>
    have htext : lowered text.toList = [] := (of_decide_eq_true h).symm
    have hempty : text = "" := String.toList_eq_nil_iff.mp (lowered_eq_nil.mp htext)
    exact hpart (by rw [hempty])

theorem piecesMatch_ne_nil (h : piecesMatch route pieces = true) (hroute : NonemptyLiterals route) :
    ∀ piece ∈ pieces, piece ≠ [] := by
  induction route generalizing pieces with
  | nil =>
    cases pieces with
    | nil => simp
    | cons piece pieces => cases h
  | cons part route ih =>
    cases pieces with
    | nil => simp
    | cons piece pieces =>
      obtain ⟨hpiece, hpieces⟩ := Bool.and_eq_true_iff.mp h
      have hparts := List.mem_cons.not.mp hroute
      intro other hother
      rcases List.mem_cons.mp hother with rfl | hother
      · exact segmentMatches_ne_nil hpiece fun heq => hparts (.inl heq.symm)
      · exact ih hpieces (fun hmem => hparts (.inr hmem)) other hother

/-- The segments of a path that a route matches are the pieces that it matched. -/
theorem pathMatches_segments (h : pathMatches route path = true) (hroute : NonemptyLiterals route) :
    piecesMatch route (segments path) = true := by
  have hfilter : ∀ {pieces : List (List Char)}, piecesMatch route pieces = true →
      pieces.filter (fun piece => !piece.isEmpty) = pieces := by
    intro pieces hpieces
    refine List.filter_eq_self.mpr fun piece hpiece => ?_
    simpa using piecesMatch_ne_nil hpieces hroute piece hpiece
  unfold pathMatches at h
  unfold segments
  split at h
  next pieces hsplit =>
    rw [hsplit]
    rcases (Bool.or_eq_true _ _).mp h with h | h
    · simpa [hfilter h] using h
    · obtain ⟨hlast, hpieces⟩ := Bool.and_eq_true_iff.mp h
      obtain ⟨front, rfl⟩ := List.getLast?_eq_some_iff.mp (of_decide_eq_true hlast)
      rw [List.dropLast_concat] at hpieces
      simpa [hfilter hpieces] using hpieces
  · cases h

theorem piecesMatch_literal {text : String} {i : ℕ} (h : piecesMatch route pieces = true)
    (htext : route[i]? = some (some text)) :
    ∃ piece, pieces[i]? = some piece ∧ lowered piece = lowered text.toList := by
  induction route generalizing pieces i with
  | nil => simp at htext
  | cons part route ih =>
    cases pieces with
    | nil => cases h
    | cons piece pieces =>
      obtain ⟨hpiece, hpieces⟩ := Bool.and_eq_true_iff.mp h
      cases i with
      | zero =>
        have hpart : part = some text := by simpa using htext
        subst hpart
        exact ⟨piece, rfl, of_decide_eq_true hpiece⟩
      | succ i => simpa using ih hpieces (by simpa using htext)

/-- At a literal of the route, the path has that literal in some case. -/
theorem pathMatches_literal {text : String} {i : ℕ} (h : pathMatches route path = true)
    (hroute : NonemptyLiterals route) (htext : route[i]? = some (some text)) :
    ∃ segment, (segments path)[i]? = some segment ∧ lowered segment = lowered text.toList :=
  piecesMatch_literal (pathMatches_segments h hroute) htext

end Matching

end AegisShield.Common
