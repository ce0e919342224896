import Mathlib

/-!
# Prefix codes

Results:
* `prefixFree_of_decode`: what a decoder reads back from the front is prefix-free.
* `flatMap_inj`: codes that are not empty need no mark at the end of a list.
* `prefixFree_flatMap`: a code of the elements and a mark that ends them code the lists.
* `intercalate_inj`: so do elements with a mark between them and another one at the end.
* `told_intercalate`: the same where an element is told only from what starts with a mark, and up
  to a function of it.
-/

namespace AegisShield.Common

variable {α β : Type*}

/-- A text can be told from what follows it. -/
def PrefixFree (f : α → List β) : Prop :=
  ∀ a b rest rest', f a ++ rest = f b ++ rest' → a = b ∧ rest = rest'

theorem prefixFree_of_decode {f : α → List β} {decode : List β → Option (α × List β)}
    (h : ∀ a rest, decode (f a ++ rest) = some (a, rest)) : PrefixFree f := by
  intro a b rest rest' hsame
  have hread := h a rest
  rw [hsame, h b rest', Option.some.injEq, Prod.mk.injEq] at hread
  exact ⟨hread.1.symm, hread.2.symm⟩

/-- Without a mark at the end, no code may be empty. -/
theorem flatMap_inj {f : α → List β} (hf : PrefixFree f) (hne : ∀ a, f a ≠ []) :
    ∀ {as bs : List α}, as.flatMap f = bs.flatMap f → as = bs
  | [], [], _ => rfl
  | [], b :: bs, h => by
    rw [List.flatMap_nil, List.flatMap_cons] at h
    exact absurd (List.append_eq_nil_iff.mp h.symm).1 (hne b)
  | a :: as, [], h => by
    rw [List.flatMap_nil, List.flatMap_cons] at h
    exact absurd (List.append_eq_nil_iff.mp h).1 (hne a)
  | a :: as, b :: bs, h => by
    rw [List.flatMap_cons, List.flatMap_cons] at h
    obtain ⟨rfl, hrest⟩ := hf _ _ _ _ h
    rw [flatMap_inj hf hne hrest]

theorem prefixFree_flatMap {f : α → List β} {stop : β} (hf : PrefixFree f)
    (hstop : ∀ a rest rest', f a ++ rest ≠ stop :: rest') :
    PrefixFree fun as : List α => as.flatMap f ++ [stop] := by
  suffices h : ∀ (as bs : List α) (rest rest' : List β),
      as.flatMap f ++ stop :: rest = bs.flatMap f ++ stop :: rest' → as = bs ∧ rest = rest' by
    intro as bs rest rest' hsame
    refine h as bs rest rest' ?_
    simpa only [List.append_assoc, List.singleton_append] using hsame
  intro as
  induction as with
  | nil =>
    intro bs rest rest' hsame
    cases bs with
    | nil => exact ⟨rfl, List.tail_eq_of_cons_eq hsame⟩
    | cons b bs =>
      rw [List.flatMap_cons, List.append_assoc] at hsame
      exact absurd hsame.symm (hstop b _ _)
  | cons a as ih =>
    intro bs rest rest' hsame
    rw [List.flatMap_cons, List.append_assoc] at hsame
    cases bs with
    | nil => exact absurd hsame (hstop a _ _)
    | cons b bs =>
      rw [List.flatMap_cons, List.append_assoc] at hsame
      obtain ⟨rfl, htail⟩ := hf _ _ _ _ hsame
      obtain ⟨rfl, hrest⟩ := ih _ _ _ htail
      exact ⟨rfl, hrest⟩

/-- Elements with a mark between them and another one at the end code the lists. -/
theorem intercalate_inj {f : α → List β} {sep stop : β} (hf : PrefixFree f)
    (hstop : ∀ a rest rest', f a ++ rest ≠ stop :: rest') (hsep : sep ≠ stop) :
    ∀ as bs : List α, [sep].intercalate (as.map f) ++ [stop] =
      [sep].intercalate (bs.map f) ++ [stop] → as = bs := by
  have hhead : ∀ a as, ∃ rest, [sep].intercalate ((a :: as).map f) ++ [stop] = f a ++ rest ∧
      (as = [] → rest = [stop]) ∧
      (as ≠ [] → rest = sep :: ([sep].intercalate (as.map f) ++ [stop])) := by
    intro a as
    cases as with
    | nil => exact ⟨[stop], by simp, fun _ => rfl, fun h => absurd rfl h⟩
    | cons b as => exact ⟨_, by simp, fun h => (by cases h), fun _ => rfl⟩
  intro as
  induction as with
  | nil =>
    intro bs h
    cases bs with
    | nil => rfl
    | cons b bs =>
      obtain ⟨rest, hrest, -⟩ := hhead b bs
      rw [hrest] at h
      exact absurd h.symm (hstop b _ _)
  | cons a as ih =>
    intro bs h
    obtain ⟨rest, hrest, hlast, hmore⟩ := hhead a as
    rw [hrest] at h
    cases bs with
    | nil => exact absurd h (hstop a _ _)
    | cons b bs =>
      obtain ⟨rest', hrest', hlast', hmore'⟩ := hhead b bs
      rw [hrest'] at h
      obtain ⟨rfl, rfl⟩ := hf _ _ _ _ h
      by_cases has : as = []
      · by_cases hbs : bs = []
        · rw [has, hbs]
        · exact absurd (List.cons.inj ((hlast has).symm.trans (hmore' hbs))).1.symm hsep
      · by_cases hbs : bs = []
        · exact absurd (List.cons.inj ((hmore has).symm.trans (hlast' hbs))).1 hsep
        · rw [ih bs (List.cons.inj ((hmore has).symm.trans (hmore' hbs))).2]

section Told

variable {γ : Type*}

/-- What `g` keeps of an element can be told from what follows its text, if that is something
    that stops it. -/
def Told (stops : List β → Prop) (valid : α → Prop) (f : α → List β) (g : α → γ) (a : α) : Prop :=
  ∀ b rest rest', valid b → stops rest → stops rest' → f a ++ rest = f b ++ rest' →
    g a = g b ∧ rest = rest'

variable {stops : List β → Prop} {valid : α → Prop} {f : α → List β} {g : α → γ} {sep stop : β}

theorem intercalate_cons (f : α → List β) (sep : β) (a : α) (as : List α) :
    [sep].intercalate ((a :: as).map f) = f a ++ as.flatMap fun b => sep :: f b := by
  induction as generalizing a with
  | nil => simp
  | cons b as ih =>
    rw [List.map_cons, List.map_cons, List.intercalate_cons_cons, ← List.map_cons, ih,
      List.flatMap_cons, List.append_assoc]
    rfl

/-- The elements behind the first one, each with the mark in front. -/
theorem told_flatMap (hsep : ∀ rest, stops (sep :: rest)) (hstop : ∀ rest, stops (stop :: rest))
    (hne : sep ≠ stop) {as bs : List α} (has : ∀ a ∈ as, Told stops valid f g a)
    (hbs : ∀ b ∈ bs, valid b) {rest rest' : List β}
    (h : (as.flatMap fun a => sep :: f a) ++ stop :: rest =
      (bs.flatMap fun b => sep :: f b) ++ stop :: rest') : as.map g = bs.map g ∧ rest = rest' := by
  have hstops : ∀ (cs : List α) (rest : List β),
      stops ((cs.flatMap fun c => sep :: f c) ++ stop :: rest) := by
    intro cs rest
    cases cs with
    | nil => exact hstop rest
    | cons c cs => exact hsep _
  induction as generalizing bs with
  | nil =>
    cases bs with
    | nil => exact ⟨rfl, (List.cons.inj h).2⟩
    | cons b bs => exact absurd (List.cons.inj h).1.symm hne
  | cons a as ih =>
    cases bs with
    | nil => exact absurd (List.cons.inj h).1 hne
    | cons b bs =>
      rw [List.forall_mem_cons] at has hbs
      rw [List.flatMap_cons, List.flatMap_cons, List.append_assoc, List.append_assoc] at h
      obtain ⟨hab, hrest⟩ :=
        has.1 b _ _ hbs.1 (hstops as rest) (hstops bs rest') (List.cons.inj h).2
      obtain ⟨hmap, hrest⟩ := ih has.2 hbs.2 hrest
      exact ⟨by rw [List.map_cons, List.map_cons, hab, hmap], hrest⟩

/-- Elements with a mark between them and another one at the end. -/
theorem told_intercalate (hsep : ∀ rest, stops (sep :: rest))
    (hstop : ∀ rest, stops (stop :: rest)) (hne : sep ≠ stop)
    (hopen : ∀ b, valid b → ∀ rest rest', f b ++ rest ≠ stop :: rest') {as bs : List α}
    (has : ∀ a ∈ as, valid a ∧ Told stops valid f g a) (hbs : ∀ b ∈ bs, valid b)
    {rest rest' : List β}
    (h : [sep].intercalate (as.map f) ++ stop :: rest =
      [sep].intercalate (bs.map f) ++ stop :: rest') : as.map g = bs.map g ∧ rest = rest' := by
  cases as with
  | nil =>
    cases bs with
    | nil => exact ⟨rfl, (List.cons.inj h).2⟩
    | cons b bs =>
      rw [intercalate_cons, List.append_assoc] at h
      exact absurd h.symm (hopen b (hbs b List.mem_cons_self) _ _)
  | cons a as =>
    cases bs with
    | nil =>
      rw [intercalate_cons, List.append_assoc] at h
      exact absurd h (hopen a (has a List.mem_cons_self).1 _ _)
    | cons b bs =>
      have hmarked : ((a :: as).flatMap fun c => sep :: f c) ++ stop :: rest =
          ((b :: bs).flatMap fun c => sep :: f c) ++ stop :: rest' := by
        rw [intercalate_cons, intercalate_cons] at h
        exact congrArg (List.cons sep) h
      exact told_flatMap hsep hstop hne (fun c hc => (has c hc).2) hbs hmarked

end Told

end AegisShield.Common
