import Mathlib

/-!
# Cursor pagination

A listing is fetched page by page: each answer holds a page and, when there is more, a cursor to
pass to the next fetch. A fixed list is served in pages of a fixed size; a cursor resumes the list
at some place that is not before its own.

Results:
* `Lists.unique`: following the cursors lists one thing only.
* `lists_iff`: the whole list is listed exactly when every cursor on the way resumes at its own
  place and every page on the way is answered.
* `lists_beyond_iff`: with cursors that are compared with the items, these are the pages that end
  before an item beyond their last one.
-/

namespace AegisShield.Common.Paging

/-- A page, and the cursor to the next one. -/
structure Page (α κ : Type*) where
  items : List α
  next : Option κ
  deriving DecidableEq

variable {α κ ε : Type*}

/-- Following the cursors from a place lists some items and ends. -/
inductive Lists (fetch : Option κ → Except ε (Page α κ)) : Option κ → List α → Prop
  | last {c items} (h : fetch c = .ok ⟨items, none⟩) : Lists fetch c items
  | more {c items rest next} (h : fetch c = .ok ⟨items, some next⟩)
      (hrest : Lists fetch (some next) rest) : Lists fetch c (items ++ rest)

/-- The first `n` items of a list, with a cursor at the last of them when there are more. -/
def page (cursor : α → κ) (n : ℕ) (xs : List α) : Page α κ where
  items := xs.take n
  next := if n < xs.length then (xs.take n).getLast?.map cursor else none

/-- The answers are pages of a list: the first one from its start, and the one that the cursor of
    place `k` gets from place `resume k`. -/
structure Serves (fetch : Option κ → Except ε (Page α κ)) (answer : Page α κ → Except ε (Page α κ))
    (cursor : α → κ) (n : ℕ) (xs : List α) (resume : ℕ → ℕ) : Prop where
  first : fetch none = answer (page cursor n xs)
  next : ∀ k x, 0 < k → k < xs.length → xs[k - 1]? = some x →
    fetch (some (cursor x)) = answer (page cursor n (xs.drop (resume k)))
  forward : ∀ k, 0 < k → k < xs.length → k ≤ resume k
  same : ∀ p q, answer p = .ok q → q = p

section

variable {fetch : Option κ → Except ε (Page α κ)} {answer : Page α κ → Except ε (Page α κ)}
  {cursor : α → κ} {n : ℕ} {xs : List α} {resume : ℕ → ℕ} {c : Option κ} {ys : List α}

/-- Following the cursors lists one thing only. -/
theorem Lists.unique {zs : List α} (hy : Lists fetch c ys) (hz : Lists fetch c zs) : ys = zs := by
  induction hy generalizing zs with
  | last h =>
    cases hz with
    | last h' =>
      rw [h] at h'
      cases h'
      rfl
    | more h' _ =>
      rw [h] at h'
      cases h'
  | more h _ ih =>
    cases hz with
    | last h' =>
      rw [h] at h'
      cases h'
    | more h' hrest =>
      rw [h] at h'
      cases h'
      rw [ih hrest]

theorem Lists.exists_ok (h : Lists fetch c ys) : ∃ p, fetch c = .ok p := by
  cases h with
  | last h => exact ⟨_, h⟩
  | more h _ => exact ⟨_, h⟩

/-- A page with a cursor is full, and its cursor is at its last item. -/
theorem page_next {k : ℕ} {next : κ} (hn : 0 < n) (h : (page cursor n (xs.drop k)).next = some next) :
    k + n < xs.length ∧ (xs.drop k).take n ++ xs.drop (k + n) = xs.drop k ∧
      ∃ x, xs[k + n - 1]? = some x ∧ next = cursor x := by
  unfold page at h
  split_ifs at h with hmore
  rw [List.length_drop] at hmore
  obtain ⟨x, hx, rfl⟩ := Option.map_eq_some_iff.mp h
  refine ⟨by omega, ?_, x, ?_, rfl⟩
  · rw [← List.drop_drop, List.take_append_drop]
  · have hlast : ((xs.drop k).take n).length - 1 = n - 1 := by
      rw [List.length_take, List.length_drop]
      omega
    rw [List.getLast?_eq_getElem?, hlast, List.getElem?_take_of_lt (by omega),
      List.getElem?_drop] at hx
    rw [← hx]
    congr 1
    omega

theorem page_last {k : ℕ} (hn : 0 < n) (h : (page cursor n (xs.drop k)).next = none) :
    xs.length ≤ k + n := by
  unfold page at h
  split_ifs at h with hmore
  · rw [Option.map_eq_none_iff, List.getLast?_eq_none_iff, List.take_eq_nil_iff] at h
    rcases h with h | h
    · omega
    · rw [h] at hmore
      simp at hmore
  · rw [List.length_drop] at hmore
    omega

/-- Every item is on one of the pages. -/
theorem exists_page (cursor : α → κ) {x : α} (hn : 0 < n) (hx : x ∈ xs) :
    ∃ k, n ∣ k ∧ (k = 0 ∨ k < xs.length) ∧ x ∈ (page cursor n (xs.drop k)).items := by
  obtain ⟨i, hi, rfl⟩ := List.getElem_of_mem hx
  have hmod := Nat.mod_lt i hn
  have hdiv := Nat.div_add_mod i n
  refine ⟨n * (i / n), dvd_mul_right _ _, .inr (by omega), ?_⟩
  refine List.mem_of_getElem? (i := i % n) ?_
  show ((xs.drop (n * (i / n))).take n)[i % n]? = _
  rw [List.getElem?_take_of_lt hmod, List.getElem?_drop, hdiv]
  exact List.getElem?_eq_getElem hi

/-- The page before a place has the cursor of the item before it. -/
theorem page_before {k : ℕ} {x : α} (hn : 0 < n) (hdvd : n ∣ k) (hpos : 0 < k)
    (hk : k < xs.length) (hx : xs[k - 1]? = some x) :
    (page cursor n (xs.drop (k - n))).next = some (cursor x) := by
  have hle := Nat.le_of_dvd hpos hdvd
  cases hnext : (page cursor n (xs.drop (k - n))).next with
  | none =>
    have hlast := page_last hn hnext
    omega
  | some next =>
    obtain ⟨-, -, y, hy, rfl⟩ := page_next hn hnext
    rw [Nat.sub_add_cancel hle, hx] at hy
    rw [Option.some.inj hy]

/-- From a place, no more is listed than the rest of the list. -/
theorem Lists.length_le (h : Serves fetch answer cursor n xs resume) (hn : 0 < n)
    (hlists : Lists fetch c ys) {k : ℕ} (hc : fetch c = answer (page cursor n (xs.drop k))) :
    ys.length ≤ xs.length - k := by
  induction hlists generalizing k with
  | @last c items hpage =>
    have hitems : items = (xs.drop k).take n :=
      congrArg Page.items (h.same _ _ (hc.symm.trans hpage))
    rw [hitems, List.length_take, List.length_drop]
    exact Nat.min_le_right _ _
  | @more c items rest next hpage _ ih =>
    have hsame := h.same _ _ (hc.symm.trans hpage)
    have hitems : items = (xs.drop k).take n := congrArg Page.items hsame
    obtain ⟨hlt, -, x, hx, rfl⟩ := page_next hn (congrArg Page.next hsame).symm
    have hrest := ih (h.next (k + n) x (by omega) hlt hx)
    have hforward := h.forward (k + n) (by omega) hlt
    rw [List.length_append, hitems, List.length_take, List.length_drop]
    omega

/-- The rest of the list is listed when the cursors on the way resume at their own places and the
    pages on the way are answered. -/
theorem lists_drop (h : Serves fetch answer cursor n xs resume) (hn : 0 < n) {k : ℕ}
    (hdvd : n ∣ k) (hk : k = 0 ∨ k < xs.length)
    (hall : ∀ j, n ∣ j → (j = 0 ∨ j < xs.length) → (0 < j → resume j = j) ∧
      answer (page cursor n (xs.drop j)) = .ok (page cursor n (xs.drop j)))
    (hc : fetch c = answer (page cursor n (xs.drop k))) : Lists fetch c (xs.drop k) := by
  induction hrest : xs.length - k using Nat.strong_induction_on generalizing k c with
  | _ m ih =>
    have hok := hc.trans (hall k hdvd hk).2
    cases hnext : (page cursor n (xs.drop k)).next with
    | none =>
      have hlast := page_last hn hnext
      have hitems : (page cursor n (xs.drop k)).items = xs.drop k := by
        apply List.take_of_length_le
        rw [List.length_drop]
        omega
      have hpage : page cursor n (xs.drop k) = ⟨xs.drop k, none⟩ :=
        congrArg₂ Page.mk hitems hnext
      exact Lists.last (hok.trans (congrArg Except.ok hpage))
    | some next =>
      obtain ⟨hlt, happend, x, hx, rfl⟩ := page_next hn hnext
      have hplace := (hall (k + n) (hdvd.add dvd_rfl) (.inr hlt)).1 (by omega)
      have hfetch := h.next (k + n) x (by omega) hlt hx
      rw [hplace] at hfetch
      have hlists := ih (xs.length - (k + n)) (by omega) (hdvd.add dvd_rfl) (.inr hlt) hfetch rfl
      rw [← happend]
      apply Lists.more _ hlists
      rw [hok, ← hnext]
      rfl

/-- The next multiple. -/
theorem add_le_of_dvd {j k : ℕ} (hk : n ∣ k) (hj : n ∣ j) (hle : k ≤ j) (hne : k ≠ j) :
    k + n ≤ j := by
  have hdvd : n ∣ j - k := Nat.dvd_sub hj hk
  have hstep := Nat.le_of_dvd (by omega) hdvd
  omega

/-- When the rest of the list is listed, the cursors on the way resume at their own places and the
    pages on the way are answered. -/
theorem answered_of_lists (h : Serves fetch answer cursor n xs resume) (hn : 0 < n) {k : ℕ}
    (hdvd : n ∣ k) (hlists : Lists fetch c ys) (hys : ys = xs.drop k)
    (hc : fetch c = answer (page cursor n (xs.drop k))) :
    ∀ j, n ∣ j → k ≤ j → (j = k ∨ j < xs.length) → (k < j → resume j = j) ∧
      answer (page cursor n (xs.drop j)) = .ok (page cursor n (xs.drop j)) := by
  induction hlists generalizing k with
  | @last c items hpage =>
    have hsame := h.same _ _ (hc.symm.trans hpage)
    have hlast := page_last hn (congrArg Page.next hsame).symm
    intro j hj hkj hend
    obtain rfl : j = k := by
      by_contra hne
      have hstep := add_le_of_dvd hdvd hj hkj (Ne.symm hne)
      omega
    refine ⟨fun hlt => absurd hlt (Nat.lt_irrefl _), ?_⟩
    rw [← hc, hpage, hsame]
  | @more c items rest next hpage hrest ih =>
    have hsame := h.same _ _ (hc.symm.trans hpage)
    have hitems : items = (xs.drop k).take n := congrArg Page.items hsame
    obtain ⟨hlt, happend, x, hx, rfl⟩ := page_next hn (congrArg Page.next hsame).symm
    have hfetch := h.next (k + n) x (by omega) hlt hx
    have hdrop : rest = xs.drop (k + n) := by
      rw [← happend, hitems] at hys
      exact List.append_cancel_left hys
    -- what is listed from the next cursor on is as long as the rest of the list
    have hlength := Lists.length_le h hn hrest hfetch
    have hforward := h.forward (k + n) (by omega) hlt
    rw [hdrop, List.length_drop] at hlength
    have hplace : resume (k + n) = k + n := by omega
    rw [hplace] at hfetch
    have hlater := ih (hdvd.add dvd_rfl) hdrop hfetch
    intro j hj hkj hend
    by_cases hfirst : j = k
    · subst hfirst
      refine ⟨fun hlt => absurd hlt (Nat.lt_irrefl _), ?_⟩
      rw [← hc, hpage, hsame]
    · have hnext := add_le_of_dvd hdvd hj hkj (Ne.symm hfirst)
      obtain ⟨hresume, hanswer⟩ := hlater j hj hnext (.inr (hend.resolve_left hfirst))
      refine ⟨fun _ => ?_, hanswer⟩
      by_cases heq : j = k + n
      · rw [heq, hplace]
      · exact hresume (by omega)

/-- When every cursor resumes at its own place, nothing but the rest of the list is listed from a
    place. -/
theorem Lists.eq_drop (h : Serves fetch answer cursor n xs resume) (hn : 0 < n)
    (hplace : ∀ k, 0 < k → k < xs.length → resume k = k) (hlists : Lists fetch c ys) {k : ℕ}
    (hc : fetch c = answer (page cursor n (xs.drop k))) : ys = xs.drop k := by
  induction hlists generalizing k with
  | @last c items hpage =>
    have hsame := h.same _ _ (hc.symm.trans hpage)
    have hlast := page_last hn (congrArg Page.next hsame).symm
    have hitems : items = (xs.drop k).take n := congrArg Page.items hsame
    rw [hitems, List.take_of_length_le]
    rw [List.length_drop]
    omega
  | @more c items rest next hpage _ ih =>
    have hsame := h.same _ _ (hc.symm.trans hpage)
    have hitems : items = (xs.drop k).take n := congrArg Page.items hsame
    obtain ⟨hlt, happend, x, hx, rfl⟩ := page_next hn (congrArg Page.next hsame).symm
    have hfetch := h.next (k + n) x (by omega) hlt hx
    rw [hplace (k + n) (by omega) hlt] at hfetch
    rw [ih hfetch, hitems, happend]

/-- The whole list is listed exactly when every cursor on the way resumes at its own place and
    every page on the way is answered. -/
theorem lists_iff (h : Serves fetch answer cursor n xs resume) (hn : 0 < n) :
    Lists fetch none xs ↔ ∀ k, n ∣ k → (k = 0 ∨ k < xs.length) → (0 < k → resume k = k) ∧
      answer (page cursor n (xs.drop k)) = .ok (page cursor n (xs.drop k)) := by
  constructor
  · intro hlists k hk hend
    exact answered_of_lists h hn (dvd_zero n) hlists rfl h.first k hk (Nat.zero_le k) hend
  · intro hall
    exact lists_drop h hn (dvd_zero n) (.inl rfl) hall h.first

end

/-- One item more than a page holds tells whether there are more. -/
theorem page_take (cursor : α → κ) (n : ℕ) (xs : List α) :
    page cursor n (xs.take (n + 1)) = page cursor n xs := by
  have hmore : n < (xs.take (n + 1)).length ↔ n < xs.length := by
    rw [List.length_take]
    omega
  have hitems : (xs.take (n + 1)).take n = xs.take n := by
    rw [List.take_take, Nat.min_eq_left (Nat.le_succ n)]
  unfold page
  simp only [hmore, hitems]

theorem page_map {β : Type*} (f : β → α) (cursor : α → κ) (n : ℕ) (xs : List β) :
    page cursor n (xs.map f) =
      ⟨(xs.take n).map f, if n < xs.length then (xs.take n).getLast?.map (cursor ∘ f) else none⟩ := by
  unfold page
  rw [List.length_map, ← List.map_take, List.getLast?_map, Option.map_map]

/-- The page from a place, when the length of the page tells whether there are more. -/
theorem page_from (cursor : α → κ) (n : ℕ) (xs : List α) (start : ℕ) :
    Page.mk ((xs.drop start).take n) (((xs.drop start).take n).getLast?.bind fun tail =>
      if start + ((xs.drop start).take n).length < xs.length then some (cursor tail) else none) =
    page cursor n (xs.drop start) := by
  have hmore : start + ((xs.drop start).take n).length < xs.length ↔ n < (xs.drop start).length := by
    rw [List.length_take, List.length_drop]
    omega
  unfold page
  simp only [hmore]
  split_ifs
  · rw [Option.map_eq_bind]
    rfl
  · rw [Option.bind_fun_none]

/-! ## Cursors that are compared with the items -/

section Compared

variable {beyond : α → α → Bool} {xs : List α} {k : ℕ} {x : α}

/-- A list in the order of a comparison: no item is beyond a later one or itself, and what an item
    is beyond, the later ones are. -/
structure Descends (beyond : α → α → Bool) (xs : List α) : Prop where
  irrefl : ∀ x ∈ xs, beyond x x = false
  behind : xs.Pairwise fun a b => beyond b a = false
  ahead : xs.Pairwise fun a b => ∀ x, beyond x a = true → beyond x b = true

/-- The place of the first item that is beyond the one before place `k`. -/
def resumeBeyond (beyond : α → α → Bool) (xs : List α) (k : ℕ) : ℕ :=
  match xs[k - 1]? with
  | none => k
  | some x => xs.findIdx (beyond x)

theorem resumeBeyond_eq (hx : xs[k - 1]? = some x) :
    resumeBeyond beyond xs k = xs.findIdx (beyond x) := by
  unfold resumeBeyond
  rw [hx]

section Sorting

variable {r : α → α → Prop} [DecidableRel r] {p : α → Bool} {a : α}

/-- What is before all items is inserted before them. -/
theorem orderedInsert_of_forall (h : ∀ b ∈ xs, r a b) : xs.orderedInsert r a = a :: xs := by
  cases xs with
  | nil => rfl
  | cons x xs => exact List.orderedInsert_cons_of_le r xs (h x List.mem_cons_self)

/-- An item that passes a test is inserted among the others that pass it. -/
theorem filter_orderedInsert [IsTrans α r] (ha : p a = true) (h : xs.Pairwise r) :
    (xs.orderedInsert r a).filter p = (xs.filter p).orderedInsert r a := by
  induction xs with
  | nil => simp [ha]
  | cons x xs ih =>
    obtain ⟨hx, hrest⟩ := List.pairwise_cons.mp h
    by_cases hax : r a x
    · have hall : ∀ b ∈ (x :: xs).filter p, r a b := by
        intro b hb
        rcases List.mem_cons.mp (List.mem_of_mem_filter hb) with rfl | hb
        · exact hax
        · exact IsTrans.trans _ _ _ hax (hx b hb)
      rw [List.orderedInsert_cons_of_le r _ hax, List.filter_cons_of_pos ha,
        orderedInsert_of_forall hall]
    · rw [List.orderedInsert_of_not_le r _ hax]
      by_cases hpx : p x = true
      · rw [List.filter_cons_of_pos hpx, List.filter_cons_of_pos hpx, ih hrest,
          List.orderedInsert_of_not_le r _ hax]
      · rw [List.filter_cons_of_neg hpx, List.filter_cons_of_neg hpx, ih hrest]

theorem filter_orderedInsert_of_not (ha : p a = false) :
    (xs.orderedInsert r a).filter p = xs.filter p := by
  induction xs with
  | nil => simp [ha]
  | cons x xs ih =>
    rw [List.orderedInsert_cons]
    split_ifs
    · simp [ha]
    · simp only [List.filter_cons, ih]

/-- To sort the items that pass a test is to sort all items and keep these. -/
theorem insertionSort_filter [Std.Total r] [IsTrans α r] (p : α → Bool) (xs : List α) :
    (xs.filter p).insertionSort r = (xs.insertionSort r).filter p := by
  induction xs with
  | nil => rfl
  | cons x xs ih =>
    rw [List.insertionSort_cons]
    by_cases hpx : p x = true
    · rw [List.filter_cons_of_pos hpx, List.insertionSort_cons, ih,
        filter_orderedInsert hpx (List.pairwise_insertionSort r xs)]
    · rw [List.filter_cons_of_neg hpx, ih, filter_orderedInsert_of_not (by simpa using hpx)]

end Sorting

/-- What is beyond an item is the list from a place on. -/
theorem filter_eq_drop {p : α → Bool} (h : xs.Pairwise fun a b => p a = true → p b = true) :
    xs.filter p = xs.drop (xs.findIdx p) := by
  induction xs with
  | nil => rfl
  | cons x xs ih =>
    obtain ⟨hx, hrest⟩ := List.pairwise_cons.mp h
    rw [List.findIdx_cons]
    cases hp : p x with
    | true =>
      have hall : ∀ y ∈ x :: xs, p y = true := by
        intro y hy
        rcases List.mem_cons.mp hy with rfl | hy
        · exact hp
        · exact hx y hy hp
      exact List.filter_eq_self.mpr hall
    | false =>
      rw [List.filter_cons_of_neg (by simp [hp]), ih hrest]
      rfl

theorem filter_beyond (h : Descends beyond xs) (hx : xs[k - 1]? = some x) :
    xs.filter (beyond x) = xs.drop (resumeBeyond beyond xs k) := by
  rw [resumeBeyond_eq hx]
  exact filter_eq_drop (h.ahead.imp fun hab => hab x)

/-- Nothing before its own place is beyond a cursor. -/
theorem not_beyond (h : Descends beyond xs) (hx : xs[k - 1]? = some x) {j : ℕ} (hj : j < k)
    (hlt : j < xs.length) : beyond x xs[j] = false := by
  obtain ⟨hk, rfl⟩ := List.getElem?_eq_some_iff.mp hx
  by_cases heq : j = k - 1
  · subst heq
    exact h.irrefl _ (List.getElem_mem hk)
  · exact List.pairwise_iff_getElem.mp h.behind j (k - 1) hlt hk (by omega)

theorem le_resumeBeyond (h : Descends beyond xs) (hk : k < xs.length) :
    k ≤ resumeBeyond beyond xs k := by
  have hx : xs[k - 1]? = some xs[k - 1] := List.getElem?_eq_getElem (by omega)
  rw [resumeBeyond_eq hx]
  by_contra hlt
  have hend : xs.findIdx (beyond xs[k - 1]) < xs.length := by omega
  have hfound : beyond xs[k - 1] xs[xs.findIdx (beyond xs[k - 1])] = true :=
    List.findIdx_getElem
  rw [not_beyond h hx (by omega)] at hfound
  cases hfound

/-- A cursor resumes at its own place exactly when the next item is beyond it. -/
theorem resumeBeyond_eq_iff (h : Descends beyond xs) (hk : k < xs.length) :
    resumeBeyond beyond xs k = k ↔
      ∀ x y, xs[k - 1]? = some x → xs[k]? = some y → beyond x y = true := by
  have hx : xs[k - 1]? = some xs[k - 1] := List.getElem?_eq_getElem (by omega)
  constructor
  · intro hplace x y hx' hy
    obtain ⟨hlt, rfl⟩ := List.getElem?_eq_some_iff.mp hy
    rw [resumeBeyond_eq hx'] at hplace
    have hend : xs.findIdx (beyond x) < xs.length := hplace.symm ▸ hlt
    have hfound : beyond x xs[xs.findIdx (beyond x)] = true := List.findIdx_getElem
    simpa only [hplace] using hfound
  · intro hnext
    have hle := le_resumeBeyond h hk
    have hbeyond := hnext _ _ hx (List.getElem?_eq_getElem hk)
    rw [resumeBeyond_eq hx] at hle ⊢
    have hge : xs.findIdx (beyond xs[k - 1]) ≤ k := by
      by_contra hlt
      have hbefore : k < xs.findIdx (beyond xs[k - 1]) := by omega
      rw [List.not_of_lt_findIdx hbefore] at hbeyond
      cases hbeyond
    omega

/-- A cursor that is compared with the items serves the list. -/
theorem serves_beyond {fetch : Option κ → Except ε (Page α κ)}
    {answer : Page α κ → Except ε (Page α κ)} {cursor : α → κ} {n : ℕ} (h : Descends beyond xs)
    (hfirst : fetch none = answer (page cursor n xs))
    (hnext : ∀ x ∈ xs, fetch (some (cursor x)) = answer (page cursor n (xs.filter (beyond x))))
    (hsame : ∀ p q, answer p = .ok q → q = p) :
    Serves fetch answer cursor n xs (resumeBeyond beyond xs) where
  first := hfirst
  next k x _ _ hx := by rw [hnext x (List.mem_of_getElem? hx), filter_beyond h hx]
  forward _ _ hk := le_resumeBeyond h hk
  same := hsame

/-- With cursors that are compared with the items, the whole list is listed exactly when every
    page ends before an item beyond its last one and every page on the way is answered. -/
theorem lists_beyond_iff {fetch : Option κ → Except ε (Page α κ)}
    {answer : Page α κ → Except ε (Page α κ)} {cursor : α → κ} {n : ℕ} (h : Descends beyond xs)
    (hserves : Serves fetch answer cursor n xs (resumeBeyond beyond xs)) (hn : 0 < n) :
    Lists fetch none xs ↔
      (∀ k x y, n ∣ k → 0 < k → xs[k - 1]? = some x → xs[k]? = some y → beyond x y = true) ∧
      ∀ k, n ∣ k → (k = 0 ∨ k < xs.length) →
        answer (page cursor n (xs.drop k)) = .ok (page cursor n (xs.drop k)) := by
  rw [lists_iff hserves hn]
  constructor
  · intro hall
    refine ⟨fun k x y hk hpos hx hy => ?_, fun k hk hend => (hall k hk hend).2⟩
    obtain ⟨hlt, -⟩ := List.getElem?_eq_some_iff.mp hy
    exact (resumeBeyond_eq_iff h hlt).mp ((hall k hk (.inr hlt)).1 hpos) x y hx hy
  · rintro ⟨hbeyond, hanswer⟩ k hk hend
    refine ⟨fun hpos => ?_, hanswer k hk hend⟩
    have hlt : k < xs.length := hend.resolve_left (by omega)
    exact (resumeBeyond_eq_iff h hlt).mpr fun x y => hbeyond k x y hk hpos

end Compared

end AegisShield.Common.Paging
