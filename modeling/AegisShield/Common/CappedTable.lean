import AegisShield.Common.Table

/-!
# Capped tables

A map in the order in which its keys were first set, which is swept when it has more entries than
it may have: a sweep goes through the entries in that order and drops those that are dead, and
any entry as long as there are too many.

Results:
* `Table.length_store_le`: the cap holds.
* `Table.find_store_ne_of_some`: nothing is found that was not there.
* `Table.find_store_of_live`: a live entry is dropped only by a new key in a full table.
* `Table.rows_store_of_room`, `Table.rows_store_of_full`: what a new key does to the table.
-/

namespace AegisShield.Common

/-- A sweep over the entries, `size` of which are in the map when it gets to the first one. -/
def sweepRows {ρ : Type*} (dead : ρ → Bool) (cap : ℕ) : ℕ → List ρ → List ρ
  | _, [] => []
  | size, row :: rows =>
    if dead row || decide (cap < size) then sweepRows dead cap (size - 1) rows
    else row :: sweepRows dead cap size rows

section Sweep

variable {ρ : Type*} {dead : ρ → Bool} {cap size : ℕ} {rows : List ρ}

theorem sweepRows_sublist : (sweepRows dead cap size rows).Sublist rows := by
  induction rows generalizing size with
  | nil => exact List.Sublist.refl _
  | cons row rows ih =>
    rw [sweepRows]
    split
    · exact ih.cons _
    · exact ih.cons_cons _

/-- The entries that are kept are at most as many as the cap leaves room for. -/
theorem length_sweepRows_le (hrows : rows.length ≤ size) (hsize : size ≤ cap + rows.length) :
    (sweepRows dead cap size rows).length + size ≤ cap + rows.length := by
  induction rows generalizing size with
  | nil => simpa [sweepRows] using hsize
  | cons row rows ih =>
    rw [List.length_cons] at hrows hsize ⊢
    rw [sweepRows]
    split
    · have h : (sweepRows dead cap (size - 1) rows).length + (size - 1) ≤ cap + rows.length :=
        ih (by omega) (by omega)
      omega
    next h =>
      simp only [Bool.or_eq_true, decide_eq_true_eq, not_or] at h
      have hkept : (sweepRows dead cap size rows).length + size ≤ cap + rows.length :=
        ih (by omega) (by omega)
      rw [List.length_cons]
      omega

/-- Without too many entries, a sweep drops the dead ones. -/
theorem sweepRows_of_le (h : size ≤ cap) :
    sweepRows dead cap size rows = rows.filter fun row => !dead row := by
  induction rows generalizing size with
  | nil => rfl
  | cons row rows ih =>
    rw [sweepRows]
    by_cases hdead : dead row = true
    · rw [if_pos (by rw [hdead]; rfl), ih (by omega), List.filter_cons_of_neg (by simp [hdead])]
    · have hkept : ¬ (dead row || decide (cap < size)) = true := by
        simp only [Bool.not_eq_true] at hdead
        simpa [hdead] using h
      rw [if_neg hkept, ih h, List.filter_cons_of_pos (by simpa using hdead)]

/-- With one entry too many, a sweep drops the first one and those that are dead. -/
theorem sweepRows_of_over (row : ρ) :
    sweepRows dead cap (cap + 1) (row :: rows) = rows.filter fun row => !dead row := by
  rw [sweepRows, if_pos (by simp), Nat.add_sub_cancel, sweepRows_of_le le_rfl]

end Sweep

namespace Table

variable {ρ κ : Type*} [Keyed ρ κ]

/-- The sweep of a table with more than `cap` entries. -/
def sweep (dead : ρ → Bool) (cap : ℕ) (t : Table ρ) : Table ρ :=
  if cap < t.rows.length then
    ⟨sweepRows dead cap t.rows.length t.rows, t.nodup_keys.sublist (sweepRows_sublist.map _)⟩
  else t

section Sweeping

variable {t : Table ρ} {x : ρ} {dead : ρ → Bool} {cap : ℕ}

theorem length_sweep_le : (t.sweep dead cap).rows.length ≤ cap := by
  unfold sweep
  split
  · have h : (sweepRows dead cap t.rows.length t.rows).length + t.rows.length ≤
        cap + t.rows.length := length_sweepRows_le le_rfl (by omega)
    dsimp only
    omega
  · omega

theorem mem_of_mem_sweep (h : x ∈ (t.sweep dead cap).rows) : x ∈ t.rows := by
  unfold sweep at h
  split at h
  · exact sweepRows_sublist.subset h
  · exact h

theorem rows_sweep_of_over {row : ρ} {rows : List ρ} (h : t.rows = row :: rows)
    (hlength : rows.length = cap) :
    (t.sweep dead cap).rows = rows.filter fun row => !dead row := by
  have hrows : t.rows.length = cap + 1 := by rw [h, List.length_cons, hlength]
  rw [sweep, if_pos (by omega)]
  dsimp only
  rw [hrows, h, sweepRows_of_over]

theorem sweep_of_le (h : t.rows.length ≤ cap) : t.sweep dead cap = t := if_neg (by omega)

end Sweeping

variable [DecidableEq κ]

/-- The entry of a key is replaced where it stands, or added at the end. -/
def set (t : Table ρ) (r : ρ) : Table ρ := if (t.find (key r)).isSome then t.put r else t.add r

/-- The entry is set, and the table swept. -/
def store (dead : ρ → Bool) (cap : ℕ) (t : Table ρ) (r : ρ) : Table ρ := (t.set r).sweep dead cap

variable {t : Table ρ} {r x : ρ} {k : κ} {dead : ρ → Bool} {cap : ℕ}

/-! ## Setting an entry -/

theorem find_set : (t.set r).find k = if key r = k then some r else t.find k := by
  unfold set
  split
  next h =>
    obtain ⟨x, hx⟩ := Option.isSome_iff_exists.mp h
    exact find_put hx
  next h =>
    exact find_add (by simpa using h)

theorem rows_set_of_none (h : t.find (key r) = none) : (t.set r).rows = t.rows ++ [r] := by
  rw [set, if_neg (by simp [h]), rows_add h]

theorem length_set_of_some (h : t.find (key r) = some x) :
    (t.set r).rows.length = t.rows.length := by
  rw [set, if_pos (by simp [h]), put, List.length_map]

variable {u : Table ρ} {f : ρ → ρ}

/-- Changing the entries of a map and setting a changed entry is changing the entries of the map
    in which the entry is set. -/
theorem rows_set_map (hf : ∀ r, key (f r) = key r)
    (h : u.rows = t.rows.map f) : (u.set (f r)).rows = (t.set r).rows.map f := by
  have hkeys : u.rows.map key = t.rows.map key := by
    rw [h, List.map_map]
    exact List.map_congr_left fun x _ => hf x
  cases hfind : t.find (key r) with
  | none =>
    have hnone : u.find (key (f r)) = none := by
      rw [find_eq_none, hkeys, hf]
      exact find_eq_none.mp hfind
    rw [rows_set_of_none hnone, rows_set_of_none hfind, h, List.map_append, List.map_singleton]
  | some x =>
    have hsome : (u.find (key (f r))).isSome = true := by
      rw [Option.isSome_iff_ne_none, ne_eq, find_eq_none, hkeys, hf, ← find_eq_none, hfind]
      exact Option.some_ne_none x
    rw [set, if_pos hsome, set, if_pos (by rw [hfind]; rfl), put, put]
    dsimp only
    rw [h, List.map_map, List.map_map]
    refine List.map_congr_left fun y _ => ?_
    simp only [Function.comp_apply, hf]
    by_cases hy : key y = key r
    · rw [if_pos hy, if_pos hy]
    · rw [if_neg hy, if_neg hy]

theorem find_of_rows_map (hf : ∀ r, key (f r) = key r)
    (h : u.rows = t.rows.map f) : u.find k = (t.find k).map f := by
  unfold find
  rw [h, List.find?_map]
  congr 2
  funext x
  simp only [Function.comp_apply, hf]

/-! ## Storing an entry -/

/-- The cap holds. -/
theorem length_store_le : (t.store dead cap r).rows.length ≤ cap := length_sweep_le

theorem find_set_of_store (h : (t.store dead cap r).find k = some x) :
    (t.set r).find k = some x := by
  obtain ⟨hmem, hkey⟩ := find_some h
  exact find_eq_some.mpr ⟨mem_of_mem_sweep hmem, hkey⟩

theorem find_store_self (h : (t.store dead cap r).find (key r) = some x) : x = r := by
  have hset := find_set_of_store h
  rw [find_set, if_pos rfl] at hset
  exact (Option.some.inj hset).symm

/-- Nothing is found under another key that was not there. -/
theorem find_store_ne_of_some (hk : key r ≠ k) (h : (t.store dead cap r).find k = some x) :
    t.find k = some x := by
  have hset := find_set_of_store h
  rwa [find_set, if_neg hk] at hset

/-- An entry that replaces another one drops nothing. -/
theorem store_of_some (hcap : t.rows.length ≤ cap) (h : t.find (key r) = some x) :
    t.store dead cap r = t.set r :=
  sweep_of_le (by rw [length_set_of_some h]; exact hcap)

theorem rows_store_of_room (h : t.find (key r) = none) (hroom : t.rows.length < cap) :
    (t.store dead cap r).rows = t.rows ++ [r] := by
  have hrows := rows_set_of_none h
  rw [store, sweep_of_le, hrows]
  rw [hrows, List.length_append, List.length_singleton]
  exact hroom

/-- A new key in a full table drops the first entry and the dead ones. -/
theorem rows_store_of_full {row : ρ} {rows : List ρ} (h : t.find (key r) = none)
    (hrows : t.rows = row :: rows) (hfull : t.rows.length = cap) :
    (t.store dead cap r).rows = (rows ++ [r]).filter fun row => !dead row := by
  have hset : (t.set r).rows = row :: (rows ++ [r]) := by
    rw [rows_set_of_none h, hrows, List.cons_append]
  refine rows_sweep_of_over hset ?_
  rw [← hfull, hrows]
  simp

/-- A live entry is dropped only by a new key in a full table, and only where it is the first. -/
theorem find_store_of_live (hcap : t.rows.length ≤ cap) (hk : key r ≠ k)
    (h : t.find k = some x) (hlive : dead x = false) :
    (t.store dead cap r).find k = some x ∨
      (t.rows.length = cap ∧ t.find (key r) = none ∧ t.rows.head? = some x) := by
  obtain ⟨hmem, hkey⟩ := find_some h
  cases hfind : t.find (key r) with
  | some y =>
    left
    rw [store_of_some hcap hfind, find_set, if_neg hk, h]
  | none =>
    rcases Nat.lt_or_eq_of_le hcap with hroom | hfull
    · left
      rw [find_eq_some, rows_store_of_room hfind hroom]
      exact ⟨List.mem_append_left _ hmem, hkey⟩
    · cases hrows : t.rows with
      | nil => rw [hrows] at hmem; cases hmem
      | cons row rows =>
        rw [hrows] at hmem
        rcases List.mem_cons.mp hmem with rfl | hmem
        · exact .inr ⟨by rw [← hrows, hfull], rfl, rfl⟩
        · left
          rw [find_eq_some, rows_store_of_full hfind hrows hfull]
          exact ⟨List.mem_filter.mpr ⟨List.mem_append_left _ hmem, by rw [hlive]; rfl⟩, hkey⟩

end Table

end AegisShield.Common
