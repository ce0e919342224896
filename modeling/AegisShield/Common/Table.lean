import Mathlib

/-!
# Tables with a primary key

The rows of a database table in insertion order. A `Table` carries the proof that
no two rows have one key, so what the primary-key constraint of the database
excludes cannot be built.

Results:
* `Table.find_insert`: what a lookup finds after an insertion.
* `Table.find_put`: what a lookup finds after an update.
* `Table.sum_put`: what an update does to a sum over the rows.
-/

namespace AegisShield.Common

/-- A type of rows with a primary key. -/
class Keyed (ρ : Type*) (κ : outParam (Type*)) where
  /-- The primary key of a row. -/
  key : ρ → κ

export Keyed (key)

/-- The rows of a table, no two with the same key. -/
structure Table (ρ : Type*) {κ : Type*} [Keyed ρ κ] where
  rows : List ρ
  nodup_keys : (rows.map key).Nodup

namespace Table

variable {ρ κ : Type*} [Keyed ρ κ]

/-- The table without rows. -/
def empty : Table ρ := ⟨[], List.nodup_nil⟩

variable [DecidableEq κ]

/-- `SELECT … WHERE key = k`. -/
def find (t : Table ρ) (k : κ) : Option ρ := t.rows.find? fun r => decide (key r = k)

/-- `INSERT`, refused when the key is taken. -/
def insert (t : Table ρ) (r : ρ) : Option (Table ρ) :=
  if h : key r ∈ t.rows.map key then none
  else some ⟨t.rows ++ [r], by
    rw [List.map_append, List.nodup_append]
    refine ⟨t.nodup_keys, List.nodup_singleton _, fun a ha b hb hab => ?_⟩
    rw [List.mem_singleton.mp hb] at hab
    exact h (hab ▸ ha)⟩

theorem map_key_replace (rows : List ρ) (r : ρ) :
    (rows.map fun x => if key x = key r then r else x).map key = rows.map key := by
  rw [List.map_map]
  refine List.map_congr_left fun x _ => ?_
  by_cases h : key x = key r <;> simp [h]

/-- `UPDATE … WHERE key = key r` to the column values of `r`. -/
def put (t : Table ρ) (r : ρ) : Table ρ :=
  ⟨t.rows.map fun x => if key x = key r then r else x, by
    rw [map_key_replace]
    exact t.nodup_keys⟩

variable {t u : Table ρ} {r x : ρ} {k : κ}

@[simp] theorem find_empty : (empty : Table ρ).find k = none := rfl

theorem find_some (h : t.find k = some r) : r ∈ t.rows ∧ key r = k :=
  ⟨List.mem_of_find?_eq_some h, by simpa using List.find?_some h⟩

theorem key_of_find (h : t.find k = some r) : key r = k := (find_some h).2

theorem find_of_mem (h : r ∈ t.rows) : t.find (key r) = some r := by
  cases hfind : t.find (key r) with
  | none =>
    have hne := List.find?_eq_none.mp hfind r h
    simp at hne
  | some x =>
    obtain ⟨hx, hkey⟩ := find_some hfind
    rw [List.inj_on_of_nodup_map t.nodup_keys hx h hkey]

theorem find_eq_some : t.find k = some r ↔ r ∈ t.rows ∧ key r = k :=
  ⟨find_some, fun ⟨hmem, hkey⟩ => hkey ▸ find_of_mem hmem⟩

theorem eq_of_key {r' : ρ} (h : r ∈ t.rows) (h' : r' ∈ t.rows) (hkey : key r = key r') : r = r' := by
  have hfind := find_of_mem h
  rw [hkey, find_of_mem h'] at hfind
  exact (Option.some.inj hfind).symm

/-- A search that only the row with the key can satisfy. -/
theorem find?_of_find {p : ρ → Bool} (h : t.find k = some r) (hp : p r = true)
    (hkey : ∀ x, p x = true → key x = k) : t.rows.find? p = some r := by
  obtain ⟨hmem, hr⟩ := find_some h
  cases hfind : t.rows.find? p with
  | none => exact absurd hp (List.find?_eq_none.mp hfind r hmem)
  | some x =>
    have hx := hkey x (List.find?_some hfind)
    rw [eq_of_key (List.mem_of_find?_eq_some hfind) hmem (hx.trans hr.symm)]

theorem find_eq_none : t.find k = none ↔ k ∉ t.rows.map key := by
  simp [find, List.find?_eq_none]

/-! ## Insertion -/

theorem insert_some (h : t.insert r = some u) : t.find (key r) = none ∧ u.rows = t.rows ++ [r] := by
  unfold insert at h
  split_ifs at h with hmem
  cases h
  exact ⟨find_eq_none.mpr hmem, rfl⟩

theorem insert_of_find_none (h : t.find (key r) = none) :
    ∃ u, t.insert r = some u ∧ u.rows = t.rows ++ [r] := by
  unfold insert
  rw [dif_neg (find_eq_none.mp h)]
  exact ⟨_, rfl, rfl⟩

theorem find_insert (h : t.insert r = some u) :
    u.find k = if key r = k then some r else t.find k := by
  obtain ⟨hnone, hrows⟩ := insert_some h
  unfold find at hnone ⊢
  rw [hrows, List.find?_append]
  split_ifs with hk
  · subst hk
    simp [hnone]
  · simp [hk]

/-- The insertion of a row whose key is free. -/
def add (t : Table ρ) (r : ρ) : Table ρ := (t.insert r).getD t

theorem rows_add (h : t.find (key r) = none) : (t.add r).rows = t.rows ++ [r] := by
  obtain ⟨u, hu, hrows⟩ := insert_of_find_none h
  rw [add, hu, Option.getD_some, hrows]

theorem find_add (h : t.find (key r) = none) :
    (t.add r).find k = if key r = k then some r else t.find k := by
  obtain ⟨u, hu, -⟩ := insert_of_find_none h
  rw [add, hu, Option.getD_some, find_insert hu]

theorem find_add_ne (h : key r ≠ k) : (t.add r).find k = t.find k := by
  unfold add
  cases hu : t.insert r with
  | none => rfl
  | some u => rw [Option.getD_some, find_insert hu, if_neg h]

theorem find_add_of_some (h : t.find k = some x) : (t.add r).find k = some x := by
  unfold add
  cases hu : t.insert r with
  | none => exact h
  | some u =>
    rw [Option.getD_some, find_insert hu, if_neg, h]
    rintro rfl
    rw [(insert_some hu).1] at h
    cases h

/-! ## Update -/

@[simp] theorem keys_put : (t.put r).rows.map key = t.rows.map key := map_key_replace _ _

theorem find_put_ne (h : key r ≠ k) : (t.put r).find k = t.find k := by
  show (t.rows.map fun x => if key x = key r then r else x).find? (fun x => decide (key x = k)) =
    t.rows.find? fun x => decide (key x = k)
  induction t.rows with
  | nil => rfl
  | cons y rows ih =>
    rw [List.map_cons, List.find?_cons, List.find?_cons, ih]
    by_cases hy : key y = key r
    · simp [hy, h]
    · simp [hy]

theorem find_put_self (h : t.find (key r) = some x) : (t.put r).find (key r) = some r := by
  obtain ⟨hmem, hkey⟩ := find_some h
  have hput : r ∈ (t.put r).rows := List.mem_map.mpr ⟨x, hmem, by simp [hkey]⟩
  exact find_of_mem hput

theorem find_put (h : t.find (key r) = some x) :
    (t.put r).find k = if key r = k then some r else t.find k := by
  split_ifs with hk
  · exact hk ▸ find_put_self h
  · exact find_put_ne hk

theorem find_put_eq_none : (t.put r).find k = none ↔ t.find k = none := by
  rw [find_eq_none, keys_put, find_eq_none]

/-- A row after an update has another key and was there, or is the update. -/
theorem mem_put (h : x ∈ (t.put r).rows) : (x ∈ t.rows ∧ key x ≠ key r) ∨ x = r := by
  obtain ⟨y, hy, rfl⟩ := List.mem_map.mp h
  split_ifs with hkey
  · exact .inr rfl
  · exact .inl ⟨hy, hkey⟩

/-- An update of the row that was found is found in its place. -/
theorem find_put_of_find {k' : κ} (hkey : key r = key x) (hx : t.find k' = some x) :
    (t.put r).find k' = some r := by
  have hk : key r = k' := hkey.trans (key_of_find hx)
  subst hk
  exact find_put_self hx

/-- A row after an update was there, or is the update. -/
theorem find_put_cases {k' : κ} {y : ρ} (hkey : key r = key x) (hx : t.find k' = some x)
    (hy : (t.put r).find k = some y) : (k' ≠ k ∧ t.find k = some y) ∨ (k' = k ∧ y = r) := by
  have hk : key r = k' := hkey.trans (key_of_find hx)
  by_cases h : k' = k
  · right
    subst h
    rw [find_put_of_find hkey hx] at hy
    exact ⟨rfl, (Option.some.inj hy).symm⟩
  · left
    rw [find_put_ne (hk ▸ h)] at hy
    exact ⟨h, hy⟩

/-! ## Sums -/

variable {M : Type*} [AddCommMonoid M]

theorem sum_insert (f : ρ → M) (h : t.insert r = some u) :
    (u.rows.map f).sum = (t.rows.map f).sum + f r := by
  rw [(insert_some h).2, List.map_append, List.sum_append]
  simp

theorem sum_replace (f : ρ → M) {rows : List ρ} (hnodup : (rows.map key).Nodup) (hx : x ∈ rows)
    (hkey : key x = key r) :
    ((rows.map fun y => if key y = key r then r else y).map f).sum + f x =
      (rows.map f).sum + f r := by
  induction rows with
  | nil => cases hx
  | cons y rows ih =>
    obtain ⟨hy, hrows⟩ := List.nodup_cons.mp hnodup
    rw [List.map_cons, List.map_cons, List.sum_cons, List.map_cons, List.sum_cons]
    rcases List.mem_cons.mp hx with rfl | hx
    · -- no other row has the key
      have hrest : (rows.map fun y => if key y = key r then r else y) = rows := by
        refine (List.map_congr_left fun z hz => ?_).trans (List.map_id rows)
        have hz' : key z ≠ key r := fun h => hy (h.trans hkey.symm ▸ List.mem_map_of_mem hz)
        exact if_neg hz'
      rw [if_pos hkey, hrest, add_comm (f r), add_assoc, add_comm (f r), ← add_assoc,
        add_comm (List.sum _)]
    · have hne : key y ≠ key r := fun h => hy (h.trans hkey.symm ▸ List.mem_map_of_mem hx)
      rw [if_neg hne, add_assoc, ih hrows hx, add_assoc]

/-- An update replaces the part of the row it finds. -/
theorem sum_put (f : ρ → M) (h : t.find (key r) = some x) :
    ((t.put r).rows.map f).sum + f x = (t.rows.map f).sum + f r :=
  sum_replace f t.nodup_keys (find_some h).1 (find_some h).2

end Table

end AegisShield.Common
