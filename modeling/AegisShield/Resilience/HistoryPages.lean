import AegisShield.Common.Paging
import AegisShield.Resilience.Evidence

/-!
# Drill history pages

`DrillService.history` (`drill.service.ts`, lines 212-238): the drills of the tables, newest
first, page by page. The cursor is the name of the last drill of a page, and the next page holds
the drills that started before it; drills that started at one time are told apart by the order
of the listing and not by the cursor.

Results:
* `history_pages`: following the cursors lists every drill exactly when, wherever a page ends, the
  next drill started in an earlier millisecond; and a cursor restarts the listing exactly when it
  names no drill.
* `namedDrills_of_reachable`: in every run of the service the drills have names of their own.
* `drill_skipped`: two drills that started at one time, and the second is on no page.
-/

namespace AegisShield.Resilience

open Common Paging

/-! ## The listing -/

/-- The order of a text column. -/
structure Collation where
  le : String → String → Bool
  total : ∀ a b, le a b = true ∨ le b a = true
  trans : ∀ a b c, le a b = true → le b c = true → le a c = true
  antisymm : ∀ a b, le a b = true → le b a = true → a = b

/-- A time of the database as a `Date`, which has milliseconds. -/
def asDate (t : ℕ) : ℕ := t / 1000 * 1000

/-- `orderBy: [{ startedAt: 'desc' }, { drillId: 'desc' }]`. -/
def newerFirst (c : Collation) (a b : RecoveryDrillRow) : Prop :=
  b.startedAt < a.startedAt ∨ (a.startedAt = b.startedAt ∧ c.le b.drillId a.drillId = true)

instance (c : Collation) : DecidableRel (newerFirst c) :=
  fun _ _ => inferInstanceAs (Decidable (_ ∨ _))

namespace ResilienceDb

/-- What `history` looks for (lines 222-228), without the limit. -/
def listed (db : ResilienceDb) (c : Collation) (state : Option RecoveryDrillState)
    (before : Option ℕ) : List RecoveryDrillRow :=
  (db.drills.rows.filter fun row =>
    state.all (fun s => decide (row.state = s)) &&
      before.all fun t => decide (row.startedAt < t)).insertionSort (newerFirst c)

/-- `cursorRow` of `history` (lines 217-221). -/
def cursorRow (db : ResilienceDb) : Option String → Option RecoveryDrillRow
  | none => none
  | some drillId => if drillId = "" then none else db.findDrill drillId

/-- `history` (lines 212-238). -/
def history (db : ResilienceDb) (c : Collation) (limit : ℕ) (state : Option RecoveryDrillState)
    (cursor : Option String) : Page RecoveryDrill String :=
  let before := (db.cursorRow cursor).map fun row => asDate row.startedAt
  let rows := (db.listed c state before).take (limit + 1)
  let page := rows.take limit
  { items := page.map db.toDrill
    next := if limit < rows.length then page.getLast?.map RecoveryDrillRow.drillId else none }

end ResilienceDb

/-- Tables in which the drills have different names, none of them empty. -/
structure NamedDrills where
  db : ResilienceDb
  unique : (db.drills.rows.map RecoveryDrillRow.drillId).Nodup
  named : ∀ row ∈ db.drills.rows, row.drillId ≠ ""

/-- Following the cursors lists every drill, in the order of the listing, and a cursor that names
    no drill does not restart it. -/
structure HistoryPaged (db : ResilienceDb) (c : Collation) (limit : ℕ)
    (state : Option RecoveryDrillState) (cursor : String) : Prop where
  complete : Lists (fun next => (.ok (db.history c limit state next) : Except DrillError _)) none
    ((db.listed c state none).map db.toDrill)
  unknown : db.findDrill cursor = none →
    db.history c limit state (some cursor) = db.history c limit state none →
    db.listed c state none = []

/-- Wherever a page ends, the next drill started in an earlier millisecond; and the cursor names a
    drill, unless none is listed. -/
structure PagesApart (db : ResilienceDb) (c : Collation) (limit : ℕ)
    (state : Option RecoveryDrillState) (cursor : String) : Prop where
  apart : ∀ k x y, limit ∣ k → 0 < k → (db.listed c state none)[k - 1]? = some x →
    (db.listed c state none)[k]? = some y → y.startedAt / 1000 < x.startedAt / 1000
  known : db.findDrill cursor = none → db.listed c state none = []

/-! ## Pages -/

section Pages

variable {db : ResilienceDb} {c : Collation} {limit : ℕ} {state : Option RecoveryDrillState}
  {drill : RecoveryDrillRow}

instance (c : Collation) : Std.Total (newerFirst c) where
  total a b := by
    unfold newerFirst
    rcases Nat.lt_trichotomy a.startedAt b.startedAt with h | h | h
    · exact .inr (.inl h)
    · exact (c.total b.drillId a.drillId).imp (fun hle => .inr ⟨h, hle⟩)
        fun hle => .inr ⟨h.symm, hle⟩
    · exact .inl (.inl h)

instance (c : Collation) : IsTrans RecoveryDrillRow (newerFirst c) where
  trans a b d := by
    unfold newerFirst
    rintro (hab | ⟨hab, hle⟩) (hbd | ⟨hbd, hle'⟩)
    · exact .inl (hbd.trans hab)
    · exact .inl (hbd ▸ hab)
    · exact .inl (hab ▸ hbd)
    · exact .inr ⟨hab.trans hbd, c.trans _ _ _ hle' hle⟩

theorem startedAt_le_of_newerFirst {a b : RecoveryDrillRow} (h : newerFirst c a b) :
    b.startedAt ≤ a.startedAt := by
  rcases h with h | ⟨h, -⟩ <;> omega

theorem lt_asDate_iff {a b : ℕ} : a < asDate b ↔ a / 1000 < b / 1000 := by
  unfold asDate
  omega

/-- The drill started before the cursor of another one. -/
def startedBefore (x y : RecoveryDrill) : Bool := decide (y.startedAt < asDate x.startedAt)

namespace ResilienceDb

theorem listed_before (t : ℕ) :
    db.listed c state (some t) =
      (db.listed c state none).filter fun row => decide (row.startedAt < t) := by
  unfold listed
  rw [← insertionSort_filter, List.filter_filter]
  congr 2
  funext row
  simp [Bool.and_comm]

/-- A page of the history is a page of the listing. -/
theorem history_eq (cursor : Option String) :
    db.history c limit state cursor = page RecoveryDrill.drillId limit ((db.listed c state
      ((db.cursorRow cursor).map fun row => asDate row.startedAt)).map db.toDrill) := by
  have htake := page_take RecoveryDrillRow.drillId limit (db.listed c state
    ((db.cursorRow cursor).map fun row => asDate row.startedAt))
  have hitems := congrArg Page.items htake
  have hnext := congrArg Page.next htake
  rw [page_map]
  exact congrArg₂ Page.mk (congrArg (List.map db.toDrill) hitems) hnext

theorem cursorRow_some (drillId : String) :
    db.cursorRow (some drillId) = if drillId = "" then none else db.findDrill drillId := rfl

theorem history_unknown {cursor : String} (h : db.findDrill cursor = none) :
    db.history c limit state (some cursor) = db.history c limit state none := by
  have hnone : db.cursorRow (some cursor) = none := by
    rw [cursorRow_some, h]
    exact ite_self none
  unfold history
  rw [hnone]
  rfl

theorem mem_listed {before : Option ℕ} (h : drill ∈ db.listed c state before) :
    drill ∈ db.drills.rows := by
  unfold listed at h
  rw [List.mem_insertionSort] at h
  exact List.mem_of_mem_filter h

end ResilienceDb

theorem cursorRow_drillId {d : NamedDrills} (h : drill ∈ d.db.drills.rows) :
    d.db.cursorRow (some drill.drillId) = some drill := by
  have hfind : d.db.findDrill drill.drillId = some drill := by
    cases hfound : d.db.findDrill drill.drillId with
    | none =>
      have hne := List.find?_eq_none.mp hfound drill h
      simp at hne
    | some row =>
      have hrow := List.mem_of_find?_eq_some hfound
      rw [List.inj_on_of_nodup_map d.unique hrow h (ResilienceDb.findDrill_some hfound).2]
  rw [ResilienceDb.cursorRow_some, if_neg (d.named drill h), hfind]

theorem descends_listed (db : ResilienceDb) (c : Collation) (state : Option RecoveryDrillState) :
    Descends startedBefore ((db.listed c state none).map db.toDrill) := by
  have hsorted : (db.listed c state none).Pairwise (newerFirst c) :=
    List.pairwise_insertionSort _ _
  have hle : ((db.listed c state none).map db.toDrill).Pairwise fun a b =>
      b.startedAt ≤ a.startedAt := by
    rw [List.pairwise_map]
    exact hsorted.imp startedAt_le_of_newerFirst
  constructor
  · intro x _
    exact decide_eq_false (by rw [lt_asDate_iff]; omega)
  · refine hle.imp fun hab => decide_eq_false ?_
    rw [lt_asDate_iff]
    omega
  · refine hle.imp fun hab x hx => decide_eq_true ?_
    exact Nat.lt_of_le_of_lt hab (of_decide_eq_true hx)

/-- The cursors of the history are compared with the drills. -/
theorem serves_history (d : NamedDrills) (c : Collation) (limit : ℕ)
    (state : Option RecoveryDrillState) :
    Serves (fun next => (.ok (d.db.history c limit state next) : Except DrillError _)) .ok
      RecoveryDrill.drillId limit ((d.db.listed c state none).map d.db.toDrill)
      (resumeBeyond startedBefore ((d.db.listed c state none).map d.db.toDrill)) := by
  apply serves_beyond (descends_listed d.db c state)
  · exact congrArg Except.ok (ResilienceDb.history_eq none)
  · intro x hx
    obtain ⟨row, hrow, rfl⟩ := List.mem_map.mp hx
    have hcursor : d.db.cursorRow (some (d.db.toDrill row).drillId) = some row :=
      cursorRow_drillId (ResilienceDb.mem_listed hrow)
    rw [ResilienceDb.history_eq, hcursor, Option.map_some, ResilienceDb.listed_before,
      List.filter_map]
    rfl
  · intro p q h
    exact (Except.ok.inj h).symm

end Pages

/-! ## Tables of a run -/

theorem drillId_of_step {drill drill' : RecoveryDrillRow} (h : DrillStep drill drill') :
    drill'.drillId = drill.drillId := by
  cases h <;> rfl

/-- An update of a drill leaves the names. -/
theorem drillIds_put {drills : Table RecoveryDrillRow} {drill row : RecoveryDrillRow}
    (hdrill : drills.find drill.id = some drill) (hid : row.id = drill.id)
    (hname : row.drillId = drill.drillId) :
    (drills.put row).rows.map RecoveryDrillRow.drillId =
      drills.rows.map RecoveryDrillRow.drillId := by
  refine List.map_map.trans (List.map_congr_left fun x hx => ?_)
  by_cases hkey : key x = key row
  · have hsame : x = drill := Table.eq_of_key hx (Table.find_some hdrill).1 (hkey.trans hid)
    rw [Function.comp_apply, if_pos hkey, hname, hsame]
  · rw [Function.comp_apply, if_neg hkey]

/-- Calls name the drills apart. -/
theorem namedDrills_of_reachable {s : Recorded} (h : drillMachine.Reachable Machine.always s) :
    ∃ d : NamedDrills, d.db = s.db := by
  have hinv : (s.db.drills.rows.map RecoveryDrillRow.drillId).Nodup ∧
      ∀ row ∈ s.db.drills.rows, row.drillId ≠ "" := by
    refine Machine.invariant (I := fun s : Recorded =>
      (s.db.drills.rows.map RecoveryDrillRow.drillId).Nodup ∧
      ∀ row ∈ s.db.drills.rows, row.drillId ≠ "") ?_ ?_ h
    · rintro s ⟨-, hdrills, -⟩
      rw [hdrills]
      exact ⟨List.nodup_nil, fun row hrow => absurd hrow List.not_mem_nil⟩
    · rintro s call t ⟨hunique, hnamed⟩ - hstep
      cases Option.some.inj hstep
      show ((call.run s.db).drills.rows.map RecoveryDrillRow.drillId).Nodup ∧
        ∀ row ∈ (call.run s.db).drills.rows, row.drillId ≠ ""
      obtain heq | ⟨row, hinsert, -, -, hname, hfree⟩ | ⟨drill, row, hdrill, hid, hrow, heq⟩ :=
        drills_of_run s.db call
      · rw [heq]
        exact ⟨hunique, hnamed⟩
      · rw [(Table.insert_some hinsert).2, List.map_append, List.nodup_append]
        refine ⟨⟨hunique, List.nodup_singleton _, ?_⟩, ?_⟩
        · intro name hold new hnew
          obtain ⟨other, hother, rfl⟩ := List.mem_map.mp hold
          rw [List.mem_singleton.mp hnew]
          exact hfree other hother
        · intro drill hdrill
          rcases List.mem_append.mp hdrill with hdrill | hdrill
          · exact hnamed drill hdrill
          · rw [List.mem_singleton.mp hdrill]
            exact hname
      · rw [heq, drillIds_put hdrill hid (drillId_of_step hrow)]
        refine ⟨hunique, fun x hx => ?_⟩
        rcases Table.mem_put hx with ⟨hx, -⟩ | rfl
        · exact hnamed x hx
        · rw [drillId_of_step hrow]
          exact hnamed drill (Table.find_some hdrill).1
  exact ⟨⟨s.db, hinv.1, hinv.2⟩, rfl⟩

/-- Following the cursors lists every drill exactly when, wherever a page ends, the next drill
    started in an earlier millisecond; and a cursor restarts the listing exactly when it names no
    drill. -/
theorem history_pages (d : NamedDrills) (c : Collation) (limit : ℕ) (hlimit : 0 < limit)
    (state : Option RecoveryDrillState) (cursor : String) :
    HistoryPaged d.db c limit state cursor ↔ PagesApart d.db c limit state cursor := by
  have hlists := lists_beyond_iff (descends_listed d.db c state) (serves_history d c limit state)
    hlimit
  have hget : ∀ k, ((d.db.listed c state none).map d.db.toDrill)[k]? =
      (d.db.listed c state none)[k]?.map d.db.toDrill := fun k => List.getElem?_map
  constructor
  · intro h
    refine ⟨fun k x y hdvd hpos hx hy => ?_,
      fun hnone => h.unknown hnone (ResilienceDb.history_unknown hnone)⟩
    have hbeyond := (hlists.mp h.complete).1 k (d.db.toDrill x) (d.db.toDrill y) hdvd hpos
      (by rw [hget, hx]; rfl) (by rw [hget, hy]; rfl)
    exact lt_asDate_iff.mp (of_decide_eq_true hbeyond)
  · intro h
    refine ⟨hlists.mpr ⟨fun k x y hdvd hpos hx hy => ?_, fun k _ _ => rfl⟩,
      fun hnone _ => h.known hnone⟩
    rw [hget] at hx hy
    obtain ⟨drill, hdrill, rfl⟩ := Option.map_eq_some_iff.mp hx
    obtain ⟨next, hnext, rfl⟩ := Option.map_eq_some_iff.mp hy
    exact decide_eq_true (lt_asDate_iff.mpr (h.apart k drill next hdvd hpos hdrill hnext))

/-! ## Runs -/

/-- The order of code points. -/
def exampleCollation : Collation where
  le a b := decide (a ≤ b)
  total a b := by simpa using le_total a b
  trans a b c hab hbc := by simpa using le_trans (of_decide_eq_true hab) (of_decide_eq_true hbc)
  antisymm a b hab hba := le_antisymm (of_decide_eq_true hab) (of_decide_eq_true hba)

/-- Two drills, the second one recorded some time after the first one. -/
def twoDrills (later : ℕ) : ResilienceDb :=
  let db := (noDrills.db.createDrill (exampleEnv 5000000 "e1") .MANUAL "ops" none).1
  let second := { exampleEnv (5000000 + later) "e2" with drillUuid := "d2", rowUuid := "row-2" }
  (db.createDrill second .MANUAL "ops" none).1

/-- Two drills that started at one time. -/
def tiedDrills : NamedDrills where
  db := twoDrills 0
  unique := by decide +kernel
  named := by decide +kernel

/-- Two drills that started a millisecond apart. -/
def apartDrills : NamedDrills where
  db := twoDrills 1000
  unique := by decide +kernel
  named := by decide +kernel

theorem listed_apart : apartDrills.db.listed exampleCollation none none =
    apartDrills.db.drills.rows.reverse := by
  decide +kernel

/-- Two drills that started a millisecond apart are both listed, one on each page. -/
theorem apart_drills_paged :
    HistoryPaged apartDrills.db exampleCollation 1 none "drill:2026-08-01:d1" := by
  apply (history_pages apartDrills exampleCollation 1 Nat.one_pos none _).mpr
  constructor
  · intro k x y _ hpos hx hy
    rw [listed_apart] at hx hy
    have hk : k < 2 := (List.getElem?_eq_some_iff.mp hy).1
    obtain rfl : k = 1 := by omega
    cases Option.some.inj hx
    cases Option.some.inj hy
    decide +kernel
  · intro hnone
    exact absurd hnone (by decide +kernel)

/-- Two drills that started at one time, and only one is listed; and a cursor that names no drill
    restarts the listing. -/
theorem drill_skipped :
    ¬ HistoryPaged tiedDrills.db exampleCollation 1 none "drill:2026-08-01:d2" ∧
      ¬ HistoryPaged apartDrills.db exampleCollation 1 none "drill:unknown" := by
  constructor
  · intro h
    let first := tiedDrills.db.history exampleCollation 1 none none
    have hfirst : first = ⟨first.items, some "drill:2026-08-01:d2"⟩ := by decide +kernel
    have hsecond : tiedDrills.db.history exampleCollation 1 none (some "drill:2026-08-01:d2") =
        ⟨[], none⟩ := by decide +kernel
    have hlists : Lists (fun next =>
        (.ok (tiedDrills.db.history exampleCollation 1 none next) : Except DrillError _)) none
        (first.items ++ []) :=
      .more (congrArg Except.ok hfirst) (.last (congrArg Except.ok hsecond))
    have hlength := congrArg List.length (h.complete.unique hlists)
    revert hlength
    decide +kernel
  · intro h
    have hlisted := h.unknown (by decide +kernel) (by decide +kernel)
    rw [listed_apart] at hlisted
    revert hlisted
    decide +kernel

end AegisShield.Resilience
