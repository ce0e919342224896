import AegisShield.Common.Alone
import AegisShield.Ledger.Journal

/-!
# `JournalService.post` on its own

What `execute` and the transaction of `post` come to when no other call commits meanwhile:
the value or error, the writes, and the data left.

Results:
* `perform_execute_ok`, `perform_execute_error`: `execute` under a new key commits the
  callback with its record, or leaves the data alone.
* `perform_journalRun_rejected`, `perform_journalRun_taken`, `perform_journalRun_free`: what becomes
  of the transaction of `post`.
-/

namespace AegisShield.Ledger

open Common

/-! ## `execute` -/

section Execute

variable {A LA V E T ρ : Type*} {B : Database A LA V Thrown} {env : ℕ → E} {d : Stored A ρ}
  {runtime : Runtime} {options : ExecuteOptions A LA V E T ρ}

/-- A transaction of the application, after writes that are not the application's. -/
theorem perform_liftTx (env : ℕ → E) (d : Stored A ρ) (tx : Tx A LA V E Thrown T)
    {pre : List (StoredWrite V ρ)} (hpre : appWrites pre = []) (vs : List V) (n : ℕ) :
    (liftTx tx).perform (stored B) env d (pre ++ vs.map .app) n =
      ((tx.perform B env d.app vs n).1, pre ++ (tx.perform B env d.app vs n).2.1.map .app,
        (tx.perform B env d.app vs n).2.2) := by
  induction tx generalizing vs n with
  | ret | throw => rfl
  | stmt locks made rest ih =>
    have happ : ((stored B).applyAll d (pre ++ vs.map .app)).app = B.applyAll d.app vs := by
      rw [applyAll_app, appWrites_append, hpre, appWrites_app, List.nil_append]
    rw [liftTx, Tx.perform, Tx.perform, happ, List.append_assoc, ← List.map_append]
    exact ih _ _ _ _

/-- The transaction of `execute` where nobody has the key. -/
theorem perform_executeTx (env : ℕ → E)
    (hnone : d.records.find (options.recordKey runtime) = none) (n : ℕ) :
    (executeTx runtime options).perform (stored B) env d [] n =
      Tx.resume (stored B) env d (fun value => complete runtime options value)
        ((options.run.perform B env d.app [] (n + 1)).1,
          [.create (options.reservation runtime)] ++
            (options.run.perform B env d.app [] (n + 1)).2.1.map .app,
          (options.run.perform B env d.app [] (n + 1)).2.2) := by
  have hreserve : (reserve runtime options).perform (stored B) env d [] n =
      (.ok (), [.create (options.reservation runtime)], n + 1) := by
    rw [reserve, Tx.perform, Database.applyAll_nil, hnone]
    rfl
  have hlift := perform_liftTx (B := B) env d options.run
    (show appWrites [StoredWrite.create (options.reservation runtime)] = [] from rfl) [] (n + 1)
  rw [executeTx, Tx.perform_bind, hreserve, Tx.resume, Tx.perform_bind, ← hlift, List.map_nil,
    List.append_nil]

theorem replayIfSettled_none {conflicted : Bool}
    (hnone : d.records.find (options.recordKey runtime) = none) :
    replayIfSettled runtime options conflicted d = .ok none := by
  unfold replayIfSettled
  rw [hnone]

/-- Under a new key, a callback that fails leaves the data alone. -/
theorem perform_execute_error {e : Thrown} {vs : List V} {n n' : ℕ}
    (hnone : d.records.find (options.recordKey runtime) = none)
    (hrun : options.run.perform B env d.app [] (n + 1) = (.error e, vs, n')) :
    (execute runtime options).perform (stored B) env d n =
      (.error (if isIdempotencyConflict e then idempotencyInProgressError else e), d, n') := by
  have htx := perform_executeTx (B := B) env hnone n
  rw [hrun] at htx
  rw [execute, Client.perform, replayIfSettled_none hnone]
  dsimp only
  rw [Client.perform, htx, Tx.resume]
  dsimp only
  rw [afterTx]
  cases hconflict : isIdempotencyConflict e with
  | false => rfl
  | true =>
    rw [if_neg (by decide), Client.perform, replayIfSettled_none hnone]
    rfl

/-- Under a new key, a callback that returns is committed with its record. -/
theorem perform_execute_ok {value : T} {vs : List V} {n n' : ℕ}
    (hnone : d.records.find (options.recordKey runtime) = none)
    (hrun : options.run.perform B env d.app [] (n + 1) = (.ok value, vs, n'))
    (hdeferred : B.deferred d.app vs = true) :
    (execute runtime options).perform (stored B) env d n =
      (.ok { result := value, replayed := false }, (stored B).applyAll d
        (executionWrites (options.reservation runtime) vs (options.encode value)), n' + 1) := by
  have htx := perform_executeTx (B := B) env hnone n
  rw [hrun] at htx
  have hwrites : Tx.resume (stored B) env d (fun value => complete runtime options value)
      (.ok value, [.create (options.reservation runtime)] ++ vs.map .app, n') =
      (.ok value, executionWrites (options.reservation runtime) vs (options.encode value),
        n' + 1) := rfl
  rw [hwrites] at htx
  have hcommit : (stored B).deferred d
      (executionWrites (options.reservation runtime) vs (options.encode value)) = true := by
    show B.deferred d.app (appWrites _) = true
    rw [appWrites_execution]
    exact hdeferred
  rw [execute, Client.perform, replayIfSettled_none hnone]
  dsimp only
  rw [Client.perform, htx]
  dsimp only
  rw [if_pos hcommit]
  rfl

end Execute

/-! ## The statements of `post` -/

/-- What is generated for the first `N` statements is new. -/
structure Generates (d : LedgerStore) (env : ℕ → Env) (N : ℕ) : Prop where
  entries : ∀ n < N, d.entries.find (env n).uuid = none
  postings : ∀ n < N, d.postings.find (env n).uuid = none
  apart : ∀ m < N, ∀ n < N, (env m).uuid = (env n).uuid → m = n
  references : ∀ n < N, ∀ other ∈ d.entries.rows, other.reference ≠ "JRN-" ++ (env n).random

section Statements

variable {env : ℕ → Env} {d : LedgerStore} {runtime : Runtime} {T : Type} {row : Env → T}
  {write : T → LedgerWrite} {violation : LedgerStore → T → Option Thrown} {ws : List LedgerWrite}
  {n N : ℕ}

theorem perform_writeRow_ok
    (h : violation (ledgerDatabase.applyAll d ws) (row (env n)) = none) :
    (writeRow row write violation).perform ledgerDatabase env d ws n =
      (.ok (row (env n)), ws ++ [write (row (env n))], n + 1) := by
  rw [writeRow, Tx.perform, h]
  rfl

theorem perform_writeRow_error {thrown : Thrown}
    (h : violation (ledgerDatabase.applyAll d ws) (row (env n)) = some thrown) :
    (writeRow row write violation).perform ledgerDatabase env d ws n =
      (.error thrown, ws, n + 1) := by
  rw [writeRow, Tx.perform, h]
  simp only [List.append_nil]
  rfl

theorem perform_lockAccounts (ids : List String) :
    (lockAccounts ids).perform ledgerDatabase env d [] n =
      (if (selectAccounts d (deterministicAccountOrder ids)).length ≠
          (deterministicAccountOrder ids).length then .error accountNotFoundError
        else .ok (selectAccounts d (deterministicAccountOrder ids)), [], n + 1) := by
  rw [lockAccounts, Tx.perform, Database.applyAll_nil]
  split_ifs
  · rfl
  · rfl

/-- No entry has the reference. -/
def ReferenceFree (d : LedgerStore) (reference : Option String) : Prop :=
  ∀ text, reference = some text → ∀ entry ∈ d.entries.rows, entry.reference ≠ text

/-- What `post` has inserted by the statement `n`. -/
structure Draft (env : ℕ → Env) (entry : JournalEntryRow) (rows : List JournalPostingRow)
    (n : ℕ) : Prop where
  entry_id : ∃ m < n, entry.id = (env m).uuid
  row_ids : ∀ p ∈ rows, ∃ m < n, p.id = (env m).uuid
  nodup : (rows.map JournalPostingRow.id).Nodup
  owned : ∀ p ∈ rows, p.journalEntryId = entry.id ∧ p.currency = entry.currency
  sequences : ∀ p ∈ rows, p.sequence < rows.length

variable {request : InternalJournalRequest} {correlationId : String} {actor : JournalActor}
  {entry : JournalEntryRow} {rows : List JournalPostingRow}

theorem perform_createEntry (runtime : Runtime) (correlationId : String) (actor : JournalActor)
    (hnew : Generates d env N) (hn : n < N) (hfree : ReferenceFree d request.reference) :
    ∃ entry, (createEntry runtime request correlationId actor).perform ledgerDatabase env d [] n =
        (.ok entry, [.createEntry entry], n + 1) ∧
      entry.currency = request.currency ∧ Draft env entry [] (n + 1) := by
  refine ⟨_, perform_writeRow_ok ?_, rfl,
    ⟨⟨n, n.lt_succ_self, rfl⟩, by simp, by simp, by simp, by simp⟩⟩
  rw [Database.applyAll_nil]
  unfold entryViolation
  dsimp only
  rw [hnew.entries n hn, if_neg (by decide), if_neg]
  intro hany
  obtain ⟨other, hother, heq⟩ := List.any_eq_true.mp hany
  have hreference := of_decide_eq_true heq
  cases hgiven : request.reference with
  | none =>
    rw [hgiven] at hreference
    exact hnew.references n hn other hother hreference
  | some text =>
    rw [hgiven] at hreference
    exact hfree text hgiven other hother hreference

theorem perform_createEntry_taken (hnew : Generates d env N) (hn : n < N)
    (htaken : ¬ ReferenceFree d request.reference) :
    (createEntry runtime request correlationId actor).perform ledgerDatabase env d [] n =
      (.error (uniqueViolation runtime ["reference"]), [], n + 1) := by
  unfold ReferenceFree at htaken
  push Not at htaken
  obtain ⟨text, hgiven, other, hother, hreference⟩ := htaken
  refine perform_writeRow_error ?_
  rw [Database.applyAll_nil]
  unfold entryViolation
  dsimp only
  rw [hnew.entries n hn, if_neg (by decide), if_pos]
  exact List.any_eq_true.mpr ⟨other, hother, decide_eq_true (by rw [hreference, hgiven]; rfl)⟩

/-- The tables that `post` sees after its inserts. -/
theorem Draft.seen (h : Draft env entry rows n) (hnew : Generates d env N) (hn : n ≤ N) :
    ledgerDatabase.applyAll d (.createEntry entry :: rows.map .createPosting) =
      { d with
        entries := d.entries.add entry
        postings := (ledgerDatabase.applyAll d
          (.createEntry entry :: rows.map .createPosting)).postings } ∧
      (ledgerDatabase.applyAll d (.createEntry entry :: rows.map .createPosting)).postings.rows =
        d.postings.rows ++ rows := by
  have hrows : ∀ p ∈ rows, d.postings.find p.id = none := by
    intro p hp
    obtain ⟨m, hm, hmid⟩ := h.row_ids p hp
    rw [hmid]
    exact hnew.postings m (by omega)
  exact applyAll_postings (d := { d with entries := d.entries.add entry }) hrows h.nodup

/-- The constraints of the next posting, whose amount may not fit its column. -/
theorem Draft.checked (h : Draft env entry rows n) (runtime : Runtime) (hnew : Generates d env N)
    (hn : n < N) (hd : StoreInvariant d) {posting : Posting} (hpositive : 0 < posting.amountMinor)
    (haccount : d.accounts.find posting.ledgerAccountId ≠ none) (hlength : rows.length < 32)
    (row : JournalPostingRow) (hposting : row.toPosting = posting) (hid : row.id = (env n).uuid)
    (hentry : row.journalEntryId = entry.id) (hsequence : row.sequence = rows.length) :
    postingViolation runtime
        (ledgerDatabase.applyAll d (.createEntry entry :: rows.map .createPosting)) row =
      if isBigint posting.amountMinor then none else some .other := by
  obtain ⟨hstore, hrows⟩ := h.seen hnew hn.le
  generalize ledgerDatabase.applyAll d (.createEntry entry :: rows.map .createPosting) = view
    at hstore hrows ⊢
  obtain ⟨m, hm, hentryId⟩ := h.entry_id
  have hfresh : view.postings.find row.id = none := by
    rw [Table.find_eq_none, hrows, List.map_append, List.mem_append, not_or, hid]
    refine ⟨Table.find_eq_none.mp (hnew.postings n hn), fun hmem => ?_⟩
    obtain ⟨p, hp, hpid⟩ := List.mem_map.mp hmem
    obtain ⟨k, hk, hkid⟩ := h.row_ids p hp
    exact absurd (hnew.apart k (by omega) n hn (hkid.symm.trans hpid)) (by omega)
  have hsequences : (view.postingsOf row.journalEntryId).any
      (fun p => p.sequence = row.sequence) = false := by
    rw [List.any_eq_false]
    intro p hp
    obtain ⟨hmem, howner⟩ := List.mem_filter.mp hp
    rw [hrows] at hmem
    rcases List.mem_append.mp hmem with hold | hmine
    · obtain ⟨⟨other, hother⟩, -⟩ := hd.postings p hold
      rw [of_decide_eq_true howner, hentry, hentryId, hnew.entries m (by omega)] at hother
      cases hother
    · have hlt := h.sequences p hmine
      simp only [decide_eq_true_eq]
      omega
  have hentries : view.entries.find row.journalEntryId = some entry := by
    have hnone : d.entries.find (key entry) = none := by
      rw [show key entry = entry.id from rfl, hentryId]
      exact hnew.entries m (by omega)
    rw [hstore, hentry]
    exact (Table.find_add hnone).trans (if_pos rfl)
  have haccounts : view.accounts.find row.ledgerAccountId ≠ none := by
    rw [hstore, hposting]
    exact haccount
  have hcheck : ¬ (row.amountMinor ≤ 0 ∨ !isBigint row.amountMinor ∨ 32 ≤ row.sequence) ↔
      isBigint posting.amountMinor = true := by
    rw [hposting]
    cases isBigint posting.amountMinor with
    | false => simp
    | true =>
      simp
      omega
  have hkeys : ¬ ((view.entries.find row.journalEntryId).isNone ∨
      (view.accounts.find row.ledgerAccountId).isNone) := by
    rw [hentries]
    simpa using haccounts
  unfold postingViolation
  rw [hfresh, hsequences, if_neg (by decide), if_neg (by decide), if_neg hkeys]
  by_cases hfits : isBigint posting.amountMinor = true
  · rw [if_pos hfits, if_neg (hcheck.mpr hfits)]
  · rw [if_neg hfits, if_pos (not_not.mp fun hnot => hfits (hcheck.mp hnot))]

theorem Draft.insert (h : Draft env entry rows n) (row : JournalPostingRow)
    (hid : row.id = (env n).uuid) (hnew : Generates d env N) (hn : n < N)
    (hentry : row.journalEntryId = entry.id) (hcurrency : row.currency = entry.currency)
    (hsequence : row.sequence = rows.length) :
    Draft env entry (rows ++ [row]) (n + 1) where
  entry_id := by
    obtain ⟨m, hm, hmid⟩ := h.entry_id
    exact ⟨m, by omega, hmid⟩
  row_ids p hp := by
    rcases List.mem_append.mp hp with hp | hp
    · obtain ⟨m, hm, hmid⟩ := h.row_ids p hp
      exact ⟨m, by omega, hmid⟩
    · rw [List.mem_singleton.mp hp]
      exact ⟨n, n.lt_succ_self, hid⟩
  nodup := by
    rw [List.map_append, List.map_singleton, List.nodup_append]
    refine ⟨h.nodup, List.nodup_singleton _, fun a ha b hb hab => ?_⟩
    obtain ⟨p, hp, rfl⟩ := List.mem_map.mp ha
    obtain ⟨m, hm, hmid⟩ := h.row_ids p hp
    rw [List.mem_singleton.mp hb, hid, hmid] at hab
    exact absurd (hnew.apart m (by omega) n hn hab) (by omega)
  owned p hp := by
    rcases List.mem_append.mp hp with hp | hp
    · exact h.owned p hp
    · rw [List.mem_singleton.mp hp]
      exact ⟨hentry, hcurrency⟩
  sequences p hp := by
    rw [List.length_append, List.length_singleton]
    rcases List.mem_append.mp hp with hp | hp
    · have hlt := h.sequences p hp
      omega
    · rw [List.mem_singleton.mp hp, hsequence]
      omega

/-- The inserts of the postings, whose amounts all fit their column or not. -/
theorem perform_createPostings (runtime : Runtime) (hnew : Generates d env N) (hd : StoreInvariant d)
    {postings : List Posting} (hpositive : ∀ p ∈ postings, 0 < p.amountMinor)
    (haccounts : ∀ p ∈ postings, d.accounts.find p.ledgerAccountId ≠ none)
    (hlength : rows.length + postings.length ≤ 32) (hn : n + postings.length ≤ N)
    (hdraft : Draft env entry rows n) :
    (∀ p ∈ postings, isBigint p.amountMinor = true) ∧ (∃ created,
        (createPostings runtime entry postings rows.length).perform ledgerDatabase env d
            (.createEntry entry :: rows.map .createPosting) n =
          (.ok created, .createEntry entry :: (rows ++ created).map .createPosting,
            n + postings.length) ∧
        created.map JournalPostingRow.toPosting = postings ∧
        Draft env entry (rows ++ created) (n + postings.length)) ∨
      (¬ ∀ p ∈ postings, isBigint p.amountMinor = true) ∧ ∃ ws' n',
        (createPostings runtime entry postings rows.length).perform ledgerDatabase env d
          (.createEntry entry :: rows.map .createPosting) n = (.error .other, ws', n') := by
  induction postings generalizing rows n with
  | nil => exact .inl ⟨by simp, [], by simp [createPostings, Tx.perform], rfl, by simpa using hdraft⟩
  | cons posting postings ih =>
    rw [List.length_cons] at hlength hn
    let row : JournalPostingRow := {
      toPosting := posting
      id := (env n).uuid
      journalEntryId := entry.id
      currency := entry.currency
      sequence := rows.length
      createdAt := (env n).now }
    have hcheck := hdraft.checked runtime hnew (by omega) hd (hpositive posting List.mem_cons_self)
      (haccounts posting List.mem_cons_self) (by omega) row rfl rfl rfl rfl
    rw [createPostings, Tx.perform_bind]
    by_cases hfits : isBigint posting.amountMinor = true
    · rw [if_pos hfits] at hcheck
      have hwrite : (createPosting runtime entry posting rows.length).perform ledgerDatabase env d
          (.createEntry entry :: rows.map .createPosting) n =
            (.ok row, .createEntry entry :: (rows ++ [row]).map .createPosting, n + 1) := by
        rw [List.map_append, List.map_singleton, ← List.cons_append]
        exact perform_writeRow_ok hcheck
      have hsucc : (rows ++ [row]).length = rows.length + 1 := by
        rw [List.length_append, List.length_singleton]
      rw [hwrite, Tx.resume, Tx.perform_bind, ← hsucc]
      rcases ih (fun p hp => hpositive p (List.mem_cons_of_mem _ hp))
        (fun p hp => haccounts p (List.mem_cons_of_mem _ hp)) (by omega) (by omega)
        (hdraft.insert row rfl hnew (by omega) rfl rfl rfl) with
        ⟨hall, created, hperform, hmap, hdraft'⟩ | ⟨hnot, ws', n', hperform⟩
      · left
        refine ⟨List.forall_mem_cons.mpr ⟨hfits, hall⟩, row :: created, ?_, ?_, ?_⟩
        · rw [hperform, Tx.resume, Tx.perform, List.append_assoc, List.singleton_append,
            List.length_cons, Nat.add_assoc, Nat.add_comm 1]
        · rw [List.map_cons, hmap]
        · rw [List.append_assoc, List.singleton_append, Nat.add_assoc, Nat.add_comm 1] at hdraft'
          exact hdraft'
      · right
        refine ⟨fun hall => hnot fun p hp => hall p (List.mem_cons_of_mem _ hp), ws', n', ?_⟩
        rw [hperform, Tx.resume]
    · rw [if_neg hfits] at hcheck
      right
      have hwrite : (createPosting runtime entry posting rows.length).perform ledgerDatabase env d
          (.createEntry entry :: rows.map .createPosting) n =
            (.error .other, .createEntry entry :: rows.map .createPosting, n + 1) :=
        perform_writeRow_error hcheck
      rw [hwrite]
      exact ⟨fun hall => hfits (hall posting List.mem_cons_self), _, _, rfl⟩

theorem find_updateProjection_eq_none {projections : Table BalanceProjectionRow} {id k : String}
    {totals : Totals} :
    (updateProjection projections id totals).find k = none ↔ projections.find k = none := by
  unfold updateProjection
  split
  · exact Iff.rfl
  · exact Table.find_put_eq_none

/-- The updates of the projections, whose totals all fit their columns or not. -/
theorem perform_updateProjections (env : ℕ → Env) (n : ℕ) {projected : List LockedAccount}
    (hfound : ∀ a ∈ projected, (ledgerDatabase.applyAll d ws).projections.find a.id ≠ none)
    (hnonnegative : ∀ a ∈ projected, 0 ≤ a.totals.debitTotalMinor ∧ 0 ≤ a.totals.creditTotalMinor) :
    (∀ a ∈ projected, isBigint a.totals.debitTotalMinor = true ∧
          isBigint a.totals.creditTotalMinor = true) ∧
        (updateProjections projected).perform ledgerDatabase env d ws n =
          (.ok (), ws ++ (updatesOf projected).map fun u => .updateProjection u.1 u.2,
            n + projected.length) ∨
      (¬ ∀ a ∈ projected, isBigint a.totals.debitTotalMinor = true ∧
          isBigint a.totals.creditTotalMinor = true) ∧ ∃ ws' n',
        (updateProjections projected).perform ledgerDatabase env d ws n =
          (.error .other, ws', n') := by
  induction projected generalizing ws n with
  | nil => exact .inl ⟨by simp, by simp [updateProjections, Tx.perform, updatesOf]⟩
  | cons account projected ih =>
    have hmine := hfound account List.mem_cons_self
    obtain ⟨hdebit, hcredit⟩ := hnonnegative account List.mem_cons_self
    have hcheck : projectionViolation (ledgerDatabase.applyAll d ws) (account.id, account.totals) =
        if isBigint account.totals.debitTotalMinor = true ∧
          isBigint account.totals.creditTotalMinor = true then none else some .other := by
      have hnone : ¬ ((ledgerDatabase.applyAll d ws).projections.find account.id).isNone = true := by
        simpa using hmine
      unfold projectionViolation
      rw [if_neg hnone]
      have hdebit' : ¬ account.totals.debitTotalMinor < 0 := by omega
      have hcredit' : ¬ account.totals.creditTotalMinor < 0 := by omega
      cases isBigint account.totals.debitTotalMinor <;>
        cases isBigint account.totals.creditTotalMinor <;> simp [hdebit', hcredit']
    rw [updateProjections, Tx.perform_bind]
    by_cases hfits : isBigint account.totals.debitTotalMinor = true ∧
        isBigint account.totals.creditTotalMinor = true
    · rw [if_pos hfits] at hcheck
      rw [perform_writeRow_ok hcheck, Tx.resume]
      have hrest : ∀ a ∈ projected, (ledgerDatabase.applyAll d
          (ws ++ [.updateProjection account.id account.totals])).projections.find a.id ≠ none := by
        intro a ha
        have hother := hfound a (List.mem_cons_of_mem _ ha)
        rw [Database.applyAll_append]
        exact mt find_updateProjection_eq_none.mp hother
      rcases ih (n + 1) hrest fun a ha => hnonnegative a (List.mem_cons_of_mem _ ha) with
        ⟨hall, hperform⟩ | ⟨hnot, ws', n', hperform⟩
      · left
        refine ⟨List.forall_mem_cons.mpr ⟨hfits, hall⟩, ?_⟩
        rw [hperform, updatesOf, updatesOf, List.map_cons, List.map_cons, List.append_assoc,
          List.singleton_append, List.length_cons, Nat.add_assoc, Nat.add_comm 1]
      · right
        exact ⟨fun hall => hnot fun a ha => hall a (List.mem_cons_of_mem _ ha), ws', n', hperform⟩
    · rw [if_neg hfits] at hcheck
      right
      rw [perform_writeRow_error hcheck]
      exact ⟨fun hall => hfits (hall account List.mem_cons_self), _, _, rfl⟩

end Statements

/-! ## The checks -/

section Checks

variable {accounts projected : List LockedAccount} {postings : List Posting} {currency : String}
  {d : LedgerStore}

/-- An error that `execute` throws as it is, and that does not say that the key is in use. -/
def Plain (e : Thrown) : Prop :=
  isIdempotencyConflict e = false ∧ e ≠ idempotencyInProgressError

theorem plain_accountNotFound : Plain accountNotFoundError := ⟨rfl, by decide⟩

theorem plain_other : Plain .other := ⟨rfl, by decide⟩

theorem projectPostings_error {e : Thrown} (h : projectPostings accounts postings = .error e) :
    e = accountNotFoundError := by
  induction postings generalizing accounts with
  | nil => cases h
  | cons posting postings ih =>
    rw [projectPostings] at h
    split at h
    · cases h
      rfl
    · exact ih h

theorem plain_of_projectAccounts {e : Thrown}
    (h : projectAccounts accounts currency postings = .error e) : Plain e := by
  unfold projectAccounts at h
  split_ifs at h with hcurrency
  · cases h
    exact ⟨rfl, by decide⟩
  · split at h
    next e' hprojected =>
      cases h
      rw [projectPostings_error hprojected]
      exact plain_accountNotFound
    · split_ifs at h
      cases h
      exact ⟨rfl, by decide⟩

theorem projectPostings_of_mem
    (h : ∀ p ∈ postings, p.ledgerAccountId ∈ accounts.map LockedAccount.id) :
    projectPostings accounts postings = .ok (accounts.map fun a => a.posted postings) := by
  have hok : ∃ projected, projectPostings accounts postings = .ok projected := by
    induction postings generalizing accounts with
    | nil => exact ⟨accounts, rfl⟩
    | cons posting postings ih =>
      obtain ⟨a, ha, hid⟩ := List.mem_map.mp (h posting List.mem_cons_self)
      have hfind : ((accounts.find? fun a => a.id = posting.ledgerAccountId)).isSome :=
        List.find?_isSome.mpr ⟨a, ha, decide_eq_true hid⟩
      obtain ⟨found, hfound⟩ := Option.isSome_iff_exists.mp hfind
      rw [projectPostings, hfound]
      refine ih fun p hp => ?_
      obtain ⟨b, hb, hbid⟩ := List.mem_map.mp (h p (List.mem_cons_of_mem _ hp))
      rw [List.map_map]
      refine List.mem_map.mpr ⟨b, hb, ?_⟩
      simp only [Function.comp_apply]
      split_ifs
      · exact hbid
      · exact hbid
  obtain ⟨projected, hprojected⟩ := hok
  rw [hprojected, (projectPostings_ok hprojected).2]

/-- The checks pass. -/
theorem projectAccounts_of_checks (hcurrency : ∀ a ∈ accounts, a.currency = currency)
    (hids : ∀ p ∈ postings, p.ledgerAccountId ∈ accounts.map LockedAccount.id)
    (hfunds : ∀ a ∈ accounts, a.allowNegativeBalance = false →
      0 ≤ signedBalanceMinor a.accountClass (a.posted postings).totals.debitTotalMinor
        (a.posted postings).totals.creditTotalMinor) :
    projectAccounts accounts currency postings = .ok (accounts.map fun a => a.posted postings) := by
  have hsame : (accounts.any fun a => decide (a.currency ≠ currency)) = false := by
    rw [List.any_eq_false]
    intro a ha
    simpa using hcurrency a ha
  unfold projectAccounts
  rw [hsame, if_neg (by decide), projectPostings_of_mem hids]
  dsimp only
  rw [if_neg]
  intro hany
  obtain ⟨b, hb, hnegative⟩ := List.any_eq_true.mp hany
  obtain ⟨a, ha, rfl⟩ := List.mem_map.mp hb
  rw [Bool.and_eq_true, decide_eq_true_eq, Bool.not_eq_true'] at hnegative
  have hsigned := hfunds a ha hnegative.2
  exact absurd hsigned (not_le.mpr hnegative.1)

theorem accountTotal_nonneg {id : String} {direction : PostingDirection}
    (h : ∀ p ∈ postings, 0 < p.amountMinor) : 0 ≤ accountTotal postings id direction := by
  induction postings with
  | nil => exact le_rfl
  | cons p postings ih =>
    have hp := h p List.mem_cons_self
    have hrest := ih fun q hq => h q (List.mem_cons_of_mem _ hq)
    rw [accountTotal_cons]
    split_ifs <;> omega

/-- Every posting of the store is positive. -/
theorem StoreInvariant.positive (hd : StoreInvariant d) : ∀ p ∈ d.lines, 0 < p.amountMinor := by
  intro p hp
  obtain ⟨row, hrow, rfl⟩ := List.mem_map.mp hp
  obtain ⟨⟨entry, hentry⟩, -⟩ := hd.postings row hrow
  obtain ⟨hmem, hid⟩ := Table.find_some hentry
  refine (hd.journals entry hmem).positive row (List.mem_filter.mpr ⟨hrow, decide_eq_true ?_⟩)
  exact hid.symm

/-- The totals that `post` reads of an account. -/
theorem totals_of_locked (hd : StoreInvariant d) {id : String} {a : LockedAccount}
    (h : lockedAccount d id = some a) : a.totals = accountTotals d.lines a.id := by
  obtain ⟨rfl, account, projection, haccount, hprojection, -, -, -, htotals⟩ := lockedAccount_some h
  obtain ⟨hmem, hid⟩ := Table.find_some haccount
  have hkey : account.id = a.id := hid
  obtain ⟨projection', hprojection', htotals', -⟩ := hd.accounts account hmem
  rw [hkey, hprojection] at hprojection'
  cases hprojection'
  rw [← htotals, htotals', hkey]

end Checks

/-! ## The transaction of `post` -/

section Run

variable {env : ℕ → Env} {d : LedgerStore} (runtime : Runtime) {request : InternalJournalRequest}
  (correlationId : String) (actor : JournalActor) {postings : List Posting} {totalMinor : ℤ}
  {projected : List LockedAccount} {n N : ℕ}

/-- The order in which `post` locks the accounts. -/
def lockOrder (postings : List Posting) : List String :=
  deterministicAccountOrder (postings.map Posting.ledgerAccountId)

/-- The accounts pass the checks, and have these totals after the postings. -/
def Accepted (d : LedgerStore) (currency : String) (postings : List Posting)
    (projected : List LockedAccount) : Prop :=
  (selectAccounts d (lockOrder postings)).length = (lockOrder postings).length ∧
    projectAccounts (selectAccounts d (lockOrder postings)) currency postings = .ok projected

/-- The amounts and the totals fit their columns. -/
def Bigints (postings : List Posting) (projected : List LockedAccount) : Prop :=
  (∀ p ∈ postings, isBigint p.amountMinor = true) ∧
    ∀ a ∈ projected, isBigint a.totals.debitTotalMinor = true ∧
      isBigint a.totals.creditTotalMinor = true

/-- Accounts that do not pass the checks. -/
theorem perform_journalRun_rejected (env : ℕ → Env) (n : ℕ) (totalMinor : ℤ)
    (h : ∀ projected, ¬ Accepted d request.currency postings projected) :
    ∃ e ws n', (journalRun runtime request correlationId actor postings totalMinor).perform
      ledgerDatabase env d [] n = (.error e, ws, n') ∧ Plain e := by
  rw [journalRun, Tx.perform_bind, perform_lockAccounts]
  split_ifs with hlength
  · exact ⟨_, _, _, rfl, plain_accountNotFound⟩
  · rw [Tx.resume]
    split
    next e hprojected =>
      exact ⟨e, _, _, rfl, plain_of_projectAccounts hprojected⟩
    next projected hprojected =>
      exact absurd ⟨not_not.mp hlength, hprojected⟩ (h projected)

/-- The statements after the checks. -/
theorem perform_journalRun_accepted (h : Accepted d request.currency postings projected) :
    (journalRun runtime request correlationId actor postings totalMinor).perform
        ledgerDatabase env d [] n =
      Tx.resume ledgerDatabase env d (fun entry =>
          (createPostings runtime entry postings 0).bind fun rows =>
            (updateProjections projected).bind fun _ =>
              .ret (.journal (journalResult entry rows totalMinor)))
        ((createEntry runtime request correlationId actor).perform ledgerDatabase env d []
          (n + 1)) := by
  obtain ⟨hlength, hprojected⟩ := h
  unfold lockOrder at hlength hprojected
  rw [journalRun, Tx.perform_bind, perform_lockAccounts, if_neg (not_not.mpr hlength), Tx.resume,
    hprojected]
  exact Tx.perform_bind _ _ _ _

/-- A reference in use. -/
theorem perform_journalRun_taken (totalMinor : ℤ) (n : ℕ) (hnew : Generates d env N) (hn : n + 1 < N)
    (h : Accepted d request.currency postings projected)
    (htaken : ¬ ReferenceFree d request.reference) :
    (journalRun runtime request correlationId actor postings totalMinor).perform
      ledgerDatabase env d [] n =
        (.error (uniqueViolation runtime ["reference"]), [], n + 2) := by
  rw [perform_journalRun_accepted runtime correlationId actor h,
    perform_createEntry_taken hnew hn htaken]
  rfl

/-- What the checks leave to the constraints. -/
theorem Accepted.found (h : Accepted d request.currency postings projected) (hd : StoreInvariant d)
    (hpositive : ∀ p ∈ postings, 0 < p.amountMinor) :
    (∀ p ∈ postings, d.accounts.find p.ledgerAccountId ≠ none) ∧
      (∀ a ∈ projected, d.projections.find a.id ≠ none) ∧
      ∀ a ∈ projected, 0 ≤ a.totals.debitTotalMinor ∧ 0 ≤ a.totals.creditTotalMinor := by
  obtain ⟨-, hprojected⟩ := h
  obtain ⟨-, hids, rfl, -⟩ := projectAccounts_ok hprojected
  have hlocked : ∀ a ∈ selectAccounts d (lockOrder postings), lockedAccount d a.id = some a := by
    intro a ha
    obtain ⟨id, -, hid⟩ := List.mem_filterMap.mp ha
    obtain ⟨rfl, -⟩ := lockedAccount_some hid
    exact hid
  refine ⟨fun p hp => ?_, fun b hb => ?_, fun b hb => ?_⟩
  · obtain ⟨a, ha, hid⟩ := List.mem_map.mp (hids p hp)
    obtain ⟨-, account, -, haccount, -⟩ := lockedAccount_some (hlocked a ha)
    rw [← hid, haccount]
    exact Option.some_ne_none _
  · obtain ⟨a, ha, rfl⟩ := List.mem_map.mp hb
    obtain ⟨-, -, projection, -, hprojection, -⟩ := lockedAccount_some (hlocked a ha)
    show d.projections.find a.id ≠ none
    rw [hprojection]
    exact Option.some_ne_none _
  · obtain ⟨a, ha, rfl⟩ := List.mem_map.mp hb
    have htotals := totals_of_locked hd (hlocked a ha)
    have hdebit : 0 ≤ a.totals.debitTotalMinor := by
      rw [htotals]
      exact accountTotal_nonneg hd.positive
    have hcredit : 0 ≤ a.totals.creditTotalMinor := by
      rw [htotals]
      exact accountTotal_nonneg hd.positive
    exact ⟨add_nonneg hdebit (accountTotal_nonneg hpositive),
      add_nonneg hcredit (accountTotal_nonneg hpositive)⟩

/-- A draft of the accepted postings fits. -/
theorem Accepted.fits (h : Accepted d request.currency postings projected) (hnew : Generates d env N)
    (hn : n ≤ N)
    (hbalanced : assertBalanced postings = .ok totalMinor) {entry : JournalEntryRow}
    {rows : List JournalPostingRow} (hcurrency : entry.currency = request.currency)
    (hpostings : rows.map JournalPostingRow.toPosting = postings) (hdraft : Draft env entry rows n) :
    JournalFits d entry rows (updatesOf projected) := by
  have hlocked : Locked (selectAccounts d (lockOrder postings))
      ((selectAccounts d (lockOrder postings)).flatMap (fun a => [.account a.id, .projection a.id]) ++
        .entry entry.id :: rows.map fun p => .posting p.id) d := by
    intro a ha
    obtain ⟨id, -, hid⟩ := List.mem_filterMap.mp ha
    obtain ⟨rfl, -⟩ := lockedAccount_some hid
    exact ⟨List.mem_append_left _ (List.mem_flatMap.mpr ⟨a, ha, by simp⟩),
      List.mem_append_left _ (List.mem_flatMap.mpr ⟨a, ha, by simp⟩), hid⟩
  have hdrafted : Drafted entry rows
      ((selectAccounts d (lockOrder postings)).flatMap (fun a => [.account a.id, .projection a.id]) ++
        .entry entry.id :: rows.map fun p => .posting p.id) d := by
    refine ⟨⟨List.mem_append_right _ List.mem_cons_self, ?_⟩, fun p hp => ⟨List.mem_append_right _
      (List.mem_cons_of_mem _ (List.mem_map_of_mem (f := fun p => LedgerLock.posting p.id) hp)), ?_⟩,
      hdraft.nodup⟩
    · obtain ⟨m, hm, hmid⟩ := hdraft.entry_id
      rw [hmid]
      exact hnew.entries m (by omega)
    · obtain ⟨m, hm, hmid⟩ := hdraft.row_ids p hp
      rw [hmid]
      exact hnew.postings m (by omega)
  exact journalFits hlocked hdrafted (ids_selectAccounts _) h.2 hbalanced hcurrency hpostings
    hdraft.owned

/-- A journal that the constraints let through, or amounts that do not fit their columns. -/
theorem perform_journalRun_free (n : ℕ) (hnew : Generates d env N) (hd : StoreInvariant d)
    (hbalanced : assertBalanced postings = .ok totalMinor) (hlength : postings.length ≤ 32)
    (hn : n + 2 + postings.length ≤ N)
    (h : Accepted d request.currency postings projected)
    (hfree : ReferenceFree d request.reference) :
    Bigints postings projected ∧ (∃ entry rows n',
        (journalRun runtime request correlationId actor postings totalMinor).perform
            ledgerDatabase env d [] n =
          (.ok (.journal (journalResult entry rows totalMinor)),
            journalWrites entry rows (updatesOf projected), n') ∧
        JournalFits d entry rows (updatesOf projected)) ∨
      ¬ Bigints postings projected ∧ ∃ ws n',
        (journalRun runtime request correlationId actor postings totalMinor).perform
          ledgerDatabase env d [] n = (.error .other, ws, n') := by
  obtain ⟨entry, hentry, hcurrency, hdraft⟩ :=
    perform_createEntry runtime correlationId actor (n := n + 1) hnew (by omega) hfree
  have hpositive := (assertBalanced_ok hbalanced).2.1
  obtain ⟨haccounts, hprojections, hnonnegative⟩ := h.found hd hpositive
  rw [perform_journalRun_accepted runtime correlationId actor h, hentry, Tx.resume, Tx.perform_bind]
  rcases perform_createPostings runtime hnew hd hpositive haccounts
    (by simpa using hlength) hn hdraft with ⟨hamounts, rows, hrows, hpostings, hdraft'⟩ |
    ⟨hamounts, ws, n', hrows⟩
  · rw [List.length_nil, List.map_nil, List.nil_append] at hrows
    rw [List.nil_append] at hdraft'
    rw [hrows, Tx.resume, Tx.perform_bind]
    have hfound : ∀ a ∈ projected, (ledgerDatabase.applyAll d
        (.createEntry entry :: rows.map .createPosting)).projections.find a.id ≠ none := by
      rw [(hdraft'.seen hnew hn).1]
      exact hprojections
    rcases perform_updateProjections env (n + 1 + 1 + postings.length) hfound
      hnonnegative with ⟨htotals, hupdates⟩ | ⟨htotals, ws, n', hupdates⟩
    · left
      rw [hupdates]
      exact ⟨⟨hamounts, htotals⟩, entry, rows, _, rfl,
        h.fits hnew hn hbalanced hcurrency hpostings hdraft'⟩
    · right
      rw [hupdates]
      exact ⟨fun hfits => htotals hfits.2, ws, n', rfl⟩
  · right
    rw [List.length_nil, List.map_nil] at hrows
    rw [hrows]
    exact ⟨fun hfits => hamounts hfits.1, ws, n', rfl⟩

/-- The deferred constraints have nothing against a journal that fits. -/
theorem deferred_journal {entry : JournalEntryRow} {rows : List JournalPostingRow}
    {updates : List (String × Totals)} (hd : StoreInvariant d)
    (h : JournalFits d entry rows updates) :
    ledgerDatabase.deferred d (journalWrites entry rows updates) = true := by
  have hposted := applyAll_journal h
  have hinv := hd.journal h hposted
  have hentry : (ledgerDatabase.applyAll d (journalWrites entry rows updates)).entries.find entry.id =
      some entry := by
    rw [hposted.entries]
    exact (Table.find_add h.entry_new).trans (if_pos rfl)
  show ((journalWrites entry rows updates).filterMap triggeredEntry).all
    (assertJournalIntegrity (ledgerDatabase.applyAll d (journalWrites entry rows updates))) = true
  rw [List.all_eq_true]
  intro id hid
  obtain ⟨w, hw, hwid⟩ := List.mem_filterMap.mp hid
  have hmine : id = entry.id := by
    rcases List.mem_append.mp hw with hw | hw
    · rcases List.mem_cons.mp hw with rfl | hw
      · exact (Option.some.inj hwid).symm
      · obtain ⟨p, hp, rfl⟩ := List.mem_map.mp hw
        exact (Option.some.inj hwid).symm.trans (h.journal p hp).1
    · obtain ⟨u, -, rfl⟩ := List.mem_map.mp hw
      cases hwid
  rw [hmine]
  exact integrity_of_invariant hinv hentry

end Run

end AegisShield.Ledger
