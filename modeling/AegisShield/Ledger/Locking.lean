import AegisShield.Common.Locking
import AegisShield.Common.PrefixCode
import AegisShield.Ledger.Invariant

/-!
# The lock order of journals

`JournalService.post` takes the entry of its idempotency record, then for each account in
ascending order the row of the account and that of its projection (`lockAccounts`), then
the entry of the journal's reference. Every further lock is one that it holds.

Results:
* `inOrder_execute`: an idempotent execution takes its locks in order if its callback does.
* `inOrder_post`: `post` takes its locks in order.
* `post_locking_acyclic`: no `post` calls wait for one another in a circle.
-/

namespace AegisShield.Ledger

open Common

/-! ## The order of texts -/

theorem lt_of_lexLe : ∀ {xs ys : List ℕ}, lexLe xs ys = true → xs ≠ ys → xs < ys
  | [], [], _, hne => absurd rfl hne
  | [], _ :: _, _, _ => List.nil_lt_cons _ _
  | x :: xs, y :: ys, h, hne => by
    rw [lexLe, Bool.or_eq_true, Bool.and_eq_true, decide_eq_true_eq, decide_eq_true_eq] at h
    rw [List.cons_lt_cons_iff]
    rcases h with hlt | ⟨rfl, hle⟩
    · exact .inl hlt
    · exact .inr ⟨rfl, lt_of_lexLe hle fun heq => hne (heq ▸ rfl)⟩

theorem lexLe_of_le : ∀ {xs ys : List ℕ}, xs ≤ ys → lexLe xs ys = true
  | [], _, _ => by rw [lexLe]
  | _ :: _, [], h => absurd (List.nil_lt_cons _ _) (not_lt.mpr h)
  | x :: xs, y :: ys, h => by
    rw [lexLe, Bool.or_eq_true, Bool.and_eq_true, decide_eq_true_eq, decide_eq_true_eq]
    rcases lt_or_eq_of_le h with hlt | heq
    · rcases List.cons_lt_cons_iff.mp hlt with hhead | ⟨rfl, htail⟩
      · exact .inl hhead
      · exact .inr ⟨rfl, lexLe_of_le htail.le⟩
    · obtain ⟨rfl, rfl⟩ := List.cons.inj heq
      exact .inr ⟨rfl, lexLe_of_le le_rfl⟩

theorem lexLe_iff {xs ys : List ℕ} : lexLe xs ys = true ↔ xs ≤ ys := by
  refine ⟨fun h => ?_, lexLe_of_le⟩
  by_cases heq : xs = ys
  · exact heq.le
  · exact (lt_of_lexLe h heq).le

/-- The code units of one character. -/
theorem utf16_prefixFree : PrefixFree fun c : Char =>
    if c.toNat < 0x10000 then [c.toNat]
    else [0xD800 + (c.toNat - 0x10000) / 0x400, 0xDC00 + (c.toNat - 0x10000) % 0x400] := by
  have hvalid : ∀ c : Char, c.toNat < 0xD800 ∨ 0xDFFF < c.toNat ∧ c.toNat < 0x110000 := fun c => c.valid
  intro a b rest rest' h
  have ha := hvalid a
  have hb := hvalid b
  beta_reduce at h
  split_ifs at h with hsmall hsmall' hsmall'
  · simp only [List.cons_append, List.nil_append, List.cons.injEq] at h
    exact ⟨Char.toNat_inj.mp h.1, h.2⟩
  · simp only [List.cons_append, List.nil_append, List.cons.injEq] at h
    omega
  · simp only [List.cons_append, List.nil_append, List.cons.injEq] at h
    omega
  · simp only [List.cons_append, List.nil_append, List.cons.injEq] at h
    exact ⟨Char.toNat_inj.mp (by omega), h.2.2⟩

theorem utf16_inj {s t : String} (h : utf16 s = utf16 t) : s = t := by
  refine String.toList_inj.mp (flatMap_inj utf16_prefixFree (fun c => ?_) h)
  split_ifs <;> exact List.cons_ne_nil _ _

theorem textLe_iff {a b : String} : textLe a b ↔ utf16 a ≤ utf16 b := lexLe_iff

/-- The account identifiers, in strictly ascending order. -/
theorem pairwise_deterministicAccountOrder (ids : List String) :
    (deterministicAccountOrder ids).Pairwise fun a b => utf16 a < utf16 b := by
  have htotal : Std.Total textLe :=
    ⟨fun a b => (le_total (utf16 a) (utf16 b)).imp textLe_iff.mpr textLe_iff.mpr⟩
  have htrans : IsTrans String textLe :=
    ⟨fun a b c hab hbc => textLe_iff.mpr ((textLe_iff.mp hab).trans (textLe_iff.mp hbc))⟩
  have hsorted := List.pairwise_insertionSort textLe ids.dedup
  have hnodup := nodup_deterministicAccountOrder ids
  refine (hsorted.and hnodup).imp fun hab => ?_
  obtain ⟨hle, hne⟩ := hab
  exact lt_of_le_of_ne (textLe_iff.mp hle) fun heq => hne (utf16_inj heq)

/-! ## The order of locks -/

/-- No two transactions ask for one of these: entries of generated identifiers. -/
def LedgerLock.generated : LedgerLock → Bool
  | .entry _ | .posting _ | .postingSequence _ _ => true
  | _ => false

/-- The place of a lock: accounts in ascending order, each followed by its projection,
    then the references. -/
def LedgerLock.place : LedgerLock → ℕ ×ₗ List ℕ ×ₗ ℕ
  | .account id => toLex (0, toLex (utf16 id, 0))
  | .projection id => toLex (0, toLex (utf16 id, 1))
  | _ => toLex (1, toLex ([], 0))

/-- The order in which the Ledger takes its locks. -/
def LedgerLock.before (k l : LedgerLock) : Prop := k.place < l.place

section Stored

variable {A LA V E T ρ : Type*}

/-- The entries of the records come first. -/
def StoredLock.before (before : LA → LA → Prop) : StoredLock LA → StoredLock LA → Prop
  | .record _, .app _ => True
  | .app k, .app l => before k l
  | _, .record _ => False

/-- An entry of the records or a lock of the application that others may ask for. -/
def StoredLock.contended (contended : LA → Bool) : StoredLock LA → Bool
  | .record _ => true
  | .app l => contended l

variable {before : LA → LA → Prop} {contended : LA → Bool}

instance [IsTrans LA before] : IsTrans (StoredLock LA) (StoredLock.before before) where
  trans k l m hkl hlm := by
    cases m with
    | record key => cases l <;> exact hlm.elim
    | app m =>
      cases l with
      | record key => cases k <;> exact hkl.elim
      | app l =>
        cases k with
        | record key => trivial
        | app k => exact Trans.trans (r := before) (s := before) hkl hlm

instance [Std.Irrefl before] : Std.Irrefl (StoredLock.before before) where
  irrefl l h := by
    cases l with
    | record key => exact h
    | app l => exact Std.Irrefl.irrefl l h

variable {k : String × String}

theorem ascends_app {H ls : List LA} (h : Ascends before H ls) :
    Ascends (StoredLock.before before) (.record k :: H.map .app) (ls.map .app) := by
  induction ls generalizing H with
  | nil => trivial
  | cons l ls ih =>
    obtain ⟨hl, hls⟩ := h
    refine ⟨hl.imp (fun hmem => List.mem_cons_of_mem _ (List.mem_map_of_mem hmem)) ?_, ?_⟩
    · intro hbefore k' hk'
      rcases List.mem_cons.mp hk' with rfl | hk'
      · trivial
      · obtain ⟨k'', hmem, rfl⟩ := List.mem_map.mp hk'
        exact hbefore k'' hmem
    · have hrest := ih hls
      rw [List.map_append] at hrest
      exact hrest

theorem filter_contended (ls : List LA) :
    (ls.map .app).filter (StoredLock.contended contended) = (ls.filter contended).map .app := by
  rw [List.filter_map]
  rfl

/-- A transaction of the application after the entry of a record. -/
theorem inOrder_lift {Q : T → List LA → Prop} {run : Tx A LA V E Thrown T}
    {H : List LA} (h : run.InOrder before contended Q H) :
    (liftTx run : Tx (Stored A ρ) _ (StoredWrite V ρ) _ _ _).InOrder (StoredLock.before before)
      (StoredLock.contended contended) (fun _ H => .record k ∈ H) (.record k :: H.map .app) := by
  induction run generalizing H with
  | ret value => exact List.mem_cons_self
  | throw e => trivial
  | stmt locks made rest ih =>
    intro d e
    obtain ⟨hlocks, hrest⟩ := h d.app e
    have hlifted := ih d.app e hrest
    rw [filter_contended]
    rw [List.map_append] at hlifted
    exact ⟨ascends_app hlocks, hlifted⟩

/-- An idempotent execution takes its locks in order if its callback does. -/
theorem inOrder_execute (runtime : Runtime) {options : ExecuteOptions A LA V E T ρ}
    (h : options.run.InOrder before contended (fun _ _ => True) []) :
    (execute runtime options).InOrder (StoredLock.before before)
      (StoredLock.contended contended) := by
  have hrun : (executeTx runtime options).InOrder (StoredLock.before before)
      (StoredLock.contended contended) (fun _ _ => True) [] := by
    refine Tx.InOrder.bind fun d e => ⟨⟨.inr (by simp), trivial⟩, ?_⟩
    beta_reduce
    split_ifs
    · trivial
    · refine Tx.InOrder.bind ((inOrder_lift h).mono fun value H hH d e => ⟨?_, trivial⟩)
      exact ascends_of_held fun l hl => List.eq_of_mem_singleton (List.mem_of_mem_filter hl) ▸ hH
  intro d
  beta_reduce
  split
  · trivial
  · trivial
  · refine ⟨hrun, fun r => ?_⟩
    unfold afterTx
    split
    · trivial
    · split_ifs
      · trivial
      · intro d
        beta_reduce
        split <;> trivial

end Stored

/-! ## Posting -/

instance : IsTrans LedgerLock LedgerLock.before := ⟨fun _ _ _ => lt_trans⟩

instance : Std.Irrefl LedgerLock.before := ⟨fun _ => lt_irrefl _⟩

/-- The transaction takes its locks in the Ledger's order. -/
def LedgerOrdered {T : Type} (tx : LedgerTx T) (Q : T → List LedgerLock → Prop)
    (H : List LedgerLock) : Prop :=
  tx.InOrder LedgerLock.before (fun l => !l.generated) Q H

section Post

variable {runtime : Runtime} {H : List LedgerLock} {T : Type}

theorem account_before_projection (id : String) :
    LedgerLock.before (.account id) (.projection id) := by
  simp [LedgerLock.before, LedgerLock.place, Prod.Lex.toLex_lt_toLex]

/-- The locks of an account come before those of the accounts after it. -/
theorem before_of_ids {id id' : String} (h : utf16 id < utf16 id') {k l : LedgerLock}
    (hk : k ∈ [LedgerLock.account id, .projection id])
    (hl : l ∈ [LedgerLock.account id', .projection id']) : k.before l := by
  simp only [List.mem_cons, List.not_mem_nil, or_false] at hk hl
  rcases hk with rfl | rfl <;> rcases hl with rfl | rfl <;>
    simp [LedgerLock.before, LedgerLock.place, Prod.Lex.toLex_lt_toLex, h]

/-- `lockAccounts` locks the rows in ascending order, among them the projections of the
    accounts that it returns. -/
theorem ordered_lockAccounts (ids : List String) :
    LedgerOrdered (lockAccounts ids) (fun accounts H =>
      (∀ a ∈ accounts, .projection a.id ∈ H) ∧
        ∀ l ∈ H, l.before (.entryReference default)) [] := by
  intro d e
  have hids := List.pairwise_map.mp ((pairwise_deterministicAccountOrder _).sublist
    (sublist_selectAccounts (d := d) (deterministicAccountOrder ids)))
  have hcontended : ∀ accounts : List LockedAccount, (accounts.flatMap fun a =>
      [LedgerLock.account a.id, .projection a.id]).filter (fun l => !l.generated) =
        accounts.flatMap fun a => [.account a.id, .projection a.id] := by
    intro accounts
    refine List.filter_eq_self.mpr fun l hl => ?_
    obtain ⟨a, -, hl⟩ := List.mem_flatMap.mp hl
    simp only [List.mem_cons, List.not_mem_nil, or_false] at hl
    rcases hl with rfl | rfl <;> rfl
  rw [hcontended, List.nil_append]
  refine ⟨ascends_of_pairwise (by simp) (List.pairwise_flatMap.mpr ⟨fun a _ => ?_, ?_⟩), ?_⟩
  · exact List.pairwise_pair.mpr (account_before_projection a.id)
  · exact hids.imp fun hlt k hk l hl => before_of_ids hlt hk hl
  · beta_reduce
    split_ifs
    · trivial
    · refine ⟨fun a ha => List.mem_flatMap.mpr ⟨a, ha, by simp⟩, fun l hl => ?_⟩
      obtain ⟨a, -, hl⟩ := List.mem_flatMap.mp hl
      simp only [List.mem_cons, List.not_mem_nil, or_false] at hl
      rcases hl with rfl | rfl <;>
        simp [LedgerLock.before, LedgerLock.place, Prod.Lex.toLex_lt_toLex]

/-- A statement that writes one row. -/
theorem ordered_writeRow {row : Env → T} {write : T → LedgerWrite}
    {violation : LedgerStore → T → Option Thrown} {Q : T → List LedgerLock → Prop}
    (h : ∀ e, Ascends LedgerLock.before H ((writeLocks (write (row e))).filter (!·.generated)) ∧
      Q (row e) (H ++ (writeLocks (write (row e))).filter (!·.generated))) :
    LedgerOrdered (writeRow row write violation) Q H := by
  intro d e
  refine ⟨(h e).1, ?_⟩
  beta_reduce
  split
  · trivial
  · exact (h e).2

theorem ordered_createEntry {request : InternalJournalRequest} {correlationId : String}
    {actor : JournalActor} (hlast : ∀ l ∈ H, l.before (.entryReference default)) :
    LedgerOrdered (createEntry runtime request correlationId actor) (fun _ _ => True) H :=
  ordered_writeRow fun _ => ⟨⟨.inr hlast, trivial⟩, trivial⟩

variable {postings : List Posting}

/-- Postings take no lock that others may ask for. -/
theorem ordered_createPostings {entry : JournalEntryRow} {sequence : ℕ} :
    LedgerOrdered (createPostings runtime entry postings sequence) (fun _ K => K = H) H := by
  induction postings generalizing sequence with
  | nil => rfl
  | cons posting postings ih =>
    refine Tx.InOrder.bind (ordered_writeRow fun _ => ⟨trivial, Tx.InOrder.bind ?_⟩)
    rw [show ∀ p : JournalPostingRow, (writeLocks (.createPosting p)).filter (!·.generated) = []
      from fun _ => rfl, List.append_nil]
    exact ih

/-- The updated projections are locked already. -/
theorem ordered_updateProjections {projected : List LockedAccount}
    (h : ∀ a ∈ projected, .projection a.id ∈ H) :
    LedgerOrdered (updateProjections projected) (fun _ _ => True) H := by
  induction projected generalizing H with
  | nil => trivial
  | cons account projected ih =>
    refine Tx.InOrder.bind (ordered_writeRow fun _ => ⟨⟨.inl ?_, trivial⟩, ih fun a ha => ?_⟩)
    · exact h account List.mem_cons_self
    · exact List.mem_append_left _ (h a (List.mem_cons_of_mem account ha))

/-- The transaction of `post` takes its locks in order. -/
theorem ordered_journalRun {request : InternalJournalRequest} {correlationId : String}
    {actor : JournalActor} {totalMinor : ℤ} :
    LedgerOrdered (journalRun runtime request correlationId actor postings totalMinor)
      (fun _ _ => True) [] := by
  refine Tx.InOrder.bind ((ordered_lockAccounts _).mono fun accounts H hH => ?_)
  obtain ⟨hprojections, hlast⟩ := hH
  cases hprojected : projectAccounts accounts request.currency postings with
  | error e => trivial
  | ok projected =>
    obtain ⟨-, -, rfl, -⟩ := projectAccounts_ok hprojected
    have hkeep : ∀ H K : List LedgerLock, (∀ a ∈ accounts, .projection a.id ∈ H) →
        ∀ a ∈ accounts, .projection a.id ∈ H ++ K :=
      fun H K h a ha => List.mem_append_left K (h a ha)
    refine Tx.InOrder.bind (((ordered_createEntry hlast).keep hkeep hprojections).mono ?_)
    rintro entry H ⟨-, hH⟩
    refine Tx.InOrder.bind (ordered_createPostings.mono ?_)
    rintro rows H rfl
    refine Tx.InOrder.bind ((ordered_updateProjections fun a ha => ?_).mono fun _ _ _ => trivial)
    obtain ⟨a', ha', rfl⟩ := List.mem_map.mp ha
    exact hH a' ha'

/-- `post` takes its locks in order. -/
theorem inOrder_post (request : InternalJournalRequest) (correlationId : String)
    (actor : JournalActor) : (post runtime request correlationId actor).InOrder
      (StoredLock.before LedgerLock.before) (StoredLock.contended fun l => !l.generated) := by
  unfold post
  split
  · trivial
  · split
    · trivial
    · refine Client.InOrder.bind (inOrder_execute runtime ?_) fun outcome => trivial
      exact ordered_journalRun

end Post

/-! ## Deadlock freedom -/

/-- Calls of `post`, each with its request, correlation identifier and actor. -/
def postCalls (runtime : Runtime) :
    LedgerCalls LedgerResponse (InternalJournalRequest × String × JournalActor) where
  database := stored ledgerDatabase
  init _ := True
  call input := post runtime input.1 input.2.1 input.2.2

/-- `postCalls`, lock by lock. -/
def postLocking (runtime : Runtime) :=
  (postCalls runtime).locking (StoredLock.contended fun l => !l.generated)

/-- No `post` calls wait for one another in a circle. -/
theorem post_locking_acyclic (runtime : Runtime) {procs}
    (h : (postLocking runtime).Reachable Machine.always procs) : Calls.Acyclic procs :=
  acyclic_of_inOrder (fun _ => inOrder_post _ _ _) h

/-- A journal that moves 1.00 LKR between two accounts. -/
def moveFunds (idempotencyKey fromId toId : String) :
    InternalJournalRequest × String × JournalActor :=
  ({ reference := none
     entryType := .INTERNAL_TEST
     currency := "LKR"
     description := none
     effectiveAt := none
     idempotencyKey := idempotencyKey
     postings := [{ ledgerAccountId := fromId, direction := .DEBIT, amountMinor := 100 },
       { ledgerAccountId := toId, direction := .CREDIT, amountMinor := 100 }]
     metadata := none }, "correlation", { type := .SYSTEM, id := "operator" })

/-- Two journals in opposite directions are to lock the same accounts. -/
def oppositeJournals : List (Calls.LockAction LedgerDb Env
    (InternalJournalRequest × String × JournalActor)) :=
  let d : LedgerDb :=
    { records := Table.empty, app := migratedStore "a1" "b2" }
  let e : Env := { uuid := "e1", random := "-", now := 0 }
  [.start (moveFunds "key-0001" "a1" "b2"), .start (moveFunds "key-0002" "b2" "a1")] ++
    ([.query d, .begin, .stmt d e, .take, .stmt d e].flatMap fun move =>
      [.next 0 move, .next 1 move]) ++ [.next 1 .take, .next 1 .take]

/-- The second call has locked both rows of the first account, for which the first call waits. -/
def firstWaits (procs : List ((InternalJournalRequest × String × JournalActor) ×
    LockProc LedgerDb (StoredLock LedgerLock)
      (StoredWrite LedgerWrite LedgerResponse) Env Thrown LedgerResponse LedgerResponse)) : Bool :=
  match procs with
  | [p, q] => p.2.waiting = some (.app (.account "a1")) ∧
      q.2.held = [.record ("journal-entry", plainRuntime.sha256 "key-0002"),
        .app (.account "a1"), .app (.projection "a1")]
  | _ => false

theorem post_locking_acyclic_opposite : ∃ procs, Calls.Acyclic procs ∧
    Calls.WaitsFor procs 0 1 ∧ (postLocking plainRuntime).Reachable Machine.always procs := by
  obtain ⟨procs, hprocs, hwaits⟩ := Machine.reachable_of_run (M := postLocking plainRuntime)
    oppositeJournals firstWaits rfl (by decide +kernel)
  refine ⟨procs, post_locking_acyclic plainRuntime hprocs, ?_, hprocs⟩
  unfold firstWaits at hwaits
  split at hwaits
  next p q =>
    obtain ⟨hwaiting, hheld⟩ := of_decide_eq_true hwaits
    exact ⟨p, q, _, rfl, rfl, hwaiting, hheld ▸ by simp⟩
  · cases hwaits

end AegisShield.Ledger
