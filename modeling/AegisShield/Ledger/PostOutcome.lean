import AegisShield.Ledger.Invariant
import AegisShield.Ledger.PostAlone

/-!
# When a journal is posted

The outcome of `JournalService.post` (`journal.service.ts`) under a key that nobody has used,
against what a journal must be: postings that balance, on accounts of its currency that exist
and can bear them, under a reference that is free.

`lockAccounts` finds the accounts as PostgreSQL compares UUIDs, and the postings are then looked
up among them by their texts. A reference in use violates a constraint whose target names
no table.

Results:
* `posted_when`: on its own, `post` succeeds exactly on such a journal, fails without a trace
  and never says that the key is in use, exactly where letter case, the reference and the
  range of `BIGINT` allow it.
-/

namespace AegisShield.Ledger

open Common

/-! ## Merging -/

section Merge

variable {ps qs : List Posting} {p q : Posting}

/-- What `normalisePostings` merges by. -/
def Posting.line (p : Posting) : String × PostingDirection := (p.ledgerAccountId, p.direction)

theorem postingKey_eq_iff : postingKey p = postingKey q ↔ p.line = q.line := by
  constructor
  · intro heq
    have hlists := congrArg (fun text => text.toList.reverse) heq
    obtain ⟨a, direction, amount⟩ := p
    obtain ⟨b, direction', amount'⟩ := q
    cases direction with
    | DEBIT =>
      cases direction' with
      | DEBIT =>
        simpa [postingKey, PostingDirection.text, Posting.line, String.toList_inj] using hlists
      | CREDIT => simp [postingKey, PostingDirection.text] at hlists
    | CREDIT =>
      cases direction' with
      | DEBIT => simp [postingKey, PostingDirection.text] at hlists
      | CREDIT =>
        simpa [postingKey, PostingDirection.text, Posting.line, String.toList_inj] using hlists
  · intro heq
    obtain ⟨hid, hdirection⟩ := Prod.mk.inj heq
    unfold postingKey
    rw [hid, hdirection]

/-- The sum of the amounts of some lines. -/
def lineTotal (ps : List Posting) (P : String × PostingDirection → Bool) : ℤ :=
  ((ps.filter fun p => P p.line).map Posting.amountMinor).sum

theorem lineTotal_cons (P : String × PostingDirection → Bool) :
    lineTotal (p :: ps) P = (if P p.line then p.amountMinor else 0) + lineTotal ps P := by
  unfold lineTotal
  rw [List.filter_cons]
  split_ifs
  · rw [List.map_cons, List.sum_cons]
  · rw [zero_add]

theorem lineTotal_append (P : String × PostingDirection → Bool) :
    lineTotal (ps ++ qs) P = lineTotal ps P + lineTotal qs P := by
  unfold lineTotal
  rw [List.filter_append, List.map_append, List.sum_append]

theorem directionTotal_eq_lineTotal (direction : PostingDirection) :
    directionTotal ps direction = lineTotal ps fun line => line.2 = direction := rfl

theorem accountTotal_eq_lineTotal (id : String) (direction : PostingDirection) :
    accountTotal ps id direction = lineTotal ps fun line => line = (id, direction) := by
  induction ps with
  | nil => rfl
  | cons p ps ih =>
    rw [accountTotal_cons, lineTotal_cons, ih]
    simp [Posting.line]

/-- Some postings are others with those of one line merged. -/
structure Merged (merged ps : List Posting) : Prop where
  nodup : (merged.map Posting.line).Nodup
  lines : ∀ line, line ∈ merged.map Posting.line ↔ line ∈ ps.map Posting.line
  totals : ∀ P, lineTotal merged P = lineTotal ps P
  positive : ∀ p ∈ merged, 0 < p.amountMinor

/-- A posting added to those of its line. -/
def Posting.add (p q : Posting) : Posting :=
  if postingKey q = postingKey p then { q with amountMinor := q.amountMinor + p.amountMinor } else q

theorem Posting.line_add (p q : Posting) : (p.add q).line = q.line := by
  unfold Posting.add
  split_ifs
  · rfl
  · rfl

theorem Posting.add_of_ne (h : q.line ≠ p.line) : p.add q = q := by
  unfold Posting.add
  rw [if_neg (mt postingKey_eq_iff.mp h)]

theorem lineTotal_add (hnodup : (ps.map Posting.line).Nodup) (hmem : p.line ∈ ps.map Posting.line)
    (P : String × PostingDirection → Bool) :
    lineTotal (ps.map p.add) P = lineTotal ps P + if P p.line then p.amountMinor else 0 := by
  induction ps with
  | nil => cases hmem
  | cons q ps ih =>
    rw [List.map_cons, List.nodup_cons] at hnodup
    rw [List.map_cons, lineTotal_cons, lineTotal_cons, Posting.line_add]
    by_cases hline : q.line = p.line
    · have hrest : ps.map p.add = ps := by
        refine (List.map_congr_left fun r hr => ?_).trans (List.map_id _)
        exact Posting.add_of_ne fun heq => hnodup.1 (hline ▸ heq ▸ List.mem_map_of_mem hr)
      have hamount : (p.add q).amountMinor = q.amountMinor + p.amountMinor := by
        unfold Posting.add
        rw [if_pos (postingKey_eq_iff.mpr hline)]
      rw [hrest, hamount, hline]
      split_ifs <;> omega
    · have hrest : p.line ∈ ps.map Posting.line := by
        rcases List.mem_cons.mp (List.map_cons ▸ hmem) with heq | hmem
        · exact absurd heq.symm hline
        · exact hmem
      rw [Posting.add_of_ne hline, ih hnodup.2 hrest]
      omega

theorem combine_of_mem (h : p.line ∈ qs.map Posting.line) :
    Ledger.combine qs p = qs.map p.add := by
  obtain ⟨q, hq, hline⟩ := List.mem_map.mp h
  have hany : (qs.any fun q => postingKey q = postingKey p) = true :=
    List.any_eq_true.mpr ⟨q, hq, decide_eq_true (postingKey_eq_iff.mpr hline)⟩
  unfold Ledger.combine
  rw [if_pos hany]
  rfl

theorem combine_of_not_mem (h : p.line ∉ qs.map Posting.line) :
    Ledger.combine qs p = qs ++ [p] := by
  have hany : (qs.any fun q => postingKey q = postingKey p) = false := by
    rw [List.any_eq_false]
    intro q hq
    rw [decide_eq_true_eq]
    exact fun heq => h (postingKey_eq_iff.mp heq ▸ List.mem_map_of_mem hq)
  unfold Ledger.combine
  rw [hany, if_neg (by decide)]

theorem map_line_add (p : Posting) (qs : List Posting) :
    (qs.map p.add).map Posting.line = qs.map Posting.line := by
  rw [List.map_map]
  exact List.map_congr_left fun q _ => p.line_add q

theorem lineTotal_singleton (p : Posting) (P : String × PostingDirection → Bool) :
    lineTotal [p] P = if P p.line then p.amountMinor else 0 := by
  rw [lineTotal_cons]
  exact add_zero _

/-- One round of the loop merges one posting. -/
theorem Merged.combine (h : Merged qs ps) (hpositive : 0 < p.amountMinor) :
    Merged (combine qs p) (ps ++ [p]) := by
  by_cases hmem : p.line ∈ qs.map Posting.line
  · rw [combine_of_mem hmem]
    constructor
    · rw [map_line_add]
      exact h.nodup
    · intro line
      rw [map_line_add, h.lines, List.map_append, List.mem_append, List.map_singleton,
        List.mem_singleton]
      constructor
      · exact .inl
      · rintro (hline | rfl)
        · exact hline
        · exact (h.lines _).mp hmem
    · intro P
      rw [lineTotal_add h.nodup hmem, h.totals, lineTotal_append, lineTotal_singleton]
    · intro q hq
      obtain ⟨r, hr, rfl⟩ := List.mem_map.mp hq
      have hrpositive := h.positive r hr
      unfold Posting.add
      split_ifs
      · show 0 < r.amountMinor + p.amountMinor
        omega
      · exact hrpositive
  · rw [combine_of_not_mem hmem]
    constructor
    · rw [List.map_append, List.map_singleton, List.nodup_append]
      refine ⟨h.nodup, List.nodup_singleton _, fun a ha b hb hab => hmem ?_⟩
      rw [List.mem_singleton.mp hb] at hab
      exact hab ▸ ha
    · intro line
      rw [List.map_append, List.map_append, List.mem_append, List.mem_append, h.lines]
    · intro P
      rw [lineTotal_append, lineTotal_append, h.totals]
    · intro q hq
      rcases List.mem_append.mp hq with hq | hq
      · exact h.positive q hq
      · rw [List.mem_singleton.mp hq]
        exact hpositive

theorem Merged.foldl (hpositive : ∀ p ∈ ps, 0 < p.amountMinor) :
    Merged (ps.foldl Ledger.combine []) ps := by
  induction ps using List.reverseRecOn with
  | nil => exact ⟨List.nodup_nil, fun _ => Iff.rfl, fun _ => rfl, by simp⟩
  | append_singleton ps p ih =>
    rw [List.foldl_append]
    exact (ih fun q hq => hpositive q (List.mem_append_left _ hq)).combine
      (hpositive p (List.mem_append_right _ (List.mem_singleton_self p)))

theorem Merged.length_le (h : Merged qs ps) : qs.length ≤ ps.length := by
  have hle := (h.nodup.subperm fun line => (h.lines line).mp).length_le
  rwa [List.length_map, List.length_map] at hle

/-- A line has one merged posting, of its total. -/
theorem Merged.amount (h : Merged qs ps) (hp : p ∈ qs) :
    p.amountMinor = accountTotal ps p.ledgerAccountId p.direction := by
  have hone : ∀ qs : List Posting, (qs.map Posting.line).Nodup → p ∈ qs →
      lineTotal qs (fun line => line = p.line) = p.amountMinor := by
    intro qs hnodup hmem
    induction qs with
    | nil => cases hmem
    | cons q qs ih =>
      rw [List.map_cons, List.nodup_cons] at hnodup
      rw [lineTotal_cons]
      rcases List.mem_cons.mp hmem with rfl | hmem
      · have hzero : lineTotal qs (fun line => line = p.line) = 0 := by
          unfold lineTotal
          rw [List.filter_eq_nil_iff.mpr]
          · rfl
          · intro r hr heq
            exact hnodup.1 (of_decide_eq_true heq ▸ List.mem_map_of_mem hr)
        rw [hzero, if_pos (decide_eq_true rfl), add_zero]
      · have hne : q.line ≠ p.line := fun heq => hnodup.1 (heq ▸ List.mem_map_of_mem hmem)
        rw [if_neg (by simpa using hne), zero_add]
        exact ih hnodup.2 hmem
  rw [accountTotal_eq_lineTotal, ← h.totals]
  exact (hone qs h.nodup hp).symm

/-- `normalisePostings` throws on an amount of more than 24 digits. -/
theorem normalisePostings_eq (ps : List Posting) : normalisePostings ps =
    if ∀ p ∈ ps, p.amountMinor.natAbs < 10 ^ 24 then .ok (ps.foldl combine [])
    else .error .other := by
  unfold normalisePostings
  generalize ([] : List Posting) = acc
  induction ps generalizing acc with
  | nil => simp [pure, Except.pure]
  | cons p ps ih =>
    rw [List.foldlM_cons, List.foldl_cons, parseMinorUnits]
    simp only [List.forall_mem_cons]
    by_cases hp : p.amountMinor.natAbs < 10 ^ 24
    · rw [if_pos hp]
      simp only [hp, true_and]
      exact ih (combine acc p)
    · rw [if_neg hp, if_neg (fun h => hp h.1)]
      rfl

/-- `normalisePostings` of amounts that its schema accepts. -/
theorem normalisePostings_valid (h : ∀ p ∈ ps, positiveMinorUnitsSchema p.amountMinor = true) :
    normalisePostings ps = .ok (ps.foldl combine []) := by
  rw [normalisePostings_eq, if_pos]
  intro p hp
  have hvalid := h p hp
  unfold positiveMinorUnitsSchema at hvalid
  rw [Bool.and_eq_true, decide_eq_true_eq, decide_eq_true_eq] at hvalid
  exact hvalid.2

end Merge

/-! ## What a journal must be -/

/-- The postings with their account ids as PostgreSQL writes them. -/
def InternalJournalRequest.uuidPostings (request : InternalJournalRequest) : List Posting :=
  request.postings.map fun p => { p with ledgerAccountId := lowerCase p.ledgerAccountId }

/-- The totals of an account after some postings. -/
def totalsAfter (d : LedgerStore) (postings : List Posting) (id : String) : Totals :=
  accountTotals (d.lines ++ postings) id

/-- What a journal must be, its reference apart: at least two merged postings that balance, on
    existing accounts of its currency that can bear them. -/
structure Bookable (d : LedgerStore) (request : InternalJournalRequest) : Prop where
  two : 2 ≤ (request.uuidPostings.map Posting.line).dedup.length
  balanced : directionTotal request.uuidPostings .DEBIT = directionTotal request.uuidPostings .CREDIT
  accounts : ∀ p ∈ request.uuidPostings, ∃ account,
    d.accounts.find p.ledgerAccountId = some account ∧ account.currency = request.currency ∧
      (account.allowNegativeBalance = false → 0 ≤ signedBalanceMinor account.accountClass
        (totalsAfter d request.uuidPostings p.ledgerAccountId).debitTotalMinor
        (totalsAfter d request.uuidPostings p.ledgerAccountId).creditTotalMinor)

/-- What a journal must be. -/
def Postable (d : LedgerStore) (request : InternalJournalRequest) : Prop :=
  Bookable d request ∧ ReferenceFree d request.reference

/-- The account ids are written as PostgreSQL writes them. -/
def LowerCaseIds (request : InternalJournalRequest) : Prop :=
  ∀ p ∈ request.postings, lowerCase p.ledgerAccountId = p.ledgerAccountId

/-- The new totals of the accounts are values of a `BIGINT` column. -/
def TotalsFit (d : LedgerStore) (request : InternalJournalRequest) : Prop :=
  ∀ p ∈ request.uuidPostings,
    isBigint (totalsAfter d request.uuidPostings p.ledgerAccountId).debitTotalMinor = true ∧
      isBigint (totalsAfter d request.uuidPostings p.ledgerAccountId).creditTotalMinor = true

instance (request : InternalJournalRequest) : Decidable (LowerCaseIds request) :=
  inferInstanceAs (Decidable (∀ p ∈ request.postings, _ = _))

instance (d : LedgerStore) (request : InternalJournalRequest) : Decidable (TotalsFit d request) :=
  inferInstanceAs (Decidable (∀ p ∈ request.uuidPostings, _ ∧ _))

/-! ## The checks of `post` -/

section Checks

variable {d : LedgerStore} {request : InternalJournalRequest} {merged : List Posting}
  {projected : List LockedAccount} {ids : List String}

theorem mem_deterministicAccountOrder {id : String} :
    id ∈ deterministicAccountOrder ids ↔ id ∈ ids := by
  rw [deterministicAccountOrder, List.mem_insertionSort, List.mem_dedup]

theorem lowerCase_lowerCase (id : String) : lowerCase (lowerCase id) = lowerCase id := by
  unfold lowerCase
  rw [String.toList_ofList, List.map_map]
  congr 1
  refine List.map_congr_left fun c _ => ?_
  exact Char.toLower_toLower_eq_toLower c

theorem uuidPostings_of_lowerCase (h : LowerCaseIds request) :
    request.uuidPostings = request.postings := by
  refine (List.map_congr_left fun p hp => ?_).trans (List.map_id _)
  rw [h p hp]
  rfl

/-- The ids of the merged postings. -/
theorem Merged.mem_ids (h : Merged merged request.postings) (id : String) :
    id ∈ merged.map Posting.ledgerAccountId ↔ id ∈ request.postings.map Posting.ledgerAccountId := by
  have hfst : ∀ ps : List Posting,
      ps.map Posting.ledgerAccountId = (ps.map Posting.line).map Prod.fst := by
    intro ps
    rw [List.map_map]
    rfl
  rw [hfst, hfst, List.mem_map, List.mem_map]
  simp only [h.lines]

/-- An account that `lockAccounts` finds has an id in lower case. -/
theorem lowerCase_selectAccounts {a : LockedAccount} (ha : a ∈ selectAccounts d ids) :
    lockedAccount d a.id = some a ∧ ∃ id ∈ ids, a.id = lowerCase id := by
  obtain ⟨id, hid, hlocked⟩ := List.mem_filterMap.mp ha
  obtain ⟨rfl, -⟩ := lockedAccount_some hlocked
  obtain ⟨x, hx, hxid⟩ := List.mem_map.mp (mem_deterministicAccountOrder.mp hid)
  exact ⟨hlocked, x, hx, hxid.symm⟩

/-- An id with a capital letter is not among the accounts that were locked. -/
theorem not_accepted_of_capital (hmerged : Merged merged request.postings)
    (h : ¬ LowerCaseIds request) : ¬ Accepted d request.currency merged projected := by
  rintro ⟨-, hprojected⟩
  refine h fun p hp => ?_
  have hline := (hmerged.mem_ids _).mpr (List.mem_map_of_mem hp)
  obtain ⟨q, hq, hid⟩ := List.mem_map.mp hline
  obtain ⟨a, ha, haid⟩ := List.mem_map.mp ((projectAccounts_ok hprojected).2.1 q hq)
  obtain ⟨-, x, -, hx⟩ := lowerCase_selectAccounts ha
  rw [← hid, ← haid, hx, lowerCase_lowerCase]

/-- The totals that `post` projects. -/
theorem posted_totals (hd : StoreInvariant d) (hmerged : Merged merged request.postings)
    {a : LockedAccount} (h : lockedAccount d a.id = some a) :
    (a.posted merged).totals = totalsAfter d request.postings a.id := by
  have htotals := totals_of_locked hd h
  have hnew : ∀ direction, accountTotal merged a.id direction =
      accountTotal request.postings a.id direction := by
    intro direction
    rw [accountTotal_eq_lineTotal, accountTotal_eq_lineTotal, hmerged.totals]
  unfold LockedAccount.posted totalsAfter accountTotals
  dsimp only
  rw [htotals, hnew, hnew, accountTotal_append, accountTotal_append]
  rfl

/-- With ids in lower case, `lockAccounts` finds the accounts of the postings if all exist. -/
theorem length_selectAccounts (hmerged : Merged merged request.postings) (h : LowerCaseIds request)
    (hfound : ∀ p ∈ request.postings, (lockedAccount d p.ledgerAccountId).isSome = true) :
    (selectAccounts d (lockOrder merged)).length = (lockOrder merged).length := by
  have hmem : ∀ id ∈ lockOrder merged, ∃ p ∈ request.postings, p.ledgerAccountId = id := by
    intro id hid
    exact List.mem_map.mp ((hmerged.mem_ids _).mp (mem_deterministicAccountOrder.mp hid))
  have hlower : (lockOrder merged).map lowerCase = lockOrder merged := by
    refine (List.map_congr_left fun id hid => ?_).trans (List.map_id _)
    obtain ⟨p, hp, rfl⟩ := hmem id hid
    exact h p hp
  have hlength : (deterministicAccountOrder (lockOrder merged)).length =
      (lockOrder merged).length := by
    rw [deterministicAccountOrder, List.length_insertionSort,
      List.Nodup.dedup (l := lockOrder merged) (nodup_deterministicAccountOrder _)]
  unfold selectAccounts
  rw [hlower, ← hlength, List.filterMap_length_eq_length]
  intro id hid
  obtain ⟨p, hp, rfl⟩ := hmem id (mem_deterministicAccountOrder.mp hid)
  exact hfound p hp

/-- With ids in lower case, the checks of `post` are those of its journal. -/
theorem accepted_iff (hd : StoreInvariant d) (hmerged : Merged merged request.postings)
    (h : LowerCaseIds request) :
    (∃ projected, Accepted d request.currency merged projected) ↔
      ∀ p ∈ request.postings, ∃ account,
        d.accounts.find p.ledgerAccountId = some account ∧ account.currency = request.currency ∧
          (account.allowNegativeBalance = false → 0 ≤ signedBalanceMinor account.accountClass
            (totalsAfter d request.postings p.ledgerAccountId).debitTotalMinor
            (totalsAfter d request.postings p.ledgerAccountId).creditTotalMinor) := by
  constructor
  · rintro ⟨projected, -, hprojected⟩ p hp
    obtain ⟨hcurrencies, hids, rfl, hfunds⟩ := projectAccounts_ok hprojected
    obtain ⟨q, hq, hid⟩ := List.mem_map.mp
      ((hmerged.mem_ids _).mpr (List.mem_map_of_mem hp))
    obtain ⟨a, ha, haid⟩ := List.mem_map.mp (hids q hq)
    obtain ⟨hlocked, -⟩ := lowerCase_selectAccounts ha
    obtain ⟨-, account, -, haccount, -, hcurrency, hclass, hallow, -⟩ := lockedAccount_some hlocked
    have hpid : a.id = p.ledgerAccountId := haid.trans hid
    refine ⟨account, hpid ▸ haccount, hcurrency.trans (hcurrencies a ha), fun hfalse => ?_⟩
    have hsigned := hfunds _ (List.mem_map_of_mem ha) (hallow.symm.trans hfalse)
    rw [posted_totals hd hmerged hlocked] at hsigned
    rw [hclass, ← hpid]
    exact hsigned
  · intro hall
    have hlocked : ∀ p ∈ request.postings, ∃ a, lockedAccount d p.ledgerAccountId = some a := by
      intro p hp
      obtain ⟨account, haccount, -⟩ := hall p hp
      obtain ⟨hmem, hid⟩ := Table.find_some haccount
      have hkey : account.id = p.ledgerAccountId := hid
      obtain ⟨projection, hprojection, -⟩ := hd.accounts account hmem
      unfold lockedAccount
      rw [haccount, ← hkey, hprojection]
      exact ⟨_, rfl⟩
    have hlength := length_selectAccounts hmerged h fun p hp =>
      Option.isSome_iff_exists.mpr (hlocked p hp)
    have hselected : ∀ a ∈ selectAccounts d (lockOrder merged), ∃ p ∈ request.postings,
        p.ledgerAccountId = a.id := by
      intro a ha
      obtain ⟨-, id, hid, haid⟩ := lowerCase_selectAccounts ha
      obtain ⟨p, hp, rfl⟩ := List.mem_map.mp
        ((hmerged.mem_ids _).mp (mem_deterministicAccountOrder.mp hid))
      exact ⟨p, hp, (h p hp).symm.trans haid.symm⟩
    refine ⟨_, hlength, projectAccounts_of_checks (fun a ha => ?_) (fun q hq => ?_)
      fun a ha hallow => ?_⟩
    · obtain ⟨p, hp, hid⟩ := hselected a ha
      obtain ⟨account, haccount, hcurrency, -⟩ := hall p hp
      obtain ⟨-, account', -, haccount', -, hcurrency', -⟩ :=
        lockedAccount_some (lowerCase_selectAccounts ha).1
      rw [← hid, haccount] at haccount'
      cases haccount'
      exact hcurrency'.symm.trans hcurrency
    · obtain ⟨p, hp, hid⟩ := List.mem_map.mp ((hmerged.mem_ids _).mp (List.mem_map_of_mem hq))
      obtain ⟨a, ha⟩ := hlocked p hp
      refine List.mem_map.mpr ⟨a, List.mem_filterMap.mpr ⟨p.ledgerAccountId, ?_, ha⟩, ?_⟩
      · refine mem_deterministicAccountOrder.mpr (List.mem_map.mpr ⟨q.ledgerAccountId, ?_, ?_⟩)
        · exact mem_deterministicAccountOrder.mpr (List.mem_map_of_mem hq)
        · rw [← hid, h p hp]
      · rw [(lockedAccount_some ha).1, hid]
    · obtain ⟨p, hp, hid⟩ := hselected a ha
      obtain ⟨account, haccount, -, hfunds⟩ := hall p hp
      obtain ⟨-, account', -, haccount', -, -, hclass, hallow', -⟩ :=
        lockedAccount_some (lowerCase_selectAccounts ha).1
      rw [← hid, haccount] at haccount'
      cases haccount'
      rw [posted_totals hd hmerged (lowerCase_selectAccounts ha).1, ← hclass, ← hid]
      exact hfunds (hallow'.trans hallow)

/-- The columns of the merged postings and of the new totals. -/
theorem bigints_iff (hd : StoreInvariant d) (hmerged : Merged merged request.postings)
    (haccepted : Accepted d request.currency merged projected) :
    Bigints merged projected ↔ ∀ p ∈ request.postings,
      isBigint (totalsAfter d request.postings p.ledgerAccountId).debitTotalMinor = true ∧
        isBigint (totalsAfter d request.postings p.ledgerAccountId).creditTotalMinor = true := by
  have hlower : LowerCaseIds request :=
    not_not.mp fun h => not_accepted_of_capital hmerged h haccepted
  obtain ⟨-, hids, rfl, -⟩ := projectAccounts_ok haccepted.2
  constructor
  · rintro ⟨-, htotals⟩ p hp
    obtain ⟨q, hq, hid⟩ := List.mem_map.mp
      ((hmerged.mem_ids _).mpr (List.mem_map_of_mem hp))
    obtain ⟨a, ha, haid⟩ := List.mem_map.mp (hids q hq)
    have hfits := htotals _ (List.mem_map_of_mem ha)
    rw [posted_totals hd hmerged (lowerCase_selectAccounts ha).1, haid.trans hid] at hfits
    exact hfits
  · intro hall
    have hline : ∀ q ∈ merged,
        isBigint (totalsAfter d request.postings q.ledgerAccountId).debitTotalMinor = true ∧
          isBigint (totalsAfter d request.postings q.ledgerAccountId).creditTotalMinor = true := by
      intro q hq
      obtain ⟨p, hp, hid⟩ := List.mem_map.mp ((hmerged.mem_ids _).mp (List.mem_map_of_mem hq))
      rw [← hid]
      exact hall p hp
    refine ⟨fun q hq => ?_, fun b hb => ?_⟩
    · have hamount := hmerged.amount hq
      have hq0 := hmerged.positive q hq
      obtain ⟨hdebit, hcredit⟩ := hline q hq
      have hold : ∀ direction, 0 ≤ accountTotal d.lines q.ledgerAccountId direction :=
        fun direction => accountTotal_nonneg hd.positive
      simp only [totalsAfter, accountTotals, accountTotal_append, isBigint, Bool.and_eq_true,
        decide_eq_true_eq] at hdebit hcredit ⊢
      cases hdirection : q.direction with
      | DEBIT =>
        have hdebits := hold .DEBIT
        rw [hdirection] at hamount
        omega
      | CREDIT =>
        have hcredits := hold .CREDIT
        rw [hdirection] at hamount
        omega
    · obtain ⟨a, ha, rfl⟩ := List.mem_map.mp hb
      obtain ⟨hlocked, id, hid, haid⟩ := lowerCase_selectAccounts ha
      obtain ⟨p, hp, hpid⟩ := List.mem_map.mp
        ((hmerged.mem_ids _).mp (mem_deterministicAccountOrder.mp hid))
      rw [posted_totals hd hmerged hlocked, haid, ← hpid, hlower p hp]
      exact hall p hp

end Checks

/-! ## The outcome -/

section Outcome

variable {runtime : Runtime} {d : LedgerDb}
  {request : InternalJournalRequest} {correlationId : String} {actor : JournalActor} {env : ℕ → Env}

/-- The postings pass their schema (`internalJournalRequestSchema`). -/
def PostingsValid (request : InternalJournalRequest) : Prop :=
  request.postings.length ≤ 32 ∧
    ∀ p ∈ request.postings, positiveMinorUnitsSchema p.amountMinor = true

instance (request : InternalJournalRequest) : Decidable (PostingsValid request) :=
  inferInstanceAs (Decidable (_ ∧ ∀ p ∈ request.postings, _ = true))

/-- The answer of `post` on its own, and the data after it. -/
def postAlone (runtime : Runtime) (request : InternalJournalRequest) (correlationId : String)
    (actor : JournalActor) (env : ℕ → Env) (d : LedgerDb) :
    Except Thrown LedgerResponse × LedgerDb × ℕ :=
  (post runtime request correlationId actor).perform (stored ledgerDatabase) env d 0

/-- `post` succeeds on a journal as it must be and on no other, a failure leaves the store alone,
    and no error says that the key is in use. -/
structure PostsRight (runtime : Runtime) (request : InternalJournalRequest) (correlationId : String)
    (actor : JournalActor) (env : ℕ → Env) (d : LedgerDb) : Prop where
  succeeds : (∃ result, (postAlone runtime request correlationId actor env d).1 = .ok result) ↔
    Postable d.app request
  unchanged : ∀ e, (postAlone runtime request correlationId actor env d).1 = .error e →
    (postAlone runtime request correlationId actor env d).2.1 = d
  settled : (postAlone runtime request correlationId actor env d).1 ≠
    .error idempotencyInProgressError

/-- Whether `post` answers with a journal. -/
def Posts (d : LedgerStore) (request : InternalJournalRequest) : Prop :=
  Bookable d request ∧ LowerCaseIds request ∧ ReferenceFree d request.reference ∧ TotalsFit d request

/-- Whether `post` says that the key is in use. -/
def Misreports (d : LedgerStore) (request : InternalJournalRequest) : Prop :=
  Bookable d request ∧ LowerCaseIds request ∧ ¬ ReferenceFree d request.reference

/-- The answer of `post`, and the data after it. -/
inductive Answers (d : LedgerDb) (request : InternalJournalRequest) :
    Except Thrown LedgerResponse × LedgerDb × ℕ → Prop
  | posted (result : LedgerResponse) (d' : LedgerDb) (n : ℕ)
      (h : Posts d.app request) : Answers d request (.ok result, d', n)
  | misreported (n : ℕ) (h : Misreports d.app request) :
      Answers d request (.error idempotencyInProgressError, d, n)
  | refused (e : Thrown) (n : ℕ) (he : e ≠ idempotencyInProgressError)
      (hposts : ¬ Posts d.app request) (hmisreports : ¬ Misreports d.app request) :
      Answers d request (.error e, d, n)

theorem assertBalanced_error {postings : List Posting} {e : Thrown}
    (h : assertBalanced postings = .error e) : e = unbalancedJournalError := by
  unfold assertBalanced at h
  split_ifs at h <;> cases h <;> rfl

/-- The balance that `assertBalanced` checks. -/
theorem assertBalanced_merged {merged : List Posting} (hmerged : Merged merged request.postings)
    (hlower : LowerCaseIds request) :
    (∃ totalMinor, assertBalanced merged = .ok totalMinor) ↔
      2 ≤ (request.uuidPostings.map Posting.line).dedup.length ∧
        directionTotal request.uuidPostings .DEBIT = directionTotal request.uuidPostings .CREDIT := by
  have hlength : merged.length = (request.postings.map Posting.line).dedup.length := by
    rw [← List.length_map Posting.line]
    refine List.Perm.length_eq ((List.perm_ext_iff_of_nodup hmerged.nodup
      (List.nodup_dedup _)).mpr fun line => ?_)
    rw [hmerged.lines, List.mem_dedup]
  rw [uuidPostings_of_lowerCase hlower, ← hlength]
  simp only [directionTotal_eq_lineTotal, ← hmerged.totals]
  simp only [← directionTotal_eq_lineTotal]
  constructor
  · rintro ⟨totalMinor, hok⟩
    obtain ⟨htwo, -, hbalanced⟩ := assertBalanced_ok hok
    exact ⟨htwo, hbalanced⟩
  · rintro ⟨htwo, hbalanced⟩
    refine ⟨directionTotal merged .DEBIT, ?_⟩
    have hpositive : (merged.any fun p => decide (p.amountMinor ≤ 0)) = false := by
      rw [List.any_eq_false]
      intro p hp
      have hamount := hmerged.positive p hp
      rw [decide_eq_true_eq]
      omega
    have htotal : directionTotal merged .DEBIT ≠ 0 := by
      obtain ⟨p, hp⟩ := List.exists_mem_of_length_pos (show 0 < merged.length by omega)
      have hamount := hmerged.positive p hp
      have hle : p.amountMinor ≤ directionTotal merged p.direction := by
        refine List.single_le_sum (fun x hx => ?_) _ (List.mem_map_of_mem
          (List.mem_filter.mpr ⟨hp, decide_eq_true rfl⟩))
        obtain ⟨q, hq, rfl⟩ := List.mem_map.mp hx
        exact (hmerged.positive q (List.mem_filter.mp hq).1).le
      cases hdirection : p.direction with
      | DEBIT | CREDIT =>
        rw [hdirection] at hle
        omega
    unfold assertBalanced
    rw [if_neg (by omega), hpositive, if_neg (by decide), if_neg]
    rintro (hne | hzero)
    · exact hne hbalanced
    · exact htotal hzero

/-- The checks of the postings of `post`. -/
theorem bookable_iff {merged : List Posting} (hd : StoreInvariant d.app)
    (hmerged : Merged merged request.postings) (hlower : LowerCaseIds request) :
    Bookable d.app request ↔ (∃ totalMinor, assertBalanced merged = .ok totalMinor) ∧
      ∃ projected, Accepted d.app request.currency merged projected := by
  rw [assertBalanced_merged hmerged hlower, accepted_iff hd hmerged hlower]
  constructor
  · rintro ⟨htwo, hbalanced, haccounts⟩
    rw [uuidPostings_of_lowerCase hlower] at haccounts
    exact ⟨⟨htwo, hbalanced⟩, haccounts⟩
  · rintro ⟨⟨htwo, hbalanced⟩, haccounts⟩
    refine ⟨htwo, hbalanced, ?_⟩
    rw [uuidPostings_of_lowerCase hlower]
    exact haccounts

theorem conflict_of_reference (runtime : Runtime) :
    isIdempotencyConflict (uniqueViolation runtime ["reference"]) = true := by
  unfold uniqueViolation
  cases runtime.reportsTarget with
  | false | true => rfl

/-- The outcomes of `post` under a new key. -/
theorem answers_post (correlationId : String) (actor : JournalActor) (hd : StoreInvariant d.app)
    (hnew : Generates d.app env 35)
    (hvalid : PostingsValid request)
    (hnone : d.records.find ("journal-entry", runtime.sha256 request.idempotencyKey) = none) :
    Answers d request (postAlone runtime request correlationId actor env d) := by
  have hpositive : ∀ p ∈ request.postings, 0 < p.amountMinor := by
    intro p hp
    have hp' := hvalid.2 p hp
    unfold positiveMinorUnitsSchema at hp'
    rw [Bool.and_eq_true, decide_eq_true_eq] at hp'
    exact hp'.1
  have hmerged := Merged.foldl hpositive
  have hshort := hmerged.length_le.trans hvalid.1
  rw [postAlone, post, normalisePostings_valid hvalid.2]
  generalize request.postings.foldl combine [] = merged at hmerged hshort ⊢
  dsimp only
  have hunbooked : (∀ projected, ¬ Accepted d.app request.currency merged projected) →
      ∀ P : Prop, ¬ (Bookable d.app request ∧ LowerCaseIds request ∧ P) := by
    rintro hrejected P ⟨hbookable, hlower, -⟩
    obtain ⟨projected, haccepted⟩ := ((bookable_iff hd hmerged hlower).mp hbookable).2
    exact hrejected projected haccepted
  cases hbalanced : assertBalanced merged with
  | error e =>
    have hunbalanced : ∀ P : Prop, ¬ (Bookable d.app request ∧ LowerCaseIds request ∧ P) := by
      rintro P ⟨hbookable, hlower, -⟩
      obtain ⟨totalMinor, hok⟩ := ((bookable_iff hd hmerged hlower).mp hbookable).1
      cases hbalanced.symm.trans hok
    rw [assertBalanced_error hbalanced]
    exact .refused _ _ (by decide) (hunbalanced _) (hunbalanced _)
  | ok totalMinor =>
    dsimp only
    rw [Client.perform_bind]
    by_cases haccepted : ∃ projected, Accepted d.app request.currency merged projected
    · obtain ⟨projected, haccepted⟩ := haccepted
      have hlower : LowerCaseIds request :=
        not_not.mp fun h => not_accepted_of_capital hmerged h haccepted
      have hbookable := (bookable_iff hd hmerged hlower).mpr
        ⟨⟨totalMinor, hbalanced⟩, projected, haccepted⟩
      by_cases hfree : ReferenceFree d.app request.reference
      · have hfits : Bigints merged projected ↔ TotalsFit d.app request := by
          rw [bigints_iff hd hmerged haccepted, TotalsFit, uuidPostings_of_lowerCase hlower]
        rcases perform_journalRun_free runtime correlationId actor 1 hnew hd hbalanced hshort
          (by omega) haccepted hfree with
          ⟨hbigints, entry, rows, n', hrun, hjournal⟩ | ⟨hbigints, ws, n', hrun⟩
        · rw [perform_execute_ok hnone hrun (deferred_journal hd hjournal)]
          exact .posted _ _ _ ⟨hbookable, hlower, hfree, hfits.mp hbigints⟩
        · rw [perform_execute_error hnone hrun]
          exact .refused _ _ plain_other.2 (fun h => hbigints (hfits.mpr h.2.2.2))
            fun h => h.2.2 hfree
      · have hrun := perform_journalRun_taken runtime correlationId actor totalMinor 1 hnew
          (by decide) haccepted hfree
        rw [perform_execute_error hnone hrun, conflict_of_reference, if_pos rfl]
        exact .misreported _ ⟨hbookable, hlower, hfree⟩
    · have hrejected := not_exists.mp haccepted
      obtain ⟨e, ws, n', hrun, hconflict, he⟩ := perform_journalRun_rejected runtime correlationId
        actor env 1 totalMinor hrejected
      rw [perform_execute_error hnone hrun, hconflict, if_neg (by decide)]
      exact .refused _ _ he (hunbooked hrejected _) (hunbooked hrejected _)

theorem Answers.result_iff {r : Except Thrown LedgerResponse × LedgerDb × ℕ}
    (h : Answers d request r) : ((∃ result, r.1 = .ok result) ↔ Posts d.app request) ∧
      (r.1 = .error idempotencyInProgressError ↔ Misreports d.app request) ∧
      ∀ e, r.1 = .error e → r.2.1 = d := by
  cases h with
  | posted result d' n hposts =>
    refine ⟨⟨fun _ => hposts, fun _ => ⟨result, rfl⟩⟩, ⟨nofun, fun hmis => ?_⟩, nofun⟩
    exact absurd hposts.2.2.1 hmis.2.2
  | misreported n hmis =>
    refine ⟨⟨?_, fun hposts => absurd hposts.2.2.1 hmis.2.2⟩, ⟨fun _ => hmis, fun _ => rfl⟩,
      fun _ _ => rfl⟩
    rintro ⟨_, hresult⟩
    cases hresult
  | refused e n he hposts hmis =>
    refine ⟨⟨?_, fun h => absurd h hposts⟩, ⟨fun heq => ?_, fun h => absurd h hmis⟩, fun _ _ => rfl⟩
    · rintro ⟨_, hresult⟩
      cases hresult
    · exact absurd (Except.error.inj heq) he

/-- A call of `post` beside idle calls can do what it does on its own. -/
theorem reachable_postAlone (request : InternalJournalRequest) (correlationId : String)
    (actor : JournalActor) (env : ℕ → Env) {s : LedgerState}
    (hs : (ledger runtime).machine.Reachable Machine.always s)
    (hidle : ∀ q ∈ s.procs, q.2.held = []) : ∃ log,
      (ledger runtime).machine.Reachable Machine.always
        (Calls.beside s.procs (.post request correlationId actor)
          (postAlone runtime request correlationId actor env s.db).2.1
          (.client (.ended (postAlone runtime request correlationId actor env s.db).1)) log) := by
  obtain ⟨log, hpath⟩ := Calls.path_perform (S := ledger runtime) hidle env
    (.post request correlationId actor) (post runtime request correlationId actor) s.db s.log 0
  have hstart : (ledger runtime).machine.step s (.start (.post request correlationId actor)) =
      some (Calls.beside s.procs (.post request correlationId actor) s.db
        (.client (post runtime request correlationId actor)) s.log) := rfl
  exact ⟨_, (Machine.Reachable.step hs trivial hstart).path hpath⟩

end Outcome

/-- Under a new key, `post` does right by a request if and only if a journal that could be booked
    has its ids in lower case, a free reference and totals that fit, or neither of the first two. -/
theorem posted_when (runtime : Runtime) (s : LedgerState)
    (hs : (ledger runtime).machine.Reachable Machine.always s) (request : InternalJournalRequest)
    (correlationId : String) (actor : JournalActor) (env : ℕ → Env) (hvalid : PostingsValid request)
    (hnone : s.db.records.find ("journal-entry", runtime.sha256 request.idempotencyKey) = none)
    (hnew : Generates s.db.app env 35) :
    PostsRight runtime request correlationId actor env s.db ↔ (Bookable s.db.app request →
      LowerCaseIds request ∧ ReferenceFree s.db.app request.reference ∧ TotalsFit s.db.app request ∨
        ¬ LowerCaseIds request ∧ ¬ ReferenceFree s.db.app request.reference) := by
  obtain ⟨hposts, hmisreports, hunchanged⟩ := (answers_post correlationId actor
    (store_invariant hs) hnew hvalid hnone).result_iff
  constructor
  · rintro ⟨hsucceeds, -, hsettled⟩ hbookable
    by_cases hlower : LowerCaseIds request
    · have hfree : ReferenceFree s.db.app request.reference := by
        by_contra htaken
        exact hsettled (hmisreports.mpr ⟨hbookable, hlower, htaken⟩)
      exact .inl ⟨hlower, hfree, (hposts.mp (hsucceeds.mpr ⟨hbookable, hfree⟩)).2.2.2⟩
    · refine .inr ⟨hlower, fun hfree => hlower ?_⟩
      exact (hposts.mp (hsucceeds.mpr ⟨hbookable, hfree⟩)).2.1
  · intro hwhen
    refine ⟨⟨fun hresult => ?_, fun hpostable => ?_⟩, hunchanged, fun hsays => ?_⟩
    · obtain ⟨hbookable, -, hfree, -⟩ := hposts.mp hresult
      exact ⟨hbookable, hfree⟩
    · rcases hwhen hpostable.1 with ⟨hlower, hfree, hfits⟩ | ⟨-, htaken⟩
      · exact hposts.mpr ⟨hpostable.1, hlower, hfree, hfits⟩
      · exact absurd hpostable.2 htaken
    · obtain ⟨hbookable, hlower, htaken⟩ := hmisreports.mp hsays
      rcases hwhen hbookable with ⟨-, hfree, -⟩ | ⟨hcapital, -⟩
      · exact htaken hfree
      · exact hcapital hlower

/-! ## Concrete runs -/

/-- The id of an account of the migrations. -/
def accountUuid (text : String) : String := "a0000000-0000-4000-8000-00000000" ++ text

/-- What the statement with a number gets. -/
def generatedAt (n : ℕ) : Env where
  uuid := "e0000000-0000-4000-8000-0000000000" ++
    String.ofList [Nat.digitChar (n / 10), Nat.digitChar (n % 10)]
  random := "ABCD-EFGH"
  now := n

theorem digitChar_inj : ∀ a < 10, ∀ b < 10, Nat.digitChar a = Nat.digitChar b → a = b := by decide

theorem generatedAt_inj {m n : ℕ} (hm : m < 100) (hn : n < 100)
    (h : (generatedAt m).uuid = (generatedAt n).uuid) : m = n := by
  have hdigits := String.ofList_inj.mp ((String.append_right_inj _).mp h)
  rw [List.cons.injEq, List.cons.injEq] at hdigits
  have htens := digitChar_inj (m / 10) (by omega) (n / 10) (by omega) hdigits.1
  have hunits := digitChar_inj (m % 10) (by omega) (n % 10) (by omega) hdigits.2.1
  omega

/-- The accounts of the migrations. -/
def migrated : LedgerDb where
  records := Table.empty
  app := migratedStore (accountUuid "0001") (accountUuid "0002")

/-- 4.00 LKR are funded. -/
def fund (idempotencyKey : String) : InternalJournalRequest where
  reference := some "funding-1"
  entryType := .SETTLEMENT_FUNDING
  currency := "LKR"
  description := none
  effectiveAt := none
  idempotencyKey := idempotencyKey
  postings := [{ ledgerAccountId := accountUuid "0001", direction := .DEBIT, amountMinor := 400 },
    { ledgerAccountId := accountUuid "0002", direction := .CREDIT, amountMinor := 400 }]
  metadata := none

/-- An operator. -/
def operator : JournalActor where
  type := .SYSTEM
  id := "operator"

theorem migrated_reachable : (ledger plainRuntime).machine.Reachable Machine.always
    { db := migrated, procs := [], log := [] } :=
  .init ⟨⟨rfl, accountUuid "0001", accountUuid "0002", by decide, rfl⟩, rfl, rfl⟩

/-- A first funding is posted. -/
theorem posted_when_free :
    PostsRight plainRuntime (fund "funding-key-0001") "correlation-1" operator generatedAt migrated :=
  (posted_when plainRuntime _ migrated_reachable (fund "funding-key-0001") "correlation-1" operator
    generatedAt (by decide +kernel) Table.find_empty
    ⟨fun _ _ => Table.find_empty, fun _ _ => Table.find_empty,
      fun _ hm _ hn => generatedAt_inj (by omega) (by omega),
      fun _ _ _ hother => absurd hother List.not_mem_nil⟩).mpr
      fun _ => .inl ⟨by decide +kernel, fun _ _ _ hother => absurd hother List.not_mem_nil,
        by decide +kernel⟩

/-- The store after it. -/
def funded : LedgerDb :=
  (postAlone plainRuntime (fund "funding-key-0001") "correlation-1" operator generatedAt
    migrated).2.1

/-- What the statement with a number gets later. -/
def generatedLater (n : ℕ) : Env := generatedAt (n + 40)

/-- The answer says that the key is in use. -/
def saysInProgress : Except Thrown LedgerResponse → Bool
  | .error e => e = idempotencyInProgressError
  | .ok _ => false

theorem saysInProgress_elim {r : Except Thrown LedgerResponse} (h : saysInProgress r = true) :
    r = .error idempotencyInProgressError := by
  cases r with
  | error e => rw [of_decide_eq_true h]
  | ok result => cases h

theorem funded_entries : funded.app.entries.rows.map (fun entry => (entry.id, entry.reference)) =
    [((generatedAt 2).uuid, "funding-1")] := by decide +kernel

theorem funded_postings : funded.app.postings.rows.map key =
    [(generatedAt 3).uuid, (generatedAt 4).uuid] := by decide +kernel

theorem generates_later : Generates funded.app generatedLater 35 where
  entries n hn := by
    rw [Table.find_eq_none]
    intro hmem
    obtain ⟨entry, hentry, hid⟩ := List.mem_map.mp hmem
    have hpair := List.mem_map_of_mem (f := fun e : JournalEntryRow => (e.id, e.reference)) hentry
    rw [funded_entries, List.mem_singleton, Prod.mk.injEq] at hpair
    have hsame := generatedAt_inj (by omega) (by decide) (hid.symm.trans hpair.1)
    omega
  postings n hn := by
    rw [Table.find_eq_none, funded_postings]
    intro hmem
    rw [List.mem_cons, List.mem_singleton] at hmem
    rcases hmem with hmem | hmem
    · have hsame := generatedAt_inj (by omega) (by decide) hmem
      omega
    · have hsame := generatedAt_inj (by omega) (by decide) hmem
      omega
  apart m hm n hn h := by
    have hsame := generatedAt_inj (by omega) (by omega) h
    omega
  references n hn other hother := by
    have hpair := List.mem_map_of_mem (f := fun e : JournalEntryRow => (e.id, e.reference)) hother
    rw [funded_entries, List.mem_singleton, Prod.mk.injEq] at hpair
    rw [hpair.2]
    show "funding-1" ≠ "JRN-ABCD-EFGH"
    decide

/-- A second funding under another key and the same reference is answered with
    IDEMPOTENCY_IN_PROGRESS, though no call is in progress. -/
theorem misreports_reference : ¬ ∀ (runtime : Runtime) (s : LedgerState),
    (ledger runtime).machine.Reachable Machine.always s →
    ∀ (request : InternalJournalRequest) (correlationId : String) (actor : JournalActor)
      (env : ℕ → Env), PostingsValid request →
      s.db.records.find ("journal-entry", runtime.sha256 request.idempotencyKey) = none →
      Generates s.db.app env 35 → PostsRight runtime request correlationId actor env s.db := by
  intro h
  obtain ⟨log, hs⟩ := reachable_postAlone (fund "funding-key-0001") "correlation-1" operator
    generatedAt migrated_reachable (by simp)
  generalize hstate : Calls.beside _ _ _ _ log = s at hs
  have hfunded : s.db = funded := congrArg Calls.State.db hstate.symm
  have hright := h plainRuntime s hs (fund "funding-key-0002") "correlation-2" operator
    generatedLater (by decide +kernel) (hfunded ▸ by decide +kernel) (hfunded ▸ generates_later)
  rw [hfunded] at hright
  exact hright.settled (saysInProgress_elim (by decide +kernel))

end AegisShield.Ledger
