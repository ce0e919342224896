import AegisShield.Common.CursorText
import AegisShield.Common.Paging
import AegisShield.Ledger.Accounts
import AegisShield.Ledger.Transactions

/-!
# Transaction history pages

`TransactionService.list` (`transaction.service.ts`): the history of an account under a filter,
newest first, page by page. The cursor holds the posting time and the display reference of the
last transaction of a page, and the fingerprint of the filter.

Results:
* `transaction_pages`: following the cursors lists the filtered history, when no two postings of the
  account share the posting time and the first twelve digits of the id; and a cursor is refused
  under any other filter.
-/

namespace AegisShield.Ledger

open Common Paging CursorText JsonText

/-! ## The listing -/

/-- The filter of `TransactionHistoryQuery` (`contracts/accounts/v1.ts`, lines 297-299). -/
structure TransactionFilter where
  direction : Option CustomerTransactionDirection
  category : Option CustomerTransactionCategory
  dateFrom : Option String
  dateTo : Option String
  deriving DecidableEq

/-- `TransactionHistoryQuery` (`contracts/accounts/v1.ts`, lines 297-299). -/
structure TransactionHistoryQuery extends TransactionFilter where
  pageSize : ℕ
  cursor : Option String

/-- The functions of the language and of its libraries that the listing calls. -/
structure HistoryRuntime extends CursorRuntime where
  /-- `createHash('sha256').update(text).digest('base64url')`. -/
  digest : String → String
  /-- `a.localeCompare(b)`. -/
  localeCompare : String → String → ℤ
  localeCompare_total : ∀ a b, localeCompare a b ≤ 0 ∨ localeCompare b a ≤ 0
  localeCompare_trans : ∀ a b c, localeCompare a b ≤ 0 → localeCompare b c ≤ 0 →
    localeCompare a c ≤ 0

/-- The text of a direction. -/
def CustomerTransactionDirection.text : CustomerTransactionDirection → String
  | .INCOMING => "INCOMING"
  | .OUTGOING => "OUTGOING"

/-- The text of a category. -/
def CustomerTransactionCategory.text : CustomerTransactionCategory → String
  | .FUNDING => "FUNDING"
  | .ADJUSTMENT => "ADJUSTMENT"
  | .TRANSFER => "TRANSFER"
  | .OTHER => "OTHER"

/-- The members that `fingerprint` hashes (lines 54-59). -/
def TransactionFilter.members (filter : TransactionFilter) : List (String × Option String) :=
  [("direction", filter.direction.map CustomerTransactionDirection.text),
    ("category", filter.category.map CustomerTransactionCategory.text),
    ("dateFrom", filter.dateFrom), ("dateTo", filter.dateTo)]

/-- The error of a cursor that is refused. -/
def invalidCursorError : Thrown :=
  .ledgerError "INVALID_REQUEST" "Invalid transaction history cursor." 400

/-- `/^AEGIS-TXN-[A-Z0-9]{4}-[A-Z0-9]{4}-[A-Z0-9]{4}$/u`. -/
def referenceFormat : Format := Format.literal "AEGIS-TXN-" ++ threeGroups

/-- What `list` reads of a `Cursor` (line 33). -/
structure Cursor where
  e : JsonValue
  r : JsonValue

section List

variable (runtime : HistoryRuntime)

/-- `fingerprint` (lines 50-62). -/
def fingerprint (filter : TransactionFilter) : String :=
  String.ofList ((runtime.digest (filterText runtime.numbers filter.members)).toList.take 24)

/-- The checks of `decodeCursor` (lines 73-79) of the parsed text. -/
def checkCursor (expected : String) (parsed : JsonValue) : Option Cursor := do
  let e ← member parsed "e"
  let r ← member parsed "r"
  if (member parsed "v").any (equalsNumber 1) && (member parsed "f").any (equalsText expected) &&
      runtime.toCursorRuntime.tests referenceFormat r && (runtime.dateParse e).isSome then
    some ⟨e, r⟩
  else none

/-- `decodeCursor` (lines 64-87). -/
def decodeCursor (value : Option String) (expected : String) : Except Thrown (Option Cursor) :=
  match value with
  | none => .ok none
  | some text =>
    if text = "" then .ok none
    else
      match (read runtime.numbers text).bind (checkCursor runtime expected) with
      | none => .error invalidCursorError
      | some cursor => .ok (some cursor)

/-- The cursor of `list` (lines 211-216). -/
def cursorMembers (filter : TransactionFilter) (tail : CustomerTransactionSummary) :
    List (JsString × JsonValue) :=
  [(jsString "v", .number 1),
    (jsString "e", .string (jsString (runtime.toISOString tail.postedAt))),
    (jsString "r", .string (jsString tail.displayReference)),
    (jsString "f", .string (jsString (fingerprint runtime filter)))]

/-- `encodeCursor` (lines 89-91) of that cursor. -/
def encodeCursor (filter : TransactionFilter) (tail : CustomerTransactionSummary) : String :=
  write runtime.numbers (cursorMembers runtime filter tail)

/-- A time is not on the wrong side of a bound: there is no bound, or the comparison with it
    holds, which it does not with `NaN`. -/
def within (bound : Option String) (holds : ℤ → Bool) : Bool :=
  match bound with
  | none => true
  | some text => text = "" || (runtime.dateParse (.string (jsString text))).any holds

/-- The filters of `list` (lines 180-189). -/
def TransactionFilter.passes (filter : TransactionFilter) (item : CustomerTransactionSummary) :
    Bool :=
  filter.direction.all (fun direction => decide (item.direction = direction)) &&
    filter.category.all (fun category => decide (item.category = category)) &&
    within runtime filter.dateFrom (fun time => decide (time ≤ item.effectiveAt)) &&
    within runtime filter.dateTo fun time => decide (item.effectiveAt ≤ time)

/-- The comparison of `sort` (lines 190-193) is not positive. -/
def shownFirst (a b : CustomerTransactionSummary) : Prop :=
  let byTime := runtime.localeCompare (runtime.toISOString b.postedAt)
    (runtime.toISOString a.postedAt)
  byTime < 0 ∨ (byTime = 0 ∧ runtime.localeCompare b.id a.id ≤ 0)

instance : DecidableRel (shownFirst runtime) := fun _ _ => inferInstanceAs (Decidable (_ ∨ _))

/-- `filtered` of `list` (lines 179-193). -/
def filtered (filter : TransactionFilter) (transactions : List CustomerTransactionSummary) :
    List CustomerTransactionSummary :=
  (transactions.filter (filter.passes runtime)).insertionSort (shownFirst runtime)

/-- The item is the one of the cursor (lines 196-197). -/
def atCursor (cursor : Cursor) (item : CustomerTransactionSummary) : Bool :=
  equalsText item.displayReference cursor.r &&
    equalsText (runtime.toISOString item.postedAt) cursor.e

/-- `start` of `list` (lines 194-199): the place after the item of the cursor. -/
def startAt (items : List CustomerTransactionSummary) : Option Cursor → ℕ
  | none => 0
  | some cursor =>
    match items.findIdx? (atCursor runtime cursor) with
    | none => 0
    | some i => i + 1

/-- `list` (lines 167-219). -/
def list (d : LedgerStore) (customerId accountId : String) (query : TransactionHistoryQuery) :
    Except Thrown (Page CustomerTransactionSummary String) :=
  match history d customerId accountId with
  | .error e => .error e
  | .ok (_, transactions) =>
    match decodeCursor runtime query.cursor (fingerprint runtime query.toTransactionFilter) with
    | .error e => .error e
    | .ok cursor =>
      let items := filtered runtime query.toTransactionFilter transactions
      let start := startAt runtime items cursor
      if cursor.isSome ∧ start = 0 then .error invalidCursorError
      else
        let page := (items.drop start).take query.pageSize
        .ok {
          items := page
          next := page.getLast?.bind fun tail =>
            if start + page.length < items.length then
              some (encodeCursor runtime query.toTransactionFilter tail)
            else none }

end List

/-- The first twelve digits of an id. -/
def firstTwelve (id : String) : List Char := (id.toList.filter fun c => c ≠ '-').take 12

/-- The columns of the postings are of their types: ids are UUIDs, and times are `Date`s. -/
structure PostingColumns (d : LedgerStore) : Prop where
  ids : ∀ p ∈ d.postings.rows, uuidFormat.accepts p.id = true
  times : ∀ p ∈ d.postings.rows, p.createdAt.natAbs ≤ maxTime

/-! ## References -/

section References

variable {id id' : String}

/-- The digits of a `uuid` column. -/
def hexDigits : List Char :=
  ['0', '1', '2', '3', '4', '5', '6', '7', '8', '9', 'a', 'b', 'c', 'd', 'e', 'f']

theorem mem_hexDigits {c : Char} (h : isHexDigit c = true) : c ∈ hexDigits := by
  have hrange : (48 ≤ c.toNat ∧ c.toNat ≤ 57) ∨ (97 ≤ c.toNat ∧ c.toNat ≤ 102) := by
    unfold isHexDigit Char.isDigit at h
    simp only [Bool.or_eq_true, Bool.and_eq_true, decide_eq_true_eq] at h
    exact h
  rw [← Char.ofNat_toNat c]
  rcases hrange with ⟨hlo, hhi⟩ | ⟨hlo, hhi⟩
  · interval_cases c.toNat <;> decide
  · interval_cases c.toNat <;> decide

theorem toLower_toUpper : ∀ c ∈ hexDigits, c.toUpper.toLower = c := by
  intro c hc
  unfold hexDigits at hc
  fin_cases hc <;> rfl

theorem toUpper_letter : ∀ c ∈ hexDigits, isReferenceLetter c.toUpper = true := by
  intro c hc
  unfold hexDigits at hc
  fin_cases hc <;> rfl

theorem toUpper_ascii : ∀ c ∈ hexDigits, c.toUpper.toNat < 0xD800 := by
  intro c hc
  unfold hexDigits at hc
  fin_cases hc <;> decide

/-- The letters of a display reference. -/
def letters (id : String) : List Char := (id.toList.filter fun c => c ≠ '-').map Char.toUpper

theorem length_letters (h : uuidFormat.accepts id = true) : (letters id).length = 32 := by
  unfold letters
  rw [List.length_map, (uuid_digits h).1]

theorem firstTwelve_of_letters (h : uuidFormat.accepts id = true) :
    firstTwelve id = ((letters id).take 12).map Char.toLower := by
  have hlower : ∀ c ∈ id.toList.filter (fun c => c ≠ '-'), (Char.toLower ∘ Char.toUpper) c = c :=
    fun c hc => toLower_toUpper c (mem_hexDigits ((uuid_digits h).2 c hc))
  unfold firstTwelve letters
  rw [List.map_take, List.map_map, List.map_congr_left hlower, List.map_id']

theorem toList_displayReference (id : String) :
    (displayReference id).toList = "AEGIS-TXN-".toList ++ ((letters id).take 4 ++ ("-".toList ++
      (((letters id).drop 4).take 4 ++ ("-".toList ++ ((letters id).drop 8).take 4)))) := by
  unfold displayReference letters
  simp only [String.toList_append, String.toList_ofList, List.append_assoc]

theorem accepts_displayReference (h : uuidFormat.accepts id = true) :
    referenceFormat.accepts (displayReference id) = true := by
  have hletters : ∀ c ∈ letters id, isReferenceLetter c = true := by
    intro c hc
    obtain ⟨digit, hdigit, rfl⟩ := List.mem_map.mp hc
    exact toUpper_letter _ (mem_hexDigits ((uuid_digits h).2 _ hdigit))
  have hgroup : ∀ k, k + 4 ≤ 32 →
      Format.fits (List.replicate 4 isReferenceLetter) (((letters id).drop k).take 4) = true := by
    intro k hk
    refine Format.fits_replicate.mpr ⟨?_, fun c hc => ?_⟩
    · rw [List.length_take, List.length_drop, length_letters h]
      omega
    · exact hletters c (List.mem_of_mem_drop (List.mem_of_mem_take hc))
  have hfirst := hgroup 0 (by decide)
  rw [List.drop_zero] at hfirst
  unfold Format.accepts referenceFormat threeGroups
  rw [toList_displayReference, Format.fits_append (Format.fits_literal _),
    Format.fits_append hfirst, Format.fits_append (Format.fits_literal _),
    Format.fits_append (hgroup 4 (by decide)), Format.fits_append (Format.fits_literal _)]
  exact hgroup 8 (by decide)

/-- The reference tells the first twelve digits. -/
theorem firstTwelve_eq (h : uuidFormat.accepts id = true) (h' : uuidFormat.accepts id' = true)
    (heq : displayReference id = displayReference id') : firstTwelve id = firstTwelve id' := by
  have hlists := congrArg String.toList heq
  rw [toList_displayReference, toList_displayReference] at hlists
  have hlength : ∀ k, k + 4 ≤ 32 → (((letters id).drop k).take 4).length =
      (((letters id').drop k).take 4).length := by
    intro k hk
    rw [List.length_take, List.length_take, List.length_drop, List.length_drop, length_letters h,
      length_letters h']
  obtain ⟨hfirst, hlists⟩ := List.append_inj (List.append_cancel_left hlists) (hlength 0 (by decide))
  obtain ⟨hsecond, hlists⟩ := List.append_inj (List.append_cancel_left hlists)
    (hlength 4 (by decide))
  have hthird := List.append_cancel_left hlists
  have htwelve : ∀ xs : List Char,
      xs.take 12 = xs.take 4 ++ ((xs.drop 4).take 4 ++ (xs.drop 8).take 4) := by
    intro xs
    show xs.take (4 + (4 + 4)) = _
    rw [List.take_add, List.take_add, List.drop_drop]
  have hupper : (letters id).take 12 = (letters id').take 12 := by
    rw [htwelve, htwelve, hfirst, hsecond, hthird]
  rw [firstTwelve_of_letters h, firstTwelve_of_letters h', hupper]

theorem displayReference_ascii (h : uuidFormat.accepts id = true) :
    ∀ c ∈ (displayReference id).toList, c.toNat < 0xD800 := by
  have hletter : ∀ x ∈ letters id, x.toNat < 0xD800 := by
    intro x hx
    obtain ⟨digit, hdigit, rfl⟩ := List.mem_map.mp hx
    exact toUpper_ascii _ (mem_hexDigits ((uuid_digits h).2 _ hdigit))
  have hstart : ∀ x ∈ "AEGIS-TXN-".toList, x.toNat < 0xD800 := forall_mem_of_all (by decide)
  have hdash : ∀ x ∈ "-".toList, x.toNat < 0xD800 := forall_mem_of_all (by decide)
  intro c hc
  rw [toList_displayReference] at hc
  simp only [List.mem_append] at hc
  rcases hc with hc | hc | hc | hc | hc | hc
  · exact hstart c hc
  · exact hletter c (List.mem_of_mem_take hc)
  · exact hdash c hc
  · exact hletter c (List.mem_of_mem_drop (List.mem_of_mem_take hc))
  · exact hdash c hc
  · exact hletter c (List.mem_of_mem_drop (List.mem_of_mem_take hc))

end References

/-! ## Pages -/

section Pages

variable {runtime : HistoryRuntime} {d : LedgerStore} {account : CustomerAccountRow}
  {filter : TransactionFilter} {transactions : List CustomerTransactionSummary}

theorem map_withEntry (d : LedgerStore) (rows : List JournalPostingRow) :
    ((rows.filterMap d.withEntry).map Prod.fst).Sublist rows := by
  induction rows with
  | nil => exact List.Sublist.slnil
  | cons p rows ih =>
    rw [List.filterMap_cons]
    unfold LedgerStore.withEntry
    cases d.entries.find p.journalEntryId with
    | none => exact ih.cons p
    | some entry => exact ih.cons_cons p

theorem summaries_keys (account : CustomerAccountRow) (balance : ℤ)
    (rows : List (JournalPostingRow × JournalEntryRow)) :
    (summaries account balance rows).map (fun t => (t.displayReference, t.postedAt)) =
      rows.map fun row => (displayReference row.1.id, row.1.createdAt) := by
  induction rows generalizing balance with
  | nil => rfl
  | cons row rows ih =>
    rw [List.map_cons, ← ih]
    rfl

/-- What a transaction of the history shows is of a posting of the account, and no two show the
    same time and reference. -/
structure Shown (d : LedgerStore) (ledgerAccountId : String)
    (transactions : List CustomerTransactionSummary) : Prop where
  posting : ∀ t ∈ transactions, ∃ p ∈ d.accountPostings ledgerAccountId,
    t.displayReference = displayReference p.id ∧ t.postedAt = p.createdAt
  apart : (transactions.map fun t => (t.displayReference, t.postedAt)).Nodup

theorem shown_of_history {customerId accountId : String} (hread : PostingColumns d)
    (h : history d customerId accountId = .ok (account, transactions))
    (hdistinct : ∀ p ∈ d.accountPostings account.ledgerAccountId,
      ∀ q ∈ d.accountPostings account.ledgerAccountId,
        p.createdAt = q.createdAt → firstTwelve p.id = firstTwelve q.id → p = q) :
    Shown d account.ledgerAccountId transactions := by
  unfold history at h
  split at h
  · cases h
  next row _ =>
    obtain ⟨rfl, rfl⟩ := Prod.mk.inj (Except.ok.inj h)
    let rows := ((d.accountPostings row.ledgerAccountId).filterMap d.withEntry).insertionSort rowLe
    have hperm : (rows.map Prod.fst).Perm
        (((d.accountPostings row.ledgerAccountId).filterMap d.withEntry).map Prod.fst) :=
      (List.perm_insertionSort rowLe _).map Prod.fst
    have hposting : ∀ p ∈ rows.map Prod.fst, p ∈ d.accountPostings row.ledgerAccountId :=
      fun p hp => (map_withEntry d _).mem (hperm.mem_iff.mp hp)
    have hrows : ∀ p ∈ d.accountPostings row.ledgerAccountId, p ∈ d.postings.rows :=
      fun p hp => (List.mem_filter.mp hp).1
    have hkeys : (summaries row 0 rows).map (fun t => (t.displayReference, t.postedAt)) =
        (rows.map Prod.fst).map fun p => (displayReference p.id, p.createdAt) := by
      rw [summaries_keys, List.map_map]
      rfl
    constructor
    · intro t ht
      have hmem : (t.displayReference, t.postedAt) ∈
          (summaries row 0 rows).map fun t => (t.displayReference, t.postedAt) :=
        List.mem_map.mpr ⟨t, ht, rfl⟩
      rw [hkeys] at hmem
      obtain ⟨p, hp, heq⟩ := List.mem_map.mp hmem
      obtain ⟨hreference, htime⟩ := Prod.mk.inj heq
      exact ⟨p, hposting p hp, hreference.symm, htime.symm⟩
    · have hnodup : (d.accountPostings row.ledgerAccountId).Nodup :=
        (List.Nodup.of_map _ d.postings.nodup_keys).filter _
      show ((summaries row 0 rows).map fun t => (t.displayReference, t.postedAt)).Nodup
      rw [hkeys]
      refine List.Nodup.map_on (fun p hp q hq heq => ?_)
        (hperm.nodup_iff.mpr ((map_withEntry d _).nodup hnodup))
      obtain ⟨hreference, htime⟩ := Prod.mk.inj heq
      have hp' := hposting p hp
      have hq' := hposting q hq
      exact hdistinct p hp' q hq' htime (firstTwelve_eq (hread.ids p (hrows p hp'))
        (hread.ids q (hrows q hq')) hreference)

theorem plain_cursor (runtime : HistoryRuntime) (filter : TransactionFilter)
    (tail : CustomerTransactionSummary) :
    JsonText.Plain (.object (cursorMembers runtime filter tail)) := by
  constructor
  · show [jsString "v", jsString "e", jsString "r", jsString "f"].Nodup
    decide
  · intro m hm
    simp only [cursorMembers, List.mem_cons, List.not_mem_nil, or_false] at hm
    rcases hm with rfl | rfl | rfl | rfl
    · exact_mod_cast JsonText.Plain.number (n := 1) (by decide)
    · exact .string _
    · exact .string _
    · exact .string _

/-- What is checked of a cursor that was issued. -/
theorem checkCursor_members (filter : TransactionFilter) (tail : CustomerTransactionSummary)
    (expected : String) :
    checkCursor runtime expected (.object (cursorMembers runtime filter tail)) =
      if fingerprint runtime filter = expected ∧
          runtime.tests referenceFormat (.string (jsString tail.displayReference)) = true ∧
          (runtime.dateParse (.string (jsString (runtime.toISOString tail.postedAt)))).isSome = true
        then some ⟨.string (jsString (runtime.toISOString tail.postedAt)),
          .string (jsString tail.displayReference)⟩
      else none := by
  have hfilter : equalsText expected (.string (jsString (fingerprint runtime filter))) =
      decide (fingerprint runtime filter = expected) := by
    rw [Bool.eq_iff_iff, equalsText_iff, decide_eq_true_eq]
    exact ⟨fun h => jsString_inj (JsonValue.string.inj h), fun h => h ▸ rfl⟩
  have he : member (.object (cursorMembers runtime filter tail)) "e" =
      some (.string (jsString (runtime.toISOString tail.postedAt))) := rfl
  have hr : member (.object (cursorMembers runtime filter tail)) "r" =
      some (.string (jsString tail.displayReference)) := rfl
  have hv : member (.object (cursorMembers runtime filter tail)) "v" = some (.number 1) := rfl
  have hf : member (.object (cursorMembers runtime filter tail)) "f" =
      some (.string (jsString (fingerprint runtime filter))) := rfl
  unfold checkCursor
  rw [he, hr, hv, hf]
  simp [hfilter, equalsNumber, and_assoc]

theorem decodeCursor_encodeCursor (filter : TransactionFilter) (tail : CustomerTransactionSummary)
    (expected : String) :
    decodeCursor runtime (some (encodeCursor runtime filter tail)) expected =
      (checkCursor runtime expected (.object (cursorMembers runtime filter tail))).elim
        (.error invalidCursorError) fun cursor => .ok (some cursor) := by
  have hne : encodeCursor runtime filter tail ≠ "" := write_ne_empty (plain_cursor runtime filter tail)
  have hread : read runtime.numbers (encodeCursor runtime filter tail) =
      some (.object (cursorMembers runtime filter tail)) := read_write (plain_cursor runtime filter tail)
  unfold decodeCursor
  dsimp only
  rw [if_neg hne, hread, Option.bind_some]
  cases checkCursor runtime expected (.object (cursorMembers runtime filter tail)) <;> rfl

variable {customerId accountId : String} {query : TransactionHistoryQuery}

/-- The first page. -/
theorem list_first (h : history d customerId accountId = .ok (account, transactions)) :
    list runtime d customerId accountId { query with cursor := none } =
      .ok (page (encodeCursor runtime query.toTransactionFilter) query.pageSize
        (filtered runtime query.toTransactionFilter transactions)) := by
  have hpage := page_from (encodeCursor runtime query.toTransactionFilter) query.pageSize
    (filtered runtime query.toTransactionFilter transactions) 0
  unfold list
  rw [h]
  exact congrArg Except.ok hpage

/-- A page from a cursor that is accepted and found. -/
theorem list_next (h : history d customerId accountId = .ok (account, transactions))
    {text : String} {cursor : Cursor} {k : ℕ}
    (hcursor : decodeCursor runtime (some text) (fingerprint runtime query.toTransactionFilter) =
      .ok (some cursor))
    (hfound : (filtered runtime query.toTransactionFilter transactions).findIdx?
      (atCursor runtime cursor) = some k) :
    list runtime d customerId accountId { query with cursor := some text } =
      .ok (page (encodeCursor runtime query.toTransactionFilter) query.pageSize
        ((filtered runtime query.toTransactionFilter transactions).drop (k + 1))) := by
  have hpage := page_from (encodeCursor runtime query.toTransactionFilter) query.pageSize
    (filtered runtime query.toTransactionFilter transactions) (k + 1)
  have hstart : startAt runtime (filtered runtime query.toTransactionFilter transactions)
      (some cursor) = k + 1 := by
    unfold startAt
    dsimp only
    rw [hfound]
  unfold list
  rw [h]
  dsimp only
  rw [hcursor]
  dsimp only
  rw [hstart, if_neg (by omega)]
  exact congrArg Except.ok hpage

/-- The items of the filtered history are of postings of the account, and their cursors are
    different. -/
theorem shown_filtered (h : Shown d account.ledgerAccountId transactions) :
    Shown d account.ledgerAccountId (filtered runtime filter transactions) := by
  have hperm : (filtered runtime filter transactions).Perm
      (transactions.filter (filter.passes runtime)) := List.perm_insertionSort _ _
  constructor
  · intro t ht
    exact h.posting t (List.mem_of_mem_filter (hperm.mem_iff.mp ht))
  · exact (hperm.map _).nodup_iff.mpr ((List.filter_sublist.map _).nodup h.apart)

/-- The cursor of an item is found at its place. -/
theorem findIdx_cursor (hread : PostingColumns d) {items : List CustomerTransactionSummary}
    (h : Shown d account.ledgerAccountId items) {k : ℕ} {x : CustomerTransactionSummary}
    (hx : items[k]? = some x) :
    items.findIdx? (atCursor runtime ⟨.string (jsString (runtime.toISOString x.postedAt)),
      .string (jsString x.displayReference)⟩) = some k := by
  obtain ⟨hk, rfl⟩ := List.getElem?_eq_some_iff.mp hx
  have htime : ∀ t ∈ items, t.postedAt.natAbs ≤ maxTime := by
    intro t ht
    obtain ⟨p, hp, -, heq⟩ := h.posting t ht
    exact heq ▸ hread.times p (List.mem_filter.mp hp).1
  rw [List.findIdx?_eq_some_iff_getElem]
  refine ⟨hk, ?_, fun j hj => ?_⟩
  · unfold atCursor
    rw [Bool.and_eq_true, equalsText_iff, equalsText_iff]
    exact ⟨rfl, rfl⟩
  · intro hsame
    unfold atCursor at hsame
    rw [Bool.and_eq_true, equalsText_iff, equalsText_iff] at hsame
    have hreference : items[k].displayReference = items[j].displayReference :=
      jsString_inj (JsonValue.string.inj hsame.1)
    have htext : runtime.toISOString items[k].postedAt = runtime.toISOString items[j].postedAt :=
      jsString_inj (JsonValue.string.inj hsame.2)
    have hposted : items[k].postedAt = items[j].postedAt := by
      have hparse := runtime.dateParse_toISOString _ (htime _ (List.getElem_mem hk))
      rw [htext, runtime.dateParse_toISOString _ (htime _ (List.getElem_mem (hj.trans hk)))] at hparse
      exact (Option.some.inj hparse).symm
    have hlength : (items.map fun t => (t.displayReference, t.postedAt)).length = items.length :=
      List.length_map _
    have hkey : (items.map fun t => (t.displayReference, t.postedAt))[k] =
        (items.map fun t => (t.displayReference, t.postedAt))[j] := by
      rw [List.getElem_map, List.getElem_map, hreference, hposted]
    have hplace : k = j := h.apart.getElem_inj_iff.mp hkey
    omega

/-- The cursors of the history are found in it. -/
theorem serves_list (runtime : HistoryRuntime) (query : TransactionHistoryQuery)
    (hread : PostingColumns d)
    (h : history d customerId accountId = .ok (account, transactions))
    (hshown : Shown d account.ledgerAccountId transactions) :
    Serves (fun cursor => list runtime d customerId accountId { query with cursor := cursor }) .ok
      (encodeCursor runtime query.toTransactionFilter) query.pageSize
      (filtered runtime query.toTransactionFilter transactions) id where
  first := list_first h
  next k x hpos _ hx := by
    have hitems : Shown d account.ledgerAccountId
        (filtered runtime query.toTransactionFilter transactions) := shown_filtered hshown
    obtain ⟨p, hp, hreference, htime⟩ := hitems.posting x (List.mem_of_getElem? hx)
    have hrow : p ∈ d.postings.rows := (List.mem_filter.mp hp).1
    have hid := hread.ids p hrow
    have htests : runtime.tests referenceFormat (.string (jsString x.displayReference)) = true := by
      rw [hreference]
      exact tests_string _ (displayReference_ascii hid) (accepts_displayReference hid)
    have hparse : (runtime.dateParse (.string (jsString
        (runtime.toISOString x.postedAt)))).isSome = true := by
      rw [htime, runtime.dateParse_toISOString _ (hread.times p hrow)]
      rfl
    have hcursor : decodeCursor runtime
        (some (encodeCursor runtime query.toTransactionFilter x))
        (fingerprint runtime query.toTransactionFilter) =
        .ok (some ⟨.string (jsString (runtime.toISOString x.postedAt)),
          .string (jsString x.displayReference)⟩) := by
      rw [decodeCursor_encodeCursor, checkCursor_members, if_pos ⟨rfl, htests, hparse⟩]
      rfl
    have hpage := list_next h hcursor (findIdx_cursor hread hitems hx)
    rw [Nat.sub_add_cancel hpos] at hpage
    exact hpage
  forward _ _ _ := le_rfl
  same p q h := (Except.ok.inj h).symm

/-- A cursor that was issued under another filter is refused. -/
theorem list_refused (h : history d customerId accountId = .ok (account, transactions))
    {other : TransactionFilter} {tail : CustomerTransactionSummary}
    (hdigest : fingerprint runtime other ≠ fingerprint runtime query.toTransactionFilter) :
    list runtime d customerId accountId
      { query with cursor := some (encodeCursor runtime other tail) } =
      .error invalidCursorError := by
  have hcursor : decodeCursor runtime (some (encodeCursor runtime other tail))
      (fingerprint runtime query.toTransactionFilter) = .error invalidCursorError := by
    rw [decodeCursor_encodeCursor, checkCursor_members, if_neg fun hall => hdigest hall.1]
    rfl
  unfold list
  rw [h]
  dsimp only
  rw [hcursor]

/-- The cursor of a page is that of an item. -/
theorem next_of_list {page : Page CustomerTransactionSummary String} {next : String}
    (h : list runtime d customerId accountId query = .ok page) (hnext : page.next = some next) :
    ∃ tail, next = encodeCursor runtime query.toTransactionFilter tail := by
  unfold list at h
  split at h
  · cases h
  · split at h
    · cases h
    · dsimp only at h
      split at h
      · cases h
      · rw [← Except.ok.inj h] at hnext
        obtain ⟨tail, -, htail⟩ := Option.bind_eq_some_iff.mp hnext
        split_ifs at htail
        exact ⟨tail, (Option.some.inj htail).symm⟩

theorem direction_text_inj {a b : CustomerTransactionDirection} (h : a.text = b.text) : a = b := by
  cases a <;> cases b <;> first | rfl | exact absurd h (by decide)

theorem category_text_inj {a b : CustomerTransactionCategory} (h : a.text = b.text) : a = b := by
  cases a <;> cases b <;> first | rfl | exact absurd h (by decide)

theorem members_inj {a b : TransactionFilter} (h : a.members = b.members) : a = b := by
  cases a
  cases b
  simp only [TransactionFilter.members, List.cons.injEq, Prod.mk.injEq, true_and, and_true] at h
  obtain ⟨hdirection, hcategory, rfl, rfl⟩ := h
  rw [Option.map_injective (fun _ _ => direction_text_inj) hdirection,
    Option.map_injective (fun _ _ => category_text_inj) hcategory]

/-- Different filters have different texts. -/
theorem filterText_members {a b : TransactionFilter}
    (h : filterText runtime.numbers a.members = filterText runtime.numbers b.members) : a = b := by
  refine members_inj (filterText_inj rfl ?_ h)
  show ["direction", "category", "dateFrom", "dateTo"].Nodup
  decide

end Pages

/-! ## Statement -/

/-- The pages of a history: following the cursors lists the filtered history in its order, and a
    cursor of one of the pages is refused under a different filter, when the two texts do not
    collide in the part of their digests that is kept. -/
structure HistoryPaged (runtime : HistoryRuntime) (d : LedgerStore) (customerId accountId : String)
    (query : TransactionHistoryQuery) (transactions : List CustomerTransactionSummary) : Prop where
  complete : Lists
    (fun cursor => list runtime d customerId accountId { query with cursor := cursor }) none
    (filtered runtime query.toTransactionFilter transactions)
  bound : ∀ page next, list runtime d customerId accountId query = .ok page →
    page.next = some next → ∀ other : TransactionHistoryQuery,
      other.toTransactionFilter ≠ query.toTransactionFilter →
      (fingerprint runtime query.toTransactionFilter =
          fingerprint runtime other.toTransactionFilter →
        filterText runtime.numbers query.members = filterText runtime.numbers other.members) →
      ∀ d' customerId' accountId' read, history d' customerId' accountId' = .ok read →
        list runtime d' customerId' accountId' { other with cursor := some next } =
          .error invalidCursorError

/-- Following the cursors lists the filtered history, when no two postings of the account share the
    posting time and the first twelve digits of the id, and a cursor is refused under any other
    filter. -/
theorem transaction_pages (runtime : HistoryRuntime) (d : LedgerStore) (hread : PostingColumns d)
    (customerId accountId : String) (account : CustomerAccountRow)
    (transactions : List CustomerTransactionSummary)
    (haccount : history d customerId accountId = .ok (account, transactions))
    (hdistinct : ∀ p ∈ d.accountPostings account.ledgerAccountId,
      ∀ q ∈ d.accountPostings account.ledgerAccountId,
        p.createdAt = q.createdAt → firstTwelve p.id = firstTwelve q.id → p = q)
    (query : TransactionHistoryQuery) (hsize : 0 < query.pageSize) :
    HistoryPaged runtime d customerId accountId query transactions := by
  have hserves := serves_list runtime query hread haccount
    (shown_of_history hread haccount hdistinct)
  constructor
  · exact (lists_iff hserves hsize).mpr fun k _ _ => ⟨fun _ => rfl, rfl⟩
  · intro page next hpage hnext other hother hdigest d' customerId' accountId' read hother'
    obtain ⟨tail, rfl⟩ := next_of_list hpage hnext
    apply list_refused hother'
    intro hsame
    exact hother (filterText_members (hdigest hsame)).symm

/-! ## An account with two postings -/

/-- The order of code points, and the digests of two filters. -/
def exampleHistory : HistoryRuntime where
  toCursorRuntime := exampleCursorRuntime
  digest text :=
    if text = "\x7b\x7d" then "RBNvo1WzZ4oRRq0W9-hknpT7T8If536DEMBg9hyq_4o"
    else "B4VNqk5psBxtEWySIndimcksnb9W1NkwQzGzDdF47NQ"
  localeCompare a b := if a < b then -1 else if a = b then 0 else 1
  localeCompare_total a b := by
    rcases lt_trichotomy a b with h | h | h
    · exact .inl (by rw [if_pos h]; decide)
    · exact .inl (by rw [if_neg h.not_lt, if_pos h])
    · exact .inr (by rw [if_pos h]; decide)
  localeCompare_trans a b c hab hbc := by
    have hle : ∀ x y : String, (if x < y then (-1 : ℤ) else if x = y then 0 else 1) ≤ 0 ↔ x ≤ y := by
      intro x y
      rcases lt_trichotomy x y with h | h | h
      · simp [h, h.le]
      · simp [h]
      · simp [h.not_gt, h.ne', h.not_ge]
    rw [hle] at hab hbc ⊢
    exact hab.trans hbc

/-- A funding and a transfer of a minute later. -/
def twoPostings : LedgerStore where
  accounts := .empty
  projections := .empty
  customerAccounts := ⟨[{
    id := "2f1e7c1a-0000-4000-8000-000000000001"
    customerId := "2f1e7c1a-0000-4000-8000-000000000002"
    publicReference := "AEGIS-AAAA-BBBB-CCCC", maskedReference := "AEGIS-****-****-CCCC"
    productType := .TIER0_WALLET, currency := "LKR", status := .ACTIVE
    ledgerAccountId := "2f1e7c1a-0000-4000-8000-000000000003"
    createdAt := 1785542400000 }], by decide⟩
  entries := ⟨[{
    id := "2f1e7c1a-0000-4000-8000-000000000004", reference := "JRN-FUNDING-1"
    entryType := .SETTLEMENT_FUNDING, currency := "LKR", description := none
    correlationId := "c-1", effectiveAt := 1785542400000, createdAt := 1785542400000
    createdByType := .SYSTEM, createdById := "system", metadata := .null }, {
    id := "2f1e7c1a-0000-4000-8000-000000000005", reference := "JRN-TRANSFER-1"
    entryType := .CUSTOMER_TRANSFER, currency := "LKR", description := none
    correlationId := "c-2", effectiveAt := 1785542460000, createdAt := 1785542460000
    createdByType := .SERVICE, createdById := "payments", metadata := .null }], by decide⟩
  postings := ⟨[{
    ledgerAccountId := "2f1e7c1a-0000-4000-8000-000000000003", direction := .CREDIT
    amountMinor := 500, id := "2f1e7c1a-0000-4000-8000-000000000006"
    journalEntryId := "2f1e7c1a-0000-4000-8000-000000000004", currency := "LKR", sequence := 0
    createdAt := 1785542400000 }, {
    ledgerAccountId := "2f1e7c1a-0000-4000-8000-000000000003", direction := .DEBIT
    amountMinor := 200, id := "2f1e7c1a-0000-4000-8000-000000000007"
    journalEntryId := "2f1e7c1a-0000-4000-8000-000000000005", currency := "LKR", sequence := 0
    createdAt := 1785542460000 }], by decide⟩

/-- The history of the example, without a filter. -/
def exampleQuery : TransactionHistoryQuery where
  direction := none
  category := none
  dateFrom := none
  dateTo := none
  pageSize := 1
  cursor := none

theorem twoPostings_columns : PostingColumns twoPostings where
  ids := by decide +kernel
  times := by decide +kernel

/-- The two postings are listed on two pages. -/
theorem two_postings_paged : ∃ account transactions,
    history twoPostings "2f1e7c1a-0000-4000-8000-000000000002"
      "2f1e7c1a-0000-4000-8000-000000000001" = .ok (account, transactions) ∧
    transactions.length = 2 ∧
    HistoryPaged exampleHistory twoPostings "2f1e7c1a-0000-4000-8000-000000000002"
      "2f1e7c1a-0000-4000-8000-000000000001" exampleQuery transactions := by
  have hread : history twoPostings "2f1e7c1a-0000-4000-8000-000000000002"
      "2f1e7c1a-0000-4000-8000-000000000001" = .ok (_, _) := rfl
  refine ⟨_, _, hread, rfl, ?_⟩
  exact transaction_pages exampleHistory twoPostings twoPostings_columns _ _ _ _ hread
    (by decide +kernel) exampleQuery Nat.one_pos

end AegisShield.Ledger
