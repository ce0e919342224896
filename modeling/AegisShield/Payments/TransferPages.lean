import AegisShield.Common.CursorText
import AegisShield.Common.Paging
import AegisShield.Payments.Command

/-!
# Transfer pages

`TransfersService.list` (`transfers.service.ts`, lines 476-557): the transfers of a customer,
newest first, page by page. The query is limited to 500 rows; the direction and the cursor are
applied to these rows, and the response is parsed with `transferListResponseSchema`
(`contracts/payments/v1.ts`).

Results:
* `transfer_pages`: following the cursors lists every transfer that matches exactly when none of
  them is beyond the 500 newest that match apart from the direction, and every page passes the
  schema of the response.
* `transfer_dropped`: a customer with 501 transfers, and the oldest is on no page.
-/

namespace AegisShield.Payments

open Common Paging CursorText JsonText

/-! ## The listing -/

/-- `TransferDirection` (`contracts/payments/v1.ts`, line 48). -/
inductive TransferDirection where
  | SENT
  | RECEIVED
  deriving DecidableEq

/-- The text of a direction. -/
def TransferDirection.text : TransferDirection → String
  | .SENT => "SENT"
  | .RECEIVED => "RECEIVED"

/-- The text of a status. -/
def TransferStatus.text : TransferStatus → String
  | .PROCESSING => "PROCESSING"
  | .COMPLETED => "COMPLETED"
  | .FAILED => "FAILED"
  | .REQUIRES_REVIEW => "REQUIRES_REVIEW"

/-- A row of `transfers` with the columns that a summary reads besides. -/
structure ListedTransfer extends TransferRow where
  senderMaskedReference : String
  recipientMaskedReference : String

/-- The table: ids are different UUIDs, and times are `Date`s. -/
structure TransferTable where
  rows : List ListedTransfer
  unique : (rows.map fun row => row.id).Nodup
  ids : ∀ row ∈ rows, uuidFormat.accepts row.id = true
  times : ∀ row ∈ rows, row.createdAt ≤ maxTime

/-- The filter of `TransferListQuery` (`contracts/payments/v1.ts`, line 191). -/
structure TransferFilter where
  direction : Option TransferDirection
  status : Option TransferStatus
  dateFrom : Option String
  dateTo : Option String

/-- `TransferListQuery` (`contracts/payments/v1.ts`, line 191). -/
structure TransferListQuery extends TransferFilter where
  pageSize : ℕ
  cursor : Option String

/-- `TransferSummary` (`contracts/payments/v1.ts`, line 151), with amounts as integers. -/
structure TransferSummary where
  id : String
  displayReference : String
  direction : TransferDirection
  status : TransferStatus
  accountId : String
  counterpartyMaskedReference : String
  currency : String
  amountMinor : ℤ
  createdAt : String
  completedAt : Option String
  deriving DecidableEq

/-- What the schema of the response takes from zod. -/
structure ListZod extends Zod where
  isDateTime : String → Bool

/-- What the listing throws. -/
inductive ListError where
  /-- `PaymentsError('INVALID_REQUEST')`. -/
  | invalidRequest
  /-- The query is refused: a date is none. -/
  | query
  /-- The response does not pass its schema. -/
  | response
  deriving DecidableEq

/-- `/^[-a-f0-9]{36}$/u`. -/
def cursorIdFormat : Format :=
  List.replicate 36 fun c => c = '-' || isHexDigit c

/-- The members of the filter (lines 480-485). -/
def TransferFilter.members (filter : TransferFilter) : List (String × Option String) :=
  [("direction", filter.direction.map TransferDirection.text),
    ("status", filter.status.map TransferStatus.text),
    ("dateFrom", filter.dateFrom), ("dateTo", filter.dateTo)]

/-- The code units of a string, in whose order strings are compared. -/
def codes (s : JsString) : List ℕ := s.map UInt16.toNat

/-- A cursor, as it is read. -/
structure TransferCursor where
  /-- `new Date(cursor.createdAt)`. -/
  createdAt : Option ℤ
  id : JsString

section List

variable (runtime : CursorRuntime)

/-- The text of the filter (lines 480-485). -/
def TransferFilter.text (filter : TransferFilter) : String :=
  filterText runtime.numbers filter.members

/-- The checks of a parsed cursor (lines 492-497). -/
def checkTransferCursor (expected : String) (parsed : JsonValue) : Option TransferCursor := do
  let id ← member parsed "id"
  let text ← runtime.text id
  if (member parsed "filter").any (equalsText expected) && cursorIdFormat.fits (text.map unitChar)
    then some ⟨(member parsed "createdAt").bind runtime.dateParse, text⟩
  else none

/-- `cursor` (lines 486-505). -/
def readTransferCursor (value : Option String) (expected : String) :
    Except ListError (Option TransferCursor) :=
  match value with
  | none => .ok none
  | some text =>
    if text = "" then .ok none
    else
      match (read runtime.numbers text).bind (checkTransferCursor runtime expected) with
      | none => .error .invalidRequest
      | some cursor => .ok (some cursor)

/-- A bound of the query (lines 513-520): `none` when it is no date. -/
def dateBound : Option String → Option (Option ℤ)
  | none => some none
  | some text =>
    if text = "" then some none
    else (runtime.dateParse (.string (jsString text))).map some

/-- The transfer matches the query (lines 507-520). -/
def matchesQuery (customerId : String) (status : Option TransferStatus) (dateFrom dateTo : Option ℤ)
    (row : ListedTransfer) : Bool :=
  (decide (row.senderCustomerId = customerId) || decide (row.recipientCustomerId = customerId)) &&
    status.all (fun s => decide (row.status = s)) &&
    dateFrom.all (fun t => decide (t ≤ (row.createdAt : ℤ))) &&
    dateTo.all fun t => decide ((row.createdAt : ℤ) ≤ t)

/-- The direction of the transfer matches (lines 525-531). -/
def matchesDirection (customerId : String) (direction : Option TransferDirection)
    (row : ListedTransfer) : Bool :=
  match direction with
  | none => true
  | some .SENT => decide (row.senderCustomerId = customerId)
  | some .RECEIVED => decide (row.recipientCustomerId = customerId)

/-- `orderBy: [{ createdAt: 'desc' }, { id: 'desc' }]`; the bytes of UUIDs are in the order of
    their texts. -/
def newerTransferFirst (a b : ListedTransfer) : Prop :=
  b.createdAt < a.createdAt ∨
    (a.createdAt = b.createdAt ∧ codes (jsString b.id) ≤ codes (jsString a.id))

instance : DecidableRel newerTransferFirst := fun _ _ => inferInstanceAs (Decidable (_ ∨ _))

/-- The transfer is after the cursor (lines 531-538). -/
def afterCursor (cursor : TransferCursor) (row : ListedTransfer) : Bool :=
  cursor.createdAt.any fun t => decide ((row.createdAt : ℤ) < t) ||
    (decide ((row.createdAt : ℤ) = t) && decide (codes (jsString row.id) < codes cursor.id))

/-- The transfers after a cursor (lines 531-539). -/
def afterAll (rows : List ListedTransfer) : Option TransferCursor → List ListedTransfer
  | none => rows
  | some cursor => rows.filter (afterCursor cursor)

/-- `asSummary` (lines 122-140). -/
def asSummary (row : ListedTransfer) (customerId : String) : TransferSummary :=
  let sent := row.senderCustomerId = customerId
  { id := row.id
    displayReference := row.displayReference
    direction := if sent then .SENT else .RECEIVED
    status := row.status
    accountId := if sent then row.senderAccountId else row.recipientAccountId
    counterpartyMaskedReference :=
      if sent then row.recipientMaskedReference else row.senderMaskedReference
    currency := row.currency
    amountMinor := row.amountMinor
    createdAt := runtime.toISOString row.createdAt
    completedAt := row.completedAt.map fun t => runtime.toISOString t }

/-- The members of the cursor at a transfer (lines 549-553). -/
def transferCursorMembers (filter : TransferFilter) (tail : TransferSummary) :
    List (JsString × JsonValue) :=
  [(jsString "createdAt", .string (jsString tail.createdAt)),
    (jsString "id", .string (jsString tail.id)),
    (jsString "filter", .string (jsString (filter.text runtime)))]

/-- The cursor at a transfer (lines 548-554). -/
def transferCursor (filter : TransferFilter) (tail : TransferSummary) : String :=
  write runtime.numbers (transferCursorMembers runtime filter tail)

/-- `transferSummarySchema` (`contracts/payments/v1.ts`, lines 138-150). The currency is a `CHAR(3)`
    column, so a text that `trim` shortens is refused. -/
def transferSummarySchema (zod : ListZod) (summary : TransferSummary) : Bool :=
  zod.isUuid summary.id && transferDisplayReferenceSchema.accepts summary.displayReference &&
    zod.isUuid summary.accountId &&
    Ledger.maskedAccountReferenceSchema.accepts summary.counterpartyMaskedReference &&
    currencyFormat.accepts summary.currency && decide (summary.amountMinor.natAbs < 10 ^ 24) &&
    zod.isDateTime summary.createdAt && summary.completedAt.all zod.isDateTime

/-- `transferListResponseSchema` (`contracts/payments/v1.ts`, lines 193-198). -/
def transferListResponseSchema (zod : ListZod) (response : Page TransferSummary String) : Bool :=
  decide (response.items.length ≤ 50) && response.items.all (transferSummarySchema zod) &&
    response.next.all fun text => decide (1 ≤ utf16Length text ∧ utf16Length text ≤ 1024)

/-- `transferListResponseSchema.parse`. -/
def parseResponse (zod : ListZod) (response : Page TransferSummary String) :
    Except ListError (Page TransferSummary String) :=
  if transferListResponseSchema zod response then .ok response else .error .response

/-- The query of `list` (lines 506-524), without its limit. -/
def queried (table : TransferTable) (customerId : String) (status : Option TransferStatus)
    (dateFrom dateTo : Option ℤ) : List ListedTransfer :=
  (table.rows.filter (matchesQuery customerId status dateFrom dateTo)).insertionSort
    newerTransferFirst

/-- `list` (lines 476-557). -/
def list (zod : ListZod) (table : TransferTable) (customerId : String)
    (query : TransferListQuery) : Except ListError (Page TransferSummary String) :=
  match readTransferCursor runtime query.cursor (query.toTransferFilter.text runtime) with
  | .error e => .error e
  | .ok cursor =>
    match dateBound runtime query.dateFrom, dateBound runtime query.dateTo with
    | some dateFrom, some dateTo =>
      let rows := (queried table customerId query.status dateFrom dateTo).take 500
      let directionFiltered := rows.filter (matchesDirection customerId query.direction)
      let after := afterAll directionFiltered cursor
      let page := after.take query.pageSize
      parseResponse zod {
        items := page.map fun row => asSummary runtime row customerId
        next := page.getLast?.bind fun tail =>
          if page.length < after.length then
            some (transferCursor runtime query.toTransferFilter (asSummary runtime tail customerId))
          else none }
    | _, _ => .error .query

/-! ## Statement -/

/-- The transfer matches the filters. -/
def matchesFilter (customerId : String) (filter : TransferFilter) (row : ListedTransfer) : Bool :=
  match dateBound runtime filter.dateFrom, dateBound runtime filter.dateTo with
  | some dateFrom, some dateTo =>
    matchesQuery customerId filter.status dateFrom dateTo row &&
      matchesDirection customerId filter.direction row
  | _, _ => false

/-- The transfers that match the filters, newest first. -/
def matching (table : TransferTable) (customerId : String) (filter : TransferFilter) :
    List ListedTransfer :=
  (table.rows.filter (matchesFilter runtime customerId filter)).insertionSort newerTransferFirst

/-- Following the cursors lists every transfer that matches, newest first. -/
def TransfersPaged (zod : ListZod) (table : TransferTable) (customerId : String)
    (query : TransferListQuery) : Prop :=
  Lists (fun cursor => list runtime zod table customerId { query with cursor := cursor }) none
    ((matching runtime table customerId query.toTransferFilter).map fun row =>
      asSummary runtime row customerId)

/-- Every transfer that matches is among the 500 newest that match apart from the direction, and
    every page passes the schema of the response. -/
structure WithinReach (zod : ListZod) (table : TransferTable) (customerId : String)
    (query : TransferListQuery) : Prop where
  dates : (dateBound runtime query.dateFrom).isSome = true ∧
    (dateBound runtime query.dateTo).isSome = true
  newest : ∀ row ∈ (matching runtime table customerId
      { query.toTransferFilter with direction := none }).drop 500,
    matchesDirection customerId query.direction row = false
  size : query.pageSize ≤ 50 ∨
    (matching runtime table customerId query.toTransferFilter).length ≤ 50
  summaries : ∀ row ∈ matching runtime table customerId query.toTransferFilter,
    transferSummarySchema zod (asSummary runtime row customerId) = true
  cursors : ∀ k row, query.pageSize ∣ k → 0 < k →
    k < (matching runtime table customerId query.toTransferFilter).length →
    (matching runtime table customerId query.toTransferFilter)[k - 1]? = some row →
    utf16Length (transferCursor runtime query.toTransferFilter
      (asSummary runtime row customerId)) ≤ 1024

end List

/-! ## The order -/

section Order

theorem codes_inj {s t : JsString} (h : codes s = codes t) : s = t :=
  List.map_injective_iff.mpr (fun _ _ => UInt16.toNat_inj.mp) h

instance : Std.Total newerTransferFirst where
  total a b := by
    unfold newerTransferFirst
    rcases Nat.lt_trichotomy a.createdAt b.createdAt with h | h | h
    · exact .inr (.inl h)
    · exact (le_total (codes (jsString b.id)) (codes (jsString a.id))).imp
        (fun hle => .inr ⟨h, hle⟩) fun hle => .inr ⟨h.symm, hle⟩
    · exact .inl (.inl h)

instance : IsTrans ListedTransfer newerTransferFirst where
  trans a b c := by
    unfold newerTransferFirst
    rintro (hab | ⟨hab, hle⟩) (hbc | ⟨hbc, hle'⟩)
    · exact .inl (hbc.trans hab)
    · exact .inl (hbc ▸ hab)
    · exact .inl (hab ▸ hbc)
    · exact .inr ⟨hab.trans hbc, hle'.trans hle⟩

/-- The summary is after the cursor at another one. -/
def afterSummary (runtime : CursorRuntime) (x y : TransferSummary) : Bool :=
  (runtime.dateParse (.string (jsString x.createdAt))).any fun t =>
    (runtime.dateParse (.string (jsString y.createdAt))).any fun u => decide (u < t) ||
      (decide (u = t) && decide (codes (jsString y.id) < codes (jsString x.id)))

variable {runtime : CursorRuntime} {customerId : String} {a b : ListedTransfer}

theorem dateParse_createdAt (ha : a.createdAt ≤ maxTime) : runtime.dateParse
    (.string (jsString (asSummary runtime a customerId).createdAt)) = some (a.createdAt : ℤ) :=
  runtime.dateParse_toISOString a.createdAt ha

theorem afterSummary_eq (x : TransferSummary) (hb : b.createdAt ≤ maxTime) :
    afterSummary runtime x (asSummary runtime b customerId) =
      afterCursor ⟨runtime.dateParse (.string (jsString x.createdAt)), jsString x.id⟩ b := by
  unfold afterSummary afterCursor
  rw [dateParse_createdAt hb]
  rfl

theorem afterSummary_asSummary (ha : a.createdAt ≤ maxTime) (hb : b.createdAt ≤ maxTime) :
    afterSummary runtime (asSummary runtime a customerId) (asSummary runtime b customerId) =
      afterCursor ⟨some a.createdAt, jsString a.id⟩ b := by
  rw [afterSummary_eq _ hb, dateParse_createdAt ha]
  rfl

theorem afterCursor_iff {t : ℤ} {id : JsString} :
    afterCursor ⟨some t, id⟩ b = true ↔
      b.createdAt < t ∨ (b.createdAt = t ∧ codes (jsString b.id) < codes id) := by
  simp [afterCursor]

/-- A transfer that stands after another one in the listing is after the cursor at it. -/
theorem afterCursor_of_newer (h : newerTransferFirst a b) (hne : a.id ≠ b.id) :
    afterCursor ⟨some a.createdAt, jsString a.id⟩ b = true := by
  rw [afterCursor_iff]
  rcases h with h | ⟨htime, hle⟩
  · exact .inl (by exact_mod_cast h)
  · refine .inr ⟨by exact_mod_cast htime.symm, lt_of_le_of_ne hle fun heq => hne ?_⟩
    exact (jsString_inj (codes_inj heq)).symm

theorem not_afterCursor_of_newer (h : newerTransferFirst a b) :
    afterCursor ⟨some b.createdAt, jsString b.id⟩ a = false := by
  rw [← Bool.not_eq_true, afterCursor_iff]
  rintro (hlt | ⟨htime, hlt⟩)
  · rcases h with h | ⟨htime, -⟩ <;> omega
  · rcases h with h | ⟨-, hle⟩
    · omega
    · exact absurd hlt (not_lt.mpr hle)

/-- What is behind a transfer that is after a cursor is after it too. -/
theorem afterCursor_trans {cursor : TransferCursor} (h : newerTransferFirst a b)
    (ha : afterCursor cursor a = true) : afterCursor cursor b = true := by
  rcases cursor with ⟨_ | t, id⟩
  · cases ha
  · rw [afterCursor_iff] at ha ⊢
    rcases h with h | ⟨htime, hle⟩
    · rcases ha with ha | ⟨ha, -⟩ <;> exact .inl (by omega)
    · rcases ha with ha | ⟨ha, hlt⟩
      · exact .inl (by omega)
      · exact .inr ⟨by omega, lt_of_le_of_lt hle hlt⟩

end Order

/-! ## What the query returns -/

section Fetched

variable {runtime : CursorRuntime} {zod : ListZod} {table : TransferTable} {customerId : String}
  {query : TransferListQuery} {dateFrom dateTo : Option ℤ}

/-- `directionFiltered` of `list` (lines 506-531). -/
def fetched (table : TransferTable) (customerId : String) (query : TransferListQuery)
    (dateFrom dateTo : Option ℤ) : List ListedTransfer :=
  ((queried table customerId query.status dateFrom dateTo).take 500).filter
    (matchesDirection customerId query.direction)

variable (hfrom : dateBound runtime query.dateFrom = some dateFrom)
  (hto : dateBound runtime query.dateTo = some dateTo)

include hfrom hto in
theorem matching_eq :
    matching runtime table customerId query.toTransferFilter =
      (queried table customerId query.status dateFrom dateTo).filter
        (matchesDirection customerId query.direction) := by
  unfold matching queried
  rw [← insertionSort_filter, List.filter_filter]
  congr 2
  funext row
  unfold matchesFilter
  rw [hfrom, hto]
  exact Bool.and_comm _ _

include hfrom hto in
theorem matching_anyDirection :
    matching runtime table customerId { query.toTransferFilter with direction := none } =
      queried table customerId query.status dateFrom dateTo := by
  unfold matching queried
  congr 2
  funext row
  unfold matchesFilter
  dsimp only
  rw [hfrom, hto]
  exact Bool.and_true _

include hfrom hto in
/-- Of what matches, the query returns the first rows; the others are beyond its limit. -/
theorem matching_split (table : TransferTable) (customerId : String) :
    matching runtime table customerId query.toTransferFilter =
      fetched table customerId query dateFrom dateTo ++
        ((queried table customerId query.status dateFrom dateTo).drop 500).filter
          (matchesDirection customerId query.direction) := by
  rw [matching_eq hfrom hto]
  unfold fetched
  rw [← List.filter_append, List.take_append_drop]

variable {row : ListedTransfer} {value : Option String} {response : Page TransferSummary String}
  {items : List TransferSummary} {n : ℕ}

theorem mem_fetched
    (h : row ∈ fetched table customerId query dateFrom dateTo) : row ∈ table.rows := by
  have hquery := List.mem_of_mem_take (List.mem_of_mem_filter h)
  unfold queried at hquery
  rw [List.mem_insertionSort] at hquery
  exact List.mem_of_mem_filter hquery

theorem length_fetched_le (table : TransferTable) (customerId : String)
    (query : TransferListQuery) (dateFrom dateTo : Option ℤ) :
    (fetched table customerId query dateFrom dateTo).length ≤ 500 :=
  (List.length_filter_le _ _).trans (by rw [List.length_take]; exact Nat.min_le_left _ _)

/-- The rows that are returned are in order, and no two have one id. -/
theorem sorted_fetched : (fetched table customerId query dateFrom dateTo).Pairwise fun a b =>
    newerTransferFirst a b ∧ a.id ≠ b.id := by
  have hsublist : (fetched table customerId query dateFrom dateTo).Sublist
      (queried table customerId query.status dateFrom dateTo) :=
    List.filter_sublist.trans (List.take_sublist _ _)
  have hsorted : (queried table customerId query.status dateFrom dateTo).Pairwise
      newerTransferFirst := List.pairwise_insertionSort _ _
  have hunique : ((queried table customerId query.status dateFrom dateTo).map
      fun row => row.id).Nodup :=
    ((List.perm_insertionSort newerTransferFirst _).map _).nodup_iff.mpr
      ((List.filter_sublist.map _).nodup table.unique)
  exact (hsorted.and (List.pairwise_map.mp hunique)).sublist hsublist

/-- The summaries of the rows that are returned. -/
def summaries (runtime : CursorRuntime) (table : TransferTable) (customerId : String)
    (query : TransferListQuery) (dateFrom dateTo : Option ℤ) : List TransferSummary :=
  (fetched table customerId query dateFrom dateTo).map fun row => asSummary runtime row customerId

theorem pairwise_summaries {R : TransferSummary → TransferSummary → Prop}
    (h : ∀ a b, a.createdAt ≤ maxTime → b.createdAt ≤ maxTime → newerTransferFirst a b →
      a.id ≠ b.id → R (asSummary runtime a customerId) (asSummary runtime b customerId)) :
    (summaries runtime table customerId query dateFrom dateTo).Pairwise R := by
  unfold summaries
  rw [List.pairwise_map]
  refine sorted_fetched.imp_of_mem fun {a b} ha hb hab => ?_
  exact h a b (table.times a (mem_fetched ha)) (table.times b (mem_fetched hb)) hab.1 hab.2

theorem descends_summaries : Descends (afterSummary runtime)
    (summaries runtime table customerId query dateFrom dateTo) := by
  constructor
  · intro x hx
    obtain ⟨row, hrow, rfl⟩ := List.mem_map.mp hx
    have htime := table.times row (mem_fetched hrow)
    rw [afterSummary_asSummary htime htime, ← Bool.not_eq_true, afterCursor_iff]
    simp
  · apply pairwise_summaries
    intro a b ha hb hab _
    rw [afterSummary_asSummary hb ha]
    exact not_afterCursor_of_newer hab
  · apply pairwise_summaries
    intro a b ha hb hab _ x hx
    rw [afterSummary_eq x ha] at hx
    rw [afterSummary_eq x hb]
    exact afterCursor_trans hab hx

/-- Every transfer is after the cursor at the one before it. -/
theorem after_of_succ {k : ℕ} {x y : TransferSummary} (hk : 0 < k)
    (hx : (summaries runtime table customerId query dateFrom dateTo)[k - 1]? = some x)
    (hy : (summaries runtime table customerId query dateFrom dateTo)[k]? = some y) :
    afterSummary runtime x y = true := by
  have hpairs : (summaries runtime table customerId query dateFrom dateTo).Pairwise fun a b =>
      afterSummary runtime a b = true := by
    apply pairwise_summaries
    intro a b ha hb hab hne
    rw [afterSummary_asSummary ha hb]
    exact afterCursor_of_newer hab hne
  obtain ⟨hlt, rfl⟩ := List.getElem?_eq_some_iff.mp hx
  obtain ⟨hlt', rfl⟩ := List.getElem?_eq_some_iff.mp hy
  exact List.pairwise_iff_getElem.mp hpairs (k - 1) k hlt hlt' (by omega)

theorem plain_transferCursor (runtime : CursorRuntime) (filter : TransferFilter)
    (tail : TransferSummary) :
    Plain (.object (transferCursorMembers runtime filter tail)) := by
  constructor
  · show [jsString "createdAt", jsString "id", jsString "filter"].Nodup
    decide
  · intro m hm
    simp only [transferCursorMembers, List.mem_cons, List.not_mem_nil, or_false] at hm
    rcases hm with rfl | rfl | rfl <;> exact .string _

/-- A cursor that was issued is read as the time and the id of its transfer. -/
theorem readTransferCursor_transferCursor (hrow : row ∈ table.rows) (filter : TransferFilter) :
    readTransferCursor runtime
      (some (transferCursor runtime filter (asSummary runtime row customerId)))
      (filter.text runtime) = .ok (some ⟨some row.createdAt, jsString row.id⟩) := by
  have hplain := plain_transferCursor runtime filter (asSummary runtime row customerId)
  have hid := table.ids row hrow
  have hfits : cursorIdFormat.fits ((jsString row.id).map unitChar) = true := by
    unfold jsString
    rw [map_unitChar (uuid_ascii hid)]
    refine Format.fits_replicate.mpr ⟨(uuid_chars hid).1, fun c hc => ?_⟩
    simpa using (uuid_chars hid).2 c hc
  have hfilter : equalsText (filter.text runtime) (.string (jsString (filter.text runtime))) =
      true := equalsText_iff.mpr rfl
  have hcheck : checkTransferCursor runtime (filter.text runtime)
      (.object (transferCursorMembers runtime filter (asSummary runtime row customerId))) =
      some ⟨some row.createdAt, jsString row.id⟩ := by
    have hmember : member (.object (transferCursorMembers runtime filter
        (asSummary runtime row customerId))) "id" = some (.string (jsString row.id)) := rfl
    have hmember' : member (.object (transferCursorMembers runtime filter
        (asSummary runtime row customerId))) "filter" =
        some (.string (jsString (filter.text runtime))) := rfl
    have htime : (member (.object (transferCursorMembers runtime filter
        (asSummary runtime row customerId))) "createdAt").bind runtime.dateParse =
        some (row.createdAt : ℤ) := dateParse_createdAt (table.times row hrow)
    unfold checkTransferCursor
    rw [hmember, hmember', htime]
    simp [runtime.text_string, hfilter, hfits]
  have hread : read runtime.numbers
      (transferCursor runtime filter (asSummary runtime row customerId)) =
      some (.object (transferCursorMembers runtime filter (asSummary runtime row customerId))) :=
    read_write hplain
  have hne : transferCursor runtime filter (asSummary runtime row customerId) ≠ "" :=
    write_ne_empty hplain
  unfold readTransferCursor
  dsimp only
  rw [if_neg hne, hread, Option.bind_some, hcheck]

include hfrom hto in
/-- A call that reads its cursor and its dates answers a page, when the schema accepts it. -/
theorem list_eq {cursor : Option TransferCursor}
    (hcursor : readTransferCursor runtime value (query.toTransferFilter.text runtime) =
      .ok cursor) :
    list runtime zod table customerId { query with cursor := value } =
      parseResponse zod (page (transferCursor runtime query.toTransferFilter) query.pageSize
        ((afterAll (fetched table customerId query dateFrom dateTo) cursor).map fun row =>
          asSummary runtime row customerId)) := by
  have hpage := page_from (fun row => transferCursor runtime query.toTransferFilter
    (asSummary runtime row customerId)) query.pageSize
    (afterAll (fetched table customerId query dateFrom dateTo) cursor) 0
  simp only [List.drop_zero, Nat.zero_add] at hpage
  have hnext := congrArg Page.next hpage
  rw [page_map]
  unfold list
  dsimp only
  rw [hcursor, hfrom, hto]
  exact congrArg (parseResponse zod) (congrArg₂ Page.mk rfl hnext)

include hfrom hto in
/-- The cursors of the listing are compared with the rows. -/
theorem serves_list (zod : ListZod) (table : TransferTable) (customerId : String) :
    Serves (fun cursor => list runtime zod table customerId { query with cursor := cursor })
      (parseResponse zod) (transferCursor runtime query.toTransferFilter) query.pageSize
      (summaries runtime table customerId query dateFrom dateTo)
      (resumeBeyond (afterSummary runtime)
        (summaries runtime table customerId query dateFrom dateTo)) := by
  apply serves_beyond descends_summaries
  · have hnone : readTransferCursor runtime none (query.toTransferFilter.text runtime) =
        .ok none := rfl
    exact list_eq hfrom hto hnone
  · intro x hx
    obtain ⟨row, hrow, rfl⟩ := List.mem_map.mp hx
    have hmem := mem_fetched hrow
    have hafter : (fetched table customerId query dateFrom dateTo).filter
        (afterCursor ⟨some row.createdAt, jsString row.id⟩) =
        (fetched table customerId query dateFrom dateTo).filter
          (afterSummary runtime (asSummary runtime row customerId) ∘ fun other =>
            asSummary runtime other customerId) := by
      refine List.filter_congr fun other hother => ?_
      exact (afterSummary_asSummary (table.times row hmem)
        (table.times other (mem_fetched hother))).symm
    rw [list_eq hfrom hto (readTransferCursor_transferCursor hmem _)]
    unfold afterAll summaries
    rw [List.filter_map, ← hafter]
  · intro p q h
    unfold parseResponse at h
    split_ifs at h
    exact (Except.ok.inj h).symm

/-! ## What the schema accepts -/

theorem parseResponse_ok :
    parseResponse zod response = .ok response ↔ response.items.length ≤ 50 ∧
      (∀ item ∈ response.items, transferSummarySchema zod item = true) ∧
      ∀ next, response.next = some next → 1 ≤ utf16Length next ∧ utf16Length next ≤ 1024 := by
  have hschema : parseResponse zod response = .ok response ↔
      transferListResponseSchema zod response = true := by
    unfold parseResponse
    split_ifs with h <;> simp [h]
  rw [hschema]
  unfold transferListResponseSchema
  rw [Bool.and_eq_true, Bool.and_eq_true, decide_eq_true_eq, List.all_eq_true, and_assoc]
  cases response.next <;> simp

theorem one_le_utf16Length {text : String} (h : text ≠ "") : 1 ≤ utf16Length text := by
  unfold utf16Length
  cases htext : text.toList with
  | nil => exact absurd (String.toList_eq_nil_iff.mp htext) h
  | cons c cs =>
    rw [List.map_cons, List.sum_cons]
    split_ifs <;> omega

/-- The schema accepts every page of a list: the pages are short, the summaries are accepted, and
    so are the cursors. -/
theorem responses_iff (hn : 0 < n) (filter : TransferFilter) :
    (∀ k, n ∣ k → (k = 0 ∨ k < items.length) →
      parseResponse zod (page (transferCursor runtime filter) n (items.drop k)) =
        .ok (page (transferCursor runtime filter) n (items.drop k))) ↔
    (n ≤ 50 ∨ items.length ≤ 50) ∧ (∀ item ∈ items, transferSummarySchema zod item = true) ∧
      ∀ k item, n ∣ k → 0 < k → k < items.length → items[k - 1]? = some item →
        utf16Length (transferCursor runtime filter item) ≤ 1024 := by
  constructor
  · intro h
    refine ⟨?_, fun item hitem => ?_, fun k item hdvd hpos hk hitem => ?_⟩
    · have hlength := (parseResponse_ok.mp (h 0 (dvd_zero n) (.inl rfl))).1
      rw [List.drop_zero] at hlength
      have htake : (items.take n).length ≤ 50 := hlength
      rw [List.length_take] at htake
      omega
    · obtain ⟨k, hdvd, hk, hmem⟩ := exists_page (transferCursor runtime filter) hn hitem
      exact (parseResponse_ok.mp (h k hdvd hk)).2.1 item hmem
    · have hle := Nat.le_of_dvd hpos hdvd
      have hpage := h (k - n) (Nat.dvd_sub hdvd dvd_rfl) (by omega)
      exact ((parseResponse_ok.mp hpage).2.2 _ (page_before hn hdvd hpos hk hitem)).2
  · rintro ⟨hsize, hitems, hcursors⟩ k hdvd hk
    refine parseResponse_ok.mpr ⟨?_, fun item hitem => ?_, fun next hnext => ?_⟩
    · show ((items.drop k).take n).length ≤ 50
      rw [List.length_take, List.length_drop]
      omega
    · exact hitems item (List.mem_of_mem_drop (List.mem_of_mem_take hitem))
    · obtain ⟨hlt, -, item, hitem, rfl⟩ := page_next hn hnext
      exact ⟨one_le_utf16Length (write_ne_empty (plain_transferCursor runtime filter item)),
        hcursors (k + n) item (hdvd.add dvd_rfl) (by omega) hlt hitem⟩

/-- The same of the rows. -/
theorem accepted_rows_iff {rows : List ListedTransfer} (filter : TransferFilter) :
    ((n ≤ 50 ∨ (rows.map fun row => asSummary runtime row customerId).length ≤ 50) ∧
      (∀ item ∈ rows.map fun row => asSummary runtime row customerId,
        transferSummarySchema zod item = true) ∧
      ∀ k item, n ∣ k → 0 < k → k < (rows.map fun row => asSummary runtime row customerId).length →
        (rows.map fun row => asSummary runtime row customerId)[k - 1]? = some item →
        utf16Length (transferCursor runtime filter item) ≤ 1024) ↔
    (n ≤ 50 ∨ rows.length ≤ 50) ∧
      (∀ row ∈ rows, transferSummarySchema zod (asSummary runtime row customerId) = true) ∧
      ∀ k row, n ∣ k → 0 < k → k < rows.length → rows[k - 1]? = some row →
        utf16Length (transferCursor runtime filter (asSummary runtime row customerId)) ≤ 1024 := by
  rw [List.length_map, List.forall_mem_map]
  refine and_congr_right fun _ => and_congr_right fun _ => ?_
  constructor
  · intro h k row hdvd hpos hk hrow
    exact h k _ hdvd hpos hk (by rw [List.getElem?_map, hrow]; rfl)
  · intro h k item hdvd hpos hk hitem
    rw [List.getElem?_map] at hitem
    obtain ⟨row, hrow, rfl⟩ := Option.map_eq_some_iff.mp hitem
    exact h k row hdvd hpos hk hrow

include hfrom hto in
/-- What matches is what the query returns, when nothing that matches is beyond its limit. -/
theorem fetched_eq_iff :
    (matching runtime table customerId query.toTransferFilter).length =
        (fetched table customerId query dateFrom dateTo).length ↔
      ∀ row ∈ (matching runtime table customerId
          { query.toTransferFilter with direction := none }).drop 500,
        matchesDirection customerId query.direction row = false := by
  rw [matching_anyDirection hfrom hto, matching_split hfrom hto table customerId, List.length_append]
  constructor
  · intro hlength row hrow
    have hnone : ((queried table customerId query.status dateFrom dateTo).drop 500).filter
        (matchesDirection customerId query.direction) = [] :=
      List.eq_nil_of_length_eq_zero (by omega)
    simpa using List.filter_eq_nil_iff.mp hnone row hrow
  · intro hall
    have hnone : ((queried table customerId query.status dateFrom dateTo).drop 500).filter
        (matchesDirection customerId query.direction) = [] :=
      List.filter_eq_nil_iff.mpr fun row hrow => by rw [hall row hrow]; decide
    rw [hnone, List.length_nil, Nat.add_zero]

include hfrom hto in
theorem matching_eq_fetched
    (hlength : (matching runtime table customerId query.toTransferFilter).length =
      (fetched table customerId query dateFrom dateTo).length) :
    matching runtime table customerId query.toTransferFilter =
      fetched table customerId query dateFrom dateTo := by
  have hsplit := matching_split hfrom hto table customerId
  rw [hsplit, List.length_append] at hlength
  have hnone : ((queried table customerId query.status dateFrom dateTo).drop 500).filter
      (matchesDirection customerId query.direction) = [] :=
    List.eq_nil_of_length_eq_zero (by omega)
  rw [hsplit, hnone, List.append_nil]

/-- A call that answers has read its dates. -/
theorem dates_of_list
    (h : list runtime zod table customerId { query with cursor := value } = .ok response) :
    (∃ t, dateBound runtime query.dateFrom = some t) ∧ ∃ t, dateBound runtime query.dateTo = some t := by
  unfold list at h
  dsimp only at h
  split at h
  · cases h
  · split at h
    next hfrom hto =>
      exact ⟨⟨_, hfrom⟩, _, hto⟩
    · cases h

include hfrom hto in
/-- What is listed is what the query returns. -/
theorem listed_eq (hsize : 0 < query.pageSize)
    (h : Lists (fun cursor => list runtime zod table customerId { query with cursor := cursor })
      none items) : items = summaries runtime table customerId query dateFrom dateTo := by
  have hserves := serves_list hfrom hto zod table customerId
  refine h.eq_drop hserves hsize (fun k hpos hk => ?_) (k := 0) hserves.first
  exact (resumeBeyond_eq_iff descends_summaries hk).mpr fun x y => after_of_succ hpos

include hfrom hto in
/-- The rows that are returned are all listed exactly when the schema accepts every page. -/
theorem lists_fetched_iff (hsize : 0 < query.pageSize) :
    Lists (fun cursor => list runtime zod table customerId { query with cursor := cursor }) none
        (summaries runtime table customerId query dateFrom dateTo) ↔
      (query.pageSize ≤ 50 ∨ (summaries runtime table customerId query dateFrom dateTo).length ≤ 50) ∧
      (∀ item ∈ summaries runtime table customerId query dateFrom dateTo,
        transferSummarySchema zod item = true) ∧
      ∀ k item, query.pageSize ∣ k → 0 < k →
        k < (summaries runtime table customerId query dateFrom dateTo).length →
        (summaries runtime table customerId query dateFrom dateTo)[k - 1]? = some item →
        utf16Length (transferCursor runtime query.toTransferFilter item) ≤ 1024 := by
  have hserves := serves_list hfrom hto zod table customerId
  rw [lists_beyond_iff descends_summaries hserves hsize, responses_iff hsize]
  exact and_iff_right fun k x y _ hpos => after_of_succ hpos

include hfrom hto in
/-- No more transfers are listed than the query returns. -/
theorem not_paged_of_beyond (hsize : 0 < query.pageSize)
    (hlength : 500 < (matching runtime table customerId query.toTransferFilter).length) :
    ¬ TransfersPaged runtime zod table customerId query := by
  intro h
  have hsame := congrArg List.length (listed_eq hfrom hto hsize h)
  unfold summaries at hsame
  rw [List.length_map, List.length_map] at hsame
  have hle := length_fetched_le table customerId query dateFrom dateTo
  omega

end Fetched

/-- Following the cursors lists every transfer that matches exactly when none of them is beyond the
    500 newest that match apart from the direction, and every page passes the schema of the
    response. -/
theorem transfer_pages (runtime : CursorRuntime) (zod : ListZod) (table : TransferTable)
    (customerId : String) (query : TransferListQuery) (hsize : 0 < query.pageSize) :
    TransfersPaged runtime zod table customerId query ↔
      WithinReach runtime zod table customerId query := by
  constructor
  · intro h
    obtain ⟨p, hp⟩ := h.exists_ok
    obtain ⟨⟨dateFrom, hfrom⟩, dateTo, hto⟩ := dates_of_list hp
    have hlisted := listed_eq hfrom hto hsize h
    have hlength : (matching runtime table customerId query.toTransferFilter).length =
        (fetched table customerId query dateFrom dateTo).length := by
      have hsame := congrArg List.length hlisted
      unfold summaries at hsame
      rwa [List.length_map, List.length_map] at hsame
    have hmatching := matching_eq_fetched hfrom hto hlength
    have hfetched : Lists
        (fun cursor => list runtime zod table customerId { query with cursor := cursor }) none
        (summaries runtime table customerId query dateFrom dateTo) := hlisted ▸ h
    have haccepted := (lists_fetched_iff hfrom hto hsize).mp hfetched
    unfold summaries at haccepted
    rw [← hmatching, accepted_rows_iff] at haccepted
    obtain ⟨hpages, hsummaries, hcursors⟩ := haccepted
    exact ⟨by rw [hfrom, hto]; exact ⟨rfl, rfl⟩, (fetched_eq_iff hfrom hto).mp hlength, hpages,
      hsummaries, hcursors⟩
  · intro h
    obtain ⟨dateFrom, hfrom⟩ := Option.isSome_iff_exists.mp h.dates.1
    obtain ⟨dateTo, hto⟩ := Option.isSome_iff_exists.mp h.dates.2
    have hmatching := matching_eq_fetched hfrom hto ((fetched_eq_iff hfrom hto).mpr h.newest)
    have haccepted := (accepted_rows_iff query.toTransferFilter).mpr
      ⟨h.size, h.summaries, h.cursors⟩
    unfold TransfersPaged
    rw [hmatching] at haccepted ⊢
    exact (lists_fetched_iff hfrom hto hsize).mpr haccepted

/-! ## Tables of the examples -/

/-- A UUID with the digits of a number at its end. -/
def exampleId (n : ℕ) : String :=
  String.ofList ("00000000-0000-4000-8000-000000000".toList ++
    [Nat.digitChar (n / 256), Nat.digitChar (n / 16 % 16), Nat.digitChar (n % 16)])

variable {n : ℕ}

theorem exampleId_inj {m : ℕ} (hm : m < 4096) (hn : n < 4096) (h : exampleId m = exampleId n) :
    m = n := by
  have hdigit : ∀ a b, a < 16 → b < 16 → Nat.digitChar a = Nat.digitChar b → a = b := by
    intro a b ha hb heq
    have hvalue := hexValue_digitChar a ha
    rw [heq, hexValue_digitChar b hb] at hvalue
    exact (Option.some.inj hvalue).symm
  have hdigits := List.append_cancel_left (String.ofList_injective h)
  simp only [List.cons.injEq, and_true] at hdigits
  have hhigh := hdigit _ _ (by omega) (by omega) hdigits.1
  have hmiddle := hdigit _ _ (by omega) (by omega) hdigits.2.1
  have hlow := hdigit _ _ (by omega) (by omega) hdigits.2.2
  omega

theorem isHexDigit_digitChar : ∀ d < 16, isHexDigit (Nat.digitChar d) = true := by decide

theorem exampleId_uuid (hn : n < 4096) : uuidFormat.accepts (exampleId n) = true := by
  have hformat : uuidFormat = ((uuidShape.take 33).map fun digit =>
      if digit then isHexDigit else fun c => decide (c = '-')) ++ List.replicate 3 isHexDigit := rfl
  have hstart : Format.fits ((uuidShape.take 33).map fun digit =>
      if digit then isHexDigit else fun c => decide (c = '-'))
      "00000000-0000-4000-8000-000000000".toList = true := by decide +kernel
  unfold Format.accepts exampleId
  rw [String.toList_ofList, hformat, Format.fits_append hstart]
  refine Format.fits_replicate.mpr ⟨rfl, fun c hc => ?_⟩
  simp only [List.mem_cons, List.not_mem_nil, or_false] at hc
  rcases hc with rfl | rfl | rfl <;> exact isHexDigit_digitChar _ (by omega)

/-- A completed transfer of a customer. -/
def exampleTransfer (n : ℕ) : ListedTransfer where
  id := exampleId n
  displayReference := "AEGIS-TRF-AAAA-BBBB-CCCC"
  senderCustomerId := "2f1e7c1a-0000-4000-8000-000000000002"
  recipientCustomerId := "2f1e7c1a-0000-4000-8000-000000000012"
  senderAccountId := "2f1e7c1a-0000-4000-8000-000000000001"
  recipientAccountId := "2f1e7c1a-0000-4000-8000-000000000011"
  recipientPublicReference := "AEGIS-AAAA-BBBB-DDDD"
  currency := "LKR"
  amountMinor := 5000
  status := .COMPLETED
  failureCode := none
  ledgerJournalId := none
  senderPostingId := none
  recipientPostingId := none
  senderBalanceAfterMinor := none
  recipientBalanceAfterMinor := none
  idempotencyKeyHash := exampleId n
  requestHash := exampleId n
  intentId := exampleId n
  correlationId := exampleId n
  attemptCount := 0
  nextAttemptAt := none
  createdAt := 1785542400000
  updatedAt := 1785542400000
  completedAt := some 1785542400000
  failedAt := none
  events := []
  senderMaskedReference := "AEGIS-****-****-CCCC"
  recipientMaskedReference := "AEGIS-****-****-DDDD"

/-- A number of transfers that a customer made at one time. -/
def exampleTransfers (count : ℕ) (hcount : count ≤ 501) : TransferTable where
  rows := (List.range count).map exampleTransfer
  unique := by
    rw [List.map_map]
    refine List.Nodup.map_on (fun m hm n hn h => ?_) List.nodup_range
    rw [List.mem_range] at hm hn
    exact exampleId_inj (by omega) (by omega) h
  ids row hrow := by
    obtain ⟨n, hn, rfl⟩ := List.mem_map.mp hrow
    rw [List.mem_range] at hn
    exact exampleId_uuid (by omega)
  times row hrow := by
    obtain ⟨n, -, rfl⟩ := List.mem_map.mp hrow
    show 1785542400000 ≤ maxTime
    decide

theorem isAlphanum_of_isHexDigit {c : Char} (h : isHexDigit c = true) : c.isAlphanum = true := by
  unfold isHexDigit at h
  rw [Bool.or_eq_true, decide_eq_true_eq] at h
  rcases h with hdigit | ⟨hlo, hhi⟩
  · simp [Char.isAlphanum, hdigit]
  · have hlower : c.isLower = true := by
      unfold Char.isLower
      rw [Bool.and_eq_true, decide_eq_true_eq, decide_eq_true_eq]
      exact ⟨hlo, Nat.le_trans hhi (by decide)⟩
    simp [Char.isAlphanum, Char.isAlpha, hlower]

/-- UUIDs by their format, and times by their first characters. -/
def exampleZod : ListZod where
  isUuid := uuidFormat.accepts
  uuid_text text h := by
    refine ⟨(uuid_chars h).1, fun c hc => ?_⟩
    rcases (uuid_chars h).2 c hc with rfl | hdigit
    · decide
    · rw [Bool.or_eq_true]
      exact .inl (isAlphanum_of_isHexDigit hdigit)
  isDateTime text := decide (text.toList.take 11 = "2026-08-01T".toList)

/-- All transfers, as many on a page. -/
def exampleList (pageSize : ℕ) : TransferListQuery where
  direction := none
  status := none
  dateFrom := none
  dateTo := none
  pageSize := pageSize
  cursor := none

theorem matching_example (pageSize count : ℕ) (hcount : count ≤ 501) :
    matching exampleCursorRuntime (exampleTransfers count hcount)
      "2f1e7c1a-0000-4000-8000-000000000002" (exampleList pageSize).toTransferFilter =
      (exampleTransfers count hcount).rows.insertionSort newerTransferFirst := by
  unfold matching
  rw [List.filter_eq_self.mpr]
  intro row hrow
  obtain ⟨n, -, rfl⟩ := List.mem_map.mp hrow
  simp [matchesFilter, dateBound, matchesQuery, matchesDirection, exampleList, exampleTransfer]

theorem length_matching_example (count : ℕ) (hcount : count ≤ 501) :
    (matching exampleCursorRuntime (exampleTransfers count hcount)
      "2f1e7c1a-0000-4000-8000-000000000002" (exampleList 50).toTransferFilter).length = count := by
  rw [matching_example, List.length_insertionSort]
  unfold exampleTransfers
  rw [List.length_map, List.length_range]

/-- A customer with 501 transfers, and the oldest is on no page. -/
theorem transfer_dropped : ¬ TransfersPaged exampleCursorRuntime exampleZod
    (exampleTransfers 501 le_rfl) "2f1e7c1a-0000-4000-8000-000000000002" (exampleList 50) := by
  apply not_paged_of_beyond rfl rfl (by decide)
  rw [length_matching_example]
  omega

theorem matching_two : matching exampleCursorRuntime (exampleTransfers 2 (by omega))
    "2f1e7c1a-0000-4000-8000-000000000002" (exampleList 1).toTransferFilter =
    [exampleTransfer 1, exampleTransfer 0] := by
  have hfirst : ¬ newerTransferFirst (exampleTransfer 0) (exampleTransfer 1) := by decide +kernel
  rw [matching_example]
  show [exampleTransfer 0, exampleTransfer 1].insertionSort newerTransferFirst = _
  rw [List.insertionSort_cons, List.insertionSort_cons, List.insertionSort_nil,
    List.orderedInsert_nil, List.orderedInsert_of_not_le _ _ hfirst, List.orderedInsert_nil]

/-- Two transfers that were made at one time are listed on two pages. -/
theorem two_transfers_paged : TransfersPaged exampleCursorRuntime exampleZod
    (exampleTransfers 2 (by omega)) "2f1e7c1a-0000-4000-8000-000000000002" (exampleList 1) := by
  apply (transfer_pages exampleCursorRuntime exampleZod (exampleTransfers 2 (by omega)) _
    (exampleList 1) Nat.one_pos).mpr
  constructor
  · exact ⟨rfl, rfl⟩
  · intro row hrow
    change row ∈ (matching exampleCursorRuntime (exampleTransfers 2 (by omega))
      "2f1e7c1a-0000-4000-8000-000000000002" (exampleList 1).toTransferFilter).drop 500 at hrow
    rw [matching_two] at hrow
    cases hrow
  · exact .inl (by decide)
  · rw [matching_two]
    decide +kernel
  · rw [matching_two]
    intro k row _ hpos hk hrow
    have hlast : k = 1 := by
      simp only [List.length_cons, List.length_nil] at hk
      omega
    subst hlast
    obtain rfl : exampleTransfer 1 = row := Option.some.inj hrow
    decide +kernel

end AegisShield.Payments
