import AegisShield.Gateway.Url
import AegisShield.Payments.Command
import AegisShield.Sabcl.PathPattern

/-!
# The Gateway's calls and the recipient's catalogue

What `PaymentsClient` and `LedgerClient` of the Gateway send through SABCL
(`transfers/payments.client.ts`, `accounts/ledger.client.ts`), the list queries their
controllers accept (`contracts/payments/v1.ts`, `contracts/accounts/v1.ts`), and the check of
the recipient.

Results:
* `catalogue_covers_iff`: the calls that the recipient's capabilities accept.
* `qr_issue_refused`: the call that issues a QR code is not one of them.
-/

namespace AegisShield.Gateway

open Common Sabcl Payments

/-! ## The list queries -/

/-- What the schemas take from zod and from JavaScript: `z.iso.datetime()`, which accepts no
    text with other characters than those of `2026-08-01T10:00:00.000Z` and no two dots in a
    row, and `Number`, `none` where the result is no integer. -/
structure Zod extends Payments.Zod where
  isDateTime : String → Bool
  dateTime_chars : ∀ text, isDateTime text = true →
    ∀ c ∈ text.toList, (c.isDigit || decide (c ∈ ['-', ':', '.', 'T', 'Z'])) = true
  dateTime_dots : ∀ text, isDateTime text = true → includes ['.', '.'] text.toList = false
  toInteger : Json → Option ℤ

/-- `z.enum(values)`. -/
def enum (values : List String) : Json → Option String
  | .string s => if s ∈ values then some s else none
  | _ => none

/-- A member with `.optional()`. -/
def optional (schema : Json → Option String) : Option Json → Option (Option String)
  | none => some none
  | some value => (schema value).map some

/-- `z.coerce.number().int().min(1).max(50).default(20)`. -/
def pageSizeSchema (zod : Zod) : Option Json → Option ℕ
  | none => some 20
  | some value => do
    let n ← zod.toInteger value
    if 1 ≤ n ∧ n ≤ 50 then some n.toNat else none

/-- `z.iso.datetime()`. -/
def isoDateTime (zod : Zod) : Json → Option String
  | .string s => if zod.isDateTime s = true then some s else none
  | _ => none

/-- `dateFrom` is not after `dateTo` when both are given. -/
def inOrder (dateFrom dateTo : Option String) : Bool :=
  dateFrom.all fun first => dateTo.all fun last => decide (first ≤ last)

/-- `TransferListQuery` (`contracts/payments/v1.ts`, line 191). -/
structure TransferListQuery where
  direction : Option String
  status : Option String
  dateFrom : Option String
  dateTo : Option String
  pageSize : ℕ
  cursor : Option String

/-- `transferListQuerySchema` (`contracts/payments/v1.ts`, lines 169-190). -/
def transferListQuerySchema (zod : Zod) (raw : Json) : Option TransferListQuery := do
  let members ← Json.strictObject
    ["direction", "status", "dateFrom", "dateTo", "pageSize", "cursor"] raw
  let field := Json.member members
  let direction ← optional (enum ["SENT", "RECEIVED"]) (field "direction")
  let status ← optional (enum ["PROCESSING", "COMPLETED", "FAILED", "REQUIRES_REVIEW"])
    (field "status")
  let dateFrom ← optional (isoDateTime zod) (field "dateFrom")
  let dateTo ← optional (isoDateTime zod) (field "dateTo")
  let pageSize ← pageSizeSchema zod (field "pageSize")
  let cursor ← optional (Json.boundedString 1 1024 fun _ => true) (field "cursor")
  if inOrder dateFrom dateTo then
    return { direction, status, dateFrom, dateTo, pageSize, cursor }
  else none

/-- `TransactionHistoryQuery` (`contracts/accounts/v1.ts`, lines 297-299). -/
structure TransactionHistoryQuery where
  direction : Option String
  category : Option String
  dateFrom : Option String
  dateTo : Option String
  pageSize : ℕ
  cursor : Option String

/-- `transactionHistoryQuerySchema` (`contracts/accounts/v1.ts`, lines 274-296). -/
def transactionHistoryQuerySchema (zod : Zod) (raw : Json) : Option TransactionHistoryQuery := do
  let members ← Json.strictObject
    ["direction", "category", "dateFrom", "dateTo", "pageSize", "cursor"] raw
  let field := Json.member members
  let direction ← optional (enum ["INCOMING", "OUTGOING"]) (field "direction")
  let category ← optional (enum ["FUNDING", "ADJUSTMENT", "TRANSFER", "OTHER"])
    (field "category")
  let dateFrom ← optional (isoDateTime zod) (field "dateFrom")
  let dateTo ← optional (isoDateTime zod) (field "dateTo")
  let pageSize ← pageSizeSchema zod (field "pageSize")
  let cursor ← optional (Json.boundedString 1 1024 fun _ => true) (field "cursor")
  if inOrder dateFrom dateTo then
    return { direction, category, dateFrom, dateTo, pageSize, cursor }
  else none

/-- `search.set(key, String(value))` for the values that are defined. -/
def setEntries (fields : List (String × Option String)) : List (String × String) :=
  fields.filterMap fun f => f.2.map (f.1, ·)

/-- The entries of the query string (`transfers.controller.ts`, lines 259-261). -/
def TransferListQuery.entries (query : TransferListQuery) : List (String × String) :=
  setEntries [("direction", query.direction), ("status", query.status),
    ("dateFrom", query.dateFrom), ("dateTo", query.dateTo),
    ("pageSize", some (toString query.pageSize)), ("cursor", query.cursor)]

/-- The entries of the query string (`accounts.controller.ts`, lines 178-180). -/
def TransactionHistoryQuery.entries (query : TransactionHistoryQuery) :
    List (String × String) :=
  setEntries [("direction", query.direction), ("category", query.category),
    ("dateFrom", query.dateFrom), ("dateTo", query.dateTo),
    ("pageSize", some (toString query.pageSize)), ("cursor", query.cursor)]

/-! ## The calls -/

/-- The calls that the controllers make with the clients' endpoints, and the endpoint
    `agentStatus` that no controller uses yet. -/
inductive GatewayCall where
  | policy
  | preview
  | authorize (token : String)
  | confirm
  | transfers (customerId : String) (query : TransferListQuery)
  | transfer (customerId id : String)
  | qrIssue
  | qrPreview
  | qrRedeem
  | agentCashInPreview
  | agentCashOutPreview
  | agentCashConfirm
  | agentStatus (agentId operationId : String)
  | ussdSimulate
  | ussdWebhook
  | provisionDefaultAccount
  | customerAccounts (customerId : String)
  | customerAccount (accountId : String)
  | customerAccountBalance (accountId : String)
  | customerTransactions (accountId : String) (query : TransactionHistoryQuery)
  | customerTransaction (accountId transactionId : String)

namespace GatewayCall

/-- The service that the client addresses. -/
def service : GatewayCall → String
  | provisionDefaultAccount | customerAccounts _ | customerAccount _ | customerAccountBalance _
  | customerTransactions _ _ | customerTransaction _ _ => "ledger"
  | _ => "payments"

def method : GatewayCall → Method
  | preview | authorize _ | confirm | qrIssue | qrPreview | qrRedeem | agentCashInPreview
  | agentCashOutPreview | agentCashConfirm | ussdSimulate | ussdWebhook
  | provisionDefaultAccount => .POST
  | _ => .GET

/-- `PAYMENTS_ENDPOINTS`, `LEDGER_ENDPOINTS` and the paths of the two USSD calls. -/
def path : GatewayCall → String
  | policy => "/internal/transfer-policy"
  | preview => "/internal/transfer-intents"
  | authorize token => "/internal/transfer-intents/" ++ encodeURIComponent token ++ "/authorize"
  | confirm => "/internal/transfers"
  | transfers customerId query =>
    "/internal/customers/" ++ encodeURIComponent customerId ++ "/transfers" ++
      searchOf query.entries
  | transfer customerId id =>
    "/internal/customers/" ++ encodeURIComponent customerId ++ "/transfers/" ++
      encodeURIComponent id
  | qrIssue => "/internal/qr/issue"
  | qrPreview => "/internal/qr/preview"
  | qrRedeem => "/internal/qr/redeem"
  | agentCashInPreview => "/internal/agent/cash-in/preview"
  | agentCashOutPreview => "/internal/agent/cash-out/preview"
  | agentCashConfirm => "/internal/agent/cash/confirm"
  | agentStatus agentId operationId =>
    "/internal/agent/" ++ encodeURIComponent agentId ++ "/cash/" ++
      encodeURIComponent operationId ++ "/status"
  | ussdSimulate => "/internal/ussd/simulate"
  | ussdWebhook => "/internal/ussd/webhook"
  | provisionDefaultAccount => "/internal/customer-accounts/default"
  | customerAccounts customerId =>
    "/internal/customers/" ++ encodeURIComponent customerId ++ "/accounts"
  | customerAccount accountId => "/internal/customer-accounts/" ++ encodeURIComponent accountId
  | customerAccountBalance accountId =>
    "/internal/customer-accounts/" ++ encodeURIComponent accountId ++ "/balance"
  | customerTransactions accountId query =>
    "/internal/customer-accounts/" ++ encodeURIComponent accountId ++ "/transactions" ++
      searchOf query.entries
  | customerTransaction accountId transactionId =>
    "/internal/customer-accounts/" ++ encodeURIComponent accountId ++ "/transactions/" ++
      encodeURIComponent transactionId

/-- The capability that the client names: `payments.transfer` for Payments, and
    `capabilityForEndpoint` for the Ledger. -/
def capability (call : GatewayCall) : String :=
  if call.service = "payments" then "payments.transfer"
  else if "/internal/customer-transfers".toList.isPrefixOf call.path.toList then "ledger.postings"
  else "ledger.accounts"

/-- `method.toLowerCase()`. -/
def methodName : Method → String
  | .GET => "get"
  | .POST => "post"

/-- The request that the client passes to `SabclTransportService.call`. -/
def request (call : GatewayCall) (body : Option Json) (actor : Option (Option String))
    (correlationId : String) : SabclInnerRequest :=
  { op := call.capability ++ "." ++ methodName call.method, method := call.method,
    path := call.path, body, actor, correlationId }

/-- The arguments that the controllers let through: identifiers are UUIDs, the intent token
    matches `opaqueIntentTokenSchema`, and queries are those that their schemas return. -/
def Accepted (zod : Zod) : GatewayCall → Prop
  | authorize token => 43 ≤ token.toList.length ∧ token.toList.length ≤ 128 ∧
    ∀ c ∈ token.toList, PathPart.isIdChar c = true
  | transfers customerId query =>
    zod.isUuid customerId = true ∧ ∃ raw, transferListQuerySchema zod raw = some query
  | transfer customerId id => zod.isUuid customerId = true ∧ zod.isUuid id = true
  | customerAccounts id | customerAccount id | customerAccountBalance id => zod.isUuid id = true
  | customerTransactions accountId query =>
    zod.isUuid accountId = true ∧ ∃ raw, transactionHistoryQuerySchema zod raw = some query
  | customerTransaction accountId transactionId =>
    zod.isUuid accountId = true ∧ zod.isUuid transactionId = true
  | _ => True

end GatewayCall

/-! ## What the schemas return -/

section Queries

variable {zod : Zod}

theorem optional_eq_some {schema : Json → Option String} {P : String → Prop}
    {field : Option Json} {value : Option String} (hP : ∀ raw v, schema raw = some v → P v)
    (h : optional schema field = some value) : ∀ v ∈ value, P v := by
  cases field with
  | none =>
    rw [← Option.some.inj h]
    intro v hv
    cases hv
  | some raw =>
    obtain ⟨v, hv, rfl⟩ := Option.map_eq_some_iff.mp h
    rintro w ⟨⟩
    exact hP raw v hv

theorem enum_mem {values : List String} (raw : Json) (v : String)
    (h : enum values raw = some v) : v ∈ values := by
  unfold enum at h
  split at h
  · obtain ⟨hmem, ⟨⟩⟩ := Option.ite_none_right_eq_some.mp h
    exact hmem
  · cases h

theorem isoDateTime_ok (raw : Json) (v : String) (h : isoDateTime zod raw = some v) :
    zod.isDateTime v = true := by
  unfold isoDateTime at h
  split at h
  · obtain ⟨hdate, ⟨⟩⟩ := Option.ite_none_right_eq_some.mp h
    exact hdate
  · cases h

theorem pageSizeSchema_range {field : Option Json} {n : ℕ}
    (h : pageSizeSchema zod field = some n) : 1 ≤ n ∧ n ≤ 50 := by
  cases field with
  | none =>
    cases h
    decide
  | some raw =>
    obtain ⟨m, -, hm⟩ := Option.bind_eq_some_iff.mp h
    obtain ⟨hrange, ⟨⟩⟩ := Option.ite_none_right_eq_some.mp hm
    omega

/-- What `transferListQuerySchema` checks of what it returns. -/
structure TransferListQuery.Valid (zod : Zod) (query : TransferListQuery) : Prop where
  direction : ∀ v ∈ query.direction, v ∈ ["SENT", "RECEIVED"]
  status : ∀ v ∈ query.status, v ∈ ["PROCESSING", "COMPLETED", "FAILED", "REQUIRES_REVIEW"]
  dateFrom : ∀ v ∈ query.dateFrom, zod.isDateTime v = true
  dateTo : ∀ v ∈ query.dateTo, zod.isDateTime v = true
  ordered : inOrder query.dateFrom query.dateTo = true
  pageSize : 1 ≤ query.pageSize ∧ query.pageSize ≤ 50
  cursor : ∀ v ∈ query.cursor, 1 ≤ utf16Length v ∧ utf16Length v ≤ 1024

theorem cursor_length (raw : Json) (v : String)
    (h : Json.boundedString 1 1024 (fun _ => true) raw = some v) :
    1 ≤ utf16Length v ∧ utf16Length v ≤ 1024 := by
  obtain ⟨-, hlo, hhi, -⟩ := Json.boundedString_eq_some.mp h
  exact ⟨hlo, hhi⟩

theorem transferListQuerySchema_valid {raw : Json} {query : TransferListQuery}
    (h : transferListQuerySchema zod raw = some query) : query.Valid zod := by
  obtain ⟨members, -, h⟩ := Option.bind_eq_some_iff.mp h
  obtain ⟨direction, hdirection, h⟩ := Option.bind_eq_some_iff.mp h
  obtain ⟨status, hstatus, h⟩ := Option.bind_eq_some_iff.mp h
  obtain ⟨dateFrom, hfrom, h⟩ := Option.bind_eq_some_iff.mp h
  obtain ⟨dateTo, hto, h⟩ := Option.bind_eq_some_iff.mp h
  obtain ⟨pageSize, hsize, h⟩ := Option.bind_eq_some_iff.mp h
  obtain ⟨cursor, hcursor, h⟩ := Option.bind_eq_some_iff.mp h
  obtain ⟨hordered, hquery⟩ := Option.ite_none_right_eq_some.mp h
  rw [← Option.some.inj hquery]
  exact {
    direction := optional_eq_some enum_mem hdirection
    status := optional_eq_some enum_mem hstatus
    dateFrom := optional_eq_some isoDateTime_ok hfrom
    dateTo := optional_eq_some isoDateTime_ok hto
    ordered := hordered
    pageSize := pageSizeSchema_range hsize
    cursor := optional_eq_some cursor_length hcursor }

/-- What `transactionHistoryQuerySchema` checks of what it returns. -/
structure TransactionHistoryQuery.Valid (zod : Zod) (query : TransactionHistoryQuery) :
    Prop where
  direction : ∀ v ∈ query.direction, v ∈ ["INCOMING", "OUTGOING"]
  category : ∀ v ∈ query.category, v ∈ ["FUNDING", "ADJUSTMENT", "TRANSFER", "OTHER"]
  dateFrom : ∀ v ∈ query.dateFrom, zod.isDateTime v = true
  dateTo : ∀ v ∈ query.dateTo, zod.isDateTime v = true
  ordered : inOrder query.dateFrom query.dateTo = true
  pageSize : 1 ≤ query.pageSize ∧ query.pageSize ≤ 50
  cursor : ∀ v ∈ query.cursor, 1 ≤ utf16Length v ∧ utf16Length v ≤ 1024

theorem transactionHistoryQuerySchema_valid {raw : Json} {query : TransactionHistoryQuery}
    (h : transactionHistoryQuerySchema zod raw = some query) : query.Valid zod := by
  obtain ⟨members, -, h⟩ := Option.bind_eq_some_iff.mp h
  obtain ⟨direction, hdirection, h⟩ := Option.bind_eq_some_iff.mp h
  obtain ⟨category, hcategory, h⟩ := Option.bind_eq_some_iff.mp h
  obtain ⟨dateFrom, hfrom, h⟩ := Option.bind_eq_some_iff.mp h
  obtain ⟨dateTo, hto, h⟩ := Option.bind_eq_some_iff.mp h
  obtain ⟨pageSize, hsize, h⟩ := Option.bind_eq_some_iff.mp h
  obtain ⟨cursor, hcursor, h⟩ := Option.bind_eq_some_iff.mp h
  obtain ⟨hordered, hquery⟩ := Option.ite_none_right_eq_some.mp h
  rw [← Option.some.inj hquery]
  exact {
    direction := optional_eq_some enum_mem hdirection
    category := optional_eq_some enum_mem hcategory
    dateFrom := optional_eq_some isoDateTime_ok hfrom
    dateTo := optional_eq_some isoDateTime_ok hto
    ordered := hordered
    pageSize := pageSizeSchema_range hsize
    cursor := optional_eq_some cursor_length hcursor }

end Queries

/-! ## Clear values -/

/-- A value that the query grammar and the traversal check let through. -/
structure Clear (value : String) : Prop where
  star : '*' ∉ value.toList
  space : ' ' ∉ value.toList
  flat : Flat value.toList

theorem clear_of_forall {value : String}
    (h : ∀ c ∈ value.toList, c ≠ '*' ∧ c ≠ ' ' ∧ c ≠ '.' ∧ c ≠ '\\') : Clear value where
  star hmem := (h _ hmem).1 rfl
  space hmem := (h _ hmem).2.1 rfl
  flat := flat_of_forall fun c hc => (h c hc).2.2

theorem clear_isDateTime {zod : Zod} {value : String} (h : zod.isDateTime value = true) :
    Clear value := by
  have hchars : ∀ c ∈ value.toList, c ≠ '*' ∧ c ≠ ' ' ∧ c ≠ '\\' := by
    intro c hc
    have hclass := zod.dateTime_chars value h c hc
    refine ⟨?_, ?_, ?_⟩ <;>
    · rintro rfl
      exact absurd hclass (by decide)
  exact ⟨fun hmem => (hchars _ hmem).1 rfl, fun hmem => (hchars _ hmem).2.1 rfl,
    zod.dateTime_dots value h, fun hmem => (hchars _ hmem).2.2 rfl⟩

theorem clear_pageSize {n : ℕ} (h : n ≤ 50) : Clear (toString n) := by
  have hall : ∀ k : Fin 51, ((toString k.val).toList.all fun c =>
      decide (c ≠ '*' ∧ c ≠ ' ' ∧ c ≠ '.' ∧ c ≠ '\\')) = true := by
    decide
  exact clear_of_forall (forall_mem_of_all (hall ⟨n, by omega⟩))

theorem clear_of_mem {values : List String} {value : String} (h : value ∈ values)
    (hall : ∀ v ∈ values, (v.toList.all fun c =>
      decide (c ≠ '*' ∧ c ≠ ' ' ∧ c ≠ '.' ∧ c ≠ '\\')) = true) :
    Clear value :=
  clear_of_forall (forall_mem_of_all (hall value h))

/-- The names of the members are clear. -/
theorem clear_setEntries {fields : List (String × Option String)}
    (hnames : ∀ f ∈ fields, Clear f.1) :
    (∀ e ∈ setEntries fields, Clear e.1 ∧ Clear e.2) ↔ ∀ f ∈ fields, ∀ v ∈ f.2, Clear v := by
  unfold setEntries
  constructor
  · intro h f hf v hv
    exact (h (f.1, v) (List.mem_filterMap.mpr ⟨f, hf, Option.map_eq_some_iff.mpr ⟨v, hv, rfl⟩⟩)).2
  · rintro h e he
    obtain ⟨f, hf, he⟩ := List.mem_filterMap.mp he
    obtain ⟨v, hv, rfl⟩ := Option.map_eq_some_iff.mp he
    exact ⟨hnames f hf, h f hf v hv⟩

/-- Of the entries of a list query only the cursor can be unclear. -/
theorem clear_listEntries {zod : Zod} {first second : String} {v w dateFrom dateTo cursor : Option String}
    {pageSize : ℕ} (hfirst : Clear first) (hsecond : Clear second) (hv : ∀ x ∈ v, Clear x)
    (hw : ∀ x ∈ w, Clear x) (hfrom : ∀ x ∈ dateFrom, zod.isDateTime x = true)
    (hto : ∀ x ∈ dateTo, zod.isDateTime x = true) (hsize : pageSize ≤ 50) :
    (∀ e ∈ setEntries [(first, v), (second, w), ("dateFrom", dateFrom), ("dateTo", dateTo),
        ("pageSize", some (toString pageSize)), ("cursor", cursor)], Clear e.1 ∧ Clear e.2) ↔
      ∀ x ∈ cursor, Clear x := by
  rw [clear_setEntries]
  · simp only [List.forall_mem_cons, List.not_mem_nil, false_imp_iff, implies_true, and_true]
    constructor
    · rintro ⟨-, -, -, -, -, hcursor⟩
      exact hcursor
    · intro hcursor
      refine ⟨hv, hw, fun x hx => clear_isDateTime (hfrom x hx),
        fun x hx => clear_isDateTime (hto x hx), ?_, hcursor⟩
      rintro x ⟨⟩
      exact clear_pageSize hsize
  · simp only [List.forall_mem_cons, List.not_mem_nil, false_imp_iff, implies_true, and_true]
    refine ⟨hfirst, hsecond, ?_, ?_, ?_, ?_⟩ <;>
      exact clear_of_forall (forall_mem_of_all (by decide))

theorem TransferListQuery.Valid.clear_iff {zod : Zod} {query : TransferListQuery}
    (h : query.Valid zod) :
    (∀ e ∈ query.entries, Clear e.1 ∧ Clear e.2) ↔ ∀ cursor ∈ query.cursor, Clear cursor :=
  clear_listEntries (clear_of_forall (forall_mem_of_all (by decide)))
    (clear_of_forall (forall_mem_of_all (by decide)))
    (fun v hv => clear_of_mem (h.direction v hv) (by decide))
    (fun v hv => clear_of_mem (h.status v hv) (by decide)) h.dateFrom h.dateTo h.pageSize.2

theorem TransactionHistoryQuery.Valid.clear_iff {zod : Zod} {query : TransactionHistoryQuery}
    (h : query.Valid zod) :
    (∀ e ∈ query.entries, Clear e.1 ∧ Clear e.2) ↔ ∀ cursor ∈ query.cursor, Clear cursor :=
  clear_listEntries (clear_of_forall (forall_mem_of_all (by decide)))
    (clear_of_forall (forall_mem_of_all (by decide)))
    (fun v hv => clear_of_mem (h.direction v hv) (by decide))
    (fun v hv => clear_of_mem (h.category v hv) (by decide)) h.dateFrom h.dateTo h.pageSize.2

/-! ## What the recipient checks -/

open PathPart

section Recipient

variable {call : GatewayCall} {body : Option Json} {actor : Option (Option String)}
  {correlationId : String}

/-- With the capability found and both methods granted, patterns and traversal decide. -/
theorem assertCapability_of_find {capabilities : List SabclCapability}
    {request : SabclInnerRequest} {c : SabclCapability}
    (hfind : capabilities.find? (fun candidate => opWithin candidate request.op) = some c)
    (hmethods : c.methods = [.GET, .POST]) :
    assertCapability capabilities request = .ok () ↔
      (∃ pattern ∈ c.pathPatterns, Matches pattern request.path.toList) ∧
        hasTraversal request.path = false := by
  have hop := List.find?_some hfind
  have hpaths : pathAllowed c request.path = true ↔
      ∃ pattern ∈ c.pathPatterns, Matches pattern request.path.toList := by
    simp only [pathAllowed, List.any_eq_true, matchesPath_iff]
  rw [assertCapability_ok_iff, hfind, ← hpaths]
  constructor
  · rintro ⟨c', hc', hbelongs, htraversal⟩
    rw [Option.some.inj hc']
    exact ⟨hbelongs.path, htraversal⟩
  · rintro ⟨hpath, htraversal⟩
    refine ⟨c, rfl, ⟨hop, ?_, hpath⟩, htraversal⟩
    rw [hmethods]
    cases request.method <;> decide

/-- The paths of `payments.transfer`. -/
def PaymentsPath (path : List Char) : Prop :=
  Matches [.lit "/internal/transfer-policy"] path ∨
  Matches [.lit "/internal/transfer-intents"] path ∨
  Matches [.lit "/internal/transfer-intents/", .ID, .lit "/authorize"] path ∨
  Matches [.lit "/internal/transfers"] path ∨
  Matches [.lit "/internal/customers/", .ID, .lit "/transfers", .QUERY] path ∨
  Matches [.lit "/internal/customers/", .ID, .lit "/transfers/", .ID] path

theorem payments_iff (h : call.service = "payments") :
    assertCapability (capabilitiesForService call.service)
        (call.request body actor correlationId) = .ok () ↔
      PaymentsPath call.path.toList ∧ hasTraversal call.path = false := by
  have hop : (call.request body actor correlationId).op =
      "payments.transfer" ++ "." ++ GatewayCall.methodName call.method := by
    unfold GatewayCall.request GatewayCall.capability
    rw [if_pos h]
  have hfind : (capabilitiesForService "payments").find?
      (fun c => opWithin c ("payments.transfer" ++ "." ++ GatewayCall.methodName call.method)) =
        (SABCL_CAPABILITIES.map CatalogueEntry.capability)[3]? := by
    cases call.method <;> decide
  rw [← hop] at hfind
  rw [h, assertCapability_of_find hfind rfl]
  simp only [List.mem_cons, List.not_mem_nil, or_false, or_and_right, exists_or, exists_eq_left,
    PaymentsPath]
  rfl

/-- No path of the Ledger client starts like a posting. -/
theorem not_posting {t : String} {rest : List Char}
    (ht : t ∈ ["/internal/customers/", "/internal/customer-accounts/"]) :
    ¬ "/internal/customer-transfers".toList <+: t.toList ++ rest := by
  intro h
  have hapart : ∀ t ∈ ["/internal/customers/", "/internal/customer-accounts/"],
      ¬ "/internal/customer-transfers".toList <+: t.toList ∧
        ¬ t.toList <+: "/internal/customer-transfers".toList := by
    decide
  rcases List.prefix_or_prefix_of_prefix h (List.prefix_append _ _) with h | h
  · exact (hapart t ht).1 h
  · exact (hapart t ht).2 h

/-- The paths of `ledger.accounts`. -/
def LedgerPath (path : List Char) : Prop :=
  Matches [.lit "/internal/customer-accounts/default"] path ∨
  Matches [.lit "/internal/customers/", .ID, .lit "/accounts"] path ∨
  Matches [.lit "/internal/customer-accounts/", .ID] path ∨
  Matches [.lit "/internal/customer-accounts/", .ID, .lit "/balance"] path ∨
  Matches [.lit "/internal/customer-accounts/", .ID, .lit "/transactions", .QUERY] path ∨
  Matches [.lit "/internal/customer-accounts/", .ID, .lit "/transactions/", .ID] path

theorem ledger_iff {t : String} {rest : List Char} (h : call.service = "ledger")
    (ht : t ∈ ["/internal/customers/", "/internal/customer-accounts/"])
    (hpath : call.path.toList = t.toList ++ rest) :
    assertCapability (capabilitiesForService call.service)
        (call.request body actor correlationId) = .ok () ↔
      LedgerPath call.path.toList ∧ hasTraversal call.path = false := by
  have hop : (call.request body actor correlationId).op =
      "ledger.accounts" ++ "." ++ GatewayCall.methodName call.method := by
    unfold GatewayCall.request GatewayCall.capability
    rw [h, if_neg (by decide), if_neg]
    rw [List.isPrefixOf_iff_prefix, hpath]
    exact not_posting ht
  have hfind : (capabilitiesForService "ledger").find?
      (fun c => opWithin c ("ledger.accounts" ++ "." ++ GatewayCall.methodName call.method)) =
        (SABCL_CAPABILITIES.map CatalogueEntry.capability)[1]? := by
    cases call.method <;> decide
  rw [← hop] at hfind
  rw [h, assertCapability_of_find hfind rfl]
  simp only [List.mem_cons, List.not_mem_nil, or_false, or_and_right, exists_or, exists_eq_left,
    LedgerPath]
  rfl

end Recipient

/-! ## Identifiers and query strings in a path -/

/-- An identifier segment. -/
structure Identifier (id : String) : Prop where
  chars : ∀ c ∈ id.toList, isIdChar c = true
  pos : 1 ≤ id.toList.length
  le : id.toList.length ≤ 128

variable {id path : String}

theorem identifier_uuid {zod : Zod} (h : zod.isUuid id = true) : Identifier id := by
  obtain ⟨hlength, hchars⟩ := zod.uuid_text id h
  refine ⟨fun c hc => ?_, by omega, by omega⟩
  have hclass := hchars c hc
  unfold isIdChar
  simp only [Bool.or_eq_true, decide_eq_true_eq, beq_iff_eq] at hclass ⊢
  tauto

theorem Identifier.encode (h : Identifier id) : encodeURIComponent id = id :=
  encodeURIComponent_plain h.chars

/-- An identifier between two literals that start with a slash. -/
theorem Identifier.matches_slash_iff {s t u : String} {parts : List PathPart}
    {tail tail' rest : List Char} (h : Identifier id) (ht : t.toList = '/' :: tail)
    (hu : u.toList = '/' :: tail') :
    Matches (.lit s :: .ID :: .lit t :: parts) (s.toList ++ (id.toList ++ (u.toList ++ rest))) ↔
      Matches (.lit t :: parts) (u.toList ++ rest) := by
  rw [matches_literal_iff, matches_id_iff h.chars]
  · exact ⟨fun hmatches => hmatches.2.2, fun hmatches => ⟨h.pos, h.le, hmatches⟩⟩
  · rw [hu]
    rintro d ⟨⟩
    decide
  · intro d more hd
    exact not_matches_literal ht (by decide) hd

/-- An identifier at the end of a path. -/
theorem Identifier.matches_last_iff {s : String} {rest : List Char} (h : Identifier id)
    (hrest : ∀ d ∈ rest.head?, isIdChar d = false) :
    Matches [.lit s, .ID] (s.toList ++ (id.toList ++ rest)) ↔ rest = [] := by
  rw [matches_literal_iff, matches_id_iff h.chars hrest fun d more _ hnil => by cases hnil]
  exact ⟨fun hmatches => hmatches.2.2, fun hmatches => ⟨h.pos, h.le, hmatches⟩⟩

/-- A character of a path without a query. -/
def isPathChar (c : Char) : Bool := isIdChar c || c == '/'

theorem Identifier.isPathChar (h : Identifier id) :
    ∀ c ∈ id.toList, isPathChar c = true := by
  intro c hc
  unfold Gateway.isPathChar
  rw [h.chars c hc, Bool.true_or]

theorem isPathChar_ne {c d : Char} (hc : isPathChar c = true) (hd : isPathChar d = false) :
    c ≠ d := by
  rintro rfl
  rw [hc] at hd
  cases hd

theorem flat_isPathChar {text : List Char} (h : ∀ c ∈ text, isPathChar c = true) : Flat text :=
  flat_of_forall fun c hc =>
    ⟨isPathChar_ne (h c hc) (by decide), isPathChar_ne (h c hc) (by decide)⟩

theorem reads_isPathChar {text : List Char} (h : ∀ c ∈ text, isPathChar c = true) :
    Reads text text :=
  reads_text fun c hc => isPathChar_ne (h c hc) (by decide)

theorem hasTraversal_of_reads {value : List Char} (h : Reads path.toList value) :
    hasTraversal path = false ↔ Flat value := by
  rw [hasTraversal_eq_false_iff, safeDecode, decodeURIComponent_eq h, Option.getD_some]

theorem hasTraversal_isPathChar
    (h : ∀ c ∈ path.toList, isPathChar c = true) : hasTraversal path = false :=
  (hasTraversal_of_reads (reads_isPathChar h)).mpr (flat_isPathChar h)

/-- Behind a plain path only the entries of the query can be a traversal. -/
theorem hasTraversal_search_iff {before : List Char}
    {entries : List (String × String)} (hpath : path.toList = before ++ '?' :: searchParams entries)
    (hbefore : ∀ c ∈ before, isPathChar c = true) :
    hasTraversal path = false ↔ ∀ e ∈ entries, Flat e.1.toList ∧ Flat e.2.toList := by
  have hreads : Reads path.toList (before ++ '?' :: readParams entries) := by
    rw [hpath]
    exact (reads_isPathChar hbefore).append
      ((reads_char (by decide)).append (reads_searchParams entries))
  rw [hasTraversal_of_reads hreads, flat_separate_iff (by decide) (by decide),
    flat_readParams_iff]
  exact ⟨fun h => h.2, fun h => ⟨flat_isPathChar hbefore, h⟩⟩

/-- The query string fits the grammar and holds no traversal. -/
theorem query_fits_iff {entries : List (String × String)} (h : entries ≠ []) :
    (Matches [.QUERY] ('?' :: searchParams entries) ∧
        ∀ e ∈ entries, Flat e.1.toList ∧ Flat e.2.toList) ↔
      querySize entries ≤ 513 ∧ ∀ e ∈ entries, Clear e.1 ∧ Clear e.2 := by
  have hlength := length_searchParams entries h
  rw [matches_query_iff, searchParams_isQueryChar_iff]
  constructor
  · rintro ⟨⟨hle, hchars⟩, hflat⟩
    refine ⟨by omega, fun e he => ?_⟩
    obtain ⟨⟨hstar, hspace⟩, hstar', hspace'⟩ := hchars e he
    exact ⟨⟨hstar, hspace, (hflat e he).1⟩, hstar', hspace', (hflat e he).2⟩
  · rintro ⟨hle, hclear⟩
    refine ⟨⟨by omega, fun e he => ?_⟩, fun e he => ⟨(hclear e he).1.flat, (hclear e he).2.flat⟩⟩
    exact ⟨⟨(hclear e he).1.star, (hclear e he).1.space⟩, (hclear e he).2.star,
      (hclear e he).2.space⟩

/-! ## Containment -/

namespace GatewayCall

/-- The calls that the catalogue covers: no channel call, and list queries of at most 513
    characters whose cursor the query grammar and the traversal check let through. -/
def Covered : GatewayCall → Prop
  | transfers _ query =>
    querySize query.entries ≤ 513 ∧ ∀ cursor ∈ query.cursor, Clear cursor
  | customerTransactions _ query =>
    querySize query.entries ≤ 513 ∧ ∀ cursor ∈ query.cursor, Clear cursor
  | qrIssue | qrPreview | qrRedeem | agentCashInPreview | agentCashOutPreview
  | agentCashConfirm | agentStatus _ _ | ussdSimulate | ussdWebhook => False
  | _ => True

variable {zod : Zod} {body : Option Json} {actor : Option (Option String)}
  {correlationId : String}

theorem toList_searchOf {entries : List (String × String)} (h : entries ≠ []) :
    (searchOf entries).toList = '?' :: searchParams entries := by
  unfold searchOf
  rw [if_neg h, String.toList_ofList]

theorem transfers_iff {customerId : String} {query : TransferListQuery}
    (hid : Identifier customerId) (hquery : query.Valid zod) :
    assertCapability (capabilitiesForService (transfers customerId query).service)
        ((transfers customerId query).request body actor correlationId) = .ok () ↔
      (transfers customerId query).Covered := by
  have hentries : query.entries ≠ [] := by
    unfold TransferListQuery.entries setEntries
    refine List.ne_nil_of_mem (List.mem_filterMap.mpr
      ⟨("pageSize", some (toString query.pageSize)), ?_, rfl⟩)
    simp only [List.mem_cons, true_or, or_true]
  have hpath : (transfers customerId query).path.toList = "/internal/customers/".toList ++
      (customerId.toList ++ ("/transfers".toList ++ '?' :: searchParams query.entries)) := by
    show ("/internal/customers/" ++ encodeURIComponent customerId ++ "/transfers" ++
      searchOf query.entries).toList = _
    rw [hid.encode, String.toList_append, String.toList_append, String.toList_append,
      toList_searchOf hentries, List.append_assoc, List.append_assoc]
  have htraversal : hasTraversal (transfers customerId query).path = false ↔
      ∀ e ∈ query.entries, Flat e.1.toList ∧ Flat e.2.toList := by
    refine @hasTraversal_search_iff _ ("/internal/customers/".toList ++ (customerId.toList ++
      "/transfers".toList)) _ ?_ ?_
    · rw [hpath, List.append_assoc, List.append_assoc]
    · rw [List.forall_mem_append, List.forall_mem_append]
      exact ⟨forall_mem_of_all (by decide), hid.isPathChar, forall_mem_of_all (by decide)⟩
  have hother : ∀ s ∈ ["/internal/transfer-policy", "/internal/transfer-intents",
      "/internal/transfer-intents/", "/internal/transfers"], ∀ parts,
      ¬ Matches (.lit s :: parts) (transfers customerId query).path.toList := by
    intro s hs parts
    rw [hpath]
    refine not_matches_apart ?_ ?_ <;> revert s <;> decide
  have hlist : Matches [.lit "/internal/customers/", .ID, .lit "/transfers", .QUERY]
      (transfers customerId query).path.toList ↔
        Matches [.QUERY] ('?' :: searchParams query.entries) := by
    rw [hpath, hid.matches_slash_iff rfl rfl,
      matches_literal_iff]
  have hdetail : ¬ Matches [.lit "/internal/customers/", .ID, .lit "/transfers/", .ID]
      (transfers customerId query).path.toList := by
    rw [hpath, hid.matches_slash_iff rfl rfl]
    exact not_matches_apart (t := "/transfers?") (by decide) (by decide)
  rw [payments_iff rfl, PaymentsPath, hlist, htraversal]
  simp only [List.forall_mem_cons, List.not_mem_nil, false_imp_iff, implies_true, and_true]
    at hother
  simp only [hother, hdetail, false_or, or_false]
  rw [query_fits_iff hentries, hquery.clear_iff]
  rfl

variable {t s id id' : String}

/-- A path that starts apart from every literal of `payments.transfer` is refused. -/
theorem refused_of_apart {call : GatewayCall} {rest : List Char}
    (hservice : call.service = "payments") (hpath : call.path.toList = t.toList ++ rest)
    (hapart : ∀ s ∈ ["/internal/transfer-policy", "/internal/transfer-intents",
      "/internal/transfer-intents/", "/internal/transfers", "/internal/customers/"],
      ¬ s.toList <+: t.toList ∧ ¬ t.toList <+: s.toList) :
    assertCapability (capabilitiesForService call.service)
      (call.request body actor correlationId) ≠ .ok () := by
  have hno : ∀ s ∈ ["/internal/transfer-policy", "/internal/transfer-intents",
      "/internal/transfer-intents/", "/internal/transfers", "/internal/customers/"], ∀ parts,
      ¬ Matches (.lit s :: parts) call.path.toList := by
    intro s hs parts
    rw [hpath]
    exact not_matches_apart (hapart s hs).1 (hapart s hs).2
  simp only [List.forall_mem_cons, List.not_mem_nil, false_imp_iff, implies_true, and_true] at hno
  intro h
  obtain ⟨hmatches, -⟩ := (payments_iff hservice).mp h
  simp only [PaymentsPath, hno, or_self] at hmatches

/-- The path of a call with one identifier between two literals. -/
theorem toList_one (h : Identifier id) :
    (s ++ encodeURIComponent id ++ t).toList = s.toList ++ (id.toList ++ t.toList) := by
  rw [h.encode, String.toList_append, String.toList_append, List.append_assoc]

/-- The path of a call with two identifiers. -/
theorem toList_two (h : Identifier id) (h' : Identifier id') :
    (s ++ encodeURIComponent id ++ t ++ encodeURIComponent id').toList =
      s.toList ++ (id.toList ++ (t.toList ++ (id'.toList ++ []))) := by
  rw [h.encode, h'.encode, String.toList_append, String.toList_append, String.toList_append,
    List.append_assoc, List.append_assoc, List.append_nil]

theorem hasTraversal_one {path : String} (h : Identifier id)
    (hpath : path.toList = s.toList ++ (id.toList ++ t.toList))
    (hs : (s.toList.all fun c => decide (isPathChar c = true)) = true)
    (ht : (t.toList.all fun c => decide (isPathChar c = true)) = true) :
    hasTraversal path = false := by
  refine hasTraversal_isPathChar ?_
  rw [hpath, List.forall_mem_append, List.forall_mem_append]
  exact ⟨forall_mem_of_all hs, h.isPathChar, forall_mem_of_all ht⟩

theorem hasTraversal_two {path : String} (h : Identifier id) (h' : Identifier id')
    (hpath : path.toList = s.toList ++ (id.toList ++ (t.toList ++ (id'.toList ++ []))))
    (hs : (s.toList.all fun c => decide (isPathChar c = true)) = true)
    (ht : (t.toList.all fun c => decide (isPathChar c = true)) = true) :
    hasTraversal path = false := by
  refine hasTraversal_isPathChar ?_
  rw [hpath, List.append_nil]
  simp only [List.forall_mem_append]
  exact ⟨forall_mem_of_all hs, h.isPathChar, forall_mem_of_all ht, h'.isPathChar⟩

theorem matches_one {tail : List Char} (h : Identifier id) (ht : t.toList = '/' :: tail) :
    Matches [.lit s, .ID, .lit t] (s.toList ++ (id.toList ++ t.toList)) := by
  rw [← List.append_nil t.toList, h.matches_slash_iff ht ht]
  exact ⟨t.toList, [], rfl, rfl, rfl⟩

theorem matches_two {tail : List Char} (h : Identifier id)
    (h' : Identifier id') (ht : t.toList = '/' :: tail) :
    Matches [.lit s, .ID, .lit t, .ID]
      (s.toList ++ (id.toList ++ (t.toList ++ (id'.toList ++ [])))) := by
  rw [h.matches_slash_iff ht ht, h'.matches_last_iff (by rintro d ⟨⟩)]

theorem channel_refused {call : GatewayCall} (hservice : call.service = "payments")
    (ht : t ∈ ["/internal/qr/", "/internal/agent/", "/internal/ussd/"])
    (hpath : t.toList <+: call.path.toList) :
    assertCapability (capabilitiesForService call.service)
      (call.request body actor correlationId) ≠ .ok () := by
  obtain ⟨rest, hrest⟩ := hpath
  refine refused_of_apart hservice hrest.symm ?_
  clear hrest
  revert t
  decide

theorem fixed_accepted {call : GatewayCall} (hservice : call.service = "payments")
    (hpath : call.path ∈ ["/internal/transfer-policy", "/internal/transfer-intents",
      "/internal/transfers"]) :
    assertCapability (capabilitiesForService call.service)
      (call.request body actor correlationId) = .ok () := by
  have hself : ∀ s : String, Matches [.lit s] s.toList := fun s =>
    ⟨s.toList, [], (List.append_nil _).symm, rfl, rfl⟩
  have hplain : ∀ s ∈ ["/internal/transfer-policy", "/internal/transfer-intents",
      "/internal/transfers"], (s.toList.all fun c => decide (isPathChar c = true)) = true := by
    decide
  refine (payments_iff hservice).mpr ⟨?_, hasTraversal_isPathChar (forall_mem_of_all (hplain _ hpath))⟩
  simp only [List.mem_cons, List.not_mem_nil, or_false] at hpath
  rcases hpath with hpath | hpath | hpath <;> rw [hpath]
  · exact .inl (hself _)
  · exact .inr (.inl (hself _))
  · exact .inr (.inr (.inr (.inl (hself _))))

theorem customerTransactions_iff {accountId : String} {query : TransactionHistoryQuery}
    (hid : Identifier accountId) (hquery : query.Valid zod) :
    assertCapability (capabilitiesForService (customerTransactions accountId query).service)
        ((customerTransactions accountId query).request body actor correlationId) = .ok () ↔
      (customerTransactions accountId query).Covered := by
  have hentries : query.entries ≠ [] := by
    unfold TransactionHistoryQuery.entries setEntries
    refine List.ne_nil_of_mem (List.mem_filterMap.mpr
      ⟨("pageSize", some (toString query.pageSize)), ?_, rfl⟩)
    simp only [List.mem_cons, true_or, or_true]
  have hpath : (customerTransactions accountId query).path.toList =
      "/internal/customer-accounts/".toList ++
        (accountId.toList ++ ("/transactions".toList ++ '?' :: searchParams query.entries)) := by
    show ("/internal/customer-accounts/" ++ encodeURIComponent accountId ++ "/transactions" ++
      searchOf query.entries).toList = _
    rw [hid.encode, String.toList_append, String.toList_append, String.toList_append,
      toList_searchOf hentries, List.append_assoc, List.append_assoc]
  have htraversal : hasTraversal (customerTransactions accountId query).path = false ↔
      ∀ e ∈ query.entries, Flat e.1.toList ∧ Flat e.2.toList := by
    refine @hasTraversal_search_iff _ ("/internal/customer-accounts/".toList ++
      (accountId.toList ++ "/transactions".toList)) _ ?_ ?_
    · rw [hpath, List.append_assoc, List.append_assoc]
    · rw [List.forall_mem_append, List.forall_mem_append]
      exact ⟨forall_mem_of_all (by decide), hid.isPathChar, forall_mem_of_all (by decide)⟩
  have hdefault : ¬ Matches [.lit "/internal/customer-accounts/default"]
      (customerTransactions accountId query).path.toList := by
    rintro ⟨consumed, rest, hsplit, hconsumed, hrest⟩
    have hlength := congrArg List.length hsplit
    rw [hpath, hrest, List.append_nil, hconsumed] at hlength
    have hlong := hid.pos
    simp only [List.length_append, List.length_cons] at hlength
    have h1 : "/internal/customer-accounts/".toList.length = 28 := by decide
    have h2 : "/transactions".toList.length = 13 := by decide
    have h3 : "/internal/customer-accounts/default".toList.length = 35 := by decide
    omega
  have haccounts : ¬ Matches [.lit "/internal/customers/", .ID, .lit "/accounts"]
      (customerTransactions accountId query).path.toList := by
    rw [hpath]
    exact not_matches_apart (by decide) (by decide)
  have haccount : ¬ Matches [.lit "/internal/customer-accounts/", .ID]
      (customerTransactions accountId query).path.toList := by
    rw [hpath, hid.matches_last_iff]
    · exact List.cons_ne_nil _ _
    · rintro d ⟨⟩
      decide
  have hbalance : ¬ Matches [.lit "/internal/customer-accounts/", .ID, .lit "/balance"]
      (customerTransactions accountId query).path.toList := by
    rw [hpath, hid.matches_slash_iff rfl rfl]
    exact not_matches_apart (by decide) (by decide)
  have hlist : Matches [.lit "/internal/customer-accounts/", .ID, .lit "/transactions", .QUERY]
      (customerTransactions accountId query).path.toList ↔
        Matches [.QUERY] ('?' :: searchParams query.entries) := by
    rw [hpath, hid.matches_slash_iff rfl rfl,
      matches_literal_iff]
  have hdetail : ¬ Matches [.lit "/internal/customer-accounts/", .ID, .lit "/transactions/", .ID]
      (customerTransactions accountId query).path.toList := by
    rw [hpath, hid.matches_slash_iff rfl rfl]
    exact not_matches_apart (t := "/transactions?") (by decide) (by decide)
  rw [ledger_iff rfl (by decide) hpath, LedgerPath, hlist, htraversal]
  simp only [hdefault, haccounts, haccount, hbalance, hdetail, false_or, or_false]
  rw [query_fits_iff hentries, hquery.clear_iff]
  rfl

/-- The recipient's capabilities accept a call of the Gateway if and only if the catalogue
    covers it. -/
theorem catalogue_covers_iff {call : GatewayCall} (h : call.Accepted zod) :
    assertCapability (capabilitiesForService call.service)
      (call.request body actor correlationId) = .ok () ↔ call.Covered := by
  cases call with
  | policy | preview | confirm => exact iff_of_true (fixed_accepted rfl (by decide)) trivial
  | authorize token =>
    have hid : Identifier token := ⟨h.2.2, by have := h.1; omega, h.2.1⟩
    have hpath : (authorize token).path.toList = _ := toList_one hid
    refine iff_of_true ((payments_iff rfl).mpr
      ⟨?_, hasTraversal_one hid hpath (by decide) (by decide)⟩) trivial
    rw [hpath]
    exact .inr (.inr (.inl (matches_one hid rfl)))
  | transfers customerId query =>
    obtain ⟨raw, hraw⟩ := h.2
    exact transfers_iff (identifier_uuid h.1) (transferListQuerySchema_valid hraw)
  | transfer customerId id =>
    have hid := identifier_uuid h.1
    have hid' := identifier_uuid h.2
    have hpath : (transfer customerId id).path.toList = _ := toList_two hid hid'
    refine iff_of_true ((payments_iff rfl).mpr
      ⟨?_, hasTraversal_two hid hid' hpath (by decide) (by decide)⟩) trivial
    rw [hpath]
    exact .inr (.inr (.inr (.inr (.inr (matches_two hid hid' rfl)))))
  | qrIssue | qrPreview | qrRedeem =>
    exact iff_of_false (channel_refused (t := "/internal/qr/") rfl (by decide) (by decide)) id
  | agentCashInPreview | agentCashOutPreview | agentCashConfirm =>
    exact iff_of_false (channel_refused (t := "/internal/agent/") rfl (by decide) (by decide)) id
  | agentStatus agentId operationId =>
    refine iff_of_false (channel_refused (t := "/internal/agent/") rfl (by decide) ?_) id
    show _ <+: ("/internal/agent/" ++ _ ++ _ ++ _ ++ _).toList
    rw [String.toList_append, String.toList_append, String.toList_append, String.toList_append,
      List.append_assoc, List.append_assoc, List.append_assoc]
    exact List.prefix_append _ _
  | ussdSimulate | ussdWebhook =>
    exact iff_of_false (channel_refused (t := "/internal/ussd/") rfl (by decide) (by decide)) id
  | provisionDefaultAccount =>
    have hpath : provisionDefaultAccount.path.toList =
        "/internal/customer-accounts/".toList ++ "default".toList := by decide
    refine iff_of_true ((ledger_iff rfl (by decide) hpath).mpr
      ⟨.inl ?_, hasTraversal_isPathChar ?_⟩) trivial
    · exact ⟨_, [], (List.append_nil _).symm, rfl, rfl⟩
    · exact forall_mem_of_all (by decide)
  | customerAccounts customerId =>
    have hid := identifier_uuid h
    have hpath : (customerAccounts customerId).path.toList = _ := toList_one hid
    refine iff_of_true ((ledger_iff rfl (by decide) hpath).mpr
      ⟨?_, hasTraversal_one hid hpath (by decide) (by decide)⟩) trivial
    rw [hpath]
    exact .inr (.inl (matches_one hid rfl))
  | customerAccount accountId =>
    have hid := identifier_uuid h
    have hpath : (customerAccount accountId).path.toList =
        "/internal/customer-accounts/".toList ++ (accountId.toList ++ []) := by
      show ("/internal/customer-accounts/" ++ encodeURIComponent accountId).toList = _
      rw [hid.encode, String.toList_append, List.append_nil]
    refine iff_of_true ((ledger_iff rfl (by decide) hpath).mpr ⟨?_, hasTraversal_isPathChar ?_⟩) trivial
    · rw [hpath]
      exact .inr (.inr (.inl ((hid.matches_last_iff (by rintro d ⟨⟩)).mpr rfl)))
    · rw [hpath, List.append_nil, List.forall_mem_append]
      exact ⟨forall_mem_of_all (by decide), hid.isPathChar⟩
  | customerAccountBalance accountId =>
    have hid := identifier_uuid h
    have hpath : (customerAccountBalance accountId).path.toList = _ := toList_one hid
    refine iff_of_true ((ledger_iff rfl (by decide) hpath).mpr
      ⟨?_, hasTraversal_one hid hpath (by decide) (by decide)⟩) trivial
    rw [hpath]
    exact .inr (.inr (.inr (.inl (matches_one hid rfl))))
  | customerTransactions accountId query =>
    obtain ⟨raw, hraw⟩ := h.2
    exact customerTransactions_iff (identifier_uuid h.1) (transactionHistoryQuerySchema_valid hraw)
  | customerTransaction accountId transactionId =>
    have hid := identifier_uuid h.1
    have hid' := identifier_uuid h.2
    have hpath : (customerTransaction accountId transactionId).path.toList = _ :=
      toList_two hid hid'
    refine iff_of_true ((ledger_iff rfl (by decide) hpath).mpr
      ⟨?_, hasTraversal_two hid hid' hpath (by decide) (by decide)⟩) trivial
    rw [hpath]
    exact .inr (.inr (.inr (.inr (.inr (matches_two hid hid' rfl)))))

end GatewayCall

/-- A stand-in for concrete calls. -/
def listZod : Zod where
  toZod := plainZod
  isDateTime text := decide (text = "2026-08-01T10:00:00Z")
  dateTime_chars text h := by
    rw [of_decide_eq_true h]
    exact forall_mem_of_all (by decide)
  dateTime_dots text h := by
    rw [of_decide_eq_true h]
    decide
  toInteger
    | .string "20" => some 20
    | _ => none

/-- A list query with every kind of filter passes. -/
theorem list_query_covered :
    assertCapability (capabilitiesForService "payments")
      ((GatewayCall.transfers plainUuid
        { direction := some "SENT", status := none, dateFrom := some "2026-08-01T10:00:00Z",
          dateTo := none, pageSize := 20, cursor := some "c_1-2" }).request none none "corr-1") =
      .ok () := by
  have haccepted : GatewayCall.Accepted listZod (.transfers plainUuid
      { direction := some "SENT", status := none, dateFrom := some "2026-08-01T10:00:00Z",
        dateTo := none, pageSize := 20, cursor := some "c_1-2" }) := by
    refine ⟨by decide, .object [("direction", .string "SENT"),
      ("dateFrom", .string "2026-08-01T10:00:00Z"), ("pageSize", .string "20"),
      ("cursor", .string "c_1-2")], rfl⟩
  refine (GatewayCall.catalogue_covers_iff haccepted).mpr ⟨by decide, ?_⟩
  rintro cursor ⟨⟩
  exact clear_of_forall (forall_mem_of_all (by decide))

/-- The call that issues a QR code is refused: the catalogue has no path for it. -/
theorem qr_issue_refused : ¬ ∀ (zod : Zod) (call : GatewayCall) (body : Option Json)
    (actor : Option (Option String)) (correlationId : String), call.Accepted zod →
      assertCapability (capabilitiesForService call.service)
        (call.request body actor correlationId) = .ok () := by
  intro h
  have haccepted := h listZod .qrIssue none none "corr-1" trivial
  exact absurd haccepted (GatewayCall.channel_refused (t := "/internal/qr/") rfl (by decide)
    (by decide))

end AegisShield.Gateway
