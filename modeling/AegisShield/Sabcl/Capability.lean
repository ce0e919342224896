import AegisShield.Sabcl.Seal

/-!
# The capability catalogue and its enforcement

The inner request (`protocol/payload.ts`), the route tokens
(`protocol/route-token.ts`), the catalogue (`catalog/capabilities.ts`) and
`assertCapability` (`server/sabcl-recipient.ts`).

Results:
* `opWithin_unique`: an operation lies within at most one capability of the catalogue.
* `assertCapability_ok_iff`: what `assertCapability` accepts.
-/

namespace AegisShield.Sabcl

open Common

/-! ## The inner request (`payload.ts`) -/

/-- The request methods that SABCL carries. -/
inductive Method where
  | GET
  | POST
  deriving DecidableEq

/-- `SabclInnerRequest`; `actor` is the optional actor with its optional customer id. -/
structure SabclInnerRequest where
  op : String
  method : Method
  path : String
  body : Option Json
  actor : Option (Option String)
  correlationId : String

/-- `/^[a-z][a-z0-9-]*(\.[a-z][a-z0-9-]*)+$/u`. -/
def isOperation (op : String) : Bool :=
  let segments := op.toList.splitOn '.'
  decide (2 ≤ segments.length) && segments.all isName

/-- `z.enum(['GET', 'POST'])`. -/
def parseMethod : Json → Option Method
  | .string "GET" => some .GET
  | .string "POST" => some .POST
  | _ => none

/-- The schema of `actor` (lines 36-39). -/
def parseActor (raw : Json) : Option (Option String) := do
  let members ← Json.strictObject ["customerId"] raw
  match Json.member members "customerId" with
  | none => return none
  | some value => (Json.boundedString 1 128 (fun _ => true) value).map some

/-- `sabclInnerRequestSchema` (lines 19-43). -/
def sabclInnerRequestSchema (raw : Json) : Option SabclInnerRequest := do
  let members ← Json.strictObject ["op", "method", "path", "body", "actor", "correlationId"] raw
  let field := Json.member members
  let op ← field "op" >>= Json.boundedString 3 64 isOperation
  let method ← field "method" >>= parseMethod
  let path ← field "path" >>= Json.boundedString 1 2048 fun s => ['/'].isPrefixOf s.toList
  let actor ← match field "actor" with
    | none => some none
    | some value => (parseActor value).map some
  let correlationId ← field "correlationId" >>= Json.boundedString 1 128 fun _ => true
  return { op, method, path, body := field "body", actor, correlationId }

/-! ## Path patterns -/

/-- The parts of the catalogue's anchored path patterns: literal text, the
    identifier segment `ID`, and the optional query string `QUERY`. -/
inductive PathPart where
  | lit (text : String)
  | ID
  | QUERY
  deriving DecidableEq

/-- What is left of a text after `lo` to `hi` characters of a class. -/
def afterRun (p : Char → Bool) (lo hi : ℕ) (text : List Char) : List (List Char) :=
  ((List.range (hi + 1)).filter fun k =>
      decide (lo ≤ k) && decide (k ≤ text.length) && (text.take k).all p).map
    fun k => text.drop k

namespace PathPart

/-- `[A-Za-z0-9_-]`. -/
def isIdChar (c : Char) : Bool := c.isAlphanum || c == '_' || c == '-'

/-- `[A-Za-z0-9_=&%.,:-]`. -/
def isQueryChar (c : Char) : Bool :=
  c.isAlphanum || ['_', '=', '&', '%', '.', ',', ':', '-'].contains c

/-- What is left of a text after the part: `[A-Za-z0-9_-]{1,128}` for `ID` and
    `(?:\?[A-Za-z0-9_=&%.,:-]{0,512})?` for `QUERY`. -/
def rests (text : List Char) : PathPart → List (List Char)
  | .lit s => if s.toList.isPrefixOf text then [text.drop s.toList.length] else []
  | .ID => afterRun isIdChar 1 128 text
  | .QUERY =>
    match text with
    | '?' :: tail => text :: afterRun isQueryChar 0 512 tail
    | _ => [text]

end PathPart

/-- An anchored pattern matches a path when its parts consume all of it. -/
def matchesPath (parts : List PathPart) (path : String) : Bool :=
  (parts.foldl (fun texts part => texts.flatMap fun text => part.rests text) [path.toList]).any
    List.isEmpty

/-! ## The catalogue (`capabilities.ts`) -/

/-- `SabclCapability` (`sabcl-recipient.ts`, lines 24-30). -/
structure SabclCapability where
  operationPrefix : String
  pathPatterns : List (List PathPart)
  methods : List Method
  deriving DecidableEq

/-- An entry of the catalogue. -/
structure CatalogueEntry where
  routeId : String
  service : String
  capability : SabclCapability
  deriving DecidableEq

/-- `SABCL_CAPABILITIES` (`capabilities.ts`, lines 22-93). -/
def SABCL_CAPABILITIES : List CatalogueEntry :=
  [{ routeId := "identity.step-up", service := "identity",
     capability :=
      { operationPrefix := "identity.step-up", methods := [.GET, .POST],
        pathPatterns :=
          [[.lit "/api/v1/auth/transfer-step-up"], [.lit "/api/v1/auth/session"]] } },
   { routeId := "ledger.accounts", service := "ledger",
     capability :=
      { operationPrefix := "ledger.accounts", methods := [.GET, .POST],
        pathPatterns :=
          [[.lit "/internal/customer-accounts/default"],
           [.lit "/internal/customers/", .ID, .lit "/accounts"],
           [.lit "/internal/customer-accounts/", .ID],
           [.lit "/internal/customer-accounts/", .ID, .lit "/balance"],
           [.lit "/internal/customer-accounts/", .ID, .lit "/transactions", .QUERY],
           [.lit "/internal/customer-accounts/", .ID, .lit "/transactions/", .ID]] } },
   { routeId := "ledger.postings", service := "ledger",
     capability :=
      { operationPrefix := "ledger.postings", methods := [.POST],
        pathPatterns :=
          [[.lit "/internal/customer-transfers/preview"],
           [.lit "/internal/customer-transfers"]] } },
   { routeId := "payments.transfer", service := "payments",
     capability :=
      { operationPrefix := "payments.transfer", methods := [.GET, .POST],
        pathPatterns :=
          [[.lit "/internal/transfer-policy"],
           [.lit "/internal/transfer-intents"],
           [.lit "/internal/transfer-intents/", .ID, .lit "/authorize"],
           [.lit "/internal/transfers"],
           [.lit "/internal/customers/", .ID, .lit "/transfers", .QUERY],
           [.lit "/internal/customers/", .ID, .lit "/transfers/", .ID]] } }]

/-- `capabilitiesForService` (`capabilities.ts`, lines 98-102). -/
def capabilitiesForService (service : String) : List SabclCapability :=
  (SABCL_CAPABILITIES.filter fun entry => entry.service == service).map
    CatalogueEntry.capability

/-! ## Route tokens (`route-token.ts`) -/

/-- `ROUTE_ID_PATTERN`: `/^[a-z][a-z0-9-]*\.[a-z][a-z0-9-]*$/u`. -/
def ROUTE_ID_PATTERN (routeId : String) : Bool :=
  match routeId.toList.splitOn '.' with
  | [left, right] => isName left && isName right
  | _ => false

/-- `deriveRouteToken` (`route-token.ts`, lines 41-55). -/
def deriveRouteToken (P : Primitives) (routeSecret : Bytes) (routeId : String) :
    Except Thrown String :=
  if ROUTE_ID_PATTERN routeId = false then
    fail .SABCL_ROUTE_INVALID "malformed route identifier"
  else if routeSecret.length < 32 then
    fail .SABCL_NOT_CONFIGURED "route secret must be at least 32 bytes"
  else
    .ok (toBase64Url ((P.hmacSha256 routeSecret
      (utf8 (SABCL_DOMAIN.routeToken ++ "|" ++ routeId))).take SABCL_ROUTE_TOKEN_BYTES))

/-! ## `assertCapability` (`sabcl-recipient.ts`) -/

/-- The value of a hexadecimal digit. -/
def hexValue (c : Char) : Option ℕ :=
  if c.isDigit then some (c.toNat - '0'.toNat)
  else if 'a' ≤ c ∧ c ≤ 'f' then some (c.toNat - 'a'.toNat + 10)
  else if 'A' ≤ c ∧ c ≤ 'F' then some (c.toNat - 'A'.toNat + 10)
  else none

/-- The characters and percent-encoded bytes of a text, `none` at a stray `%`. -/
def percentTokens : List Char → Option (List (Char ⊕ ℕ))
  | [] => some []
  | '%' :: a :: b :: rest => do
    let high ← hexValue a
    let low ← hexValue b
    let tokens ← percentTokens rest
    return .inr (16 * high + low) :: tokens
  | c :: rest => if c = '%' then none else (percentTokens rest).map (.inl c :: ·)

/-- UTF-8 decoding of the percent-encoded bytes. The pending state is the number
    of continuation bytes still due, the code point so far and the least code
    point that the length of the sequence allows. -/
def decodeTokens : Option (ℕ × ℕ × ℕ) → List (Char ⊕ ℕ) → Option (List Char)
  | none, [] => some []
  | some _, [] => none
  | none, .inl c :: rest => (decodeTokens none rest).map (c :: ·)
  | some _, .inl _ :: _ => none
  | none, .inr byte :: rest =>
    if byte < 0x80 then (decodeTokens none rest).map (Char.ofNat byte :: ·)
    else if 0xC0 ≤ byte ∧ byte < 0xE0 then decodeTokens (some (1, byte - 0xC0, 0x80)) rest
    else if 0xE0 ≤ byte ∧ byte < 0xF0 then decodeTokens (some (2, byte - 0xE0, 0x800)) rest
    else if 0xF0 ≤ byte ∧ byte < 0xF8 then decodeTokens (some (3, byte - 0xF0, 0x10000)) rest
    else none
  | some (due, point, least), .inr byte :: rest =>
    if 0x80 ≤ byte ∧ byte < 0xC0 then
      let point := 64 * point + (byte - 0x80)
      if due > 1 then decodeTokens (some (due - 1, point, least)) rest
      else if least ≤ point ∧ point ≤ 0x10FFFF ∧ ¬ (0xD800 ≤ point ∧ point < 0xE000) then
        (decodeTokens none rest).map (Char.ofNat point :: ·)
      else none
    else none

/-- `decodeURIComponent`, `none` for a `URIError`. -/
def decodeURIComponent (value : List Char) : Option (List Char) :=
  percentTokens value >>= decodeTokens none

/-- `safeDecode` (lines 155-163). -/
def safeDecode (value : List Char) : List Char := (decodeURIComponent value).getD value

/-- `text.includes(part)`. -/
def includes (part text : List Char) : Bool := text.tails.any fun tail => part.isPrefixOf tail

/-- `op.startsWith(operationPrefix + '.')`. -/
def opWithin (capability : SabclCapability) (op : String) : Bool :=
  (capability.operationPrefix ++ ".").toList.isPrefixOf op.toList

/-- Some pattern of the capability matches the path. -/
def pathAllowed (capability : SabclCapability) (path : String) : Bool :=
  capability.pathPatterns.any fun pattern => matchesPath pattern path

/-- The decoded path steps up or holds a backslash (lines 139-142). -/
def hasTraversal (path : String) : Bool :=
  let decoded := safeDecode path.toList
  includes ['.', '.'] decoded || includes ['\\'] decoded

/-- `assertCapability` (lines 127-148). -/
def assertCapability (capabilities : List SabclCapability) (request : SabclInnerRequest) :
    Except Thrown Unit :=
  match capabilities.find? fun candidate => opWithin candidate request.op with
  | none => fail .SABCL_ROUTE_INVALID "unknown capability"
  | some capability =>
    if capability.methods.contains request.method = false then
      fail .SABCL_ROUTE_INVALID "method not permitted"
    else if hasTraversal request.path then fail .SABCL_ROUTE_INVALID "path traversal"
    else if pathAllowed capability request.path then .ok ()
    else fail .SABCL_ROUTE_INVALID "path not allowlisted"

/-- A request's operation, method and path belong to a capability. -/
structure Belongs (capability : SabclCapability) (request : SabclInnerRequest) : Prop where
  op : opWithin capability request.op = true
  method : request.method ∈ capability.methods
  path : pathAllowed capability request.path = true

theorem assertCapability_ok_iff (capabilities : List SabclCapability)
    (request : SabclInnerRequest) :
    assertCapability capabilities request = .ok () ↔
      ∃ capability, capabilities.find? (fun candidate => opWithin candidate request.op) =
          some capability ∧ Belongs capability request ∧ hasTraversal request.path = false := by
  unfold assertCapability
  split
  next hfind =>
    simp [hfind, fail]
  next capability hfind =>
    have hop := List.find?_some hfind
    simp only [hfind, Option.some.injEq, exists_eq_left']
    split_ifs with hmethod htraversal hpath
    · simp only [fail, reduceCtorEq, false_iff]
      rintro ⟨hbelongs, -⟩
      have hmem := hbelongs.method
      rw [← List.contains_iff_mem, hmethod] at hmem
      cases hmem
    · simp [fail, htraversal]
    · simp only [Bool.not_eq_false, List.contains_iff_mem] at hmethod
      simp only [true_iff]
      exact ⟨⟨hop, hmethod, hpath⟩, by simpa using htraversal⟩
    · simp only [fail, reduceCtorEq, false_iff]
      rintro ⟨hbelongs, -⟩
      exact hpath hbelongs.path

/-- No operation prefix of the catalogue, with its dot, is a prefix of another. -/
theorem prefixes_apart : ∀ e ∈ SABCL_CAPABILITIES, ∀ e' ∈ SABCL_CAPABILITIES,
    (e.capability.operationPrefix ++ ".").toList <+:
      (e'.capability.operationPrefix ++ ".").toList → e = e' := by
  decide

/-- An operation lies within at most one capability of the catalogue. -/
theorem opWithin_unique {e e' : CatalogueEntry} {op : String} (he : e ∈ SABCL_CAPABILITIES)
    (he' : e' ∈ SABCL_CAPABILITIES) (h : opWithin e.capability op = true)
    (h' : opWithin e'.capability op = true) : e = e' := by
  have hp := List.isPrefixOf_iff_prefix.mp h
  have hp' := List.isPrefixOf_iff_prefix.mp h'
  rcases List.prefix_or_prefix_of_prefix hp hp' with hle | hle
  · exact prefixes_apart e he e' he' hle
  · exact (prefixes_apart e' he' e he hle).symm

end AegisShield.Sabcl
