import AegisShield.Common.Interaction
import AegisShield.Sabcl.Exchange
import AegisShield.Sabcl.Replay

/-!
# The blind router

`RouterService.route` (`services/sabcl-router/src/routing/router.service.ts`) with its route table
(`route-token.ts`) and its operational events (`audit.ts`), as a program that reads the clock,
talks to Redis, hands envelopes to recipients and records an event. Each of them may answer
anything, and Redis may fail.

Results:
* `SabclRouteTable.resolve_ok`: a token leads to the route it was derived from, if that one is in
  service.
* `messages_routed`: which envelope goes to which destination, after which answers.
* `router_blind`: two envelopes that agree in what the router may look at are treated alike.
* `router_transparent`: what a client makes of the router's reply is what it would have made of
  the recipient's.
-/

namespace AegisShield.Sabcl.Router

open Common Interaction
open Replay (SabclRoute resolve routerCheck)

/-! ## Model of `SabclRouteTable` -/

/-- `SabclRouteTable` (`route-token.ts`, lines 81-157), its map in the order of insertion. -/
structure SabclRouteTable (P : Primitives) (routeSecret : Bytes) where
  byToken : List (String × SabclRoute)
  derived : ∀ e ∈ byToken, deriveRouteToken P routeSecret e.2.routeId = .ok e.1
  distinct : (byToken.map Prod.fst).Nodup

namespace SabclRouteTable

variable {P : Primitives} {routeSecret : Bytes}

/-- The routes of the table, those out of service included. -/
def routes (table : SabclRouteTable P routeSecret) : List SabclRoute := table.byToken.map Prod.snd

/-- One round of the constructor (lines 88-105); `protocol` is that of a URL, `none` when it
    cannot be parsed. -/
def add (protocol : String → Option String) (table : SabclRouteTable P routeSecret)
    (route : SabclRoute) : Except Thrown (SabclRouteTable P routeSecret) :=
  if ROUTE_ID_PATTERN route.routeId = false then
    fail .SABCL_ROUTE_INVALID "malformed route identifier"
  else
    match protocol route.destination with
    | none => .error (.runtime "Invalid URL")
    | some scheme =>
      if scheme ≠ "http:" ∧ scheme ≠ "https:" then
        fail .SABCL_NOT_CONFIGURED
          ("route " ++ route.routeId ++ " destination must be HTTP or HTTPS")
      else
        match htoken : deriveRouteToken P routeSecret route.routeId with
        | .error error => .error error
        | .ok token =>
          if hused : token ∈ table.byToken.map Prod.fst then
            fail .SABCL_NOT_CONFIGURED ("duplicate route " ++ route.routeId)
          else
            .ok { byToken := table.byToken ++ [(token, route)]
                  derived := by
                    intro e he
                    rcases List.mem_append.mp he with he | he
                    · exact table.derived e he
                    · rw [List.mem_singleton.mp he]
                      exact htoken
                  distinct := by
                    rw [List.map_append, List.map_singleton, List.nodup_append]
                    refine ⟨table.distinct, List.nodup_singleton _, ?_⟩
                    rintro a ha b hb rfl
                    rw [List.mem_singleton.mp hb] at ha
                    exact hused ha }

/-- The constructor. -/
def build (protocol : String → Option String) (routes : List SabclRoute) :
    Except Thrown (SabclRouteTable P routeSecret) :=
  if routes = [] then fail .SABCL_NOT_CONFIGURED "route table is empty"
  else routes.foldlM (add protocol) { byToken := [], derived := by simp, distinct := by simp }

/-- `destinations` (lines 148-156); the routes are what it returns of them. -/
def destinations (table : SabclRouteTable P routeSecret) : List SabclRoute :=
  table.routes.filter fun route => !route.revoked

end SabclRouteTable

/-! ## Model of the operational events (`audit.ts`) -/

/-- `SabclAuditEvent`. -/
inductive SabclAuditEvent where
  | envelopeAccepted
  | envelopeRejected
  | envelopeReplayed
  | envelopeExpired
  | signatureInvalid
  | routeInvalid
  | recipientUnavailable
  | hopExhausted
  | keyRotationUsed
  deriving DecidableEq

/-- `SabclAuditRecord` (lines 34-47), without its times. -/
structure SabclAuditRecord where
  event : SabclAuditEvent
  messageDigest : String
  routeDigest : Option String := none
  senderKeyId : Option String := none
  reason : Option SabclErrorCode := none
  deriving DecidableEq

/-- `eventForCode` (`router.service.ts`, lines 240-257). -/
def eventForCode : SabclErrorCode → SabclAuditEvent
  | .SABCL_REPLAYED => .envelopeReplayed
  | .SABCL_EXPIRED => .envelopeExpired
  | .SABCL_SIGNATURE_INVALID => .signatureInvalid
  | .SABCL_ROUTE_INVALID => .routeInvalid
  | .SABCL_RECIPIENT_UNAVAILABLE => .recipientUnavailable
  | .SABCL_HOP_LIMIT_EXCEEDED => .hopExhausted
  | _ => .envelopeRejected

/-! ## Model of `RouterService` -/

/-- `RouterConfig`, as far as `route` reads it. -/
structure RouterConfig (P : Primitives) where
  maxEnvelopeBytes : ℕ
  keyring : SabclKeyring
  rateLimitPerMinute : ℕ
  routeSecret : Bytes
  routes : SabclRouteTable P routeSecret

/-- `RouterOutcome`. -/
structure RouterOutcome where
  status : ℕ
  body : Json

/-- What the router asks of others: the time in seconds, Redis, a recipient, and that an event be
    counted and logged. -/
inductive RouterQuestion where
  | now
  | incrementRate (senderKeyId : String)
  | remember (messageId : String) (ttlSeconds : ℕ)
  /-- The envelope, to `/sabcl/v1/inbound` of a destination. -/
  | post (destination : String) (envelope : SabclEnvelope)
  | audit (record : SabclAuditRecord)

/-- The answers; `none` when Redis fails. -/
@[reducible] def RouterAnswer : RouterQuestion → Type
  | .now => ℕ
  | .incrementRate _ => Option ℕ
  | .remember _ _ => Option Bool
  | .post _ _ => Fetched
  | .audit _ => Unit

/-- What Redis answered, or a throw of its client. -/
def redis {α : Type} : Option α → Except Thrown α
  | none => .error (.runtime "redis")
  | some a => .ok a

variable (code : SabclErrorCode)

/-- The text of a code. -/
def codeText : String :=
  ((SABCL_ERROR_CODES.find? fun entry => entry.2 == code).map Prod.fst).getD ""

/-- `toSafeResponse` (`errors.ts`, lines 50-52). -/
def toSafeResponse : Json :=
  .object [("error", .object [("code", .string (codeText code))])]

/-- `readErrorCode` (`router.service.ts`, lines 267-280), the same function as that of the
    client. -/
def readErrorCode : Json → Option SabclErrorCode := extractErrorCode

section
variable {P : Primitives} (sha256 : Bytes → List Char) (config : RouterConfig P)

/-- `auditDigest` (`audit.ts`, lines 57-63) under the route secret; `sha256` is the digest as
    hexadecimal digits. -/
def digest (value : String) : String :=
  String.ofList
    ((sha256 (config.routeSecret ++ utf8 ("SABCL/1 service-handle|" ++ value))).take 12)

/-- The size check and `sabclEnvelopeSchema.safeParse` (lines 69-74). -/
def openEnvelope (raw : Json) (rawByteLength : ℕ) : Except Thrown SabclEnvelope := do
  failIf (rawByteLength > config.maxEnvelopeBytes) .SABCL_OVERSIZED
  parseEnvelope raw

/-- The checks at the time `now` (lines 81-93). -/
def checkHeader (envelope : SabclEnvelope) (now : ℕ) : Except Thrown Unit := do
  failIf (now > envelope.exp) .SABCL_EXPIRED
  failIf (envelope.iat > now + SABCL_CLOCK_SKEW_SECONDS) .SABCL_EXPIRED
  failIf (envelope.exp > envelope.iat + SABCL_MAX_TTL_SECONDS) .SABCL_MALFORMED
  let _ ← config.keyring.peer envelope.skid now
  failIf (envelope.hl = 0) .SABCL_HOP_LIMIT_EXCEEDED

/-- What `forward` makes of a reply (lines 170-185). -/
def relay : Fetched → Except Thrown RouterOutcome
  | .failed => fail .SABCL_RECIPIENT_UNAVAILABLE
  | .answered false raw => fail ((readErrorCode raw).getD .SABCL_RECIPIENT_UNAVAILABLE)
  | .answered true raw =>
    match sabclResponseEnvelopeSchema raw with
    | none => fail .SABCL_RECIPIENT_UNAVAILABLE
    | some response => .ok { status := 200, body := response.toJson }

/-- `forward` (lines 152-188). -/
def forward (destination : String) (envelope : SabclEnvelope) :
    Interaction RouterAnswer Thrown RouterOutcome := do
  let fetched ← query (RouterQuestion.post destination envelope)
  lift (relay fetched)

/-- The rest of the `try` block (lines 76-125). -/
def accept (envelope : SabclEnvelope) : Interaction RouterAnswer Thrown RouterOutcome := do
  lift (failIf (envelope.v ≠ SABCL_PROTOCOL_VERSION) .SABCL_UNSUPPORTED_VERSION)
  let now ← query RouterQuestion.now
  lift (checkHeader config envelope now)
  let counted ← query (RouterQuestion.incrementRate envelope.skid)
  let rate ← lift (redis counted)
  lift (failIf (rate > config.rateLimitPerMinute) .SABCL_ROUTE_INVALID "rate limit")
  let route ← lift (resolve config.routes.byToken envelope.rt)
  let claimed ← query (RouterQuestion.remember envelope.mid (replayTtl envelope now))
  let unseen ← lift (redis claimed)
  lift (failIf (unseen = false) .SABCL_REPLAYED)
  let forwarded ← forward route.destination envelope
  let () ← query (RouterQuestion.audit
    { event := .envelopeAccepted, messageDigest := digest sha256 config envelope.mid
      routeDigest := digest sha256 config envelope.rt, senderKeyId := envelope.skid })
  return forwarded

/-- The `catch` block (lines 126-141). -/
def refuse (envelope : Option SabclEnvelope) (thrown : Thrown) :
    Interaction RouterAnswer Empty RouterOutcome := do
  let error := toSabclError thrown .SABCL_MALFORMED
  let () ← query (RouterQuestion.audit
    { event := eventForCode error.code
      messageDigest := (envelope.map fun e => digest sha256 config e.mid).getD "unparsed"
      routeDigest := envelope.map fun e => digest sha256 config e.rt
      senderKeyId := envelope.map SabclEnvelope.skid, reason := error.code })
  return { status := statusForCode error.code, body := toSafeResponse error.code }

/-- `route` (lines 62-142). -/
def route (raw : Json) (rawByteLength : ℕ) : Interaction RouterAnswer Empty RouterOutcome :=
  match openEnvelope config raw rawByteLength with
  | .error thrown => refuse sha256 config none thrown
  | .ok envelope => do
    let tried ← (accept sha256 config envelope).attempt
    match tried with
    | .ok outcome => return outcome
    | .error thrown => refuse sha256 config (some envelope) thrown

end

/-! ## The route table -/

section
variable {P : Primitives} {routeSecret : Bytes} {protocol : String → Option String}
  {table table' : SabclRouteTable P routeSecret} {route : SabclRoute} {token : String}

theorem deriveRouteToken_ok {routeId : String}
    (h : deriveRouteToken P routeSecret routeId = .ok token) :
    token = toBase64Url ((P.hmacSha256 routeSecret
      (utf8 (SABCL_DOMAIN.routeToken ++ "|" ++ routeId))).take SABCL_ROUTE_TOKEN_BYTES) := by
  unfold deriveRouteToken at h
  split at h
  · cases h
  · split at h
    · cases h
    · cases h
      rfl

/-- The derived tokens are canonical. -/
theorem SabclRouteTable.canonical (hmem : (token, route) ∈ table.byToken) :
    toBase64Url (bufferFromBase64Url token) = token := by
  have htoken := deriveRouteToken_ok (table.derived _ hmem)
  simp only at htoken
  rw [htoken, bufferFromBase64Url_toBase64Url]

theorem SabclRouteTable.eq_of_token {route' : SabclRoute} (h : (token, route) ∈ table.byToken)
    (h' : (token, route') ∈ table.byToken) : route = route' := by
  have heq := List.inj_on_of_nodup_map table.distinct h h' rfl
  exact congrArg Prod.snd heq

/-- A token leads to the route of its entry, when that is in service. -/
theorem SabclRouteTable.resolve_entry (htoken : token ≠ "") :
    resolve table.byToken token = .ok route ↔
      (token, route) ∈ table.byToken ∧ route.revoked = false := by
  unfold resolve
  constructor
  · intro h
    split at h
    · cases h
    next supplied hsupplied =>
      split at h
      · cases h
      next candidate route' hlast =>
        cases h
        have hmem := List.mem_of_getLast? hlast
        obtain ⟨hmem, hmatch⟩ := List.mem_filter.mp hmem
        simp only [Bool.and_eq_true, beq_iff_eq, Bool.not_eq_true'] at hmatch
        have hcandidate : candidate = token := by
          rw [← table.canonical hmem, hmatch.1, fromBase64Url_ok hsupplied]
        exact ⟨hcandidate ▸ hmem, hmatch.2⟩
  · rintro ⟨hmem, hlive⟩
    have hcanonical := table.canonical hmem
    have hsupplied : fromBase64Url token "rt" = .ok (bufferFromBase64Url token) := by
      simp [fromBase64Url, htoken, hcanonical]
    rw [hsupplied]
    simp only
    have hfilter : (token, route) ∈ table.byToken.filter fun r =>
        bufferFromBase64Url r.1 == bufferFromBase64Url token && !r.2.revoked := by
      rw [List.mem_filter]
      simp [hmem, hlive]
    cases hlast : (table.byToken.filter fun r =>
        bufferFromBase64Url r.1 == bufferFromBase64Url token && !r.2.revoked).getLast? with
    | none =>
      rw [List.getLast?_eq_none_iff] at hlast
      rw [hlast] at hfilter
      cases hfilter
    | some last =>
      obtain ⟨candidate, route'⟩ := last
      obtain ⟨hlastmem, hmatch⟩ := List.mem_filter.mp (List.mem_of_getLast? hlast)
      simp only [Bool.and_eq_true, beq_iff_eq] at hmatch
      have hcandidate : candidate = token := by
        rw [← table.canonical hlastmem, hmatch.1, hcanonical]
      subst hcandidate
      simp only [table.eq_of_token hlastmem hmem]

/-- A token leads to the route it was derived from, when that is in service. -/
theorem SabclRouteTable.resolve_ok (htoken : token ≠ "") :
    resolve table.byToken token = .ok route ↔ route ∈ table.destinations ∧
      deriveRouteToken P routeSecret route.routeId = .ok token := by
  rw [table.resolve_entry htoken]
  simp only [destinations, List.mem_filter, routes, List.mem_map, Bool.not_eq_true']
  constructor
  · rintro ⟨hmem, hlive⟩
    exact ⟨⟨⟨_, hmem, rfl⟩, hlive⟩, table.derived _ hmem⟩
  · rintro ⟨⟨⟨e, hmem, rfl⟩, hlive⟩, hderived⟩
    obtain rfl : e.1 = token := Except.ok.inj ((table.derived e hmem).symm.trans hderived)
    exact ⟨hmem, hlive⟩

end

/-! ## What the router asks -/

section
variable {P : Primitives} {sha256 : Bytes → List Char} {config : RouterConfig P} {raw : Json}
  {rawByteLength now rate : ℕ} {envelope : SabclEnvelope} {t : History RouterAnswer}
  {q : RouterQuestion} {destination : String}

/-- The router may let the envelope pass, at the time `now` and with the sender's counter at
    `rate`. -/
structure Admits (config : RouterConfig P) (raw : Json) (rawByteLength : ℕ)
    (envelope : SabclEnvelope) (now rate : ℕ) : Prop where
  size : rawByteLength ≤ config.maxEnvelopeBytes
  schema : sabclEnvelopeSchema raw = some envelope
  unexpired : now ≤ envelope.exp
  issued : envelope.iat ≤ now + SABCL_CLOCK_SKEW_SECONDS
  lifetime : envelope.exp ≤ envelope.iat + SABCL_MAX_TTL_SECONDS
  sender : ∃ peer, config.keyring.peer envelope.skid now = .ok peer
  hops : 0 < envelope.hl
  rate : rate ≤ config.rateLimitPerMinute

/-- The answers after which an envelope is forwarded: the time, the sender's counter, and that
    the message id was unseen. -/
def approach (envelope : SabclEnvelope) (now rate : ℕ) : History RouterAnswer :=
  [⟨.now, now⟩, ⟨.incrementRate envelope.skid, some rate⟩,
    ⟨.remember envelope.mid (replayTtl envelope now), some true⟩]

theorem openEnvelope_ok : openEnvelope config raw rawByteLength = .ok envelope ↔
    rawByteLength ≤ config.maxEnvelopeBytes ∧ sabclEnvelopeSchema raw = some envelope := by
  simp only [openEnvelope, bind_ok, failIf_ok, parseEnvelope_ok, not_lt, exists_const]

theorem checkHeader_ok {u : Unit} : checkHeader config envelope now = .ok u ↔
    now ≤ envelope.exp ∧ envelope.iat ≤ now + SABCL_CLOCK_SKEW_SECONDS ∧
      envelope.exp ≤ envelope.iat + SABCL_MAX_TTL_SECONDS ∧
      (∃ peer, config.keyring.peer envelope.skid now = .ok peer) ∧ 0 < envelope.hl := by
  simp only [checkHeader, bind_ok, failIf_ok, not_lt, exists_const, exists_and_right,
    Nat.pos_iff_ne_zero, ne_eq]

theorem redis_ok {α : Type} {reply : Option α} {a : α} : redis reply = .ok a ↔ reply = some a := by
  cases reply <;> simp [redis]

/-- The question is the recording of an event. -/
def RouterQuestion.isAudit : RouterQuestion → Bool
  | .audit _ => true
  | _ => false

/-- No event has been recorded. -/
def Unrecorded (t : History RouterAnswer) : Prop := ∀ x ∈ t, x.1.isAudit = false

/-- The event of an envelope that was forwarded and answered. -/
def acceptedRecord (sha256 : Bytes → List Char) (config : RouterConfig P)
    (envelope : SabclEnvelope) : SabclAuditRecord :=
  { event := .envelopeAccepted, messageDigest := digest sha256 config envelope.mid
    routeDigest := digest sha256 config envelope.rt, senderKeyId := envelope.skid }

theorem asks_accept_post {e : SabclEnvelope} :
    Asks (accept sha256 config envelope) t (.post destination e) ↔
      envelope.v = SABCL_PROTOCOL_VERSION ∧ e = envelope ∧ ∃ now rate route,
        checkHeader config envelope now = .ok () ∧ rate ≤ config.rateLimitPerMinute ∧
        t = approach envelope now rate ∧ resolve config.routes.byToken envelope.rt = .ok route ∧
        destination = route.destination := by
  simp only [accept, forward, query_bind_bind, asks_lift_bind, asks_query_bind, failIf_ok,
    redis_ok, asks_pure, reduceCtorEq, and_false, false_or, or_false, exists_const, exists_false,
    approach, RouterQuestion.post.injEq, not_not, not_lt]
  constructor
  · rintro ⟨hv, now, _, rfl, _, hcheck, _, _, rfl, rate, rfl, hrate, route, hroute, _, _, rfl, _,
      rfl, hunseen, rfl, rfl, rfl⟩
    rw [Bool.not_eq_false] at hunseen
    subst hunseen
    exact ⟨hv, rfl, now, rate, route, hcheck, hrate, rfl, hroute, rfl⟩
  · rintro ⟨hv, rfl, now, rate, route, hcheck, hrate, rfl, hroute, rfl⟩
    exact ⟨hv, now, _, rfl, (), hcheck, _, _, rfl, rate, rfl, hrate, route, hroute, _, _, rfl, true,
      rfl, by decide, rfl, rfl, rfl⟩

/-- The reply of the recipient in a history. -/
def replied : Sigma RouterAnswer → Option Fetched
  | ⟨.post _ _, fetched⟩ => some fetched
  | _ => none

theorem ends_accept {r : Except Thrown RouterOutcome}
    (h : Ends (accept sha256 config envelope) t r) :
    (∃ thrown, r = .error thrown ∧ Unrecorded t ∧
      ∀ fetched ∈ t.filterMap replied, relay fetched = .error thrown) ∨
    ∃ now rate route fetched outcome, r = .ok outcome ∧ relay fetched = .ok outcome ∧
      checkHeader config envelope now = .ok () ∧ rate ≤ config.rateLimitPerMinute ∧
      resolve config.routes.byToken envelope.rt = .ok route ∧
      t = approach envelope now rate ++ [⟨.post route.destination envelope, fetched⟩,
        ⟨.audit (acceptedRecord sha256 config envelope), ()⟩] := by
  simp only [accept, forward, query_bind_bind, ends_lift_bind, ends_query_bind, failIf_ok,
    redis_ok, ends_pure] at h
  have hthrown : ∀ {thrown : Thrown} {t : History RouterAnswer}, Unrecorded t →
      (∀ fetched ∈ t.filterMap replied, relay fetched = .error thrown) →
      ∃ thrown', (.error thrown : Except Thrown RouterOutcome) = .error thrown' ∧ Unrecorded t ∧
        ∀ fetched ∈ t.filterMap replied, relay fetched = .error thrown' :=
    fun hclean hreplies => ⟨_, rfl, hclean, hreplies⟩
  -- One case for each check that may fail, in the order of the checks.
  rcases h with ⟨_, -, rfl, rfl⟩ | ⟨_, -, now, _, rfl, ⟨_, -, rfl, rfl⟩ |
    ⟨_, hcheck, _, _, rfl, ⟨_, -, rfl, rfl⟩ | ⟨rate, rfl, ⟨_, -, rfl, rfl⟩ |
    ⟨_, hrate, ⟨_, -, rfl, rfl⟩ | ⟨route, hroute, _, _, rfl, ⟨_, -, rfl, rfl⟩ |
    ⟨unseen, rfl, ⟨_, -, rfl, rfl⟩ | ⟨_, hunseen, fetched, _, rfl, ⟨_, hrelay, rfl, rfl⟩ |
    ⟨outcome, hrelay, _, _, rfl, rfl, rfl⟩⟩⟩⟩⟩⟩⟩⟩
  iterate 7 exact .inl (hthrown (by simp [Unrecorded, RouterQuestion.isAudit]) (by simp [replied]))
  · exact .inl (hthrown (by simp [Unrecorded, RouterQuestion.isAudit])
      (by simpa [replied] using hrelay))
  · rw [Bool.not_eq_false] at hunseen
    subst hunseen
    exact .inr ⟨now, rate, route, fetched, outcome, rfl, hrelay, hcheck, not_lt.mp hrate, hroute,
      rfl⟩

variable {fetched : Fetched} {outcome : RouterOutcome} {thrown : Thrown}

theorem ends_accept_ok {route : SabclRoute}
    (hv : envelope.v = SABCL_PROTOCOL_VERSION) (hcheck : checkHeader config envelope now = .ok ())
    (hrate : rate ≤ config.rateLimitPerMinute)
    (hroute : resolve config.routes.byToken envelope.rt = .ok route)
    (hrelay : relay fetched = .ok outcome) :
    Ends (accept sha256 config envelope)
      (approach envelope now rate ++ [⟨.post route.destination envelope, fetched⟩,
        ⟨.audit (acceptedRecord sha256 config envelope), ()⟩]) (.ok outcome) := by
  simp only [accept, forward, query_bind_bind, ends_lift_bind, ends_query_bind, failIf_ok,
    redis_ok, ends_pure]
  exact .inr ⟨(), not_not.mpr hv, now, _, rfl, .inr ⟨(), hcheck, _, _, rfl, .inr ⟨rate, rfl,
    .inr ⟨(), not_lt.mpr hrate, .inr ⟨route, hroute, _, _, rfl, .inr ⟨true, rfl,
    .inr ⟨(), by decide, fetched, _, rfl, .inr ⟨outcome, hrelay, (), [], rfl, rfl, rfl⟩⟩⟩⟩⟩⟩⟩⟩

theorem asks_accept_unrecorded (h : Asks (accept sha256 config envelope) t q) : Unrecorded t := by
  simp only [accept, forward, query_bind_bind, asks_lift_bind, asks_query_bind, asks_pure] at h
  rcases h with ⟨_, -, ⟨rfl, -⟩ | ⟨_, _, rfl, _, -, ⟨rfl, -⟩ | ⟨_, _, rfl, _, -, _, -, _, -,
    ⟨rfl, -⟩ | ⟨_, _, rfl, _, -, _, -, ⟨rfl, -⟩ | ⟨_, _, rfl, _, -, ⟨rfl, -⟩ |
    ⟨_, _, rfl, h⟩⟩⟩⟩⟩⟩
  iterate 5 simp [Unrecorded, RouterQuestion.isAudit]
  exact h.elim

/-- What the router records of an envelope that it refuses. -/
def refusedRecord (sha256 : Bytes → List Char) (config : RouterConfig P)
    (envelope : Option SabclEnvelope) (code : SabclErrorCode) : SabclAuditRecord :=
  { event := eventForCode code
    messageDigest := (envelope.map fun e => digest sha256 config e.mid).getD "unparsed"
    routeDigest := envelope.map fun e => digest sha256 config e.rt
    senderKeyId := envelope.map SabclEnvelope.skid, reason := code }

theorem ends_refuse {envelope : Option SabclEnvelope}
    {r : Except Empty RouterOutcome} : Ends (refuse sha256 config envelope thrown) t r ↔
      let code := (toSabclError thrown .SABCL_MALFORMED).code
      t = [⟨.audit (refusedRecord sha256 config envelope code), ()⟩] ∧
        r = .ok { status := statusForCode code, body := toSafeResponse code } := by
  simp only [refuse, ends_query_bind, ends_pure]
  constructor
  · rintro ⟨_, _, rfl, rfl, rfl⟩
    exact ⟨rfl, rfl⟩
  · rintro ⟨rfl, rfl⟩
    exact ⟨(), [], rfl, rfl, rfl⟩

theorem asks_refuse {envelope : Option SabclEnvelope} :
    Asks (refuse sha256 config envelope thrown) t q ↔ t = [] ∧
      q = .audit (refusedRecord sha256 config envelope
        (toSabclError thrown .SABCL_MALFORMED).code) := by
  simp only [refuse, asks_query_bind, asks_pure, and_false, exists_false, or_false]
  rfl

theorem asks_route : Asks (route sha256 config raw rawByteLength) t q ↔
    (∃ thrown, openEnvelope config raw rawByteLength = .error thrown ∧
      Asks (refuse sha256 config none thrown) t q) ∨
    ∃ envelope, openEnvelope config raw rawByteLength = .ok envelope ∧
      (Asks (accept sha256 config envelope) t q ∨ ∃ t₁ thrown t₂, t = t₁ ++ t₂ ∧
        Ends (accept sha256 config envelope) t₁ (.error thrown) ∧
        Asks (refuse sha256 config (some envelope) thrown) t₂ q) := by
  unfold route
  cases hopen : openEnvelope config raw rawByteLength with
  | error thrown => simp
  | ok envelope =>
    simp only [reduceCtorEq, false_and, exists_false, false_or, Except.ok.injEq, exists_eq_left',
      asks_bind, asks_attempt, ends_attempt]
    refine or_congr_right ?_
    constructor
    · rintro ⟨t₁, tried, t₂, rfl, hends, hasks⟩
      cases tried with
      | ok outcome => exact (asks_pure hasks).elim
      | error thrown => exact ⟨t₁, thrown, t₂, rfl, hends, hasks⟩
    · rintro ⟨t₁, thrown, t₂, rfl, hends, hasks⟩
      exact ⟨t₁, .error thrown, t₂, rfl, hends, hasks⟩

theorem ends_route {r : Except Empty RouterOutcome} :
    Ends (route sha256 config raw rawByteLength) t r ↔
    (∃ thrown, openEnvelope config raw rawByteLength = .error thrown ∧
      Ends (refuse sha256 config none thrown) t r) ∨
    ∃ envelope, openEnvelope config raw rawByteLength = .ok envelope ∧
      ((∃ outcome, Ends (accept sha256 config envelope) t (.ok outcome) ∧ r = .ok outcome) ∨
        ∃ t₁ thrown t₂, t = t₁ ++ t₂ ∧ Ends (accept sha256 config envelope) t₁ (.error thrown) ∧
          Ends (refuse sha256 config (some envelope) thrown) t₂ r) := by
  unfold route
  cases hopen : openEnvelope config raw rawByteLength with
  | error thrown => simp
  | ok envelope =>
    simp only [reduceCtorEq, false_and, exists_false, false_or, Except.ok.injEq, exists_eq_left',
      ends_bind, ends_attempt, IsEmpty.exists_iff]
    constructor
    · rintro ⟨t₁, tried, t₂, rfl, hends, hrest⟩
      cases tried with
      | ok outcome =>
        obtain ⟨rfl, rfl⟩ := ends_pure.mp hrest
        exact .inl ⟨outcome, by simpa using hends, rfl⟩
      | error thrown => exact .inr ⟨t₁, thrown, t₂, rfl, hends, hrest⟩
    · rintro (⟨outcome, hends, rfl⟩ | ⟨t₁, thrown, t₂, rfl, hends, hrest⟩)
      · exact ⟨t, .ok outcome, [], by simp, hends, ends_pure.mpr ⟨rfl, rfl⟩⟩
      · exact ⟨t₁, .error thrown, t₂, rfl, hends, hrest⟩

/-- After the recording of an event, the router asks nothing. -/
theorem asks_route_unrecorded (h : Asks (route sha256 config raw rawByteLength) t q) :
    Unrecorded t := by
  rcases asks_route.mp h with ⟨thrown, -, h⟩ | ⟨envelope, -, h | ⟨t₁, thrown, t₂, rfl, hends, h⟩⟩
  · rw [(asks_refuse.mp h).1]
    simp [Unrecorded]
  · exact asks_accept_unrecorded h
  · rw [(asks_refuse.mp h).1, List.append_nil]
    rcases ends_accept hends with ⟨_, -, hclean, -⟩ | ⟨_, _, _, _, _, heq, -⟩
    · exact hclean
    · cases heq

/-- How a call of `route` ends: with the reply of the recipient, or with a bare code, which is
    that of the recipient's refusal if there was one. Its event is the last thing it asks for. -/
inductive Settled (sha256 : Bytes → List Char) (config : RouterConfig P) (raw : Json)
    (rawByteLength : ℕ) : History RouterAnswer → RouterOutcome → Prop
  | accepted (envelope : SabclEnvelope) (now rate : ℕ) (route : SabclRoute) (reply : Json)
      (response : SabclResponseEnvelope) :
      Admits config raw rawByteLength envelope now rate →
      resolve config.routes.byToken envelope.rt = .ok route →
      sabclResponseEnvelopeSchema reply = some response →
      Settled sha256 config raw rawByteLength
        (approach envelope now rate ++ [⟨.post route.destination envelope, .answered true reply⟩,
          ⟨.audit (acceptedRecord sha256 config envelope), ()⟩])
        { status := 200, body := response.toJson }
  | refused (t : History RouterAnswer) (envelope : Option SabclEnvelope) (thrown : Thrown) :
      Unrecorded t →
      (∀ fetched ∈ t.filterMap replied, relay fetched = .error thrown) →
      Settled sha256 config raw rawByteLength
        (t ++ [⟨.audit (refusedRecord sha256 config envelope
          (toSabclError thrown .SABCL_MALFORMED).code), ()⟩])
        { status := statusForCode (toSabclError thrown .SABCL_MALFORMED).code
          body := toSafeResponse (toSabclError thrown .SABCL_MALFORMED).code }

theorem relay_ok : relay fetched = .ok outcome ↔
    ∃ reply response, fetched = .answered true reply ∧
      sabclResponseEnvelopeSchema reply = some response ∧
      outcome = { status := 200, body := response.toJson } := by
  unfold relay
  split
  · simp [fail]
  · simp [fail]
  next reply =>
    cases hschema : sabclResponseEnvelopeSchema reply with
    | none => simp [fail, hschema]
    | some response =>
      constructor
      · intro h
        cases h
        exact ⟨reply, response, rfl, hschema, rfl⟩
      · rintro ⟨_, _, heq, hsome, rfl⟩
        cases heq
        cases hschema.symm.trans hsome
        rfl

theorem settled (h : Ends (route sha256 config raw rawByteLength) t (.ok outcome)) :
    Settled sha256 config raw rawByteLength t outcome := by
  rcases ends_route.mp h with ⟨thrown, -, h⟩ | ⟨envelope, hopen, ⟨o, hends, ho⟩ |
    ⟨t₁, thrown, t₂, rfl, hends, h⟩⟩
  · obtain ⟨rfl, ho⟩ := ends_refuse.mp h
    cases ho
    exact .refused [] none thrown (by simp [Unrecorded]) (by simp)
  · cases ho
    rcases ends_accept hends with ⟨_, heq, -⟩ | ⟨now, rate, route, fetched, o, heq, hrelay, hcheck,
      hrate, hroute, rfl⟩
    · cases heq
    · cases heq
      obtain ⟨reply, response, rfl, hreply, rfl⟩ := relay_ok.mp hrelay
      obtain ⟨hsize, hraw⟩ := openEnvelope_ok.mp hopen
      obtain ⟨hexp, hiat, hlifetime, hsender, hhops⟩ := checkHeader_ok.mp hcheck
      exact .accepted envelope now rate route reply response
        ⟨hsize, hraw, hexp, hiat, hlifetime, hsender, hhops, hrate⟩ hroute hreply
  · obtain ⟨rfl, ho⟩ := ends_refuse.mp h
    cases ho
    rcases ends_accept hends with ⟨_, heq, hclean, hreplies⟩ | ⟨_, _, _, _, _, heq, -⟩
    · cases heq
      exact .refused t₁ (some envelope) thrown hclean hreplies
    · cases heq

theorem asks_route_post {e : SabclEnvelope} :
    Asks (route sha256 config raw rawByteLength) t (.post destination e) ↔
      ∃ now rate route, Admits config raw rawByteLength e now rate ∧ t = approach e now rate ∧
        resolve config.routes.byToken e.rt = .ok route ∧ destination = route.destination := by
  rw [asks_route]
  constructor
  · rintro (⟨_, -, h⟩ | ⟨envelope, hopen, h | ⟨_, _, _, -, -, h⟩⟩)
    · cases (asks_refuse.mp h).2
    · obtain ⟨-, rfl, now, rate, route, hcheck, hrate, rfl, hroute, rfl⟩ := asks_accept_post.mp h
      obtain ⟨hsize, hraw⟩ := openEnvelope_ok.mp hopen
      obtain ⟨hexp, hiat, hlifetime, hsender, hhops⟩ := checkHeader_ok.mp hcheck
      exact ⟨now, rate, route, ⟨hsize, hraw, hexp, hiat, hlifetime, hsender, hhops, hrate⟩, rfl,
        hroute, rfl⟩
    · cases (asks_refuse.mp h).2
  · rintro ⟨now, rate, route, hadmits, rfl, hroute, rfl⟩
    refine .inr ⟨e, openEnvelope_ok.mpr ⟨hadmits.size, hadmits.schema⟩, .inl ?_⟩
    rw [asks_accept_post]
    exact ⟨(valid_of_sabclEnvelopeSchema hadmits.schema).v, rfl, now, rate, route,
      checkHeader_ok.mpr ⟨hadmits.unexpired, hadmits.issued, hadmits.lifetime, hadmits.sender,
        hadmits.hops⟩, hadmits.rate, rfl, hroute, rfl⟩

theorem Admits.token_ne (h : Admits config raw rawByteLength envelope now rate) :
    envelope.rt ≠ "" := by
  intro hempty
  have hlength := (valid_of_sabclEnvelopeSchema h.schema).rt.1
  rw [hempty] at hlength
  exact absurd hlength (by decide)

end

/-! ## Where messages go -/

/-- A message goes to the destination of a route in service, under the token of which it was sent,
    if the router may let it pass and Redis has not seen it before. It is the envelope that the
    router was given, and nothing else is ever sent. -/
theorem messages_routed (P : Primitives) (sha256 : Bytes → List Char) (config : RouterConfig P)
    (raw : Json) (rawByteLength : ℕ) (t : History RouterAnswer) (destination : String)
    (envelope : SabclEnvelope) :
    Asks (route sha256 config raw rawByteLength) t (.post destination envelope) ↔
      ∃ now rate route, Admits config raw rawByteLength envelope now rate ∧
        t = approach envelope now rate ∧ route ∈ config.routes.destinations ∧
        deriveRouteToken P config.routeSecret route.routeId = .ok envelope.rt ∧
        destination = route.destination := by
  rw [asks_route_post]
  constructor
  · rintro ⟨now, rate, route, hadmits, rfl, hroute, rfl⟩
    obtain ⟨hlive, hderived⟩ := (config.routes.resolve_ok hadmits.token_ne).mp hroute
    exact ⟨now, rate, route, hadmits, rfl, hlive, hderived, rfl⟩
  · rintro ⟨now, rate, route, hadmits, rfl, hlive, hderived, rfl⟩
    exact ⟨now, rate, route, hadmits, rfl,
      (config.routes.resolve_ok hadmits.token_ne).mpr ⟨hlive, hderived⟩, rfl⟩

/-! ## What the router looks at -/

/-- The envelopes agree in all that the router looks at. -/
structure SameHeader (e e' : SabclEnvelope) : Prop where
  v : e.v = e'.v
  mid : e.mid = e'.mid
  rt : e.rt = e'.rt
  skid : e.skid = e'.skid
  iat : e.iat = e'.iat
  exp : e.exp = e'.exp
  hl : e.hl = e'.hl

/-- The same questions, but another envelope is forwarded. -/
def carrying (envelope : SabclEnvelope) : Relabelling RouterAnswer where
  question
    | .post destination _ => .post destination envelope
    | q => q
  answers
    | .now => .refl _
    | .incrementRate _ => .refl _
    | .remember _ _ => .refl _
    | .post _ _ => .refl _
    | .audit _ => .refl _

section
variable {P : Primitives} {sha256 : Bytes → List Char} {config : RouterConfig P} {raw raw' : Json}
  {rawByteLength rawByteLength' : ℕ} {e e' : SabclEnvelope}

theorem apply_accept (h : SameHeader e e') :
    (carrying e').apply (accept sha256 config e) = accept sha256 config e' := by
  obtain ⟨v, mid, rt, skid, _, _, iat, exp, _, hl, _, _, _, _⟩ := e
  obtain ⟨_, _, _, _, rkid, epk, _, _, n, _, pad, ct, tag, sig⟩ := e'
  obtain ⟨rfl, rfl, rfl, rfl, rfl, rfl, rfl⟩ := h
  simp only [accept, forward, query_bind_bind, Relabelling.apply_query_bind,
    Relabelling.apply_lift_bind]
  rfl

theorem refuse_congr (h : SameHeader e e') (thrown : Thrown) :
    refuse sha256 config (some e) thrown = refuse sha256 config (some e') thrown := by
  obtain ⟨v, mid, rt, skid, _, _, iat, exp, _, hl, _, _, _, _⟩ := e
  obtain ⟨_, _, _, _, rkid, epk, _, _, n, _, pad, ct, tag, sig⟩ := e'
  obtain ⟨rfl, rfl, rfl, rfl, rfl, rfl, rfl⟩ := h
  rfl

theorem apply_route (hopen : openEnvelope config raw rawByteLength = .ok e)
    (hopen' : openEnvelope config raw' rawByteLength' = .ok e') (h : SameHeader e e') :
    (carrying e').apply (route sha256 config raw rawByteLength) =
      route sha256 config raw' rawByteLength' := by
  unfold route
  simp only [hopen, hopen', Relabelling.apply_bind, Relabelling.apply_attempt, apply_accept h]
  congr 1
  funext tried
  cases tried with
  | ok outcome => rfl
  | error thrown =>
    simp only [refuse_congr h]
    rfl

end

/-- Two envelopes that agree in version, message id, route token, sender key, times and hop limit
    are treated alike, whatever the payload, its padding, the recipient's key and the signature:
    with the same answers the router asks the same, records the same and returns the same, but
    each envelope is forwarded as it came. -/
theorem router_blind (P : Primitives) (sha256 : Bytes → List Char) (config : RouterConfig P)
    (raw raw' : Json) (rawByteLength rawByteLength' : ℕ) (e e' : SabclEnvelope)
    (hopen : openEnvelope config raw rawByteLength = .ok e)
    (hopen' : openEnvelope config raw' rawByteLength' = .ok e') (hheader : SameHeader e e')
    (t : History RouterAnswer) :
    (∀ q, Asks (route sha256 config raw rawByteLength) t q →
      Asks (route sha256 config raw' rawByteLength') (t.map (carrying e').entry)
        ((carrying e').question q)) ∧
    ∀ outcome, Ends (route sha256 config raw rawByteLength) t (.ok outcome) →
      Ends (route sha256 config raw' rawByteLength') (t.map (carrying e').entry) (.ok outcome) := by
  rw [← apply_route hopen hopen' hheader]
  constructor
  · rintro q ⟨next, h⟩
    exact ⟨_, (carrying e').leads h⟩
  · intro outcome h
    exact (carrying e').leads h

/-! ## Between a client and a recipient -/

/-- The router's reply as its caller sees it. -/
def RouterOutcome.fetched (outcome : RouterOutcome) : Fetched :=
  .answered (decide (200 ≤ outcome.status ∧ outcome.status < 300)) outcome.body

theorem extractErrorCode_toSafeResponse : extractErrorCode (toSafeResponse code) = some code := by
  cases code <;> rfl

theorem statusForCode_not_ok : ¬ (200 ≤ statusForCode code ∧ statusForCode code < 300) := by
  cases code <;> decide

section
variable {P : Primitives} (call : SabclCall)

theorem finish_refused (code : SabclErrorCode) :
    call.finish P (RouterOutcome.fetched { status := statusForCode code
                                           body := toSafeResponse code }) = fail code := by
  simp only [RouterOutcome.fetched, statusForCode_not_ok, decide_false, SabclCall.finish,
    extractErrorCode_toSafeResponse, Option.getD_some]

/-- A reply that the schema accepts reads the same after the router has parsed it. -/
theorem finish_relayed {reply : Json} {response : SabclResponseEnvelope}
    (h : sabclResponseEnvelopeSchema reply = some response) :
    call.finish P (RouterOutcome.fetched { status := 200, body := response.toJson }) =
      call.finish P (.answered true reply) := by
  have hagain := (valid_of_sabclResponseEnvelopeSchema h).schema
  have hok : RouterOutcome.fetched { status := 200, body := response.toJson } =
      .answered true response.toJson := rfl
  simp only [hok, SabclCall.finish, h, hagain]

/-- What a client makes of a reply that the router refuses to relay. -/
theorem finish_unrelayed {fetched : Fetched} {thrown : Thrown} (h : relay fetched = .error thrown) :
    call.finish P fetched = fail (toSabclError thrown .SABCL_MALFORMED).code ∨
      (toSabclError thrown .SABCL_MALFORMED).code = .SABCL_RECIPIENT_UNAVAILABLE ∧
        ∃ reply, fetched = .answered true reply ∧ sabclResponseEnvelopeSchema reply = none := by
  unfold relay at h
  split at h
  · cases h
    exact .inl rfl
  · cases h
    exact .inl rfl
  next reply =>
    split at h
    next hschema =>
      cases h
      exact .inr ⟨rfl, reply, rfl, hschema⟩
    · cases h

end

/-- What a client makes of the router's reply is what it would have made of the recipient's, but
    for a reply that is no response envelope, which counts as none. Without a recipient's reply
    it throws the code that the router recorded. -/
theorem router_transparent (P : Primitives) (sha256 : Bytes → List Char) (config : RouterConfig P)
    (raw : Json) (rawByteLength : ℕ) (t : History RouterAnswer) (outcome : RouterOutcome)
    (h : Ends (route sha256 config raw rawByteLength) t (.ok outcome)) (call : SabclCall) :
    (∀ fetched ∈ t.filterMap replied,
      call.finish P outcome.fetched = call.finish P fetched ∨
        call.finish P outcome.fetched = fail .SABCL_RECIPIENT_UNAVAILABLE ∧
          ∃ reply, fetched = .answered true reply ∧ sabclResponseEnvelopeSchema reply = none) ∧
    (t.filterMap replied = [] → ∃ code t' record, call.finish P outcome.fetched = fail code ∧
      t = t' ++ [⟨.audit record, ()⟩] ∧ record.reason = some code ∧
      record.event = eventForCode code) := by
  cases settled h with
  | accepted envelope now rate route reply response hadmits hroute hreply =>
    refine ⟨?_, by simp [approach, replied]⟩
    intro fetched hfetched
    obtain rfl : .answered true reply = fetched := by
      simpa [approach, replied] using hfetched
    exact .inl (finish_relayed call hreply)
  | refused t envelope thrown hclean hreplies =>
    refine ⟨?_, fun _ => ⟨_, t, _, finish_refused call _, rfl, rfl, rfl⟩⟩
    intro fetched hfetched
    rw [List.filterMap_append, List.mem_append] at hfetched
    rcases hfetched with hfetched | hfetched
    · rw [finish_refused]
      rcases finish_unrelayed (P := P) call (hreplies fetched hfetched) with heq | ⟨hcode, hreply⟩
      · exact .inl heq.symm
      · exact .inr ⟨by rw [hcode], hreply⟩
    · simp [replied] at hfetched

section
variable {P : Primitives} {options : SabclClientOptions} {send : SabclSendOptions} {sealedAt : ℕ}
  {random : SealRandomness} {call : SabclCall}

/-- What the router sees of a request that a client has sealed. -/
theorem start_header (h : options.start P send sealedAt random = .ok call) :
    deriveRouteToken P options.routeSecret send.routeId = .ok call.envelope.rt ∧
      call.envelope.skid = options.keyring.own.keyId ∧ call.envelope.iat = sealedAt ∧
      call.envelope.exp = sealedAt + options.ttlSeconds ∧
      options.ttlSeconds ≤ SABCL_MAX_TTL_SECONDS ∧ 0 < call.envelope.hl ∧
      sabclEnvelopeSchema call.envelope.toJson = some call.envelope := by
  unfold SabclClientOptions.start at h
  obtain ⟨recipient, -, h⟩ := bind_ok.mp h
  obtain ⟨token, htoken, h⟩ := bind_ok.mp h
  obtain ⟨⟨envelope, secret⟩, hseal, h⟩ := bind_ok.mp h
  cases h
  have hhops : 0 < options.hopLimit := by
    unfold sealRequest at hseal
    obtain ⟨_, _, hseal⟩ := bind_ok.mp hseal
    obtain ⟨_, hhops, _⟩ := bind_ok.mp hseal
    have hhops := failIf_ok.mp hhops
    simp only at hhops
    omega
  obtain ⟨padded, bucket, -, httl, -, rfl, hschema⟩ := sealRequest_ok hseal
  exact ⟨htoken, rfl, rfl, rfl, httl, hhops, hschema⟩

end

/-- A request that a client has sealed for a capability goes to the destination that the router
    has for that capability and to no other, exactly when the route is in service, the request is
    fresh by the router's clock and its sender is known and within its rate. -/
theorem capability_delivered (P : Primitives) (sha256 : Bytes → List Char)
    (options : SabclClientOptions) (config : RouterConfig P) (send : SabclSendOptions)
    (sealedAt : ℕ) (random : SealRandomness) (call : SabclCall) (capability : SabclRoute)
    (hsecret : config.routeSecret = options.routeSecret)
    (hstart : options.start P send sealedAt random = .ok call)
    (hcapability : capability ∈ config.routes.routes) (hid : capability.routeId = send.routeId)
    (rawByteLength : ℕ) (t : History RouterAnswer) (destination : String) :
    Asks (route sha256 config call.envelope.toJson rawByteLength) t
        (.post destination call.envelope) ↔
      capability.revoked = false ∧ destination = capability.destination ∧
        rawByteLength ≤ config.maxEnvelopeBytes ∧ ∃ now rate,
        t = approach call.envelope now rate ∧ sealedAt ≤ now + SABCL_CLOCK_SKEW_SECONDS ∧
        now ≤ sealedAt + options.ttlSeconds ∧
        (∃ peer, config.keyring.peer options.keyring.own.keyId now = .ok peer) ∧
        rate ≤ config.rateLimitPerMinute := by
  obtain ⟨htoken, hskid, hiat, hexp, httl, hhops, hschema⟩ := start_header hstart
  obtain ⟨⟨token, r⟩, hentry, rfl⟩ := List.mem_map.mp hcapability
  have hentry : (call.envelope.rt, r) ∈ config.routes.byToken := by
    have hderived := config.routes.derived _ hentry
    rw [hsecret, hid, htoken] at hderived
    rw [Except.ok.inj hderived]
    exact hentry
  rw [asks_route_post]
  constructor
  · rintro ⟨now, rate, route, hadmits, rfl, hroute, rfl⟩
    obtain ⟨hmem, hlive⟩ := (config.routes.resolve_entry hadmits.token_ne).mp hroute
    obtain rfl := config.routes.eq_of_token hmem hentry
    refine ⟨hlive, rfl, hadmits.size, now, rate, rfl, hiat ▸ hadmits.issued,
      hexp ▸ hadmits.unexpired, hskid ▸ hadmits.sender, hadmits.rate⟩
  · rintro ⟨hlive, rfl, hsize, now, rate, rfl, hissued, hunexpired, hsender, hrate⟩
    have hadmits : Admits config call.envelope.toJson rawByteLength call.envelope now rate :=
      { size := hsize, schema := hschema, unexpired := hexp ▸ hunexpired, issued := hiat ▸ hissued,
        lifetime := by omega, sender := hskid ▸ hsender, hops := hhops, rate := hrate }
    exact ⟨now, rate, r, hadmits, rfl,
      (config.routes.resolve_entry hadmits.token_ne).mpr ⟨hentry, hlive⟩, rfl⟩

/-! ## A router in front of the Ledger -/

def ledgerRoute : SabclRoute where
  routeId := "ledger.accounts"
  service := "ledger"
  destination := "http://127.0.0.1:4102"
  revoked := false

def ledgerRouter : RouterConfig queryPrimitives where
  maxEnvelopeBytes := SABCL_MAX_ENVELOPE_BYTES
  keyring := ledgerKeyring
  rateLimitPerMinute := 600
  routeSecret := plainKey 9
  routes := { byToken := [(accountsToken balancePayload balanceText, ledgerRoute)],
              derived := by
                intro e he
                rw [List.mem_singleton.mp he]
                decide +kernel
              distinct := List.nodup_singleton _ }

/-- A request of the Gateway with any ciphertext. -/
def gatewayEnvelope (ct : String) : SabclEnvelope where
  v := SABCL_PROTOCOL_VERSION
  mid := "bWVzc2FnZQ"
  rt := accountsToken balancePayload balanceText
  skid := "gateway.v1"
  rkid := "ledger.v1"
  epk := "a2V5"
  iat := 1000
  exp := 1030
  n := "bm9uY2U"
  hl := 2
  pad := 512
  ct := ct
  tag := "dGFn"
  sig := "c2ln"

theorem resolve_ledger (ct : String) :
    resolve ledgerRouter.routes.byToken (gatewayEnvelope ct).rt = .ok ledgerRoute := by
  have htoken : accountsToken balancePayload balanceText ≠ "" := by decide +kernel
  exact (ledgerRouter.routes.resolve_entry htoken).mpr ⟨List.mem_singleton_self _, rfl⟩

theorem ok_of_toOption {α : Type} {x : Except Thrown α} {a : α} (h : x.toOption = some a) :
    x = .ok a := by
  cases x with
  | error e => cases h
  | ok b => exact congrArg _ (Option.some.inj h)

/-- The router forwards one of two payloads under a header as it does the other. -/
theorem router_blind_payload :
    Asks (route (fun _ => []) ledgerRouter (gatewayEnvelope "cGF5").toJson 700)
      (approach (gatewayEnvelope "cGF5") 1005 1)
      (.post "http://127.0.0.1:4102" (gatewayEnvelope "cGF5")) := by
  have hopen : openEnvelope ledgerRouter (gatewayEnvelope "cXVlcnk").toJson 700 =
      .ok (gatewayEnvelope "cXVlcnk") := ok_of_toOption (by decide +kernel)
  have hopen' : openEnvelope ledgerRouter (gatewayEnvelope "cGF5").toJson 700 =
      .ok (gatewayEnvelope "cGF5") := ok_of_toOption (by decide +kernel)
  obtain ⟨hsize, hschema⟩ := openEnvelope_ok.mp hopen
  have hquery : Asks (route (fun _ => []) ledgerRouter (gatewayEnvelope "cXVlcnk").toJson 700)
      (approach (gatewayEnvelope "cXVlcnk") 1005 1)
      (.post "http://127.0.0.1:4102" (gatewayEnvelope "cXVlcnk")) :=
    asks_route_post.mpr ⟨1005, 1, ledgerRoute,
      ⟨hsize, hschema, by decide, by decide, by decide, ⟨publicIdentity gatewayIdentity, rfl⟩,
        by decide, by decide⟩, rfl, resolve_ledger _, rfl⟩
  exact (router_blind _ (fun _ => []) ledgerRouter _ _ _ _ _ _ hopen hopen'
    ⟨rfl, rfl, rfl, rfl, rfl, rfl, rfl⟩ _).1 _ hquery

/-- The Gateway's query for a balance goes to the Ledger. -/
theorem capability_delivered_query :
    ∃ call, gatewayClient.start queryPrimitives balanceQuery 1000 queryRandomness = .ok call ∧
      Asks (route (fun _ => []) ledgerRouter call.envelope.toJson 700)
        (approach call.envelope 1005 1) (.post "http://127.0.0.1:4102" call.envelope) := by
  cases hstart : gatewayClient.start queryPrimitives balanceQuery 1000 queryRandomness with
  | error thrown =>
    have hok : (gatewayClient.start queryPrimitives balanceQuery 1000
      queryRandomness).toOption.isSome = true := by decide +kernel
    rw [hstart] at hok
    cases hok
  | ok call =>
    refine ⟨call, rfl, ?_⟩
    rw [capability_delivered _ (fun _ => []) gatewayClient ledgerRouter balanceQuery 1000
      queryRandomness call ledgerRoute rfl hstart (List.mem_singleton_self _) rfl]
    exact ⟨rfl, rfl, by decide, 1005, 1, rfl, by decide, by decide,
      ⟨publicIdentity gatewayIdentity, rfl⟩, by decide⟩

/-- A reply of the Ledger with any ciphertext. -/
def ledgerReply (ct : String) : SabclResponseEnvelope where
  v := SABCL_PROTOCOL_VERSION
  cid := "bWVzc2FnZQ"
  skid := "ledger.v1"
  n := "bm9uY2U"
  pad := 512
  ct := ct
  tag := "dGFn"
  sig := "c2ln"

/-- A reply of the Ledger reaches every client as it is. -/
theorem router_transparent_reply :
    let outcome : RouterOutcome := { status := 200, body := (ledgerReply "cmVwbHk").toJson }
    (∃ t, Ends (route (fun _ => []) ledgerRouter (gatewayEnvelope "cXVlcnk").toJson 700) t
      (.ok outcome)) ∧
    ∀ call : SabclCall, call.finish queryPrimitives outcome.fetched =
      call.finish queryPrimitives (.answered true (ledgerReply "cmVwbHk").toJson) := by
  have hopen : openEnvelope ledgerRouter (gatewayEnvelope "cXVlcnk").toJson 700 =
      .ok (gatewayEnvelope "cXVlcnk") := ok_of_toOption (by decide +kernel)
  have hreply : sabclResponseEnvelopeSchema (ledgerReply "cmVwbHk").toJson =
      some (ledgerReply "cmVwbHk") := by decide +kernel
  have hcheck : checkHeader ledgerRouter (gatewayEnvelope "cXVlcnk") 1005 = .ok () :=
    checkHeader_ok.mpr ⟨by decide, by decide, by decide,
      ⟨publicIdentity gatewayIdentity, rfl⟩, by decide⟩
  have hrelay := relay_ok.mpr ⟨_, _, rfl, hreply, rfl⟩
  have haccept : Ends (accept (fun _ => []) ledgerRouter (gatewayEnvelope "cXVlcnk")) _ _ :=
    ends_accept_ok rfl hcheck (show 1 ≤ ledgerRouter.rateLimitPerMinute by decide)
      (resolve_ledger _) hrelay
  have hends := ends_route.mpr (.inr ⟨_, hopen, .inl ⟨_, haccept, rfl⟩⟩)
  refine ⟨⟨_, hends⟩, fun call => ?_⟩
  have htransparent := router_transparent _ _ _ _ _ _ _ hends call
  rcases htransparent.1 (.answered true (ledgerReply "cmVwbHk").toJson)
    (by simp [approach, replied]) with heq | ⟨-, _, heq, hnone⟩
  · exact heq
  · cases heq
    cases hnone.symm.trans hreply

end AegisShield.Sabcl.Router
