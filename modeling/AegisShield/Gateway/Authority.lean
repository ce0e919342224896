import AegisShield.Gateway.Controllers

/-!
# On whose authority the Gateway acts

What the history of a handler says when a message goes out to Payments or to the Ledger. The
services, the router and the browser may answer and send anything.

Results:
* `licensed_serve`: in every run of every handler, every question is licensed by the answers
  before it.
* `messages_authorised`: a message acts for the user of the session that Identity answered for
  the session cookie, and one that moves money follows a PIN that Identity accepted for it.
* `transport_confined`: with SABCL in strict mode nothing goes out in the clear.
* `replies_checked`: a browser gets only what the contract of its route admits.
-/

namespace AegisShield.Gateway

open Common Sabcl Payments Interaction

/-! ## What a history says -/

/-- A message was answered with a success, over either transport. -/
def Succeeded (message : ServiceMessage) (h : Asked) : Prop :=
  (∃ response : SabclInnerResponse, response.status < 400 ∧
    (⟨.sabcl message, Except.ok response⟩ : Sigma Answer) ∈ h) ∨
  ∃ status body, isOk status = true ∧
    (⟨.direct message, HttpAnswer.answered status body⟩ : Sigma Answer) ∈ h

/-- Identity accepted the PIN for the session. -/
def SteppedUp (sessionId pin : String) (h : Asked) : Prop :=
  ∃ status body, isOk status = true ∧
    (⟨.identity transferStepUpEndpoint .POST sessionId (pinBody pin),
      HttpAnswer.answered status body⟩ : Sigma Answer) ∈ h

/-- Risk answered that no control stops a transfer of the customer. -/
def ControlsAllow (customerId sessionId correlationId : String) (h : Asked) : Prop :=
  ∃ status body, isOk status = true ∧ allows body = true ∧
    (⟨.risk "/internal/v1/controls/check" (checkBody "TRANSFER_CONFIRMATION"
      (confirmationScopes customerId sessionId) correlationId),
      HttpAnswer.answered status body⟩ : Sigma Answer) ∈ h

/-- Risk assessed the transfer and allowed it. -/
def AssessmentAllows (zod : Zod) (customerId sessionId correlationId : String) (h : Asked) : Prop :=
  ∃ evaluationId occurredAt status body assessment, isOk status = true ∧
    parseAssessment zod body = some assessment ∧
    assessment.decision ∈ ["ALLOW", "ALLOW_WITH_MONITORING"] ∧
    (⟨.risk "/internal/v1/assessments/evaluate" (evaluationBody "TRANSFER_CONFIRMATION" customerId
      sessionId evaluationId occurredAt correlationId),
      HttpAnswer.answered status body⟩ : Sigma Answer) ∈ h

section Licence

variable (zod : Zod) (config : GatewayConfig) (request : RequestContext)

/-- The customer is the user of the session that Identity answered for the session cookie. -/
structure Identified (sessionId customerId : String) (h : Asked) : Prop where
  cookie : readCookie request.cookie config.sessionCookieName = some sessionId
  present : sessionId ≠ ""
  answered : ∃ status body, isOk status = true ∧ sessionUser zod body = some customerId ∧
    (⟨.identity sessionEndpoint .GET sessionId none, HttpAnswer.answered status body⟩ :
      Sigma Answer) ∈ h

/-- The header repeats the CSRF cookie. -/
def CsrfChecked : Prop := ∃ token, DoubleSubmitted request config.csrfCookieName token

end Licence

/-- The customer in the path of a call. -/
def GatewayCall.customer : GatewayCall → Option String
  | .transfers customerId _ | .transfer customerId _ | .customerAccounts customerId =>
    some customerId
  | _ => none

/-- The calls that make Payments move money after the Gateway has had the PIN checked. A USSD
    call is not one of them: the PIN is a step of the menu of Payments, and the message carries
    the text that the browser sent. -/
def GatewayCall.moves : GatewayCall → Bool
  | .confirm | .qrRedeem | .agentCashConfirm => true
  | _ => false

/-- Nothing in a message names another customer. The body of a USSD simulation is the browser's. -/
structure ActsFor (customerId : String) (message : ServiceMessage) : Prop where
  header : ∀ id, message.customerId = some id → id = customerId
  path : ∀ id, message.call.customer = some id → id = customerId
  body : message.call = .ussdSimulate ∨
    ∀ name ∈ ["senderCustomerId", "customerId", "agentId"], ∀ value,
      dig (message.body.getD .undefined) [name] = value → value = .undefined ∨
        value = .string customerId

section Licence

variable (zod : Zod) (config : GatewayConfig) (request : RequestContext)

/-- What a message that moves money rests on: the body and the idempotency key of the request, a
    PIN that Identity accepted for the session, and for a transfer the answers of Risk and the
    authorisation of its intent. -/
structure Confirms (data : TransferConfirmationRequest) (sessionId customerId : String)
    (message : ServiceMessage) (h : Asked) : Prop where
  parsed : transferConfirmationRequestSchema request.body = some data
  body : ∃ actor ∈ ["senderCustomerId", "agentId"], ∃ key, request.idempotencyKey = some key ∧
    idempotencyKeySchema key = true ∧
    message.body = some (confirmationBody actor customerId data.intentToken key)
  stepUp : SteppedUp sessionId data.pin h
  controls : message.call = .confirm → ControlsAllow customerId sessionId request.correlationId h
  assessment : message.call = .confirm →
    AssessmentAllows zod customerId sessionId request.correlationId h
  intent : message.call = .confirm → Succeeded (Gateway.message request
    (.authorize data.intentToken) (some (.object [])) customerId) h

/-- The authority for a message: none for a USSD webhook; else the session, the CSRF token where
    something changes, and `Confirms` where money moves. -/
def Authorised (h : Asked) (message : ServiceMessage) : Prop :=
  (message.call = .ussdWebhook ∧ message.customerId = none) ∨
  ∃ sessionId customerId, Identified zod config request sessionId customerId h ∧
    ActsFor customerId message ∧
    (message.call.method = .POST → CsrfChecked config request) ∧
    (message.call.moves = true →
      ∃ data, Confirms zod request data sessionId customerId message h)

/-- What may be asked after a history. Plain HTTP needs SABCL to be off, or to have just failed
    with the same message in compatible mode; an assessment with the step-up verified needs the
    step-up. -/
def Licensed (h : Asked) : Outgoing → Prop
  | .sabcl message => config.sabclMode ≠ .off ∧ Authorised zod config request h message
  | .direct message => Authorised zod config request h message ∧
    (config.sabclMode = .off ∨ config.sabclMode = .compatible ∧ ∃ error : SabclError,
      h.getLast? = some ⟨.sabcl message, Except.error (Sabcl.Thrown.sabcl error)⟩)
  | .risk path _ => path = "/internal/v1/assessments/evaluate" → ∃ sessionId customerId pin,
    Identified zod config request sessionId customerId h ∧ SteppedUp sessionId pin h
  | _ => True

end Licence

/-! ## What a history says, it says of every longer one -/

section Stable

variable {zod : Zod} {config : GatewayConfig} {request : RequestContext} {h : Asked}
  {sessionId customerId pin correlationId : String} {m : ServiceMessage}

theorem Succeeded.append (hm : Succeeded m h) (t : Asked) : Succeeded m (h ++ t) := by
  rcases hm with ⟨response, hstatus, hmem⟩ | ⟨status, body, hok, hmem⟩
  · exact .inl ⟨response, hstatus, List.mem_append_left t hmem⟩
  · exact .inr ⟨status, body, hok, List.mem_append_left t hmem⟩

theorem SteppedUp.append (hpin : SteppedUp sessionId pin h) (t : Asked) :
    SteppedUp sessionId pin (h ++ t) := by
  obtain ⟨status, body, hok, hmem⟩ := hpin
  exact ⟨status, body, hok, List.mem_append_left t hmem⟩

theorem ControlsAllow.append (hallow : ControlsAllow customerId sessionId correlationId h)
    (t : Asked) : ControlsAllow customerId sessionId correlationId (h ++ t) := by
  obtain ⟨status, body, hok, hallows, hmem⟩ := hallow
  exact ⟨status, body, hok, hallows, List.mem_append_left t hmem⟩

theorem AssessmentAllows.append (hallow : AssessmentAllows zod customerId sessionId correlationId h)
    (t : Asked) : AssessmentAllows zod customerId sessionId correlationId (h ++ t) := by
  obtain ⟨evaluationId, occurredAt, status, body, found, hok, hparse, hdecision, hmem⟩ := hallow
  exact ⟨evaluationId, occurredAt, status, body, found, hok, hparse, hdecision,
    List.mem_append_left t hmem⟩

theorem Identified.append (hid : Identified zod config request sessionId customerId h) (t : Asked) :
    Identified zod config request sessionId customerId (h ++ t) := by
  obtain ⟨hcookie, hpresent, status, body, hok, huser, hmem⟩ := hid
  exact ⟨hcookie, hpresent, status, body, hok, huser, List.mem_append_left t hmem⟩

theorem Confirms.append {data : TransferConfirmationRequest}
    (hconfirms : Confirms zod request data sessionId customerId m h) (t : Asked) :
    Confirms zod request data sessionId customerId m (h ++ t) where
  parsed := hconfirms.parsed
  body := hconfirms.body
  stepUp := hconfirms.stepUp.append t
  controls hcall := (hconfirms.controls hcall).append t
  assessment hcall := (hconfirms.assessment hcall).append t
  intent hcall := (hconfirms.intent hcall).append t

theorem Authorised.append (hm : Authorised zod config request h m) (t : Asked) :
    Authorised zod config request (h ++ t) m := by
  rcases hm with hwebhook | ⟨sessionId, customerId, hid, hacts, hcsrf, hconfirms⟩
  · exact .inl hwebhook
  · refine .inr ⟨sessionId, customerId, hid.append t, hacts, hcsrf, fun hmoves => ?_⟩
    obtain ⟨data, hdata⟩ := hconfirms hmoves
    exact ⟨data, hdata.append t⟩

end Stable

/-! ## The clients -/

section Clients

variable {zod : Zod} {config : GatewayConfig} {request : RequestContext} {h : Asked}
  {m : ServiceMessage}

theorem wp_identityRequest (endpoint : String) (method : Method) (sessionId : String)
    (body : Option Json) :
    Wp (Licensed zod config request) (identityRequest endpoint method sessionId body)
      (fun response t => ∃ status, isOk status = true ∧
        (⟨.identity endpoint method sessionId body, HttpAnswer.answered status response⟩ :
          Sigma Answer) ∈ t) h := by
  unfold identityRequest ask
  rw [wp_bind, wp_query]
  refine ⟨trivial, fun answer => ?_⟩
  cases answer with
  | failed => trivial
  | answered status response =>
    by_cases hok : isOk status = true
    · simp only [hok, if_true, wp_pure]
      exact ⟨status, hok, List.mem_append_right h (List.mem_singleton.mpr rfl)⟩
    · simp only [hok, Bool.false_eq_true, if_false]
      trivial

theorem wp_riskRequest {path : String} {body : Json} (hlicence : Licensed zod config request h
    (.risk path body)) :
    Wp (Licensed zod config request) (riskRequest path body)
      (fun response t => ∃ status, isOk status = true ∧
        (⟨.risk path body, HttpAnswer.answered status response⟩ : Sigma Answer) ∈ t) h := by
  unfold riskRequest ask
  rw [wp_bind, wp_query]
  refine ⟨hlicence, fun answer => ?_⟩
  cases answer with
  | failed => trivial
  | answered status response =>
    by_cases hok : isOk status = true
    · simp only [hok, if_true, wp_pure]
      exact ⟨status, hok, List.mem_append_right h (List.mem_singleton.mpr rfl)⟩
    · simp only [hok, Bool.false_eq_true, if_false]
      split <;> trivial

theorem wp_acceptResponse {schema : Json → Bool} {failed : Bool} {status : ℕ} {body : Json}
    {post : Json → Asked → Prop}
    (hpost : failed = false → schema body = true → post body h) :
    Wp (Licensed zod config request) (acceptResponse m schema failed status body) post h := by
  unfold acceptResponse
  split
  · trivial
  · split
    next hfailed hschema =>
      exact hpost (by simpa using hfailed) hschema
    · trivial

theorem wp_requestDirect {schema : Json → Bool} (hlicence : Licensed zod config request h
    (.direct m)) :
    Wp (Licensed zod config request) (requestDirect m schema)
      (fun body t => schema body = true ∧ Succeeded m t) h := by
  unfold requestDirect ask
  rw [wp_bind, wp_query]
  refine ⟨hlicence, fun answer => ?_⟩
  cases answer with
  | failed => trivial
  | answered status body =>
    refine wp_acceptResponse fun hfailed hschema => ⟨hschema, .inr ⟨status, body, ?_, ?_⟩⟩
    · simpa using hfailed
    · exact List.mem_append_right h (List.mem_singleton.mpr rfl)

/-- An authorised message goes out, and what comes back passes its schema. -/
theorem wp_upstreamRequest {schema : Json → Bool} (hm : Authorised zod config request h m) :
    Wp (Licensed zod config request) (upstreamRequest config m schema)
      (fun body t => schema body = true ∧ Succeeded m t) h := by
  unfold upstreamRequest
  split
  next hoff =>
    exact wp_requestDirect ⟨hm, .inl hoff⟩
  next hon =>
    unfold requestThroughSabcl ask
    rw [wp_bind, wp_query]
    refine ⟨⟨hon, hm⟩, fun answer => ?_⟩
    cases answer with
    | ok response =>
      refine wp_acceptResponse fun hfailed hschema => ⟨hschema, .inl ⟨response, ?_, ?_⟩⟩
      · simpa using hfailed
      · exact List.mem_append_right h (List.mem_singleton.mpr rfl)
    | error error =>
      cases error with
      | runtime text => trivial
      | sabcl error =>
        by_cases hstrict : config.sabclMode = .strict
        · simp only [hstrict, if_true]
          trivial
        · simp only [hstrict, if_false]
          have hcompatible : config.sabclMode = .compatible := by
            cases hmode : config.sabclMode with
            | off => exact absurd hmode hon
            | compatible => rfl
            | strict => exact absurd hmode hstrict
          exact wp_requestDirect ⟨hm.append _, .inr ⟨hcompatible, error, List.getLast?_concat⟩⟩

theorem wp_cookieValue {name : String} {R : Asked → Outgoing → Prop}
    {post : String → Asked → Prop}
    (hpost : ∀ value, readCookie request.cookie name = some value → post value h) :
    Wp R (cookieValue request name) post h := by
  unfold cookieValue
  split
  next value hvalue =>
    exact hpost value hvalue
  · trivial

theorem wp_parse {α : Type} {parsed : Option α} {R : Asked → Outgoing → Prop}
    {post : α → Asked → Prop} (hpost : ∀ value, parsed = some value → post value h) :
    Wp R (parse parsed) post h := by
  unfold parse
  split
  next value =>
    exact hpost value rfl
  · trivial

theorem wp_parseJson {schema : Json → Bool} {body : Json} {R : Asked → Outgoing → Prop}
    {post : Json → Asked → Prop} (hpost : schema body = true → post body h) :
    Wp R (parseJson schema body) post h := by
  refine wp_parse fun value hvalue => ?_
  split at hvalue
  next hschema =>
    cases hvalue
    exact hpost hschema
  · cases hvalue

theorem wp_csrf {R : Asked → Outgoing → Prop} {post : String → Asked → Prop}
    (hpost : CsrfChecked config request → ∀ token, post token h) :
    Wp R (Interaction.lift (requireCsrfToken request config.csrfCookieName) : Handler String) post
      h := by
  rw [wp_lift]
  exact fun token hok => hpost ⟨token, requireCsrfToken_ok.mp hok⟩ token

theorem wp_requireIdempotencyKey {R : Asked → Outgoing → Prop} {post : String → Asked → Prop}
    (hpost : ∀ key, request.idempotencyKey = some key → idempotencyKeySchema key = true →
      post key h) :
    Wp R (requireIdempotencyKey request) post h := by
  unfold requireIdempotencyKey
  split
  next key hkey =>
    obtain ⟨hkey, hschema⟩ := Option.filter_eq_some_iff.mp hkey
    exact hpost key hkey hschema
  · trivial

theorem wp_requireSessionId {R : Asked → Outgoing → Prop} {post : String → Asked → Prop}
    {sessionId customerId : String} (hid : Identified zod config request sessionId customerId h)
    (hpost : post sessionId h) : Wp R (requireSessionId config request) post h := by
  unfold requireSessionId
  rw [wp_bind]
  refine wp_cookieValue fun value hvalue => ?_
  obtain rfl : sessionId = value := Option.some.inj (hid.cookie.symm.trans hvalue)
  rw [if_neg hid.present]
  exact hpost

/-- The customer of a request is the user of the session of its cookie. -/
theorem wp_resolve :
    Wp (Licensed zod config request) (resolve zod config request)
      (fun customerId t => ∃ sessionId, Identified zod config request sessionId customerId t)
      h := by
  unfold resolve
  rw [wp_bind]
  refine wp_cookieValue fun sessionId hcookie => ?_
  by_cases hempty : sessionId = ""
  · rw [if_pos hempty]
    trivial
  · rw [if_neg hempty, wp_bind]
    refine (wp_identityRequest sessionEndpoint .GET sessionId none).mono
      fun session t hsession => ?_
    obtain ⟨status, hok, hmem⟩ := hsession
    split
    next customerId huser =>
      exact ⟨sessionId, hcookie, hempty, status, session, hok, huser, hmem⟩
    · trivial

theorem wp_riskEmit {event : GatewayEvent} {correlationId : String} {post : Unit → Asked → Prop}
    (hpost : ∀ t, post () (h ++ t)) :
    Wp (Licensed zod config request) (riskEmit zod event correlationId) post h := by
  unfold riskEmit ask
  simp only [wp_bind, wp_query]
  refine ⟨trivial, fun eventId => ⟨trivial, fun sourceEventId => ⟨trivial, fun occurredAt => ?_⟩⟩⟩
  split
  · simp only [wp_bind, wp_query, wp_pure, List.append_assoc]
    exact ⟨trivial, fun _ => hpost _⟩
  · trivial

theorem wp_transferCsrf {customerId : String} {post : Unit → Asked → Prop}
    (hpost : CsrfChecked config request → post () h) :
    Wp (Licensed zod config request) (transferCsrf zod config request customerId) post h := by
  unfold transferCsrf
  split
  next token hok =>
    exact hpost ⟨token, requireCsrfToken_ok.mp hok⟩
  · rw [wp_bind]
    exact wp_riskEmit fun t => trivial

/-- Risk said whether controls allow the transfer. -/
theorem wp_riskCheck {customerId sessionId correlationId : String} :
    Wp (Licensed zod config request) (riskCheck zod "TRANSFER_CONFIRMATION"
      (confirmationScopes customerId sessionId) correlationId)
      (fun allowed t => allowed = true → ControlsAllow customerId sessionId correlationId t) h := by
  unfold riskCheck
  rw [wp_bind]
  refine (wp_riskRequest fun hpath => absurd hpath (by decide)).mono fun response t hresponse => ?_
  obtain ⟨status, hok, hmem⟩ := hresponse
  split
  · rw [wp_pure]
    exact fun hallows => ⟨status, response, hok, hallows, hmem⟩
  · trivial

/-- Risk assessed the transfer, after the step-up. -/
theorem wp_riskEvaluate {customerId sessionId pin correlationId : String}
    (hid : Identified zod config request sessionId customerId h)
    (hpin : SteppedUp sessionId pin h) :
    Wp (Licensed zod config request)
      (riskEvaluate zod "TRANSFER_CONFIRMATION" customerId sessionId correlationId)
      (fun assessment t => assessment.decision ∈ ["ALLOW", "ALLOW_WITH_MONITORING"] →
        AssessmentAllows zod customerId sessionId correlationId t) h := by
  unfold riskEvaluate ask
  simp only [wp_bind, wp_query]
  refine ⟨trivial, fun evaluationId => ⟨trivial, fun occurredAt => ?_⟩⟩
  rw [List.append_assoc]
  refine (wp_riskRequest fun _ =>
    ⟨sessionId, customerId, pin, hid.append _, hpin.append _⟩).mono fun response t hresponse => ?_
  obtain ⟨status, hok, hmem⟩ := hresponse
  split
  next assessment hparse =>
    rw [wp_pure]
    exact fun hdecision => ⟨evaluationId, occurredAt, status, response, assessment, hok, hparse,
      hdecision, hmem⟩
  · trivial

/-! ## The handlers -/

theorem wp_session {f : String → Handler Reply} {post : Reply → Asked → Prop}
    (hf : ∀ sessionId customerId t, Identified zod config request sessionId customerId t →
      Wp (Licensed zod config request) (f customerId) post t) :
    Wp (Licensed zod config request) (resolve zod config request >>= f) post h := by
  rw [wp_bind]
  refine wp_resolve.mono fun customerId t hid => ?_
  obtain ⟨sessionId, hid⟩ := hid
  exact hf sessionId customerId _ hid

theorem wp_message {schema : Json → Bool} {f : Json → Handler Reply} {post : Reply → Asked → Prop}
    (hm : Authorised zod config request h m)
    (hf : ∀ body t, schema body = true → Succeeded m (h ++ t) →
      Wp (Licensed zod config request) (f body) post (h ++ t)) :
    Wp (Licensed zod config request) (upstreamRequest config m schema >>= f) post h := by
  rw [wp_bind]
  exact (wp_upstreamRequest hm).mono fun body t hbody => hf body t hbody.1 hbody.2

/-- A body whose members name no other customer. -/
theorem names_only {customerId : String} {members : List (String × Json)}
    (hmembers : ∀ x ∈ members, x.1 ∈ ["senderCustomerId", "customerId", "agentId"] →
      x.2 = .string customerId) :
    ∀ name ∈ ["senderCustomerId", "customerId", "agentId"], ∀ value,
      dig ((some (Json.object members)).getD .undefined) [name] = value → value = .undefined ∨
        value = .string customerId := by
  intro name hname value hvalue
  have hdig : dig ((some (Json.object members)).getD .undefined) [name] =
      (Json.member members name).getD .undefined := rfl
  rw [hdig] at hvalue
  unfold Json.member at hvalue
  split at hvalue
  · exact .inl hvalue.symm
  · exact .inl hvalue.symm
  next found _ hfound =>
    obtain ⟨before, after, hmem, -⟩ := List.lookup_eq_some_iff.mp hfound
    refine .inr (hvalue.symm.trans (hmembers (name, found) ?_ hname))
    rw [hmem]
    exact List.mem_append_right before List.mem_cons_self

/-- A read names the customer of the session. -/
theorem actsFor_read {customerId : String} {call : GatewayCall} {header : Option String}
    (hheader : ∀ id, header = some id → id = customerId)
    (hpath : ∀ id, call.customer = some id → id = customerId) :
    ActsFor customerId (message request call none header) :=
  ⟨hheader, hpath, .inr fun _ _ _ hvalue => .inl hvalue.symm⟩

/-- A message whose body the Gateway has built names the customer of the session. -/
theorem actsFor_body {customerId : String} {call : GatewayCall} {members : List (String × Json)}
    (hpath : call.customer = none) (hmembers : ∀ x ∈ members,
      x.1 ∈ ["senderCustomerId", "customerId", "agentId"] → x.2 = .string customerId) :
    ActsFor customerId (message request call (some (.object members))) :=
  ⟨nofun, fun _ hid => absurd (hpath.symm.trans hid) (by simp), .inr (names_only hmembers)⟩

theorem authorised_of_session {sessionId customerId : String} {call : GatewayCall}
    {body : Option Json} {header : Option String}
    (hid : Identified zod config request sessionId customerId h)
    (hacts : ActsFor customerId (message request call body header))
    (hcsrf : call.method = .POST → CsrfChecked config request) (hmoves : call.moves = false) :
    Authorised zod config request h (message request call body header) :=
  .inr ⟨sessionId, customerId, hid, hacts, hcsrf, fun h => absurd (hmoves.symm.trans h) (by decide)⟩

/-- What the browser gets was checked against the contract of the route. -/
def Checked (schema : Json → Bool) (reply : Reply) (_ : Asked) : Prop := schema reply.body = true

theorem wp_transferPolicy : Wp (Licensed zod config request) (transferPolicy zod config request)
    (Checked transferPolicySchema) h := by
  unfold transferPolicy
  refine wp_session fun sessionId customerId t hid => ?_
  have hacts : ActsFor customerId (message request .policy) := actsFor_read nofun nofun
  refine wp_message (authorised_of_session hid hacts nofun rfl) fun body u hbody _ => ?_
  exact hbody

theorem wp_transferPreview : Wp (Licensed zod config request) (transferPreview zod config request)
    (Checked (transferPreviewResponseSchema zod)) h := by
  unfold transferPreview
  refine wp_session fun sessionId customerId t hid => ?_
  rw [wp_bind]
  refine wp_transferCsrf fun hcsrf => ?_
  rw [wp_bind]
  refine wp_parse fun data hdata => ?_
  have hacts : ActsFor customerId
      (message request .preview (some (intentBody data customerId))) := by
    refine actsFor_body rfl ?_
    simp only [List.forall_mem_cons]
    simp
  refine wp_message (authorised_of_session hid hacts (fun _ => hcsrf) rfl) fun body u hbody _ => ?_
  rw [wp_bind]
  exact wp_riskEmit fun v => hbody

/-- Where money moves: the body of the request, its idempotency key and the step-up. -/
theorem confirms_of_stepUp {sessionId customerId actor key : String} {call : GatewayCall}
    {data : TransferConfirmationRequest}
    (hdata : transferConfirmationRequestSchema request.body = some data)
    (hkey : request.idempotencyKey = some key) (hformat : idempotencyKeySchema key = true)
    (hactor : actor ∈ ["senderCustomerId", "agentId"]) (hpin : SteppedUp sessionId data.pin h)
    (hcall : call = .confirm →
      ControlsAllow customerId sessionId request.correlationId h ∧
      AssessmentAllows zod customerId sessionId request.correlationId h ∧
      Succeeded (message request (.authorize data.intentToken) (some (.object [])) customerId) h) :
    Confirms zod request data sessionId customerId
      (message request call (some (confirmationBody actor customerId data.intentToken key))) h where
  parsed := hdata
  body := ⟨actor, hactor, key, hkey, hformat, rfl⟩
  stepUp := hpin
  controls h := (hcall h).1
  assessment h := (hcall h).2.1
  intent h := (hcall h).2.2

theorem actsFor_confirmation {customerId actor intentToken key : String} {call : GatewayCall}
    (hpath : call.customer = none) :
    ActsFor customerId
      (message request call (some (confirmationBody actor customerId intentToken key))) := by
  refine actsFor_body hpath ?_
  simp only [List.forall_mem_cons]
  simp

theorem wp_transferConfirm : Wp (Licensed zod config request) (transferConfirm zod config request)
    (Checked (transferDetailSchema zod)) h := by
  unfold transferConfirm
  refine wp_session fun sessionId customerId t hid => ?_
  rw [wp_bind]
  refine wp_transferCsrf fun hcsrf => ?_
  rw [wp_bind]
  refine wp_parse fun data hdata => ?_
  rw [wp_bind]
  refine wp_requireIdempotencyKey fun key hkey hformat => ?_
  rw [wp_bind]
  refine wp_requireSessionId hid ?_
  rw [wp_bind]
  refine wp_riskCheck.mono fun allowed u hcontrols => ?_
  cases allowed with
  | false =>
    simp only [Bool.not_false, if_true, wp_bind]
    exact wp_riskEmit fun v => trivial
  | true =>
    replace hcontrols := hcontrols rfl
    simp only [Bool.not_true, Bool.false_eq_true, if_false]
    rw [wp_bind]
    refine (wp_identityRequest transferStepUpEndpoint .POST sessionId (pinBody data.pin)).mono
      fun response v hpin => ?_
    replace hpin : SteppedUp sessionId data.pin (t ++ u ++ v) := by
      obtain ⟨status, hok, hmem⟩ := hpin
      exact ⟨status, response, hok, hmem⟩
    rw [wp_bind]
    refine (wp_riskEvaluate ((hid.append u).append v) hpin).mono fun assessment w hassessment => ?_
    split
    · rw [wp_bind]
      exact wp_riskEmit fun x => trivial
    next hdecision =>
      replace hassessment := hassessment (not_not.mp hdecision)
      have hid' := ((hid.append u).append v).append w
      have hauthorize : ActsFor customerId (message request (.authorize data.intentToken)
          (some (.object [])) customerId) :=
        ⟨fun id h => (Option.some.inj h).symm, by rintro id ⟨⟩, .inr (names_only (by simp))⟩
      refine wp_message (authorised_of_session hid' hauthorize (fun _ => hcsrf) rfl)
        fun body x _ hintent => ?_
      rw [wp_bind]
      refine wp_parseJson fun _ => ?_
      have hconfirms : Confirms zod request data sessionId customerId (message request .confirm
          (some (confirmationBody "senderCustomerId" customerId data.intentToken key))) _ :=
        confirms_of_stepUp hdata hkey hformat (by decide) ((hpin.append w).append x)
          fun _ => ⟨((hcontrols.append v).append w).append x, hassessment.append x, hintent⟩
      refine wp_message (.inr ⟨sessionId, customerId, hid'.append x, actsFor_confirmation rfl,
        fun _ => hcsrf, fun _ => ⟨data, hconfirms⟩⟩) fun result y hresult _ => ?_
      rw [wp_bind]
      exact wp_riskEmit fun z => hresult

theorem wp_transferList : Wp (Licensed zod config request) (transferList zod config request)
    (Checked (transferListResponseSchema zod)) h := by
  unfold transferList
  refine wp_session fun sessionId customerId t hid => ?_
  rw [wp_bind]
  refine wp_parse fun query hquery => ?_
  have hacts : ActsFor customerId (message request (.transfers customerId query)) :=
    actsFor_read nofun fun id hid => (Option.some.inj hid).symm
  exact wp_message (authorised_of_session hid hacts nofun rfl) fun body u hbody _ => hbody

theorem wp_transferDetail {transferId : String} :
    Wp (Licensed zod config request) (transferDetail zod config request transferId)
      (Checked (transferDetailSchema zod)) h := by
  unfold transferDetail
  refine wp_session fun sessionId customerId t hid => ?_
  rw [wp_bind]
  refine wp_parse fun id hid' => ?_
  have hacts : ActsFor customerId (message request (.transfer customerId id)) :=
    actsFor_read nofun fun id hid => (Option.some.inj hid).symm
  exact wp_message (authorised_of_session hid hacts nofun rfl) fun body u hbody _ => hbody

/-- A session and the CSRF token, as all channels but the webhook want them. -/
theorem wp_channel {f : String → Handler Reply} {post : Reply → Asked → Prop}
    (hf : ∀ sessionId customerId t, Identified zod config request sessionId customerId t →
      CsrfChecked config request → Wp (Licensed zod config request) (f customerId) post t) :
    Wp (Licensed zod config request) (resolve zod config request >>= fun customerId =>
      Interaction.lift (requireCsrfToken request config.csrfCookieName) >>= fun _ =>
        f customerId) post h := by
  refine wp_session fun sessionId customerId t hid => ?_
  rw [wp_bind]
  exact wp_csrf fun hcsrf _ => hf sessionId customerId t hid hcsrf

theorem wp_issueQr {sessionId customerId accountId type currency : String}
    {amountMinor purpose : Option String}
    (hid : Identified zod config request sessionId customerId h)
    (hcsrf : CsrfChecked config request) :
    Wp (Licensed zod config request) (issueQr zod config request
      (qrIssueBody customerId accountId type currency amountMinor purpose))
      (Checked (qrIssueResponseSchema zod)) h := by
  unfold issueQr
  rw [wp_bind]
  refine wp_parseJson fun _ => ?_
  have hacts : ActsFor customerId (message request .qrIssue
      (some (qrIssueBody customerId accountId type currency amountMinor purpose))) := by
    refine actsFor_body rfl ?_
    intro x hx
    cases amountMinor <;> cases purpose <;>
      simp only [textField, Option.map, Option.toList, List.nil_append, List.cons_append,
        List.append_nil, List.mem_cons, List.not_mem_nil, or_false] at hx <;>
      rcases hx with rfl | rfl | rfl | rfl | rfl | rfl <;> simp
  exact wp_message (authorised_of_session hid hacts (fun _ => hcsrf) rfl)
    fun body u hbody _ => hbody

theorem wp_qrReceive : Wp (Licensed zod config request) (qrReceive zod config request)
    (Checked (qrIssueResponseSchema zod)) h := by
  unfold qrReceive
  refine wp_channel fun sessionId customerId t hid hcsrf => ?_
  rw [wp_bind]
  exact wp_parse fun accountId _ => wp_issueQr hid hcsrf

theorem wp_qrDynamic : Wp (Licensed zod config request) (qrDynamic zod config request)
    (Checked (qrIssueResponseSchema zod)) h := by
  unfold qrDynamic
  refine wp_channel fun sessionId customerId t hid hcsrf => ?_
  rw [wp_bind]
  exact wp_parse fun data _ => wp_issueQr hid hcsrf

theorem wp_qrPreview : Wp (Licensed zod config request) (qrPreview zod config request)
    (Checked (transferPreviewResponseSchema zod)) h := by
  unfold qrPreview
  refine wp_channel fun sessionId customerId t hid hcsrf => ?_
  rw [wp_bind]
  refine wp_parse fun data _ => ?_
  refine wp_message (authorised_of_session hid (actsFor_body rfl ?_) (fun _ => hcsrf) rfl)
    fun body u hbody _ => hbody
  simp only [List.forall_mem_cons]
  simp

theorem wp_channelConfirm {call : GatewayCall} {actor : String} {schema : Json → Bool}
    (hcall : call ≠ .confirm) (hpath : call.customer = none)
    (hactor : actor ∈ ["senderCustomerId", "agentId"]) :
    Wp (Licensed zod config request) (channelConfirm zod config request call actor schema)
      (Checked schema) h := by
  unfold channelConfirm
  refine wp_channel fun sessionId customerId t hid hcsrf => ?_
  rw [wp_bind]
  refine wp_parse fun data hdata => ?_
  rw [wp_bind]
  refine wp_requireIdempotencyKey fun key hkey hformat => ?_
  rw [wp_bind]
  refine wp_requireSessionId hid ?_
  rw [wp_bind]
  refine (wp_identityRequest transferStepUpEndpoint .POST sessionId (pinBody data.pin)).mono
    fun response u hpin => ?_
  obtain ⟨status, hok, hmem⟩ := hpin
  have hconfirms : Confirms zod request data sessionId customerId _ _ :=
    confirms_of_stepUp hdata hkey hformat hactor ⟨status, response, hok, hmem⟩
      fun h => absurd h hcall
  exact wp_message (.inr ⟨sessionId, customerId, hid.append u, actsFor_confirmation hpath,
    fun _ => hcsrf, fun _ => ⟨data, hconfirms⟩⟩) fun result v hresult _ => hresult

theorem wp_agentCashPreview {call : GatewayCall} (hmoves : call.moves = false)
    (hpath : call.customer = none) :
    Wp (Licensed zod config request) (agentCashPreview zod config request call)
      (Checked (agentCashPreviewResponseSchema zod)) h := by
  unfold agentCashPreview
  refine wp_channel fun sessionId agentId t hid hcsrf => ?_
  rw [wp_bind]
  refine wp_parse fun data _ => ?_
  refine wp_message (authorised_of_session hid (actsFor_body hpath ?_) (fun _ => hcsrf) hmoves)
    fun body u hbody _ => hbody
  simp only [List.forall_mem_cons]
  simp

theorem wp_ussdSimulate : Wp (Licensed zod config request) (ussdSimulate zod config request)
    (Checked fun _ => true) h := by
  unfold ussdSimulate
  refine wp_channel fun sessionId customerId t hid hcsrf => ?_
  have hacts : ActsFor customerId
      (message request .ussdSimulate (some request.body) customerId) :=
    ⟨fun id h => (Option.some.inj h).symm, nofun, .inl rfl⟩
  exact wp_message (authorised_of_session hid hacts (fun _ => hcsrf) rfl)
    fun body u hbody _ => hbody

theorem wp_ussdWebhook : Wp (Licensed zod config request) (ussdWebhook config request)
    (Checked fun _ => true) h := by
  unfold ussdWebhook
  exact wp_message (.inl ⟨rfl, rfl⟩) fun body u hbody _ => hbody

theorem wp_accountList : Wp (Licensed zod config request) (accountList zod config request)
    (Checked (customerAccountListSchema zod)) h := by
  unfold accountList
  refine wp_session fun sessionId customerId t hid => ?_
  have hacts : ActsFor customerId (message request (.customerAccounts customerId)) :=
    actsFor_read nofun fun id hid => (Option.some.inj hid).symm
  exact wp_message (authorised_of_session hid hacts nofun rfl) fun body u hbody _ => hbody

/-- A member of what a strict schema accepts. -/
theorem dig_of_strict {fields : List (String × (Json → Bool))} {value : Json} {name : String}
    {p : Json → Bool} (h : strict fields value = true) (hname : (name, p) ∈ fields) :
    p (dig value [name]) = true := by
  cases value with
  | object members =>
    have hfield := List.all_eq_true.mp (Bool.and_eq_true_iff.mp h).2 (name, p) hname
    obtain ⟨found, hfound, hp⟩ := Option.any_eq_true _ _ |>.mp hfield
    have hdig : dig (.object members) [name] = found := by
      show (Json.member members name).getD .undefined = found
      rw [hfound]
      rfl
    rw [hdig]
    exact hp
  | _ => cases h

theorem wp_provisionDefault : Wp (Licensed zod config request) (provisionDefault zod config request)
    (Checked (customerAccountDetailSchema zod)) h := by
  unfold provisionDefault
  refine wp_channel fun sessionId customerId t hid hcsrf => ?_
  split
  · trivial
  · rw [wp_bind]
    refine wp_parseJson fun _ => ?_
    refine wp_message (authorised_of_session hid (actsFor_body rfl ?_) (fun _ => hcsrf) rfl)
      fun body u hbody _ => dig_of_strict hbody (by simp)
    simp only [List.forall_mem_cons]
    simp

/-- The reads of an account ask with the customer of the session. -/
theorem wp_readAccount {call : Handler GatewayCall} {schema : Json → Bool} {noStore : Bool}
    (hcall : ∀ (t : Asked) (post : GatewayCall → Asked → Prop), (∀ call : GatewayCall,
      call.customer = none → call.method = .GET → call.moves = false → post call t) →
      Wp (Licensed zod config request) call post t) :
    Wp (Licensed zod config request) (readAccount zod config request call schema noStore)
      (Checked schema) h := by
  unfold readAccount
  refine wp_session fun sessionId customerId t hid => ?_
  rw [wp_bind]
  refine hcall t _ fun call hpath hget hmoves => ?_
  have hacts : ActsFor customerId (message request call none customerId) :=
    actsFor_read (fun id h => (Option.some.inj h).symm)
      fun id h => absurd (hpath.symm.trans h) (by simp)
  exact wp_message (authorised_of_session hid hacts
    (fun hpost => absurd (hget.symm.trans hpost) (by decide)) hmoves) fun body u hbody _ => hbody

theorem wp_requireAccountId {value : String} {R : Asked → Outgoing → Prop}
    {post : String → Asked → Prop} (hpost : post value h) :
    Wp R (requireAccountId zod value) post h := by
  unfold requireAccountId
  split
  · exact hpost
  · trivial

/-- The contract of the answers of a route. -/
def Endpoint.schema (zod : Zod) : Endpoint → Json → Bool
  | transferPolicy => transferPolicySchema
  | transferPreview | qrPreview => transferPreviewResponseSchema zod
  | transferConfirm | transferDetail _ | qrConfirm => transferDetailSchema zod
  | transferList => transferListResponseSchema zod
  | qrReceive | qrDynamic => qrIssueResponseSchema zod
  | agentCashInPreview | agentCashOutPreview => agentCashPreviewResponseSchema zod
  | agentCashConfirm => agentCashResultSchema zod
  | ussdSimulate | ussdWebhook => fun _ => true
  | accountList => customerAccountListSchema zod
  | provisionDefault | accountDetail _ => customerAccountDetailSchema zod
  | accountBalance _ => accountBalanceSchema zod
  | accountTransactions _ => transactionHistoryResponseSchema zod
  | accountTransaction _ _ => customerTransactionDetailSchema zod

/-- Every handler asks only what is licensed and replies with what its contract admits. -/
theorem licensed_serve (zod : Zod) (config : GatewayConfig) (request : RequestContext)
    (endpoint : Endpoint) :
    Wp (Licensed zod config request) (serve zod config request endpoint)
      (Checked (endpoint.schema zod)) [] := by
  cases endpoint with
  | transferPolicy => exact wp_transferPolicy
  | transferPreview => exact wp_transferPreview
  | transferConfirm => exact wp_transferConfirm
  | transferList => exact wp_transferList
  | transferDetail id => exact wp_transferDetail
  | qrReceive => exact wp_qrReceive
  | qrDynamic => exact wp_qrDynamic
  | qrPreview => exact wp_qrPreview
  | qrConfirm | agentCashConfirm => exact wp_channelConfirm nofun rfl (by decide)
  | agentCashInPreview | agentCashOutPreview => exact wp_agentCashPreview rfl rfl
  | ussdSimulate => exact wp_ussdSimulate
  | ussdWebhook => exact wp_ussdWebhook
  | accountList => exact wp_accountList
  | provisionDefault => exact wp_provisionDefault
  | accountDetail | accountBalance =>
    refine wp_readAccount fun t post hpost => ?_
    rw [wp_bind]
    exact wp_requireAccountId (hpost _ rfl rfl rfl)
  | accountTransactions id =>
    refine wp_readAccount fun t post hpost => ?_
    rw [wp_bind]
    refine wp_parse fun query _ => ?_
    rw [wp_bind]
    exact wp_requireAccountId (hpost _ rfl rfl rfl)
  | accountTransaction id transactionId =>
    refine wp_readAccount fun t post hpost => ?_
    rw [wp_bind]
    refine wp_requireAccountId ?_
    rw [wp_bind]
    exact wp_requireAccountId (hpost _ rfl rfl rfl)

end Clients

/-! ## Every run -/

/-- Whatever browsers send and services answer: a message goes out to Payments or the Ledger only
    for the user of the session that Identity answered for the session cookie (a USSD webhook
    apart, which has none), with the CSRF token where it changes something; and money moves only
    after Identity accepted the PIN of the request for that session, under the intent token and
    the idempotency key of the request, for a transfer also after Risk allowed it and Payments
    authorised the intent. -/
theorem messages_authorised (zod : Zod) (config : GatewayConfig) (request : RequestContext)
    (endpoint : Endpoint) (t : Asked) (message : ServiceMessage)
    (hasks : Asks (serve zod config request endpoint) t (.sabcl message) ∨
      Asks (serve zod config request endpoint) t (.direct message)) :
    Authorised zod config request t message := by
  have hwp := licensed_serve zod config request endpoint
  rcases hasks with hasks | hasks
  · exact (hwp.asked hasks).2
  · exact (hwp.asked hasks).1

/-- In strict mode no run of any handler sends a message in the clear; in compatible mode one only
    repeats the message that SABCL has just failed on. -/
theorem transport_confined (zod : Zod) (config : GatewayConfig) (request : RequestContext)
    (endpoint : Endpoint) (t : Asked) (message : ServiceMessage)
    (hasks : Asks (serve zod config request endpoint) t (.direct message)) :
    config.sabclMode ≠ .strict ∧ (config.sabclMode = .compatible → ∃ error : SabclError,
      t.getLast? = some ⟨.sabcl message, Except.error (Sabcl.Thrown.sabcl error)⟩) := by
  obtain ⟨-, hmode⟩ := (licensed_serve zod config request endpoint).asked hasks
  constructor
  · intro hstrict
    rcases hmode with hoff | ⟨hcompatible, -⟩
    · exact absurd (hstrict.symm.trans hoff) (by decide)
    · exact absurd (hstrict.symm.trans hcompatible) (by decide)
  · intro hcompatible
    rcases hmode with hoff | ⟨-, herror⟩
    · exact absurd (hcompatible.symm.trans hoff) (by decide)
    · exact herror

/-- What a handler replies with passed the contract of its route, whatever the services sent. -/
theorem replies_checked (zod : Zod) (config : GatewayConfig) (request : RequestContext)
    (endpoint : Endpoint) (t : Asked) (reply : Reply)
    (hends : Ends (serve zod config request endpoint) t (.ok reply)) :
    endpoint.schema zod reply.body = true :=
  (licensed_serve zod config request endpoint).returned hends

/-! ## A confirmed transfer -/

/-- The cookies, the token and the body of a confirmation. -/
def confirmationRequest : RequestContext where
  cookie := some "aegis_session=session-1; aegis_csrf=csrf-1"
  csrfHeader := some "csrf-1"
  idempotencyKey := some "idempotency-key-1"
  correlationId := plainUuid
  body := .object [("intentToken", .string (String.ofList (List.replicate 43 'a'))),
    ("pin", .string "123456")]
  query := .object []

def defaultConfig (mode : SabclMode) : GatewayConfig where
  sessionCookieName := "aegis_session"
  csrfCookieName := "aegis_csrf"
  sabclMode := mode

/-- What Identity, Risk and Payments answer when all is well. -/
def goodAnswers : Outgoing → Json
  | .identity _ .GET _ _ => .object
    [("authenticated", .bool true), ("authenticationMethod", .string "PIN_OTP"),
      ("expiresAt", .string "2026-08-01T10:00:00.000Z"),
      ("user", .object [("id", .string plainUuid), ("phoneMasked", .string "+94****123"),
        ("preferredLanguage", .string "EN"), ("kycTier", .number 0),
        ("status", .string "ACTIVE"), ("phoneVerified", .bool true)])]
  | .risk "/internal/v1/controls/check" _ => .object
    [("allowed", .bool true), ("decision", .string "ALLOW"), ("reasonCodes", .array []),
      ("requiresStepUp", .bool false), ("expiresAt", .null)]
  | .risk _ _ => .object
    [("assessmentId", .string plainUuid), ("score", .number 0), ("band", .string "LOW"),
      ("decision", .string "ALLOW"), ("triggeredRules", .array []), ("reasonCodes", .array []),
      ("controlRecommendation", .null), ("expiresAt", .string "2026-08-01T10:00:00.000Z"),
      ("ruleSetVersion", .string "v1"), ("publicExplanation", .string "Allowed.")]
  | .sabcl { call := .confirm, .. } | .direct { call := .confirm, .. } => .object
    [("id", .string plainUuid), ("displayReference", .string "AEGIS-TRF-AAAA-BBBB-CCCC"),
      ("direction", .string "SENT"), ("status", .string "COMPLETED"),
      ("accountId", .string plainUuid),
      ("counterpartyMaskedReference", .string "AEGIS-****-****-ABCD"),
      ("amount", money "LKR" 500), ("createdAt", .string "2026-08-01T10:00:00.000Z"),
      ("completedAt", .null), ("transactionId", .null), ("balanceAfter", .null),
      ("failureCode", .null), ("ownMaskedReference", .string "AEGIS-****-****-WXYZ")]
  | _ => .undefined

/-- Services that answer so, and a router that fails or not. -/
def goodWorld (routerFails : Bool) (_ : Asked) : (q : Outgoing) → Answer q
  | .identity endpoint method sessionId body =>
    .answered 200 (goodAnswers (.identity endpoint method sessionId body))
  | .risk path body => .answered 200 (goodAnswers (.risk path body))
  | .riskEvent _ => ()
  | .sabcl message =>
    if routerFails then .error (.sabcl { code := .SABCL_RECIPIENT_UNAVAILABLE })
    else .ok { status := 200, body := some (goodAnswers (.sabcl message)) }
  | .direct message => .answered 200 (goodAnswers (.direct message))
  | .randomUUID => plainUuid
  | .now => "2026-08-01T10:00:00.000Z"

/-- A question of a complete run of the confirmation. -/
theorem asked_in_run (mode : SabclMode) (routerFails : Bool) (p : Outgoing → Bool)
    (h : ((runIn (goodWorld routerFails) []
      (serve isoZod (defaultConfig mode) confirmationRequest .transferConfirm)).1.any
        fun x => p x.1) = true) :
    ∃ t q, p q = true ∧
      Asks (serve isoZod (defaultConfig mode) confirmationRequest .transferConfirm) t q := by
  obtain ⟨x, hx, hp⟩ := List.any_eq_true.mp h
  obtain ⟨t, ht, hends⟩ := leads_runIn (goodWorld routerFails)
    (serve isoZod (defaultConfig mode) confirmationRequest .transferConfirm) []
  rw [ht, List.nil_append] at hx
  obtain ⟨before, after, rfl⟩ := List.append_of_mem hx
  exact ⟨before, x.1, hp, asks_of_leads hends⟩

/-- Over SABCL in strict mode, the transfer is confirmed with authority. -/
theorem messages_authorised_confirm : ∃ t message, message.call.moves = true ∧
    Asks (serve isoZod (defaultConfig .strict) confirmationRequest .transferConfirm) t
      (.sabcl message) ∧
    Authorised isoZod (defaultConfig .strict) confirmationRequest t message := by
  obtain ⟨t, q, hq, hasks⟩ := asked_in_run .strict false
    (fun q => match q with | .sabcl message => message.call.moves | _ => false)
    (by decide +kernel)
  cases q with
  | sabcl message => exact ⟨t, message, hq, hasks, messages_authorised _ _ _ _ _ _ (.inl hasks)⟩
  | _ => cases hq

/-- In compatible mode, a message goes out in the clear after the router has failed. -/
theorem transport_confined_fallback : ∃ t message error,
    Asks (serve isoZod (defaultConfig .compatible) confirmationRequest .transferConfirm) t
      (.direct message) ∧
    t.getLast? = some ⟨.sabcl message, Except.error (Sabcl.Thrown.sabcl error)⟩ := by
  obtain ⟨t, q, hq, hasks⟩ := asked_in_run .compatible true
    (fun q => match q with | .direct message => message.call.moves | _ => false)
    (by decide +kernel)
  cases q with
  | direct message =>
    obtain ⟨error, herror⟩ := (transport_confined _ _ _ _ _ _ hasks).2 rfl
    exact ⟨t, message, error, hasks, herror⟩
  | _ => cases hq

/-- The confirmation is replied to. -/
theorem replies_checked_confirm : ∃ t reply,
    Ends (serve isoZod (defaultConfig .strict) confirmationRequest .transferConfirm) t
      (.ok reply) ∧
    reply.status = 200 ∧ transferDetailSchema isoZod reply.body = true := by
  obtain ⟨t, -, hends⟩ := leads_runIn (goodWorld false)
    (serve isoZod (defaultConfig .strict) confirmationRequest .transferConfirm) []
  have hstatus : (((runIn (goodWorld false) []
      (serve isoZod (defaultConfig .strict) confirmationRequest .transferConfirm)).2.toOption).any
        fun reply => decide (reply.status = 200)) = true := by
    decide +kernel
  cases hresult : (runIn (goodWorld false) []
      (serve isoZod (defaultConfig .strict) confirmationRequest .transferConfirm)).2 with
  | error e =>
    rw [hresult] at hstatus
    cases hstatus
  | ok reply =>
    rw [hresult] at hends hstatus
    exact ⟨t, reply, hends, of_decide_eq_true hstatus, replies_checked _ _ _ _ t reply hends⟩

end AegisShield.Gateway
