import AegisShield.Common.Machine
import AegisShield.Sabcl.Authenticity
import AegisShield.Sabcl.Recipient
import AegisShield.Sabcl.Rotation

/-!
# Calls over SABCL

`SabclClient.send` (`client/sabcl-client.ts`) against `SabclRecipient.handle`, over a network
that delivers whatever it likes to anyone, as often as it likes. Any number of clients and
recipients take part; the answers of replay stores and of the services behind the recipients are
arbitrary.

Results:
* `Exchange.invariant_of_reachable`: what is known of the calls in every run.
* `exchange_agreement`: what a call returns is the answer of the recipient that it sealed its
  request for, to that request, whatever the network does.
-/

namespace AegisShield.Sabcl

open Common

/-! ## Model of `SabclClient` -/

/-- `SabclClientOptions` (lines 24-35), without the transport. -/
structure SabclClientOptions where
  keyring : SabclKeyring
  routeSecret : Bytes
  ttlSeconds : ℕ := SABCL_DEFAULT_TTL_SECONDS
  hopLimit : ℕ := SABCL_DEFAULT_HOP_LIMIT

/-- `SabclSendOptions` (lines 37-43). -/
structure SabclSendOptions where
  routeId : String
  service : String
  request : Json

/-- `SabclInnerResponse` (`payload.ts`, line 54). -/
structure SabclInnerResponse where
  status : ℕ
  body : Option Json

/-- `sabclInnerResponseSchema` (`payload.ts`, lines 47-52). -/
def sabclInnerResponseSchema (raw : Json) : Option SabclInnerResponse := do
  let members ← Json.strictObject ["status", "body"] raw
  let status ← (Json.member members "status" >>= Json.safeNatural).filter
    fun status => 100 ≤ status && status ≤ 599
  return { status, body := Json.member members "body" }

/-- The codes of `SABCL_ERROR_CODES` by their texts (`errors.ts`, lines 10-25). -/
def SABCL_ERROR_CODES : List (String × SabclErrorCode) :=
  [("SABCL_MALFORMED", .SABCL_MALFORMED),
    ("SABCL_UNSUPPORTED_VERSION", .SABCL_UNSUPPORTED_VERSION),
    ("SABCL_OVERSIZED", .SABCL_OVERSIZED), ("SABCL_EXPIRED", .SABCL_EXPIRED),
    ("SABCL_REPLAYED", .SABCL_REPLAYED), ("SABCL_SIGNATURE_INVALID", .SABCL_SIGNATURE_INVALID),
    ("SABCL_DECRYPTION_FAILED", .SABCL_DECRYPTION_FAILED),
    ("SABCL_UNKNOWN_SENDER", .SABCL_UNKNOWN_SENDER),
    ("SABCL_UNKNOWN_RECIPIENT", .SABCL_UNKNOWN_RECIPIENT),
    ("SABCL_KEY_REVOKED", .SABCL_KEY_REVOKED), ("SABCL_ROUTE_INVALID", .SABCL_ROUTE_INVALID),
    ("SABCL_HOP_LIMIT_EXCEEDED", .SABCL_HOP_LIMIT_EXCEEDED),
    ("SABCL_RECIPIENT_UNAVAILABLE", .SABCL_RECIPIENT_UNAVAILABLE),
    ("SABCL_NOT_CONFIGURED", .SABCL_NOT_CONFIGURED)]

/-- `extractErrorCode` (lines 165-178). -/
def extractErrorCode : Json → Option SabclErrorCode
  | .object members =>
    match Json.member members "error" with
    | some (.object error) => (Json.stringMember error "code").bind fun code =>
        SABCL_ERROR_CODES.lookup code
    | _ => none
  | _ => none

/-- What comes back from the router: nothing in time, or whether the status is a success and the
    body, `undefined` when it is not JSON. -/
inductive Fetched where
  | failed
  | answered (ok : Bool) (raw : Json)

/-- A request under way. -/
structure SabclCall where
  send : SabclSendOptions
  sealOptions : SealRequestOptions
  random : SealRandomness
  envelope : SabclEnvelope
  responseSecret : Bytes

section
variable (P : Primitives)

/-- The beginning of `send` (lines 68-78). -/
def SabclClientOptions.start (options : SabclClientOptions) (send : SabclSendOptions) (now : ℕ)
    (random : SealRandomness) : Except Thrown SabclCall := do
  let recipient ← options.keyring.activePeerFor send.service now
  let routeToken ← deriveRouteToken P options.routeSecret send.routeId
  let sealOptions : SealRequestOptions :=
    { sender := options.keyring.own, recipient := recipient, routeToken := routeToken,
      payload := send.request, ttlSeconds := options.ttlSeconds, hopLimit := options.hopLimit,
      now := now }
  let (envelope, responseSecret) ← sealRequest P sealOptions random
  return { send, sealOptions, random, envelope, responseSecret }

/-- The rest of `send` (lines 80-134). -/
def SabclCall.finish (call : SabclCall) : Fetched → Except Thrown SabclInnerResponse
  | .failed => fail .SABCL_RECIPIENT_UNAVAILABLE
  | .answered false raw => fail ((extractErrorCode raw).getD .SABCL_RECIPIENT_UNAVAILABLE)
  | .answered true raw =>
    match sabclResponseEnvelopeSchema raw with
    | none => fail .SABCL_MALFORMED "router returned a bad envelope"
    | some envelope => do
      let decoded ← openResponse P call.sealOptions.recipient call.responseSecret
        call.envelope.mid envelope
      match sabclInnerResponseSchema decoded with
      | none => fail .SABCL_MALFORMED "inner response failed validation"
      | some response => return response

/-! ## The network -/

/-- What a recipient was given. -/
structure Handling where
  options : SabclRecipientOptions
  env : Surroundings
  raw : Json

/-- The calls with what they have returned, and what recipients have handled. -/
structure Exchange where
  calls : List (SabclCall × Option (Except Thrown SabclInnerResponse))
  handlings : List Handling

/-- What happens on the network. -/
inductive ExchangeAction where
  | send (options : SabclClientOptions) (send : SabclSendOptions) (now : ℕ)
      (random : SealRandomness)
  /-- A recipient is given any value. -/
  | deliver (handling : Handling)
  /-- The waiting call `n` gets any answer. -/
  | answer (n : ℕ) (fetched : Fetched)

/-- Any number of calls and recipients. -/
def exchanges : Machine Exchange ExchangeAction where
  init s := s.calls = [] ∧ s.handlings = []
  step s
    | .send options send now random =>
      match options.start P send now random with
      | .error _ => some s
      | .ok call => some { s with calls := s.calls ++ [(call, none)] }
    | .deliver handling => some { s with handlings := s.handlings ++ [handling] }
    | .answer n fetched =>
      match s.calls[n]? with
      | some (call, none) =>
        some { s with calls := s.calls.set n (call, some (call.finish P fetched)) }
      | _ => none

/-- The random message ids do not repeat. -/
def FreshIds (s : Exchange) : ExchangeAction → Prop
  | .send _ _ _ random => ∀ c ∈ s.calls, c.1.random.messageId ≠ random.messageId
  | .deliver _ | .answer _ _ => True

/-- The sealing of a call. -/
def SabclCall.sealing (call : SabclCall) : Sealing :=
  .request call.sealOptions call.random call.envelope call.responseSecret

/-- The sealing of a recipient's response. -/
def Handling.sealing (h : Handling) : Option Sealing :=
  match receive P h.options h.raw h.env.openedAt with
  | .error _ => none
  | .ok (_, opened) =>
    let handled := handle P h.options h.env h.raw
    match handled.dispatched.map h.env.dispatch, handled.outcome.body with
    | some (.ok result), .ok response => some (.response h.options.keyring.own
        opened.responseSecret opened.messageId result h.env.nonce response)
    | _, _ => none

/-- All that has been sealed. -/
def Exchange.sealings (s : Exchange) : List Sealing :=
  s.calls.map (fun c => c.1.sealing) ++ s.handlings.filterMap (Handling.sealing P)

/-- `sealings` as a set. -/
def Exchange.history (s : Exchange) : Set Sealing := {x | x ∈ s.sealings P}

/-- The signing key of a peer is in honest hands: what verifies under it was sealed with it. -/
def Exchange.Trusts (signingPublicKey : Bytes → Bytes) (s : Exchange) (peer : SabclPublicIdentity) :
    Prop :=
  ∃ holder, PublicHalf P signingPublicKey holder peer ∧
    Unforgeable P signingPublicKey (s.history P) holder.signingPrivateKey

/-- `response` is what the service answered to `request` when the recipient handled the envelope. -/
structure Handling.Answers (h : Handling) (envelope : SabclEnvelope) (request : Json)
    (response : SabclInnerResponse) : Prop where
  raw : sabclEnvelopeSchema h.raw = some envelope
  dispatch : ∃ inner result, (handle P h.options h.env h.raw).dispatched = some inner ∧
    (P.parse (P.stringify request)).bind sabclInnerRequestSchema = some inner ∧
    h.env.dispatch inner = .ok result ∧
    (P.parse (P.stringify result)).bind sabclInnerResponseSchema = some response

end

/-! ## What is known of a call -/

section
variable {P : Primitives} {signingPublicKey : Bytes → Bytes} {s t : Exchange}

theorem SabclClientOptions.start_ok {options : SabclClientOptions} {send : SabclSendOptions}
    {now : ℕ} {random : SealRandomness} {call : SabclCall}
    (h : options.start P send now random = .ok call) :
    call.sealing.Happened P ∧ call.random = random ∧
      call.sealOptions.payload = call.send.request := by
  unfold SabclClientOptions.start at h
  obtain ⟨recipient, -, h⟩ := bind_ok.mp h
  obtain ⟨routeToken, -, h⟩ := bind_ok.mp h
  obtain ⟨⟨envelope, secret⟩, hseal, h⟩ := bind_ok.mp h
  cases h
  exact ⟨hseal, rfl, rfl⟩

/-- What a call has established when it returns a response. -/
theorem SabclCall.finish_ok {call : SabclCall} {fetched : Fetched} {response : SabclInnerResponse}
    (h : call.finish P fetched = .ok response) :
    ∃ raw envelope decoded, sabclResponseEnvelopeSchema raw = some envelope ∧
      openResponse P call.sealOptions.recipient call.responseSecret call.envelope.mid envelope =
        .ok decoded ∧
      sabclInnerResponseSchema decoded = some response := by
  unfold SabclCall.finish at h
  split at h
  · cases h
  · cases h
  next raw =>
    split at h
    · cases h
    next envelope hraw =>
      obtain ⟨decoded, hopen, h⟩ := bind_ok.mp h
      split at h
      · cases h
      next response' hresponse =>
        cases h
        exact ⟨raw, envelope, decoded, hraw, hopen, hresponse⟩

/-- The response of a dispatch is sealed for the message id of the request. -/
theorem handle_sealed {options : SabclRecipientOptions} {env : Surroundings} {raw : Json}
    {envelope : SabclEnvelope} {opened : OpenedRequest} {inner : SabclInnerRequest} {result : Json}
    {response : SabclResponseEnvelope}
    (hreceive : receive P options raw env.openedAt = .ok (envelope, opened))
    (hinner : assertInner options opened = .ok inner) (hresult : env.dispatch inner = .ok result)
    (hdispatched : (handle P options env raw).dispatched = some inner)
    (hbody : (handle P options env raw).outcome.body = .ok response) :
    sealResponse P options.keyring.own opened.responseSecret opened.messageId result env.nonce =
      .ok response := by
  unfold handle at hdispatched hbody
  rw [hreceive] at hdispatched hbody
  simp only at hdispatched hbody
  split at hdispatched
  · cases hdispatched
  · cases hdispatched
  next hremember =>
    simp only [hremember, hinner, hresult, Except.bind, bind] at hbody
    split at hbody
    · cases hbody
    next response' hseal =>
      cases hbody
      exact hseal

/-- What a recipient has done when it seals a response. -/
theorem Handling.sealing_some {h : Handling} {x : Sealing} (hx : h.sealing P = some x) :
    ∃ envelope opened inner result response,
      receive P h.options h.raw h.env.openedAt = .ok (envelope, opened) ∧
      (handle P h.options h.env h.raw).dispatched = some inner ∧
      assertInner h.options opened = .ok inner ∧ h.env.dispatch inner = .ok result ∧
      sealResponse P h.options.keyring.own opened.responseSecret opened.messageId result
        h.env.nonce = .ok response ∧
      x = .response h.options.keyring.own opened.responseSecret opened.messageId result h.env.nonce
        response := by
  unfold Handling.sealing at hx
  split at hx
  · cases hx
  next envelope opened hreceive =>
    simp only at hx
    split at hx
    next result response hdispatch hbody =>
      obtain ⟨inner, hdispatched, hresult⟩ := Option.map_eq_some_iff.mp hdispatch
      obtain ⟨envelope', opened', hreceive', -, hinner⟩ := handle_dispatched hdispatched
      obtain ⟨rfl, rfl⟩ : envelope = envelope' ∧ opened = opened' := by
        simpa using hreceive.symm.trans hreceive'
      refine ⟨envelope, opened, inner, result, response, hreceive, hdispatched, hinner, hresult, ?_,
        (Option.some.inj hx).symm⟩
      exact handle_sealed hreceive hinner hresult hdispatched hbody
    · cases hx

/-! ## What holds in every run -/

/-- What is known of the calls: they sealed their requests under different message ids, and those
    that have returned did what `finish` does. -/
structure Exchange.Invariant (P : Primitives) (s : Exchange) : Prop where
  sealed : ∀ c ∈ s.calls, c.1.sealing.Happened P ∧ c.1.sealOptions.payload = c.1.send.request
  fresh : (s.calls.map fun c => c.1.random.messageId).Nodup
  returned : ∀ call outcome, (call, some outcome) ∈ s.calls →
    ∃ fetched, call.finish P fetched = outcome

theorem Exchange.invariant_send {options : SabclClientOptions} {send : SabclSendOptions} {now : ℕ}
    {random : SealRandomness} {call : SabclCall} (hs : s.Invariant P)
    (hfresh : ∀ c ∈ s.calls, c.1.random.messageId ≠ random.messageId)
    (hstart : options.start P send now random = .ok call) :
    Exchange.Invariant P { s with calls := s.calls ++ [(call, none)] } := by
  obtain ⟨hsealing, rfl, hpayload⟩ := SabclClientOptions.start_ok hstart
  refine ⟨?_, ?_, ?_⟩
  · intro c hc
    rcases List.mem_append.mp hc with hc | hc
    · exact hs.sealed c hc
    · rw [List.mem_singleton.mp hc]
      exact ⟨hsealing, hpayload⟩
  · rw [List.map_append, List.map_singleton, List.nodup_append]
    refine ⟨hs.fresh, List.nodup_singleton _, ?_⟩
    intro id hid id' hid'
    obtain ⟨c, hc, rfl⟩ := List.mem_map.mp hid
    rw [List.mem_singleton.mp hid']
    exact hfresh c hc
  · intro call' outcome hc
    rcases List.mem_append.mp hc with hc | hc
    · exact hs.returned call' outcome hc
    · cases List.mem_singleton.mp hc

theorem Exchange.invariant_answer {n : ℕ} {call : SabclCall} {fetched : Fetched}
    (hs : s.Invariant P) (hn : s.calls[n]? = some (call, none)) :
    Exchange.Invariant P
      { s with calls := s.calls.set n (call, some (call.finish P fetched)) } := by
  have hmem : (call, none) ∈ s.calls := List.mem_of_getElem? hn
  refine ⟨?_, ?_, ?_⟩
  · intro c hc
    rcases List.mem_or_eq_of_mem_set hc with hc | rfl
    · exact hs.sealed c hc
    · have hsealed := hs.sealed _ hmem
      exact hsealed
  · have hsame : (s.calls.set n (call, some (call.finish P fetched))).map
        (fun c => c.1.random.messageId) = s.calls.map fun c => c.1.random.messageId := by
      refine List.ext_getElem? fun m => ?_
      by_cases hm : n = m
      · subst hm
        have hlt := (List.getElem?_eq_some_iff.mp hn).1
        rw [List.getElem?_map, List.getElem?_map, List.getElem?_set_self hlt, hn]
        rfl
      · rw [List.getElem?_map, List.getElem?_map, List.getElem?_set_ne hm]
    rw [hsame]
    exact hs.fresh
  · intro call' outcome hc
    rcases List.mem_or_eq_of_mem_set hc with hc | hc
    · exact hs.returned call' outcome hc
    · cases hc
      exact ⟨fetched, rfl⟩

theorem Exchange.invariant_of_reachable (hs : (exchanges P).Reachable FreshIds s) :
    s.Invariant P := by
  refine Machine.invariant ?_ ?_ hs
  · rintro s ⟨hcalls, -⟩
    refine ⟨?_, ?_, ?_⟩ <;> simp [hcalls]
  · intro s a t hinv hfresh hstep
    cases a with
    | send options send now random =>
      simp only [exchanges] at hstep
      split at hstep
      · cases hstep
        exact hinv
      next call hstart =>
        cases hstep
        exact Exchange.invariant_send hinv hfresh hstart
    | deliver handling =>
      cases hstep
      exact ⟨hinv.sealed, hinv.fresh, hinv.returned⟩
    | answer n fetched =>
      simp only [exchanges] at hstep
      split at hstep
      next call hn =>
        cases hstep
        exact Exchange.invariant_answer hinv hn
      · cases hstep

theorem Exchange.mem_history {x : Sealing} : x ∈ s.history P ↔
    (∃ c ∈ s.calls, c.1.sealing = x) ∨ ∃ h ∈ s.handlings, h.sealing P = some x := by
  show x ∈ s.sealings P ↔ _
  simp only [sealings, List.mem_append, List.mem_map, List.mem_filterMap]

theorem Exchange.Invariant.happened (hs : s.Invariant P) :
    ∀ x ∈ s.history P, x.Happened P := by
  intro x hx
  rcases Exchange.mem_history.mp hx with ⟨c, hc, rfl⟩ | ⟨h, -, hx⟩
  · exact (hs.sealed c hc).1
  · obtain ⟨envelope, opened, inner, result, response, -, -, -, -, hseal, rfl⟩ :=
      Handling.sealing_some hx
    exact hseal

/-- A message id leads to one call. -/
theorem Exchange.Invariant.unique (hs : s.Invariant P) {n m : ℕ}
    {c d : SabclCall × Option (Except Thrown SabclInnerResponse)} (hn : s.calls[n]? = some c)
    (hm : s.calls[m]? = some d) (hmid : c.1.envelope.mid = d.1.envelope.mid) : n = m := by
  have hmid' : ∀ e ∈ s.calls, e.1.envelope.mid = toBase64Url e.1.random.messageId := by
    intro e he
    obtain ⟨padded, bucket, -, -, -, henvelope, -⟩ := sealRequest_ok (hs.sealed e he).1
    rw [henvelope]
    rfl
  rw [hmid' c (List.mem_of_getElem? hn), hmid' d (List.mem_of_getElem? hm)] at hmid
  have hid := toBase64Url_inj hmid
  have hlt : n < (s.calls.map fun c => c.1.random.messageId).length := by
    rw [List.length_map]
    exact (List.getElem?_eq_some_iff.mp hn).1
  refine (List.getElem?_inj hlt hs.fresh).mp ?_
  rw [List.getElem?_map, List.getElem?_map, hn, hm]
  exact congrArg some hid

/-- A request that a recipient opened from honest senders is that of a call. -/
theorem Exchange.Invariant.opened (hs : s.Invariant P) (hopens : OpensAsSealed P (s.history P))
    {h : Handling} (htrusts : ∀ peer ∈ h.options.keyring.peers, s.Trusts P signingPublicKey peer)
    {envelope : SabclEnvelope} {opened : OpenedRequest}
    (hreceive : receive P h.options h.raw h.env.openedAt = .ok (envelope, opened)) :
    ∃ c ∈ s.calls, c.1.envelope = envelope ∧
      P.parse (P.stringify c.1.send.request) = some opened.payload := by
  obtain ⟨hraw, hopen⟩ := receive_ok hreceive
  obtain ⟨sender, -, -, -, -, -, hsender, -⟩ := openRequest_ok hopen
  obtain ⟨hmem, hkeyId⟩ := SabclKeyring.peer_ok hsender
  obtain ⟨holder, hhalf, hunforgeable⟩ := htrusts sender hmem
  have hholder : ∀ peer ∈ h.options.keyring.peers, peer.keyId = envelope.skid →
      PublicHalf P signingPublicKey holder peer := by
    intro peer hpeer hskid
    rw [List.inj_on_of_nodup_map h.options.keyring.distinct hpeer hmem (hskid.trans hkeyId.symm)]
    exact hhalf
  obtain ⟨options, random, secret, hhistory, -, -, -, -, hparse⟩ :=
    request_authentic hs.happened hopens hunforgeable hholder hraw hopen
  rcases Exchange.mem_history.mp hhistory with ⟨c, hc, hsealing⟩ | ⟨h', -, hsealing⟩
  · obtain ⟨rfl, -, rfl, -⟩ := Sealing.request.inj hsealing
    rw [(hs.sealed c hc).2] at hparse
    exact ⟨c, hc, rfl, hparse⟩
  · obtain ⟨_, _, _, _, _, -, -, -, -, -, hresponse⟩ := Handling.sealing_some hsealing
    cases hresponse

/-! ## Agreement -/

/-- In every run, whatever the network delivers to whom: when a call has returned a response, a
    recipient with the key that the call was sealed for has handled its envelope, and the response
    is what the service answered there to the request of the call. No other call has the message
    id. Only the keys of that recipient and of the senders that it knows need be in honest hands. -/
theorem exchange_agreement (P : Primitives) (signingPublicKey : Bytes → Bytes) (s : Exchange)
    (hs : (exchanges P).Reachable FreshIds s) (hopens : OpensAsSealed P (s.history P)) (n : ℕ)
    (call : SabclCall) (response : SabclInnerResponse)
    (hcall : s.calls[n]? = some (call, some (.ok response)))
    (hrecipient : s.Trusts P signingPublicKey call.sealOptions.recipient)
    (hsenders : ∀ h ∈ s.handlings,
      h.options.keyring.own.keyId = call.sealOptions.recipient.keyId →
        ∀ peer ∈ h.options.keyring.peers, s.Trusts P signingPublicKey peer) :
    (∃ h ∈ s.handlings, h.options.keyring.own.keyId = call.sealOptions.recipient.keyId ∧
      h.Answers P call.envelope call.send.request response) ∧
    ∀ m other, s.calls[m]? = some other → other.1.envelope.mid = call.envelope.mid → m = n := by
  have hinv := Exchange.invariant_of_reachable hs
  refine ⟨?_, fun m other hm hmid => hinv.unique hm hcall hmid⟩
  obtain ⟨fetched, hfinish⟩ := hinv.returned call _ (List.mem_of_getElem? hcall)
  obtain ⟨raw, sealed, decoded, hraw, hopen, hresponse⟩ := SabclCall.finish_ok hfinish
  obtain ⟨holder, hhalf, hunforgeable⟩ := hrecipient
  obtain ⟨sealer, secret, payload, nonce, hhistory, -, hkeyId, -, hparse⟩ :=
    response_authentic hinv.happened hopens hunforgeable hhalf hraw hopen
  rcases Exchange.mem_history.mp hhistory with ⟨c, -, hsealing⟩ | ⟨h, hh, hsealing⟩
  · cases hsealing
  · obtain ⟨envelope, opened, inner, result, answer, hreceive, hdispatched, hinner, hresult, -,
      heq⟩ := Handling.sealing_some hsealing
    obtain ⟨rfl, -, hmid, rfl, -⟩ := Sealing.response.inj heq
    have hown := hkeyId.trans hhalf.keyId.symm
    obtain ⟨c, hc, rfl, hrequest⟩ := hinv.opened hopens (hsenders h hh hown) hreceive
    -- the message id of the response is that of the envelope that the recipient opened
    obtain ⟨hhandled, hopened⟩ := receive_ok hreceive
    obtain ⟨-, -, -, -, -, -, -, -, -, -, -, -, -, -, -, -, hopenedId, -⟩ := openRequest_ok hopened
    obtain ⟨m, hm⟩ := List.getElem?_of_mem hc
    obtain rfl : m = n := hinv.unique hm hcall (hopenedId.symm.trans hmid.symm)
    obtain rfl : c = (call, some (.ok response)) := Option.some.inj (hm.symm.trans hcall)
    refine ⟨h, hh, hown, hhandled, inner, _, hdispatched, ?_, hresult, ?_⟩
    · rw [hrequest]
      exact (assertInner_ok hinner).1
    · rw [hparse]
      exact hresponse

end

/-! ## A query over the network -/

/-- What ideal primitives say of a sealing. -/
def Sealing.trace (P : Primitives) (x : Sealing) :
    Bytes × Bytes × Bytes × (Bytes × Bytes) × Bytes × Bytes :=
  (x.signer, x.signed, x.signature, x.box, x.messageKey P, P.stringify x.payload)

theorem unforgeable_of_traces (base : Primitives) {sealings xs : List Sealing}
    (hsame : xs.map (Sealing.trace base) = sealings.map (Sealing.trace base)) (key : Bytes) :
    Unforgeable (recorded base sealings) id {x | x ∈ xs} key := by
  intro message signature hverify
  obtain ⟨s, hs, hsigner, hsigned, hsignature⟩ :=
    unforgeable_recorded base sealings key message signature hverify
  have hmem : s.trace base ∈ xs.map (Sealing.trace base) := hsame ▸ List.mem_map_of_mem hs
  obtain ⟨x, hx, htrace⟩ := List.mem_map.mp hmem
  simp only [Sealing.trace, Prod.mk.injEq] at htrace
  exact ⟨x, hx, htrace.1.trans hsigner, htrace.2.1.trans hsigned, htrace.2.2.1.trans hsignature⟩

theorem opensAsSealed_of_traces (base : Primitives) {sealings xs : List Sealing}
    (hsame : xs.map (Sealing.trace base) = sealings.map (Sealing.trace base))
    (hboxes : (sealings.map Sealing.box).Nodup) :
    OpensAsSealed (recorded base sealings) {x | x ∈ xs} := by
  intro x hx key nonce aad padded hopen
  have hmem : x.trace base ∈ sealings.map (Sealing.trace base) := hsame ▸ List.mem_map_of_mem hx
  obtain ⟨s, hs, htrace⟩ := List.mem_map.mp hmem
  simp only [Sealing.trace, Prod.mk.injEq] at htrace
  obtain ⟨-, -, -, hbox, hkey, htext⟩ := htrace
  rw [← hbox] at hopen
  obtain ⟨hkey', bucket, hpad⟩ := opensAsSealed_recorded base
    (List.inj_on_of_nodup_map hboxes) s hs key nonce aad padded hopen
  exact ⟨hkey'.trans hkey, bucket, htext ▸ hpad⟩

/-- `JSON.stringify` of the answer that `freshSurroundings` gives. -/
def createdText : String := "\x7b\"status\":201\x7d"

/-- Primitives whose JSON values are the query for a balance and the answer; a ciphertext is the
    length prefix of what was sealed. -/
def queryPrimitives : Primitives :=
  { plainPrimitives balancePayload balanceText with
    aesGcmSeal := fun _ _ padded _ => (padded.take LENGTH_PREFIX_BYTES, List.replicate 16 0)
    stringify := fun value =>
      match value with
      | .object [("status", _)] => utf8 createdText
      | _ => utf8 balanceText
    parse := fun text =>
      if text = utf8 balanceText then some balancePayload
      else if text = utf8 createdText then some (.object [("status", .number 201)]) else none }

/-- The Gateway's client. -/
def gatewayClient : SabclClientOptions where
  keyring := { own := gatewayIdentity, peers := [publicIdentity ledgerIdentity],
               distinct := by decide }
  routeSecret := plainKey 9

/-- The Gateway's query for a balance. -/
def balanceQuery : SabclSendOptions where
  routeId := "ledger.accounts"
  service := "ledger"
  request := balancePayload

/-- The random values of the query. -/
def queryRandomness : SealRandomness where
  ephemeralPrivateKey := plainKey 5
  nonce := List.replicate 12 6
  messageId := List.replicate 16 7

/-- The query and its answer, sealed. -/
def querySealings : List Sealing :=
  match gatewayClient.start queryPrimitives balanceQuery 1000 queryRandomness with
  | .error _ => []
  | .ok call =>
    let answer := Json.object [("status", .number 201)]
    match sealResponse queryPrimitives ledgerIdentity call.responseSecret call.envelope.mid answer
        freshSurroundings.nonce with
    | .error _ => []
    | .ok response =>
      [call.sealing, .response ledgerIdentity call.responseSecret call.envelope.mid answer
        freshSurroundings.nonce response]

/-- The network delivers the query to the Ledger and its answer to the Gateway. -/
def queryRun : List ExchangeAction :=
  match querySealings with
  | [.request _ _ envelope _, .response _ _ _ _ _ response] =>
    [.send gatewayClient balanceQuery 1000 queryRandomness,
      .deliver { options := recipientFor "ledger" ledgerKeyring, env := freshSurroundings,
                 raw := envelope.toJson },
      .answer 0 (.answered true response.toJson)]
  | _ => []

/-- `FreshIds`, decided. -/
def freshIds (s : Exchange) : ExchangeAction → Bool
  | .send _ _ _ random => s.calls.all fun c => c.1.random.messageId != random.messageId
  | .deliver _ | .answer _ _ => true

theorem freshIds_sound (s : Exchange) (a : ExchangeAction) (h : freshIds s a = true) :
    FreshIds s a := by
  cases a with
  | send options send now random => simpa [freshIds, FreshIds] using h
  | deliver | answer => trivial

/-- The state after the run: the call has returned the answer. -/
def queryDone (s : Exchange) : Bool :=
  s.calls.map (fun c => (c.2.bind Except.toOption).map SabclInnerResponse.status) == [some 201] &&
    s.calls.all (fun c => c.1.sealOptions.recipient == publicIdentity ledgerIdentity) &&
    s.handlings.all (fun h => h.options.keyring.peers == [publicIdentity gatewayIdentity]) &&
    (s.sealings (recorded queryPrimitives querySealings)).map (Sealing.trace queryPrimitives) ==
      querySealings.map (Sealing.trace queryPrimitives)

theorem queryRun_done :
    (((exchanges (recorded queryPrimitives querySealings)).runUnder freshIds
      { calls := [], handlings := [] } queryRun).any queryDone) = true := by
  decide +kernel

theorem trusts_query {s : Exchange}
    (htraces : (s.sealings (recorded queryPrimitives querySealings)).map
      (Sealing.trace queryPrimitives) = querySealings.map (Sealing.trace queryPrimitives))
    (identity : SabclPrivateIdentity) :
    s.Trusts (recorded queryPrimitives querySealings) id (publicIdentity identity) :=
  ⟨identity, ⟨rfl, rfl, rfl, rfl⟩, unforgeable_of_traces queryPrimitives htraces _⟩

/-- The Gateway gets the answer that the Ledger gave to its query. -/
theorem exchange_agreement_query :
    ∃ s call response, (exchanges (recorded queryPrimitives querySealings)).Reachable FreshIds s ∧
      s.calls[0]? = some (call, some (.ok response)) ∧ response.status = 201 ∧
      ∃ h ∈ s.handlings, h.Answers (recorded queryPrimitives querySealings) call.envelope
        call.send.request response := by
  have hinit : (exchanges (recorded queryPrimitives querySealings)).init
      { calls := [], handlings := [] } := ⟨rfl, rfl⟩
  obtain ⟨s, hs, hdone⟩ := Machine.reachable_of_runUnder queryRun freshIds queryDone freshIds_sound
    hinit queryRun_done
  simp only [queryDone, Bool.and_eq_true, beq_iff_eq, List.all_eq_true] at hdone
  obtain ⟨⟨⟨hcalls, hrecipient⟩, hpeers⟩, htraces⟩ := hdone
  obtain ⟨⟨call, outcome⟩, hcall, houtcome⟩ := List.map_eq_singleton_iff.mp hcalls
  obtain ⟨answer, hanswer, hstatus⟩ := Option.map_eq_some_iff.mp houtcome
  obtain ⟨result, rfl, hresult⟩ := Option.bind_eq_some_iff.mp hanswer
  cases result with
  | error e => cases hresult
  | ok response =>
    cases hresult
    have hget : s.calls[0]? = some (call, some (.ok answer)) := by rw [hcall]; rfl
    have hopens : OpensAsSealed (recorded queryPrimitives querySealings) (s.history _) :=
      opensAsSealed_of_traces queryPrimitives htraces (by decide +kernel)
    obtain ⟨⟨h, hh, -, hanswers⟩, -⟩ := exchange_agreement _ id s hs hopens 0 call answer hget
      (by
        rw [hrecipient _ (List.mem_of_getElem? hget)]
        exact trusts_query htraces ledgerIdentity)
      (by
        intro h hh _ peer hpeer
        rw [hpeers h hh, List.mem_singleton] at hpeer
        rw [hpeer]
        exact trusts_query htraces gatewayIdentity)
    exact ⟨s, call, answer, hs, hget, hstatus, h, hh, hanswers⟩

end AegisShield.Sabcl
