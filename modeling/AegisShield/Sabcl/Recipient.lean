import AegisShield.Sabcl.Capability

/-!
# `SabclRecipient.handle`

The recipient (`server/sabcl-recipient.ts`) opens an envelope, claims its message
id in the replay store, validates the inner request against the catalogue and
dispatches it. The steps before and after the claim are definitions of their
own, so that the interleavings of several recipients can be built from them.

Results:
* `handle_dispatched`: what `handle` has established when it dispatches.
* `dispatched_within_capability_iff`: a dispatched request belongs to the capability whose route
  token its envelope carries if and only if its operation lies within that capability.
* `accounts_token_moves_money`: the recipient never compares the two, so an
  envelope with the token of `ledger.accounts` can reach `ledger.postings`.
-/

namespace AegisShield.Sabcl

open Common

/-! ## Model of `SabclRecipient` -/

/-- `SabclRecipientOptions` (lines 32-40) without the replay store and the dispatcher. -/
structure SabclRecipientOptions where
  keyring : SabclKeyring
  capabilities : List SabclCapability

/-- The recipient that `createSabclRecipientRuntime` builds for a service
    (`recipient-runtime.ts`, lines 85-106). -/
def recipientFor (service : String) (keyring : SabclKeyring) : SabclRecipientOptions where
  keyring := keyring
  capabilities := capabilitiesForService service

/-- `statusForCode` (lines 172-191). -/
def statusForCode : SabclErrorCode → ℕ
  | .SABCL_OVERSIZED => 413
  | .SABCL_REPLAYED | .SABCL_EXPIRED => 409
  | .SABCL_ROUTE_INVALID | .SABCL_HOP_LIMIT_EXCEEDED => 403
  | .SABCL_RECIPIENT_UNAVAILABLE | .SABCL_NOT_CONFIGURED => 503
  | .SABCL_MALFORMED | .SABCL_UNSUPPORTED_VERSION => 400
  | _ => 401

/-- `SabclRecipientOutcome` (lines 42-45). -/
structure SabclRecipientOutcome where
  status : ℕ
  body : Except SabclErrorCode SabclResponseEnvelope

/-- `reject` (lines 150-152). -/
def reject (error : SabclError) : SabclRecipientOutcome where
  status := statusForCode error.code
  body := .error error.code

section
variable (P : Primitives) (options : SabclRecipientOptions)

/-- The parsing of the envelope and `openRequest` (lines 69-84). -/
def receive (raw : Json) (now : ℕ) : Except Thrown (SabclEnvelope × OpenedRequest) :=
  parseEnvelope raw >>= fun envelope =>
    (openRequest P options.keyring.own options.keyring envelope now).map (envelope, ·)

/-- `Math.max(1, envelope.exp - this.now() + 1)` (line 90). -/
def replayTtl (envelope : SabclEnvelope) (now : ℕ) : ℕ := max 1 (envelope.exp + 1 - now)

/-- The validation of the inner request and `assertCapability` (lines 95-103). -/
def assertInner (opened : OpenedRequest) : Except Thrown SabclInnerRequest :=
  match sabclInnerRequestSchema opened.payload with
  | none => fail .SABCL_MALFORMED "inner request failed validation"
  | some inner => (assertCapability options.capabilities inner).map fun _ => inner

/-- What `handle` takes from outside: its two clock readings, the replay store's
    answer, the service behind it and the nonce of the response. -/
structure Surroundings where
  openedAt : ℕ
  claimedAt : ℕ
  remember : String → ℕ → Except Thrown Bool
  dispatch : SabclInnerRequest → Except Thrown Json
  nonce : Bytes

/-- The outcome of `handle` with its effects: the claim it made in the replay
    store and the request it dispatched. -/
structure Handled where
  outcome : SabclRecipientOutcome
  claimed : Option (String × ℕ)
  dispatched : Option SabclInnerRequest

/-- `handle` (lines 68-119). -/
def handle (env : Surroundings) (raw : Json) : Handled :=
  match receive P options raw env.openedAt with
  | .error error =>
    { outcome := reject (toSabclError error), claimed := none, dispatched := none }
  | .ok (envelope, opened) =>
    let ttl := replayTtl envelope env.claimedAt
    let claimed := some (envelope.mid, ttl)
    match env.remember envelope.mid ttl with
    | .error error =>
      { outcome := reject (toSabclError error), claimed := claimed, dispatched := none }
    | .ok false =>
      { outcome := reject { code := .SABCL_REPLAYED }, claimed := claimed, dispatched := none }
    | .ok true =>
      match assertInner options opened with
      | .error error =>
        { outcome := reject (toSabclError error), claimed := claimed, dispatched := none }
      | .ok inner =>
        let response := env.dispatch inner >>= fun result =>
          sealResponse P options.keyring.own opened.responseSecret opened.messageId result env.nonce
        match response with
        | .error error =>
          { outcome := reject (toSabclError error), claimed := claimed,
            dispatched := some inner }
        | .ok response =>
          { outcome := { status := 200, body := .ok response }, claimed := claimed,
            dispatched := some inner }

end

/-! ## What a dispatch rests on -/

variable {P : Primitives} {options : SabclRecipientOptions} {env : Surroundings} {raw : Json}
  {inner : SabclInnerRequest}

theorem receive_ok {now : ℕ} {envelope : SabclEnvelope} {opened : OpenedRequest}
    (h : receive P options raw now = .ok (envelope, opened)) :
    sabclEnvelopeSchema raw = some envelope ∧
      openRequest P options.keyring.own options.keyring envelope now = .ok opened := by
  obtain ⟨e, he, h⟩ := bind_ok.mp h
  cases hopen : openRequest P options.keyring.own options.keyring e now with
  | error error => rw [hopen] at h; cases h
  | ok opened' => rw [hopen] at h; cases h; exact ⟨parseEnvelope_ok.mp he, hopen⟩

theorem assertInner_ok {opened : OpenedRequest} (h : assertInner options opened = .ok inner) :
    sabclInnerRequestSchema opened.payload = some inner ∧
      assertCapability options.capabilities inner = .ok () := by
  unfold assertInner at h
  split at h
  · cases h
  next inner' hinner =>
    cases hcap : assertCapability options.capabilities inner' with
    | error error => rw [hcap] at h; cases h
    | ok u => rw [hcap] at h; cases h; exact ⟨hinner, hcap⟩

/-- A dispatched request comes from an envelope that was opened, whose message id
    the replay store had not seen, and that passed `assertInner`. -/
theorem handle_dispatched (h : (handle P options env raw).dispatched = some inner) :
    ∃ envelope opened, receive P options raw env.openedAt = .ok (envelope, opened) ∧
      env.remember envelope.mid (replayTtl envelope env.claimedAt) = .ok true ∧
      assertInner options opened = .ok inner := by
  unfold handle at h
  split at h
  · cases h
  next envelope opened hreceive =>
    simp only at h
    split at h
    · cases h
    · cases h
    next hremember =>
      split at h
      · cases h
      next inner' hinner =>
        split at h <;> cases h <;> exact ⟨envelope, opened, hreceive, hremember, hinner⟩

/-! ## The capability of the route token -/

/-- A raw envelope carries the route token of a catalogue entry, derived with the
    route secret of the epoch. -/
def Carries (P : Primitives) (routeSecret : Bytes) (raw : Json) (entry : CatalogueEntry) :
    Prop :=
  ∃ envelope, sabclEnvelopeSchema raw = some envelope ∧
    deriveRouteToken P routeSecret entry.routeId = .ok envelope.rt

theorem mem_capabilitiesForService {service : String} {capability : SabclCapability}
    (h : capability ∈ capabilitiesForService service) :
    ∃ entry ∈ SABCL_CAPABILITIES, entry.capability = capability := by
  obtain ⟨entry, hentry, rfl⟩ := List.mem_map.mp h
  exact ⟨entry, List.mem_of_mem_filter hentry, rfl⟩

/-- A recipient built from the catalogue dispatches only requests that belong to a
    capability of the catalogue. -/
theorem dispatched_belongs {service : String} {keyring : SabclKeyring}
    (h : (handle P (recipientFor service keyring) env raw).dispatched = some inner) :
    ∃ entry ∈ SABCL_CAPABILITIES, Belongs entry.capability inner := by
  obtain ⟨-, opened, -, -, hinner⟩ := handle_dispatched h
  obtain ⟨-, hassert⟩ := assertInner_ok hinner
  obtain ⟨capability, hfind, hbelongs, -⟩ := (assertCapability_ok_iff _ _).mp hassert
  obtain ⟨entry, hentry, rfl⟩ := mem_capabilitiesForService (List.mem_of_find?_eq_some hfind)
  exact ⟨entry, hentry, hbelongs⟩

/-- A dispatched request belongs to the capability whose route token its envelope carries if and
    only if the operation that the sender sealed lies within that capability. -/
theorem dispatched_within_capability_iff (P : Primitives) (service : String)
    (keyring : SabclKeyring) (routeSecret : Bytes) (env : Surroundings) (raw : Json)
    (inner : SabclInnerRequest)
    (hdispatched : (handle P (recipientFor service keyring) env raw).dispatched = some inner) :
    (∃ entry ∈ SABCL_CAPABILITIES,
        Carries P routeSecret raw entry ∧ Belongs entry.capability inner) ↔
      ∃ entry ∈ SABCL_CAPABILITIES,
        Carries P routeSecret raw entry ∧ opWithin entry.capability inner.op = true := by
  constructor
  · rintro ⟨entry, hentry, hcarries, hbelongs⟩
    exact ⟨entry, hentry, hcarries, hbelongs.op⟩
  · rintro ⟨entry, hentry, hcarries, hop⟩
    obtain ⟨entry', hentry', hbelongs⟩ := dispatched_belongs hdispatched
    have heq : entry' = entry := opWithin_unique hentry' hentry hbelongs.op hop
    exact ⟨entry, hentry, hcarries, heq ▸ hbelongs⟩

/-! ## A posting under the token of `ledger.accounts` -/

section
variable (payload : Json) (text : String)

/-- A stand-in for the primitives that agrees with them on one message: its payload is `payload`,
    whose JSON text is `text`, and opening a sealed message gives back its plaintext. -/
def plainPrimitives : Primitives where
  publicKey key := key
  acceptsKey _ := true
  diffieHellman a b := some (List.zipWith (· ^^^ ·) a b)
  hkdf secret _ _ := secret
  aesGcmSeal _ _ _ _ := ([99], List.replicate 16 0)
  aesGcmOpen _ _ _ _ _ := (padPayload (utf8 text)).toOption.map Prod.fst
  sign key message := (key ++ message).take 40
  verify key message signature := signature == (key ++ message).take 40
  hmacSha256 secret message := (secret ++ message).reverse
  stringify _ := utf8 text
  parse bytes := if bytes = utf8 text then some payload else none

/-- A key of 32 equal bytes. -/
def plainKey (b : UInt8) : Bytes := List.replicate 32 b

def gatewayIdentity : SabclPrivateIdentity where
  keyId := "gateway.v1"
  service := "gateway"
  encryptionPrivateKey := plainKey 1
  signingPrivateKey := plainKey 2
  notAfter := none

def ledgerIdentity : SabclPrivateIdentity where
  keyId := "ledger.v1"
  service := "ledger"
  encryptionPrivateKey := plainKey 3
  signingPrivateKey := plainKey 4
  notAfter := none

/-- The public halves of an identity under `plainPrimitives`. -/
def publicIdentity (identity : SabclPrivateIdentity) : SabclPublicIdentity where
  keyId := identity.keyId
  service := identity.service
  encryptionPublicKey := identity.encryptionPrivateKey
  signingPublicKey := identity.signingPrivateKey
  revoked := false
  notAfter := none

/-- The Ledger's keyring: it accepts messages of the Gateway. -/
def ledgerKeyring : SabclKeyring where
  own := ledgerIdentity
  peers := [publicIdentity gatewayIdentity]
  distinct := by decide

/-- The token of `ledger.accounts` under the route secret of the example. -/
def accountsToken : String :=
  (deriveRouteToken (plainPrimitives payload text) (plainKey 9)
    "ledger.accounts").toOption.getD ""

/-- `payload`, sealed by the Gateway to the Ledger under the token of `ledger.accounts`. -/
def sealedUnderAccounts : Json :=
  let sealed := sealRequest (plainPrimitives payload text)
    { sender := gatewayIdentity, recipient := publicIdentity ledgerIdentity,
      routeToken := accountsToken payload text, payload := payload, now := 1000 }
    { ephemeralPrivateKey := plainKey 5, nonce := List.replicate 12 6,
      messageId := List.replicate 16 7 }
  match sealed with
  | .ok (envelope, _) => envelope.toJson
  | .error _ => .null

/-- A recipient whose store has not seen the message, in the last second of its validity. -/
def freshSurroundings : Surroundings where
  openedAt := 1030
  claimedAt := 1030
  remember _ _ := .ok true
  dispatch _ := .ok (.object [("status", .number 201)])
  nonce := List.replicate 12 8

/-- The route token and the expiry of an envelope, with the operation that the
    Ledger dispatches for it. -/
def observed (raw : Json) : Option (String × ℕ × String) := do
  let envelope ← sabclEnvelopeSchema raw
  let inner ← (handle (plainPrimitives payload text) (recipientFor "ledger" ledgerKeyring)
    freshSurroundings raw).dispatched
  return (envelope.rt, envelope.exp, inner.op)

end

/-- A command to move money. -/
def postingPayload : Json :=
  .object [("op", .string "ledger.postings.create"), ("method", .string "POST"),
    ("path", .string "/internal/customer-transfers"), ("correlationId", .string "c-1")]

/-- `JSON.stringify(postingPayload)`. -/
def postingText : String :=
  "\x7b\"op\":\"ledger.postings.create\",\"method\":\"POST\"," ++
    "\"path\":\"/internal/customer-transfers\",\"correlationId\":\"c-1\"\x7d"

/-- A query for an account's balance. -/
def balancePayload : Json :=
  .object [("op", .string "ledger.accounts.balance"), ("method", .string "GET"),
    ("path", .string "/internal/customer-accounts/a-1/balance"), ("correlationId", .string "c-1")]

/-- `JSON.stringify(balancePayload)`. -/
def balanceText : String :=
  "\x7b\"op\":\"ledger.accounts.balance\",\"method\":\"GET\"," ++
    "\"path\":\"/internal/customer-accounts/a-1/balance\",\"correlationId\":\"c-1\"\x7d"

theorem observed_eq_some {payload : Json} {text rt op : String} {exp : ℕ} {raw : Json}
    (h : observed payload text raw = some (rt, exp, op)) :
    ∃ envelope inner, sabclEnvelopeSchema raw = some envelope ∧ envelope.rt = rt ∧
      envelope.exp = exp ∧
      (handle (plainPrimitives payload text) (recipientFor "ledger" ledgerKeyring)
        freshSurroundings raw).dispatched = some inner ∧ inner.op = op := by
  obtain ⟨envelope, henvelope, h⟩ := Option.bind_eq_some_iff.mp h
  obtain ⟨inner, hinner, h⟩ := Option.bind_eq_some_iff.mp h
  cases h
  exact ⟨envelope, inner, henvelope, rfl, rfl, hinner, rfl⟩

theorem posting_observed :
    observed postingPayload postingText (sealedUnderAccounts postingPayload postingText) =
      some (accountsToken postingPayload postingText, 1030, "ledger.postings.create") := by
  decide +kernel

theorem balance_observed :
    observed balancePayload balanceText (sealedUnderAccounts balancePayload balanceText) =
      some (accountsToken balancePayload balanceText, 1030, "ledger.accounts.balance") := by
  decide +kernel

/-- The Ledger dispatches a command to move money that was sealed under the token
    of `ledger.accounts`. -/
theorem accounts_token_moves_money :
    ¬ ∀ (P : Primitives) (service : String) (keyring : SabclKeyring) (routeSecret : Bytes)
        (env : Surroundings) (raw : Json) (inner : SabclInnerRequest),
      (handle P (recipientFor service keyring) env raw).dispatched = some inner →
      ∃ entry ∈ SABCL_CAPABILITIES,
        Carries P routeSecret raw entry ∧ Belongs entry.capability inner := by
  intro h
  obtain ⟨envelope, inner, henvelope, hrt, -, hdispatched, hop⟩ :=
    observed_eq_some posting_observed
  obtain ⟨entry, hentry, ⟨envelope', henvelope', htoken⟩, hbelongs⟩ :=
    h _ _ _ (plainKey 9) _ _ inner hdispatched
  obtain rfl : envelope = envelope' := Option.some.inj (henvelope.symm.trans henvelope')
  have hroute : ∀ entry ∈ SABCL_CAPABILITIES,
      opWithin entry.capability "ledger.postings.create" = true →
        entry.routeId = "ledger.postings" := by decide
  rw [hroute entry hentry (hop ▸ hbelongs.op), hrt] at htoken
  revert htoken
  decide +kernel

/-- A query under the token of `ledger.accounts` is dispatched within that capability. -/
theorem dispatched_within_capability_balance :
    ∃ inner : SabclInnerRequest, inner.op = "ledger.accounts.balance" ∧
      ∃ entry ∈ SABCL_CAPABILITIES,
        Carries (plainPrimitives balancePayload balanceText) (plainKey 9)
          (sealedUnderAccounts balancePayload balanceText) entry ∧
        Belongs entry.capability inner := by
  obtain ⟨envelope, inner, henvelope, hrt, -, hdispatched, hop⟩ :=
    observed_eq_some balance_observed
  refine ⟨inner, hop, (dispatched_within_capability_iff _ _ _ (plainKey 9) _ _ inner
    hdispatched).mpr ?_⟩
  obtain ⟨entry, hentry, hroute⟩ : ∃ entry ∈ SABCL_CAPABILITIES,
      entry.routeId = "ledger.accounts" ∧
        opWithin entry.capability "ledger.accounts.balance" = true := by
    decide
  refine ⟨entry, hentry, ⟨envelope, henvelope, ?_⟩, hop ▸ hroute.2⟩
  rw [hroute.1, hrt]
  decide +kernel

end AegisShield.Sabcl
