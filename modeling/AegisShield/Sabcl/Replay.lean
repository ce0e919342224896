import AegisShield.Common.Expiring
import AegisShield.Common.Pool
import AegisShield.Sabcl.Recipient

/-!
# Replay protection across routers and recipients

Any number of deliveries of one request envelope, to routers
(`router.service.ts`) and to recipients (`sabcl-recipient.ts`), against the
Redis replay store (`redis-replay-store.ts`). The freshness check, the reading of
the clock for the lifetime of the claim, the `SET NX EX` and the dispatch are
steps of their own, and any time may pass between them.

Results:
* `dispatched_once`: in every run in which each claim takes effect in a second not
  later than the envelope's expiry, the envelope is dispatched at most once.
* `dispatched_twice`: a claim that takes effect later can find the first one
  expired, and the envelope is dispatched again.
-/

namespace AegisShield.Sabcl.Replay

open Common

/-! ## Model of `RouterService.route` up to the claim -/

/-- `SabclRoute` (`route-token.ts`, lines 57-66). -/
structure SabclRoute where
  routeId : String
  service : String
  destination : String
  revoked : Bool
  deriving DecidableEq

/-- `SabclRouteTable.resolve` (`route-token.ts`, lines 115-137) on the table of
    tokens and routes. -/
def resolve (table : List (String × SabclRoute)) (token : String) : Except Thrown SabclRoute :=
  match fromBase64Url token "rt" with
  | .error _ => fail .SABCL_ROUTE_INVALID
  | .ok supplied =>
    match (table.filter fun r => bufferFromBase64Url r.1 == supplied && !r.2.revoked).getLast? with
    | none => fail .SABCL_ROUTE_INVALID
    | some (_, route) => .ok route

/-- The parts of `RouterConfig` that `route` reads before it forwards. -/
structure RouterConfig where
  maxEnvelopeBytes : ℕ
  keyring : SabclKeyring
  rateLimitPerMinute : ℕ
  routes : List (String × SabclRoute)

/-- The checks of `route` (`router.service.ts`, lines 69-100) with the clock at
    `now` and the sender's counter at `rate`. -/
def routerCheck (config : RouterConfig) (raw : Json) (rawByteLength now rate : ℕ) :
    Except Thrown SabclEnvelope := do
  failIf (rawByteLength > config.maxEnvelopeBytes) .SABCL_OVERSIZED
  let envelope ← parseEnvelope raw
  failIf (envelope.v ≠ SABCL_PROTOCOL_VERSION) .SABCL_UNSUPPORTED_VERSION
  failIf (now > envelope.exp) .SABCL_EXPIRED
  failIf (envelope.iat > now + SABCL_CLOCK_SKEW_SECONDS) .SABCL_EXPIRED
  failIf (envelope.exp > envelope.iat + SABCL_MAX_TTL_SECONDS) .SABCL_MALFORMED
  let _ ← config.keyring.peer envelope.skid now
  failIf (envelope.hl = 0) .SABCL_HOP_LIMIT_EXCEEDED
  failIf (rate > config.rateLimitPerMinute) .SABCL_ROUTE_INVALID "rate limit"
  let _ ← resolve config.routes envelope.rt
  return envelope

/-! ## Deliveries -/

/-- `remember` (`redis-replay-store.ts`, lines 41-49) at `now` milliseconds. -/
def remember (now ttlSeconds : ℕ) (cell : Cell Unit) : Option (Cell Unit) :=
  Cell.setNxEx now () (max 1 ttlSeconds) cell

/-- Where the envelope was delivered. -/
inductive Arrival where
  | recipient
  | router (rawByteLength : ℕ)
  deriving DecidableEq

/-- Where a delivery stands. -/
inductive Delivery where
  /-- At a recipient, before `openRequest`. -/
  | arrived
  /-- Opened, before the clock reading for the lifetime of the claim. -/
  | opened (envelope : SabclEnvelope) (request : OpenedRequest)
  /-- Before the `SET NX EX`. -/
  | claiming (request : OpenedRequest) (ttl : ℕ)
  /-- The message id was unseen; before the dispatch. -/
  | claimed (request : OpenedRequest)
  | dispatched (inner : SabclInnerRequest)
  /-- At a router, before its checks. -/
  | routing (rawByteLength : ℕ)
  /-- At a router, before its `SET NX EX`. -/
  | routerClaiming (ttl : ℕ)
  | forwarded
  | rejected (error : SabclError)

/-- The clock in milliseconds, and what the replay store holds for the message id
    under the recipients' key and under the routers' key. -/
structure Shared where
  now : ℕ
  cell : Cell Unit
  routerCell : Cell Unit

/-- The clock reading `Math.floor(Date.now() / 1000)`. -/
def Shared.seconds (s : Shared) : ℕ := s.now / 1000

variable (P : Primitives) (options : SabclRecipientOptions) (router : RouterConfig)
  (samePrefix : Bool) (raw : Json)

/-- One step of a delivery. `samePrefix` says whether routers and recipients use
    one key for a message id; `rate` is the sender's counter at the router. -/
def deliveryNext (s : Shared) (delivery : Delivery) (rate : ℕ) : Option (Shared × Delivery) :=
  match delivery with
  | .arrived =>
    match receive P options raw s.seconds with
    | .error error => some (s, .rejected (toSabclError error))
    | .ok (envelope, request) => some (s, .opened envelope request)
  | .opened envelope request => some (s, .claiming request (replayTtl envelope s.seconds))
  | .claiming request ttl =>
    match remember s.now ttl s.cell with
    | none => some (s, .rejected { code := .SABCL_REPLAYED })
    | some cell => some ({ s with cell := cell }, .claimed request)
  | .claimed request =>
    match assertInner options request with
    | .error error => some (s, .rejected (toSabclError error))
    | .ok inner => some (s, .dispatched inner)
  | .routing rawByteLength =>
    match routerCheck router raw rawByteLength s.seconds rate with
    | .error error => some (s, .rejected (toSabclError error))
    | .ok envelope => some (s, .routerClaiming (replayTtl envelope s.seconds))
  | .routerClaiming ttl =>
    match remember s.now ttl (if samePrefix then s.cell else s.routerCell) with
    | none => some (s, .rejected { code := .SABCL_REPLAYED })
    | some cell =>
      some (if samePrefix then { s with cell := cell } else { s with routerCell := cell },
        .forwarded)
  | .dispatched _ | .forwarded | .rejected _ => none

/-- Any number of deliveries of the envelope, the forwarded ones included, with
    time passing in between. -/
def pool : Pool Shared Delivery Arrival ℕ ℕ where
  init s := s.cell = none ∧ s.routerCell = none
  start _ arrival :=
    match arrival with
    | .recipient => .arrived
    | .router rawByteLength => .routing rawByteLength
  next := deliveryNext P options router samePrefix raw
  env s elapsed := some { s with now := s.now + elapsed }

abbrev State := Pool.State Shared Delivery
abbrev Action := Pool.Action Arrival ℕ ℕ

namespace Delivery

/-- The recipient dispatched the request. -/
def isDispatched : Delivery → Bool
  | .dispatched _ => true
  | _ => false

/-- The recipient holds the claim, or used it to dispatch. -/
def holdsClaim : Delivery → Bool
  | .claimed _ | .dispatched _ => true
  | _ => false

/-- The lifetime of the claim that the delivery is about to make. -/
def claimTtl? : Delivery → Option ℕ
  | .claiming _ ttl | .routerClaiming ttl => some ttl
  | _ => none

end Delivery

/-- The number of times the envelope was dispatched. -/
def dispatches (s : State) : ℕ := s.calls.countP Delivery.isDispatched

/-- A claim takes effect in a second not later than `exp`. -/
def claimsInTime (exp : ℕ) (s : State) : Action → Bool
  | .next n _ =>
    match s.calls[n]? with
    | some delivery => delivery.claimTtl?.isNone || decide (s.shared.seconds ≤ exp)
    | none => true
  | _ => true

/-! ## Claims and their lifetime -/

variable {P options router samePrefix raw} {exp : ℕ} {shared shared' : Shared}
  {delivery delivery' : Delivery} {calls : List Delivery} {rate n : ℕ}

/-- The entry is present at every moment whose second is not later than `exp`. -/
def Outlives (exp : ℕ) (cell : Cell Unit) : Prop :=
  ∃ e, cell = some e ∧ ∀ t, t / 1000 ≤ exp → e.live t = true

/-- The lifetime of a claim, from the clock reading it was computed at. -/
theorem replayTtl_covers (envelope : SabclEnvelope) (now : ℕ) :
    envelope.exp + 1 ≤ replayTtl envelope now + now := by
  unfold replayTtl
  omega

/-- A claim made in time outlives the envelope, and finds no entry that does. -/
theorem remember_outlives {now ttl : ℕ} {cell cell' : Cell Unit}
    (hclaim : remember now ttl cell = some cell') (httl : exp + 1 ≤ ttl + now / 1000)
    (hnow : now / 1000 ≤ exp) : ¬ Outlives exp cell ∧ Outlives exp cell' := by
  obtain ⟨hfree, rfl⟩ := Cell.setNxEx_eq_some.mp hclaim
  constructor
  · rintro ⟨e, he, hlive⟩
    have hdead := hfree e he
    rw [hlive now hnow] at hdead
    cases hdead
  · refine ⟨_, rfl, fun t ht => ?_⟩
    have hmax : ttl ≤ max 1 ttl := le_max_right _ _
    simp only [Entry.live, decide_eq_true_eq]
    omega

/-! ## The invariant -/

/-- Every lifetime about to be claimed reaches beyond `exp`; at most one delivery
    holds the claim, and while one does its entry outlives the envelope. -/
structure Inv (exp : ℕ) (shared : Shared) (calls : List Delivery) : Prop where
  opened : ∀ envelope request, .opened envelope request ∈ calls → envelope.exp = exp
  ttl : ∀ d ∈ calls, ∀ ttl, d.claimTtl? = some ttl → exp + 1 ≤ ttl + shared.seconds
  once : calls.countP Delivery.holdsClaim ≤ 1
  held : 0 < calls.countP Delivery.holdsClaim → Outlives exp shared.cell

/-- What a step must establish about the delivery it moves, when it leaves the
    store alone and takes no claim. -/
theorem Inv.move (h : Inv exp shared calls) (hn : calls[n]? = some delivery)
    (hclaim : delivery'.holdsClaim.toNat ≤ delivery.holdsClaim.toNat)
    (hopened : ∀ envelope request, delivery' = .opened envelope request → envelope.exp = exp)
    (httl : ∀ ttl, delivery'.claimTtl? = some ttl → exp + 1 ≤ ttl + shared.seconds) :
    Inv exp shared (calls.set n delivery') := by
  have hcount := Pool.countP_next (f := Delivery.holdsClaim) delivery' hn
  refine ⟨fun envelope request hmem => ?_, fun d hd ttl hdttl => ?_, ?_, fun hpos => ?_⟩
  · rcases List.mem_or_eq_of_mem_set hmem with hmem | heq
    · exact h.opened envelope request hmem
    · exact hopened envelope request heq.symm
  · rcases List.mem_or_eq_of_mem_set hd with hmem | rfl
    · exact h.ttl d hmem ttl hdttl
    · exact httl ttl hdttl
  · have := h.once
    omega
  · exact h.held (by omega)

/-- The invariant does not mention the routers' own entry. -/
theorem Inv.congr (h : Inv exp shared calls) (hcell : shared'.cell = shared.cell)
    (hnow : shared'.now = shared.now) : Inv exp shared' calls where
  opened := h.opened
  ttl := by simpa only [Shared.seconds, hnow] using h.ttl
  once := h.once
  held hpos := hcell ▸ h.held hpos

/-- A delivery that does not hold the claim takes it: no other one holds it. -/
theorem Inv.take (h : Inv exp shared calls) (hn : calls[n]? = some delivery)
    (hfree : ¬ Outlives exp shared.cell) (hcell : Outlives exp shared'.cell)
    (hnow : shared'.now = shared.now)
    (hopened : ∀ envelope request, delivery' ≠ .opened envelope request)
    (httl : delivery'.claimTtl? = none) : Inv exp shared' (calls.set n delivery') := by
  have hzero : calls.countP Delivery.holdsClaim = 0 := by
    by_contra hne
    exact hfree (h.held (by omega))
  have hcount := Pool.countP_next (f := Delivery.holdsClaim) delivery' hn
  have hle : delivery'.holdsClaim.toNat ≤ 1 := Bool.toNat_le _
  refine ⟨fun envelope request hmem => ?_, fun d hd ttl hdttl => ?_, by omega, fun _ => hcell⟩
  · rcases List.mem_or_eq_of_mem_set hmem with hmem | heq
    · exact h.opened envelope request hmem
    · exact (hopened envelope request heq.symm).elim
  · rcases List.mem_or_eq_of_mem_set hd with hmem | rfl
    · simpa only [Shared.seconds, hnow] using h.ttl d hmem ttl hdttl
    · rw [httl] at hdttl; cases hdttl

/-- The envelope that a router accepts is the one it was given. -/
theorem routerCheck_ok {rawByteLength now : ℕ} {envelope : SabclEnvelope}
    (h : routerCheck router raw rawByteLength now rate = .ok envelope) :
    sabclEnvelopeSchema raw = some envelope := by
  simp only [routerCheck, bind_ok] at h
  obtain ⟨-, -, e, he, -, -, -, -, -, -, -, -, -, -, -, -, -, -, -, -, hret⟩ := h
  cases hret
  exact parseEnvelope_ok.mp he

/-! ## One step -/

/-- The steps of a recipient up to its claim. -/
theorem inv_open (h : Inv exp shared calls) {envelope : SabclEnvelope}
    (hraw : sabclEnvelopeSchema raw = some envelope) (hexp : envelope.exp = exp)
    (hn : calls[n]? = some .arrived)
    (hstep : deliveryNext P options router samePrefix raw shared .arrived rate =
      some (shared', delivery')) : Inv exp shared' (calls.set n delivery') := by
  simp only [deliveryNext] at hstep
  split at hstep <;> cases hstep
  · exact h.move hn le_rfl nofun nofun
  next e request hreceive =>
    obtain ⟨he, -⟩ := receive_ok hreceive
    obtain rfl : envelope = e := Option.some.inj (hraw.symm.trans he)
    refine h.move hn le_rfl (fun e' _ heq => ?_) nofun
    cases heq
    exact hexp

/-- The claim of a recipient, in time. -/
theorem inv_claim (h : Inv exp shared calls) {request : OpenedRequest} {ttl : ℕ}
    (hn : calls[n]? = some (.claiming request ttl)) (htime : shared.seconds ≤ exp)
    (hstep : deliveryNext P options router samePrefix raw shared (.claiming request ttl) rate =
      some (shared', delivery')) : Inv exp shared' (calls.set n delivery') := by
  simp only [deliveryNext] at hstep
  split at hstep <;> cases hstep
  · exact h.move hn le_rfl nofun nofun
  next cell hclaim =>
    have httl := h.ttl _ (Pool.mem_of_getElem? hn) ttl rfl
    obtain ⟨hfree, hcell⟩ := remember_outlives hclaim httl htime
    exact h.take hn hfree hcell rfl nofun rfl

/-- The claim of a router, in time: under one key for both it blocks the recipients. -/
theorem inv_routerClaim (h : Inv exp shared calls) {ttl : ℕ}
    (hn : calls[n]? = some (.routerClaiming ttl)) (htime : shared.seconds ≤ exp)
    (hstep : deliveryNext P options router samePrefix raw shared (.routerClaiming ttl) rate =
      some (shared', delivery')) : Inv exp shared' (calls.set n delivery') := by
  simp only [deliveryNext] at hstep
  split at hstep <;> cases hstep
  · exact h.move hn le_rfl nofun nofun
  next cell hclaim =>
    cases samePrefix with
    | false =>
      have hmove : Inv exp shared (calls.set n .forwarded) :=
        h.move hn le_rfl nofun nofun
      exact hmove.congr rfl rfl
    | true =>
      have httl := h.ttl _ (Pool.mem_of_getElem? hn) ttl rfl
      obtain ⟨hfree, hcell⟩ := remember_outlives hclaim httl htime
      exact h.take hn hfree hcell rfl nofun rfl

theorem inv_next (h : Inv exp shared calls) {envelope : SabclEnvelope}
    (hraw : sabclEnvelopeSchema raw = some envelope) (hexp : envelope.exp = exp)
    (hn : calls[n]? = some delivery)
    (htime : delivery.claimTtl?.isSome = true → shared.seconds ≤ exp)
    (hstep : deliveryNext P options router samePrefix raw shared delivery rate =
      some (shared', delivery')) : Inv exp shared' (calls.set n delivery') := by
  cases delivery with
  | arrived => exact inv_open h hraw hexp hn hstep
  | opened e request =>
    cases hstep
    have he := h.opened e request (Pool.mem_of_getElem? hn)
    refine h.move hn le_rfl nofun (fun ttl httl => ?_)
    cases httl
    exact he ▸ replayTtl_covers e shared.seconds
  | claiming request ttl => exact inv_claim h hn (htime rfl) hstep
  | claimed request =>
    simp only [deliveryNext] at hstep
    split at hstep <;> cases hstep
    · -- the claim is spent without a dispatch
      exact h.move hn (Nat.zero_le _) nofun nofun
    · exact h.move hn le_rfl nofun nofun
  | routing rawByteLength =>
    simp only [deliveryNext] at hstep
    split at hstep <;> cases hstep
    · exact h.move hn le_rfl nofun nofun
    next e hcheck =>
      obtain rfl : envelope = e := Option.some.inj (hraw.symm.trans (routerCheck_ok hcheck))
      refine h.move hn le_rfl nofun (fun ttl httl => ?_)
      cases httl
      exact hexp ▸ replayTtl_covers envelope shared.seconds
  | routerClaiming ttl => exact inv_routerClaim h hn (htime rfl) hstep
  | dispatched | forwarded | rejected => cases hstep

theorem inv_step {s t : State} {a : Action} (h : Inv exp s.shared s.calls)
    {envelope : SabclEnvelope} (hraw : sabclEnvelopeSchema raw = some envelope)
    (hexp : envelope.exp = exp) (htime : claimsInTime exp s a = true)
    (hstep : (pool P options router samePrefix raw).machine.step s a = some t) :
    Inv exp t.shared t.calls := by
  cases a with
  | start arrival =>
    cases Pool.step_start hstep
    have hnew : ∀ d ∈ [(pool P options router samePrefix raw).start s.shared arrival],
        d.holdsClaim = false ∧ d.claimTtl? = none ∧ ∀ e r, d ≠ .opened e r := by
      cases arrival <;> simp [pool, Delivery.holdsClaim, Delivery.claimTtl?]
    obtain ⟨hclaim, hnone, hopened⟩ := hnew _ (List.mem_singleton_self _)
    refine ⟨fun e r hmem => ?_, fun d hd ttl httl => ?_, ?_, fun hpos => ?_⟩
    · rcases List.mem_append.mp hmem with hmem | hmem
      · exact h.opened e r hmem
      · exact (hopened e r (List.mem_singleton.mp hmem).symm).elim
    · rcases List.mem_append.mp hd with hd | hd
      · exact h.ttl d hd ttl httl
      · cases List.mem_singleton.mp hd
        rw [hnone] at httl
        cases httl
    · simpa [List.countP_append, hclaim] using h.once
    · exact h.held (by simpa [List.countP_append, hclaim] using hpos)
  | next n rate =>
    obtain ⟨delivery, s', delivery', hn, hnext, rfl⟩ := Pool.step_next hstep
    refine inv_next h hraw hexp hn (fun hsome => ?_) hnext
    simpa [claimsInTime, hn, Option.isNone_iff_eq_none, Option.isSome_iff_ne_none.mp hsome]
      using htime
  | env elapsed =>
    obtain ⟨s', hs', rfl⟩ := Pool.step_env hstep
    cases hs'
    refine ⟨h.opened, fun d hd ttl httl => ?_, h.once, h.held⟩
    have hle := h.ttl d hd ttl httl
    simp only [Shared.seconds] at hle ⊢
    omega

theorem inv_init {s : State} (h : (pool P options router samePrefix raw).machine.init s) :
    Inv exp s.shared s.calls := by
  obtain ⟨-, hcalls⟩ := h
  rw [hcalls]
  exact ⟨by simp, by simp, by simp, by simp⟩

/-- Every dispatch used a claim. -/
theorem dispatches_le (s : State) : dispatches s ≤ s.calls.countP Delivery.holdsClaim := by
  refine List.countP_mono_left fun d _ hd => ?_
  cases d <;> simp_all [Delivery.isDispatched, Delivery.holdsClaim]

/-! ## Main results -/

/-- In a run in which every claim takes effect in a second not later than the envelope's expiry,
    recipients dispatch the envelope at most once. -/
theorem dispatched_once (P : Primitives) (options : SabclRecipientOptions)
    (router : RouterConfig) (samePrefix : Bool) (raw : Json) (envelope : SabclEnvelope)
    (hraw : sabclEnvelopeSchema raw = some envelope) (s : State)
    (h : (pool P options router samePrefix raw).machine.Reachable
      (fun s a => claimsInTime envelope.exp s a = true) s) :
    dispatches s ≤ 1 := by
  have hinv := Machine.invariant (I := fun s => Inv envelope.exp s.shared s.calls)
    (fun _ hs => inv_init hs)
    (fun _ _ _ hs htime hstep => inv_step hs hraw rfl htime hstep) h
  exact (dispatches_le s).trans hinv.once

/-! ## A claim that takes effect after the expiry -/

/-- No delivery yet, in the last second of an envelope that expires at 1030. -/
def lastSecond : State where
  shared := { now := 1030000, cell := none, routerCell := none }
  calls := []

theorem lastSecond_init : (pool P options router samePrefix raw).machine.init lastSecond :=
  ⟨⟨rfl, rfl⟩, rfl⟩

section LastSecond

variable {envelope : SabclEnvelope} {request : OpenedRequest} {inner : SabclInnerRequest}
  {C : State → Action → Prop}

theorem step_next (hn : calls[n]? = some delivery)
    (hnext : deliveryNext P options router samePrefix raw shared delivery rate =
      some (shared', delivery')) :
    (pool P options router samePrefix raw).machine.step ⟨shared, calls⟩ (.next n rate) =
      some ⟨shared', calls.set n delivery'⟩ := by
  simp only [pool, Pool.machine, hn, hnext, Option.map_some]

theorem claimsInTime_next (hn : calls[n]? = some delivery) (hintime : shared.seconds ≤ exp) :
    claimsInTime exp ⟨shared, calls⟩ (.next n rate) = true := by
  simp only [claimsInTime, hn, decide_eq_true hintime, Bool.or_true]

theorem opened_next (hreceive : receive P options raw 1030 = .ok (envelope, request))
    (hnow : shared.seconds = 1030) :
    deliveryNext P options router samePrefix raw shared .arrived rate =
      some (shared, .opened envelope request) := by
  simp only [deliveryNext, hnow, hreceive]

/-- In the last second the lifetime of a claim is one second. -/
theorem claiming_next (hexp : envelope.exp = 1030) (hnow : shared.seconds = 1030) :
    deliveryNext P options router samePrefix raw shared (.opened envelope request) rate =
      some (shared, .claiming request 1) := by
  have httl : replayTtl envelope shared.seconds = 1 := by
    unfold replayTtl
    omega
  simp only [deliveryNext, httl]

theorem claimed_next {ttl : ℕ} {cell : Cell Unit}
    (hfree : remember shared.now ttl shared.cell = some cell) :
    deliveryNext P options router samePrefix raw shared (.claiming request ttl) rate =
      some ({ shared with cell := cell }, .claimed request) := by
  simp only [deliveryNext, hfree]

theorem dispatched_next (hinner : assertInner options request = .ok inner) :
    deliveryNext P options router samePrefix raw shared (.claimed request) rate =
      some (shared, .dispatched inner) := by
  simp only [deliveryNext, hinner]

/-- Two deliveries have computed the lifetime of their claims, and the first one has
    claimed and dispatched. -/
theorem first_dispatched (router : RouterConfig) (samePrefix : Bool)
    (hreceive : receive P options raw 1030 = .ok (envelope, request))
    (hexp : envelope.exp = 1030) (hinner : assertInner options request = .ok inner) :
    (pool P options router samePrefix raw).machine.Reachable
      (fun s a => claimsInTime 1030 s a = true)
      ⟨{ now := 1030000, cell := Cell.setEx 1030000 () 1, routerCell := none },
        [.dispatched inner, .claiming request 1]⟩ := by
  have hnow : lastSecond.shared.seconds = 1030 := by decide
  have hstart : (pool P options router samePrefix raw).machine.Reachable
      (fun s a => claimsInTime 1030 s a = true) lastSecond := .init lastSecond_init
  have hfirst := hstart.step (a := .start .recipient) rfl rfl
  have hboth := hfirst.step (a := .start .recipient) rfl rfl
  have hopened := hboth.step (a := .next 0 0) rfl (step_next rfl (opened_next hreceive hnow))
  have hopened' := hopened.step (a := .next 1 0) rfl (step_next rfl (opened_next hreceive hnow))
  have hclaiming := hopened'.step (a := .next 0 0) rfl (step_next rfl (claiming_next hexp hnow))
  have hclaiming' := hclaiming.step (a := .next 1 0) rfl (step_next rfl (claiming_next hexp hnow))
  have hclaimed := hclaiming'.step (a := .next 0 0) (claimsInTime_next rfl hnow.le)
    (step_next rfl (claimed_next rfl))
  exact hclaimed.step (a := .next 0 0) rfl (step_next rfl (dispatched_next hinner))

/-- Two deliveries compute the lifetime of their claims in the last second of an envelope's
    validity. The second claim takes effect after the first one's entry has expired. -/
theorem two_dispatches (router : RouterConfig) (samePrefix : Bool)
    (hreceive : receive P options raw 1030 = .ok (envelope, request))
    (hexp : envelope.exp = 1030) (hinner : assertInner options request = .ok inner) :
    ∃ s : State, (pool P options router samePrefix raw).machine.Reachable Machine.always s ∧
      dispatches s = 2 := by
  have hfirst := (first_dispatched router samePrefix hreceive hexp hinner).mono
    (fun _ _ _ => trivial)
  have hexpired : remember 1031001 1 (Cell.setEx 1030000 () 1) = some (Cell.setEx 1031001 () 1) := by
    decide
  have hlater := hfirst.step (a := .env 1001) trivial rfl
  have hclaimed := hlater.step (a := .next 1 0) trivial (step_next rfl (claimed_next hexpired))
  exact ⟨_, hclaimed.step (a := .next 1 0) trivial (step_next rfl (dispatched_next hinner)), rfl⟩

/-- A second delivery of an envelope, claimed in time, is rejected. -/
theorem one_dispatch (router : RouterConfig) (samePrefix : Bool)
    (hreceive : receive P options raw 1030 = .ok (envelope, request))
    (hexp : envelope.exp = 1030) (hinner : assertInner options request = .ok inner) :
    ∃ s : State, (pool P options router samePrefix raw).machine.Reachable
        (fun s a => claimsInTime 1030 s a = true) s ∧ s.calls.length = 2 ∧ dispatches s = 1 := by
  have hintime : lastSecond.shared.seconds ≤ 1030 := by decide
  have hclaimed : remember 1030000 1 (Cell.setEx 1030000 () 1) = none := by decide
  have hrejected : deliveryNext P options router samePrefix raw
      { now := 1030000, cell := Cell.setEx 1030000 () 1, routerCell := none }
      (.claiming request 1) 0 =
        some ({ now := 1030000, cell := Cell.setEx 1030000 () 1, routerCell := none },
          .rejected { code := .SABCL_REPLAYED }) := by
    simp only [deliveryNext, hclaimed]
  exact ⟨_, (first_dispatched router samePrefix hreceive hexp hinner).step (a := .next 1 0)
    (claimsInTime_next rfl hintime) (step_next rfl hrejected), rfl, rfl⟩

end LastSecond

/-- The sealed balance query opens, and passes the catalogue, in its last second. -/
theorem balance_opens : ∃ envelope request inner,
    sabclEnvelopeSchema (sealedUnderAccounts balancePayload balanceText) = some envelope ∧
    receive (plainPrimitives balancePayload balanceText) (recipientFor "ledger" ledgerKeyring)
      (sealedUnderAccounts balancePayload balanceText) 1030 = .ok (envelope, request) ∧
    envelope.exp = 1030 ∧ assertInner (recipientFor "ledger" ledgerKeyring) request = .ok inner := by
  obtain ⟨envelope, inner, henvelope, -, hexp, hdispatched, -⟩ :=
    observed_eq_some balance_observed
  obtain ⟨envelope', request, hreceive, -, hinner⟩ := handle_dispatched hdispatched
  obtain rfl : envelope = envelope' :=
    Option.some.inj (henvelope.symm.trans (receive_ok hreceive).1)
  exact ⟨envelope, request, inner, henvelope, hreceive, hexp, hinner⟩

/-- The router of the examples knows no route. -/
def closedRouter : RouterConfig where
  maxEnvelopeBytes := SABCL_MAX_ENVELOPE_BYTES
  keyring := ledgerKeyring
  rateLimitPerMinute := 600
  routes := []

/-- Two recipients dispatch one envelope. -/
theorem dispatched_twice :
    ¬ ∀ (P : Primitives) (options : SabclRecipientOptions) (router : RouterConfig)
        (samePrefix : Bool) (raw : Json) (s : State),
      (pool P options router samePrefix raw).machine.Reachable Machine.always s →
        dispatches s ≤ 1 := by
  intro h
  obtain ⟨envelope, request, inner, -, hreceive, hexp, hinner⟩ := balance_opens
  obtain ⟨s, hs, htwo⟩ := two_dispatches closedRouter false hreceive hexp hinner
  have hle := h _ _ _ _ _ s hs
  omega

/-- One of two deliveries of the balance query is dispatched when both claim in time. -/
theorem dispatched_once_of_two :
    ∃ s : State, s.calls.length = 2 ∧ dispatches s = 1 ∧ dispatches s ≤ 1 := by
  obtain ⟨envelope, request, inner, hraw, hreceive, hexp, hinner⟩ := balance_opens
  obtain ⟨s, hs, hlength, hone⟩ := one_dispatch closedRouter false hreceive hexp hinner
  exact ⟨s, hlength, hone, dispatched_once _ _ closedRouter false _ envelope hraw s
    (by rw [hexp]; exact hs)⟩

end AegisShield.Sabcl.Replay
