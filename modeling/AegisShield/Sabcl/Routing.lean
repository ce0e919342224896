import AegisShield.Common.Interleaving
import AegisShield.Sabcl.Router

/-!
# A router at work

Any number of concurrent calls of `RouterService.route` in one process, against one replay store
in Redis and the counters of `SabclAuditCounters` (`audit.ts`). Each question of a call is a step
of its own, time passes between them, and what senders, the rate limit and the recipients answer
is arbitrary. A command to Redis may fail before it takes effect or after.

Results:
* `counters_tell`: the counters are the tally of what the callers were answered.
* `forwarded_once`: an envelope whose claims take effect by its expiry is forwarded at most once.
-/

namespace AegisShield.Sabcl.Router

open Common Interaction
open Replay (Outlives remember_outlives)

/-! ## Model of the process -/

/-- What an answer takes from outside. -/
structure Outside where
  link : Link
  rate : Option ℕ
  fetched : Fetched

/-- The clock in milliseconds, the replay store by message id, and the counters. -/
structure Shared where
  now : ℕ
  replay : String → Cell Unit
  counts : SabclAuditEvent → ℕ

/-- The clock reading `Math.floor(Date.now() / 1000)`. -/
def Shared.seconds (s : Shared) : ℕ := s.now / 1000

/-- `RouterRedisService.remember` (`redis.service.ts`, lines 54-60), over a link that is up. -/
def Shared.claim (s : Shared) (messageId : String) (ttlSeconds : ℕ) : Shared × Bool :=
  match Replay.remember s.now ttlSeconds (s.replay messageId) with
  | none => (s, false)
  | some cell => ({ s with replay := Function.update s.replay messageId cell }, true)

/-- `SabclAuditCounters.record` (`audit.ts`, lines 69-71). -/
def Shared.record (s : Shared) (event : SabclAuditEvent) : Shared :=
  { s with counts := Function.update s.counts event (s.counts event + 1) }

/-- The answer to a question. -/
def Shared.answer (s : Shared) :
    (q : RouterQuestion) → Outside → Option (Shared × RouterAnswer q)
  | .now, _ => some (s, s.seconds)
  | .incrementRate _, outside => some (s, outside.rate)
  | .remember messageId ttlSeconds, outside =>
    match outside.link with
    | .up => some ((s.claim messageId ttlSeconds).1, some (s.claim messageId ttlSeconds).2)
    | .down => some (s, none)
    | .lost => some ((s.claim messageId ttlSeconds).1, none)
  | .post _ _, outside => some (s, outside.fetched)
  | .audit record, _ => some (s.record record.event, ())

/-- The process: no event has been counted and no message id claimed when it starts, and time may
    pass at any moment. -/
def process : Host RouterAnswer Shared Outside ℕ where
  init s := (∀ event, s.counts event = 0) ∧ ∀ messageId, s.replay messageId = none
  answer := Shared.answer
  env s elapsed := some { s with now := s.now + elapsed }

/-- What a call of `route` is given. -/
structure Delivery where
  raw : Json
  rawByteLength : ℕ

section
variable {P : Primitives} (sha256 : Bytes → List Char) (config : RouterConfig P)

/-- A call of `route`. -/
abbrev routeDelivery (delivery : Delivery) : Interaction RouterAnswer Empty RouterOutcome :=
  route sha256 config delivery.raw delivery.rawByteLength

/-- The calls of `route`, interleaved. -/
def routing : Pool Shared (Task Delivery RouterAnswer Empty RouterOutcome) Delivery Outside ℕ :=
  process.pool (routeDelivery sha256 config)

end

abbrev Call := Task Delivery RouterAnswer Empty RouterOutcome
abbrev State := Pool.State Shared Call
abbrev Action := Pool.Action Delivery Outside ℕ

/-! ## The counters -/

/-- The event of an outcome, as its caller can tell it. -/
def RouterOutcome.event (outcome : RouterOutcome) : Option SabclAuditEvent :=
  if outcome.status = 200 then some .envelopeAccepted
  else (extractErrorCode outcome.body).map eventForCode

/-- The call has returned an outcome of the event. -/
def answeredWith (event : SabclAuditEvent) (call : Call) : Bool :=
  match call.rest with
  | .done (.ok outcome) => outcome.event == some event
  | _ => false

/-- The weight of a recording in the count of an event. -/
def recording (event : SabclAuditEvent) : Sigma RouterAnswer → ℕ
  | ⟨.audit record, _⟩ => (record.event == event).toNat
  | _ => 0

section
variable {P : Primitives} {sha256 : Bytes → List Char} {config : RouterConfig P} {call : Call}
  {t : History RouterAnswer} {event : SabclAuditEvent} {s s' : Shared} {q : RouterQuestion}
  {outside : Outside} {a : RouterAnswer q}

theorem weigh_unrecorded (h : Unrecorded t) : weigh (recording event) t = 0 := by
  refine List.sum_eq_zero fun n hn => ?_
  obtain ⟨⟨q, a⟩, hx, rfl⟩ := List.mem_map.mp hn
  have hclean := h _ hx
  cases q with
  | audit record => cases hclean
  | _ => rfl

theorem statusForCode_ne (code : SabclErrorCode) : statusForCode code ≠ 200 := by
  cases code <;> decide

/-- The recordings of a call that has ended. -/
theorem weigh_settled {raw : Json} {rawByteLength : ℕ} {outcome : RouterOutcome}
    (h : Settled sha256 config raw rawByteLength t outcome) :
    weigh (recording event) t = (outcome.event == some event).toNat := by
  cases h with
  | accepted envelope now rate route reply response hadmits hroute hreply =>
    simp [approach, weigh, recording, RouterOutcome.event, acceptedRecord]
  | refused t envelope thrown hclean hreplies =>
    rw [weigh_append, weigh_unrecorded hclean, weigh_singleton]
    simp [recording, refusedRecord, RouterOutcome.event, statusForCode_ne,
      extractErrorCode_toSafeResponse]

/-- A call has recorded the event of its outcome once it has ended, and nothing before. -/
theorem weigh_started
    (h : call.Started (routeDelivery sha256 config)) :
    weigh (recording event) call.past = (answeredWith event call).toNat := by
  unfold Task.Started at h
  unfold answeredWith
  cases hrest : call.rest with
  | ask q next =>
    rw [hrest] at h
    exact weigh_unrecorded (asks_route_unrecorded ⟨next, h⟩)
  | done result =>
    rw [hrest] at h
    cases result with
    | error e => exact e.elim
    | ok outcome => exact weigh_settled (settled h)

theorem counts_answer (h : s.answer q outside = some (s', a)) :
    s'.counts event = s.counts event + recording event ⟨q, a⟩ := by
  cases q with
  | now | incrementRate | post => cases h; rfl
  | remember messageId ttlSeconds =>
    have hclaim : (s.claim messageId ttlSeconds).1.counts = s.counts := by
      unfold Shared.claim
      split <;> rfl
    simp only [Shared.answer] at h
    split at h <;> cases h
    · exact congrFun hclaim event
    · rfl
    · exact congrFun hclaim event
  | audit record =>
    cases h
    simp only [Shared.record, Function.update_apply, recording]
    by_cases heq : event = record.event
    · simp [heq]
    · rw [if_neg heq, beq_false_of_ne (Ne.symm heq)]
      rfl

end

/-- At every moment each counter is the number of calls that have been answered with its event:
    with 200 for an accepted envelope, and else with a code of that event. -/
theorem counters_tell (P : Primitives) (sha256 : Bytes → List Char) (config : RouterConfig P)
    (s : State) (h : (routing sha256 config).machine.Reachable Machine.always s)
    (event : SabclAuditEvent) :
    s.shared.counts event = s.calls.countP (answeredWith event) := by
  exact tally_countP (H := process) (m := fun s => s.counts event) (fun s hs => hs.1 event)
    (fun s q outside s' a ha => counts_answer ha) (fun s x s' hs => by cases hs; rfl)
    (fun call hcall => weigh_started hcall) h

/-! ### Two deliveries of one request -/

/-- A process that has just started, in the second 1005. -/
def started : Shared where
  now := 1005000
  replay _ := none
  counts _ := 0

/-- The request. -/
def query₁ : Delivery where
  raw := (gatewayEnvelope "cXVlcnk").toJson
  rawByteLength := 700

/-- Redis is there, the sender has sent one envelope, and the Ledger replies. -/
def replying : Outside where
  link := .up
  rate := some 1
  fetched := .answered true (ledgerReply "cmVwbHk").toJson

/-- The first delivery is forwarded and answered; the second one, which has read the clock in
    between, comes too late. -/
def twoDeliveries : List Action :=
  [.start query₁, .next 0 replying, .next 0 replying, .start query₁, .next 1 replying,
    .next 0 replying, .next 0 replying, .next 0 replying, .next 1 replying, .next 1 replying,
    .next 1 replying]

/-- One envelope has been accepted, and one caller has a reply. -/
theorem counters_tell_query : ∃ s : State,
    (routing (fun _ => []) ledgerRouter).machine.Reachable Machine.always s ∧
      s.shared.counts .envelopeAccepted = 1 ∧ s.calls.countP (answeredWith .envelopeAccepted) = 1 ∧
      s.calls.countP (answeredWith .envelopeReplayed) = 1 := by
  have hinit : (routing (fun _ => []) ledgerRouter).machine.init ⟨started, []⟩ :=
    ⟨⟨fun _ => rfl, fun _ => rfl⟩, rfl⟩
  obtain ⟨s, hs, hcounts⟩ := Machine.reachable_of_run twoDeliveries
    (fun s => s.shared.counts .envelopeAccepted == 1 && s.shared.counts .envelopeReplayed == 1)
    hinit (by decide +kernel)
  simp only [Bool.and_eq_true, beq_iff_eq] at hcounts
  refine ⟨s, hs, hcounts.1, ?_, ?_⟩
  · rw [← counters_tell _ _ _ s hs, hcounts.1]
  · rw [← counters_tell _ _ _ s hs, hcounts.2]

/-! ## The replay store -/

/-- The call was given an envelope with this message id and expiry. -/
def Delivery.sends (messageId : String) (exp : ℕ) (delivery : Delivery) : Bool :=
  (sabclEnvelopeSchema delivery.raw).any fun envelope =>
    envelope.mid == messageId && envelope.exp == exp

/-- The router found the message id unseen. -/
def isClaim : Sigma RouterAnswer → Bool
  | ⟨.remember _ _, some true⟩ => true
  | _ => false

/-- The call has claimed the message id for an envelope with this message id and expiry. -/
def holds (messageId : String) (exp : ℕ) (call : Call) : Bool :=
  call.input.sends messageId exp && call.past.any isClaim

/-- The question is the forwarding of an envelope with this message id and expiry. -/
def RouterQuestion.forwards (messageId : String) (exp : ℕ) : RouterQuestion → Bool
  | .post _ envelope => envelope.mid == messageId && envelope.exp == exp
  | _ => false

/-- The call has forwarded such an envelope, or is about to. -/
def forwarding (messageId : String) (exp : ℕ) (call : Call) : Bool :=
  (call.past.any fun x => x.1.forwards messageId exp) ||
    match call.rest with
    | .ask q _ => q.forwards messageId exp
    | .done _ => false

/-- A claim for such an envelope takes effect in a second not later than its expiry. -/
def ClaimsInTime (messageId : String) (exp : ℕ) (s : State) : Action → Prop
  | .next n _ => ∀ call ttl next, s.calls[n]? = some call → call.input.sends messageId exp = true →
      call.rest = .ask (.remember messageId ttl) next → s.shared.seconds ≤ exp
  | _ => True

section
variable {P : Primitives} {sha256 : Bytes → List Char} {config : RouterConfig P} {call : Call}
  {messageId : String} {exp : ℕ} {s s' : Shared} {raw : Json} {rawByteLength ttl : ℕ}
  {t : History RouterAnswer}

/-- A claim for any envelope leaves a key that outlives `exp` so. -/
theorem outlives_claim (other : String) (ttl : ℕ) (h : Outlives exp (s.replay messageId)) :
    Outlives exp ((s.claim other ttl).1.replay messageId) := by
  unfold Shared.claim
  split
  · exact h
  next cell hclaim =>
    by_cases heq : messageId = other
    · subst heq
      simp only [Function.update_self]
      obtain ⟨hfree, rfl⟩ := Cell.setNxEx_eq_some.mp hclaim
      obtain ⟨e, he, hlive⟩ := h
      refine ⟨_, rfl, fun t ht => ?_⟩
      have hexpired : exp < s.now / 1000 := by
        by_contra hle
        have hdead := hfree e he
        rw [hlive s.now (by omega)] at hdead
        cases hdead
      simp only [Entry.live, decide_eq_true_eq]
      omega
    · simpa only [Function.update_of_ne heq] using h

/-- When the router claims a message id, it has read the clock and counted the sender. -/
theorem asks_route_remember
    (h : Asks (route sha256 config raw rawByteLength) t (.remember messageId ttl)) :
    ∃ envelope now rate, sabclEnvelopeSchema raw = some envelope ∧ messageId = envelope.mid ∧
      ttl = replayTtl envelope now ∧
      t = [⟨.now, now⟩, ⟨.incrementRate envelope.skid, some rate⟩] := by
  rcases asks_route.mp h with ⟨_, -, h⟩ | ⟨envelope, hopen, h | ⟨_, _, _, -, -, h⟩⟩
  · cases (asks_refuse.mp h).2
  · simp only [accept, forward, query_bind_bind, asks_lift_bind, asks_query_bind, failIf_ok,
      redis_ok, asks_pure, reduceCtorEq, and_false, false_or, or_false, exists_const,
      exists_false, RouterQuestion.remember.injEq] at h
    obtain ⟨-, now, _, rfl, _, -, _, _, rfl, rate, rfl, -, _, -, rfl, rfl, rfl⟩ := h
    exact ⟨envelope, now, rate, (openEnvelope_ok.mp hopen).2, rfl, rfl, rfl⟩
  · cases (asks_refuse.mp h).2

/-- A call that has forwarded an envelope, or is about to, has claimed its message id. -/
theorem holds_of_forwarding
    (hstarted : call.Started (routeDelivery sha256 config))
    (h : forwarding messageId exp call = true) : holds messageId exp call = true := by
  have hpost : ∀ {before after : History RouterAnswer} {destination : String}
      {envelope : SabclEnvelope}, call.past = before ++ after →
      Asks (route sha256 config call.input.raw call.input.rawByteLength) before
        (.post destination envelope) →
      RouterQuestion.forwards messageId exp (.post destination envelope) = true →
      holds messageId exp call = true := by
    intro before after destination envelope hpast hasks hforwards
    obtain ⟨now, rate, route, hadmits, rfl, -⟩ := asks_route_post.mp hasks
    simp only [holds, Delivery.sends, hadmits.schema, hpast, Option.any_some, Bool.and_eq_true]
    exact ⟨Bool.and_eq_true_iff.mp hforwards, by simp [approach, isClaim]⟩
  unfold forwarding at h
  rcases Bool.or_eq_true_iff.mp h with h | h
  · obtain ⟨⟨q, a⟩, hx, hforwards⟩ := List.any_eq_true.mp h
    cases q with
    | post destination envelope =>
      obtain ⟨before, after, hpast⟩ := List.append_of_mem hx
      unfold Task.Started at hstarted
      rw [hpast] at hstarted
      exact hpost hpast (asks_of_leads hstarted) hforwards
    | _ => cases hforwards
  · cases hrest : call.rest with
    | done r => rw [hrest] at h; cases h
    | ask q next =>
      rw [hrest] at h
      unfold Task.Started at hstarted
      rw [hrest] at hstarted
      cases q with
      | post destination envelope =>
        exact hpost (List.append_nil _).symm ⟨next, hstarted⟩ h
      | _ => cases h

/-! ## The invariant -/

/-- Clock readings lie in the past; at most one call holds the claim, and while one does the key
    outlives the envelope. -/
structure Once (messageId : String) (exp : ℕ) (s : State) : Prop where
  clock : ∀ call ∈ s.calls, ∀ now, (⟨.now, now⟩ : Sigma RouterAnswer) ∈ call.past →
    now ≤ s.shared.seconds
  once : s.calls.countP (holds messageId exp) ≤ 1
  held : 0 < s.calls.countP (holds messageId exp) → Outlives exp (s.shared.replay messageId)

variable {q : RouterQuestion} {outside : Outside} {a : RouterAnswer q}

/-- What an answer does to the clock and the store. -/
theorem answer_some (messageId : String) (exp : ℕ) (h : s.answer q outside = some (s', a)) :
    s'.now = s.now ∧
    (Outlives exp (s.replay messageId) → Outlives exp (s'.replay messageId)) := by
  have hclaim : ∀ other ttl, (s.claim other ttl).1.now = s.now := by
    intro other ttl
    unfold Shared.claim
    split <;> rfl
  cases q with
  | now | incrementRate | post | audit => cases h; exact ⟨rfl, id⟩
  | remember other ttl =>
    simp only [Shared.answer] at h
    split at h <;> cases h
    · exact ⟨hclaim _ _, outlives_claim other ttl⟩
    · exact ⟨rfl, id⟩
    · exact ⟨hclaim _ _, outlives_claim other ttl⟩

/-- A claim for the envelope, in time: nobody held one, and the key outlives the envelope. -/
theorem claim_in_time (hexp : exp + 1 ≤ ttl + s.seconds) (htime : s.seconds ≤ exp)
    (h : s.answer (.remember messageId ttl) outside = some (s', some true)) :
    ¬ Outlives exp (s.replay messageId) ∧ Outlives exp (s'.replay messageId) := by
  simp only [Shared.answer] at h
  split at h
  · simp only [Option.some.injEq, Prod.mk.injEq] at h
    obtain ⟨rfl, hclaimed⟩ := h
    unfold Shared.claim at hclaimed ⊢
    split at hclaimed
    · cases hclaimed
    next cell hcell =>
      simp only [Function.update_self]
      exact remember_outlives hcell hexp htime
  · cases h
  · cases h

theorem clock_next {n : ℕ} {s : State} {next : RouterAnswer q → Interaction RouterAnswer Empty
    RouterOutcome} (hs : Once messageId exp s) (hn : s.calls[n]? = some call)
    (ha : s.shared.answer q outside = some (s', a)) :
    ∀ c ∈ s.calls.set n { call with past := call.past ++ [⟨q, a⟩], rest := next a }, ∀ now,
      (⟨.now, now⟩ : Sigma RouterAnswer) ∈ c.past → now ≤ s'.seconds := by
  have hseconds : s'.seconds = s.shared.seconds :=
    congrArg (· / 1000) (answer_some messageId exp ha).1
  rw [hseconds]
  refine Pool.forall_set (fun m c _ hc => hs.clock c (Pool.mem_of_getElem? hc)) ?_
  intro now hmem
  rcases List.mem_append.mp hmem with hmem | hmem
  · exact hs.clock call (Pool.mem_of_getElem? hn) now hmem
  · cases List.mem_singleton.mp hmem
    cases ha
    exact le_rfl

/-- A call takes a step. -/
theorem Once.next {n : ℕ} {s : State}
    {next : RouterAnswer q → Interaction RouterAnswer Empty RouterOutcome}
    (hs : Once messageId exp s) (hn : s.calls[n]? = some call)
    (hstarted : call.Started (routeDelivery sha256 config))
    (hrest : call.rest = .ask q next) (ha : s.shared.answer q outside = some (s', a))
    (htime : ∀ ttl, q = .remember messageId ttl → call.input.sends messageId exp = true →
      s.shared.seconds ≤ exp) :
    Once messageId exp
      ⟨s', s.calls.set n { call with past := call.past ++ [⟨q, a⟩], rest := next a }⟩ := by
  have hcount := Pool.countP_next (f := holds messageId exp)
    { call with past := call.past ++ [⟨q, a⟩], rest := next a } hn
  have hholds : holds messageId exp
      { call with past := call.past ++ [⟨q, a⟩], rest := next a } =
      (holds messageId exp call || (call.input.sends messageId exp && isClaim ⟨q, a⟩)) := by
    simp only [holds, List.any_append, List.any_cons, List.any_nil, Bool.or_false,
      Bool.and_or_distrib_left]
  rw [hholds] at hcount
  cases hnew : call.input.sends messageId exp && isClaim ⟨q, a⟩ with
  | false =>
    rw [hnew, Bool.or_false] at hcount
    refine ⟨clock_next hs hn ha, ?_, fun hpos => (answer_some messageId exp ha).2 (hs.held ?_)⟩
    · have := hs.once
      simp only
      omega
    · simp only at hpos
      omega
  | true =>
    obtain ⟨hsends, hclaim⟩ := Bool.and_eq_true_iff.mp hnew
    cases q with
    | remember other ttl =>
      obtain rfl : a = some true := by
        revert hclaim
        unfold isClaim
        split
        next heq =>
          cases heq
          exact fun _ => rfl
        · intro h
          cases h
      unfold Task.Started at hstarted
      rw [hrest] at hstarted
      obtain ⟨envelope, now, rate, hraw, rfl, rfl, hpast⟩ := asks_route_remember ⟨next, hstarted⟩
      have hsent := hsends
      simp only [Delivery.sends, hraw, Option.any_some, Bool.and_eq_true, beq_iff_eq] at hsent
      obtain ⟨rfl, rfl⟩ := hsent
      have hnow : now ≤ s.shared.seconds :=
        hs.clock call (Pool.mem_of_getElem? hn) now (by simp [hpast])
      have hcovers := Replay.replayTtl_covers envelope now
      obtain ⟨hfree, hcell⟩ := claim_in_time (by omega) (htime _ rfl hsends) ha
      have hzero : s.calls.countP (holds envelope.mid envelope.exp) = 0 := by
        by_contra hne
        exact hfree (hs.held (by omega))
      refine ⟨clock_next hs hn ha, ?_, fun _ => hcell⟩
      simp only
      have := Bool.toNat_le (holds envelope.mid envelope.exp call ||
        (call.input.sends envelope.mid envelope.exp && isClaim ⟨.remember envelope.mid
          (replayTtl envelope now), some true⟩))
      omega
    | _ => cases hclaim

end

theorem once_of_reachable {P : Primitives} {sha256 : Bytes → List Char} {config : RouterConfig P}
    {messageId : String} {exp : ℕ} {s : State}
    (h : (routing sha256 config).machine.Reachable (ClaimsInTime messageId exp) s) :
    Once messageId exp s := by
  refine Machine.invariant_of_reachable (I := Once messageId exp) ?_ ?_ h
  · rintro s ⟨-, hcalls⟩
    exact ⟨by simp [hcalls], by simp [hcalls], by simp [hcalls]⟩
  · intro s action t hreach hs htime hstep
    cases action with
    | start delivery =>
      cases Pool.step_start hstep
      have hnew : holds messageId exp ((routing sha256 config).start s.shared delivery) =
          false := by
        simp [holds, routing, Host.pool]
      refine ⟨?_, ?_, ?_⟩
      · intro call hcall now hmem
        rcases List.mem_append.mp hcall with hcall | hcall
        · exact hs.clock call hcall now hmem
        · cases List.mem_singleton.mp hcall
          cases hmem
      · simpa [hnew] using hs.once
      · simpa [hnew] using hs.held
    | next n outside =>
      obtain ⟨call, s', call', hn, hnext, rfl⟩ := Pool.step_next hstep
      obtain ⟨q, next, a, hrest, ha, rfl⟩ := Task.next_some hnext
      exact hs.next hn (tasks_started hreach call (Pool.mem_of_getElem? hn)) hrest ha
        fun ttl hq hsends => by
          subst hq
          exact htime call ttl next hn hsends hrest
    | env elapsed =>
      obtain ⟨s', hs', rfl⟩ := Pool.step_env hstep
      cases hs'
      refine ⟨fun call hcall now hmem => ?_, hs.once, hs.held⟩
      have hnow := hs.clock call hcall now hmem
      exact hnow.trans (Nat.div_le_div_right (Nat.le_add_right _ _))

/-- However many calls are given an envelope with this message id and expiry, at most one of them
    forwards it, if every claim for it takes effect by the expiry. -/
theorem forwarded_once (P : Primitives) (sha256 : Bytes → List Char) (config : RouterConfig P)
    (messageId : String) (exp : ℕ) (s : State)
    (h : (routing sha256 config).machine.Reachable (ClaimsInTime messageId exp) s) :
    s.calls.countP (forwarding messageId exp) ≤ 1 := by
  refine le_trans ?_ (once_of_reachable h).once
  exact List.countP_mono_left fun call hcall hforwarding =>
    holds_of_forwarding (tasks_started h call hcall) hforwarding

/-- `ClaimsInTime`, decided. -/
def claimsInTime (messageId : String) (exp : ℕ) (s : State) : Action → Bool
  | .next n _ =>
    match s.calls[n]? with
    | none => true
    | some call =>
      match call.rest with
      | .ask (.remember other _) _ => other != messageId || decide (s.shared.seconds ≤ exp)
      | _ => true
  | _ => true

theorem claimsInTime_sound (messageId : String) (exp : ℕ) (s : State) (action : Action)
    (h : claimsInTime messageId exp s action = true) : ClaimsInTime messageId exp s action := by
  cases action with
  | start | env => trivial
  | next n outside =>
    intro call ttl next hn _ hrest
    simpa [claimsInTime, hn, hrest] using h

/-- Of two deliveries of a request, one is forwarded. -/
theorem forwarded_once_query : ∃ s : State,
    (routing (fun _ => []) ledgerRouter).machine.Reachable (ClaimsInTime "bWVzc2FnZQ" 1030) s ∧
      s.calls.length = 2 ∧ s.calls.countP (forwarding "bWVzc2FnZQ" 1030) = 1 := by
  have hinit : (routing (fun _ => []) ledgerRouter).machine.init ⟨started, []⟩ :=
    ⟨⟨fun _ => rfl, fun _ => rfl⟩, rfl⟩
  obtain ⟨s, hs, hcalls⟩ := Machine.reachable_of_runUnder twoDeliveries
    (claimsInTime "bWVzc2FnZQ" 1030)
    (fun s => s.calls.length == 2 && decide (1 ≤ s.calls.countP (forwarding "bWVzc2FnZQ" 1030)))
    (claimsInTime_sound _ _) hinit (by decide +kernel)
  simp only [Bool.and_eq_true, beq_iff_eq, decide_eq_true_eq] at hcalls
  exact ⟨s, hs, hcalls.1, le_antisymm (forwarded_once _ _ _ _ _ s hs) hcalls.2⟩

end AegisShield.Sabcl.Router
