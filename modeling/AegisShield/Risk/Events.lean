import AegisShield.Common.Expiring
import AegisShield.Common.Json
import AegisShield.Common.Pool
import AegisShield.Common.Table

/-!
# Ingestion of security events

Concurrent calls of `EventService.ingest` (`event.service.ts`, lines 34-146) with
`VelocityService.increment` (`velocity.service.ts`). The event and the health of its source are
written in one transaction; the velocity counters are Redis keys that are incremented one by one
afterwards. Any statement or command may fail, or take effect although its answer is lost, and
a call may stop anywhere.

Results:
* `ingest_exactly_once`: in every run each event is stored at most once, the accepted count of a
  source is the number of its events, and no increment is applied twice. If no call is answered as
  a duplicate while the increments of the stored event are incomplete, every call that has
  returned has all increments of its event applied. An answer that does not meet this breaks it.
* `ingest_answered_early`: a retry after a lost connection is answered as a duplicate although no
  increment was applied.
-/

namespace AegisShield.Risk

open Common

/-! ## Events -/

inductive RiskSource where
  | GATEWAY
  | IDENTITY
  | PAYMENTS
  | LEDGER
  | INFRASTRUCTURE
  | CHANNEL_ADAPTER
  deriving DecidableEq

def RiskSource.text : RiskSource → String
  | .GATEWAY => "GATEWAY"
  | .IDENTITY => "IDENTITY"
  | .PAYMENTS => "PAYMENTS"
  | .LEDGER => "LEDGER"
  | .INFRASTRUCTURE => "INFRASTRUCTURE"
  | .CHANNEL_ADAPTER => "CHANNEL_ADAPTER"

inductive SecurityEventType where
  | LOGIN_SUCCESS
  | LOGIN_FAILURE
  | OTP_FAILURE
  | PIN_FAILURE
  | ACCOUNT_LOCK
  | SESSION_CREATED
  | SESSION_REVOKED
  | CREDENTIAL_CHANGED
  | DEVICE_CHANGED
  | TRANSFER_PREVIEW
  | TRANSFER_CONFIRMATION
  | TRANSFER_FAILURE
  | INSUFFICIENT_FUNDS
  | IDEMPOTENCY_CONFLICT
  | HIGH_VALUE_TRANSFER
  | NEW_RECIPIENT
  | EXPIRED_INTENT
  | RECONCILIATION_ANOMALY
  | RATE_LIMIT_VIOLATION
  | CSRF_FAILURE
  | MALFORMED_REQUEST
  | FORBIDDEN_ROUTE
  | SUSPICIOUS_REQUEST
  | SERVICE_PROBE
  | UNBALANCED_JOURNAL
  | DUPLICATE_POSTING
  | INTEGRITY_FAILURE
  | INTERNAL_AUTH_FAILURE
  | REPLAY_EVENT
  | INVALID_SERVICE_TOKEN
  | ROUTE_AUTH_ANOMALY
  | TAMPER_SIGNAL
  deriving DecidableEq

/-- `securityEventV1Schema`, with the attribute that `ingest` reads. -/
structure SecurityEvent where
  eventId : String
  source : RiskSource
  sourceEventId : String
  eventType : SecurityEventType
  occurredAt : ℕ
  subjectId : Option String
  amountMinor : Option Json

/-- What identifies an event for its source. -/
abbrev EventKey := RiskSource × String

def SecurityEvent.key (event : SecurityEvent) : EventKey := (event.source, event.sourceEventId)

/-- What the service takes from its platform: SHA-256, and `Number` of a text, which is exact on
    the decimal text of a safe integer. -/
structure RiskRuntime where
  sha256 : String → String
  number : String → Option ℚ
  number_toString : ∀ n : ℕ, n ≤ Json.maxSafeInteger → number (toString n) = some (n : ℚ)

/-! ## Velocity counters -/

/-- An `increment` of a counter of a scope. -/
structure Increment where
  scopeId : String
  signal : String
  windowSeconds : ℕ
  amount : ℕ
  deriving DecidableEq

/-- `Number(value || 0)`, `none` for `NaN`. -/
def numberOrZero (number : String → Option ℚ) : Option Json → Option ℚ
  | some (.number value) => some value
  | some (.bool true) => some 1
  | some (.string text) => if text = "" then some 0 else number text
  | _ => some 0

/-- `Number.isSafeInteger(amount) && amount > 0`. -/
def positiveSafe (amount : Option ℚ) : Option ℕ :=
  amount.bind fun value =>
    if value.den = 1 ∧ 0 < value.num ∧ value.num ≤ Json.maxSafeInteger then some value.num.toNat
    else none

/-- `updateVelocity` (lines 118-146), increment by increment. -/
def SecurityEvent.increments (runtime : RiskRuntime) (event : SecurityEvent) : List Increment :=
  match event.subjectId with
  | none => []
  | some subject =>
    [⟨subject, "requests:60s", 60, 1⟩] ++
    (if event.eventType ∈ [SecurityEventType.LOGIN_FAILURE, .PIN_FAILURE, .OTP_FAILURE,
        .ACCOUNT_LOCK] then [⟨subject, "auth-failures:600s", 600, 1⟩] else []) ++
    (if event.eventType ∈ [SecurityEventType.TRANSFER_PREVIEW, .TRANSFER_CONFIRMATION] then
      [⟨subject, "transfers:600s", 600, 1⟩] ++
        ((positiveSafe (numberOrZero runtime.number event.amountMinor)).map fun amount =>
          Increment.mk subject "outgoing:86400s" 86400 amount).toList
    else []) ++
    (if event.eventType = .INSUFFICIENT_FUNDS then [⟨subject, "insufficient:600s", 600, 1⟩]
      else []) ++
    (if event.eventType = .IDEMPOTENCY_CONFLICT then [⟨subject, "idempotency:600s", 600, 1⟩]
      else []) ++
    (if event.eventType ∈ [SecurityEventType.CSRF_FAILURE, .MALFORMED_REQUEST] then
      [⟨subject, "invalid-sensitive:600s", 600, 1⟩] else [])

/-! ## The stores -/

/-- A row of `security_events`. -/
structure SecurityEventRow where
  event : SecurityEvent
  receivedAt : ℕ

instance : Keyed SecurityEventRow String := ⟨fun row => row.event.eventId⟩

/-- A row of `source_health`. -/
structure SourceHealthRow where
  source : RiskSource
  lastEventId : String
  lastOccurredAt : ℕ
  lastReceivedAt : ℕ
  acceptedCount : ℕ
  duplicateCount : ℕ

instance : Keyed SourceHealthRow RiskSource := ⟨SourceHealthRow.source⟩

/-- The tables and the Redis keys, with the increments that were executed for events. -/
structure EventStore where
  events : Table SecurityEventRow
  health : Table SourceHealthRow
  cells : String → Cell ℕ
  applied : List (EventKey × Increment)

namespace EventStore

/-- The empty stores. -/
def migrated : EventStore where
  events := Table.empty
  health := Table.empty
  cells := fun _ => none
  applied := []

variable (sha256 : String → String)

/-- The Redis key of a counter, without the prefix of the service. -/
def velocityKey (inc : Increment) : String :=
  "velocity:" ++ inc.signal ++ ":" ++ sha256 inc.scopeId

/-- `VelocityService.increment`: `INCRBY` and `EXPIRE NX` in one `MULTI`. -/
def increment (store : EventStore) (now : ℕ) (inc : Increment) : EventStore :=
  { store with
    cells := Function.update store.cells (velocityKey sha256 inc)
      (Cell.expireNx now inc.windowSeconds
        (Cell.incrBy now inc.amount (store.cells (velocityKey sha256 inc)))) }

/-- `VelocityService.read`. -/
def read (store : EventStore) (now : ℕ) (inc : Increment) : ℕ :=
  (Cell.get now (store.cells (velocityKey sha256 inc))).getD 0

/-- An increment of the velocity of an event. -/
def apply (store : EventStore) (now : ℕ) (key : EventKey) (inc : Increment) : EventStore :=
  { store.increment sha256 now inc with applied := store.applied ++ [(key, inc)] }

/-- `findUnique({ where: { source_sourceEventId } })`. -/
def findByKey (store : EventStore) (key : EventKey) : Option SecurityEventRow :=
  store.events.rows.find? fun row => row.event.key = key

/-- The health of a source with its first event (lines 69-75). -/
def firstHealth (event : SecurityEvent) (receivedAt : ℕ) : SourceHealthRow where
  source := event.source
  lastEventId := event.eventId
  lastOccurredAt := event.occurredAt
  lastReceivedAt := receivedAt
  acceptedCount := 1
  duplicateCount := 0

/-- The upsert of lines 67-82. -/
def accept (health : Table SourceHealthRow) (event : SecurityEvent) (receivedAt : ℕ) :
    Table SourceHealthRow :=
  match health.find event.source with
  | none => health.add (firstHealth event receivedAt)
  | some row => health.put { row with
      lastEventId := event.eventId
      lastOccurredAt := event.occurredAt
      lastReceivedAt := receivedAt
      acceptedCount := row.acceptedCount + 1 }

/-- The transaction of lines 48-84; `none` on a unique violation. -/
def create (store : EventStore) (event : SecurityEvent) (receivedAt now : ℕ) : Option EventStore :=
  if (store.findByKey event.key).isSome then none
  else
    (store.events.insert { event := event, receivedAt := now }).map fun events =>
      { store with events := events, health := accept store.health event receivedAt }

/-- `sourceHealth.update` of lines 105-108. -/
def noteDuplicate (store : EventStore) (source : RiskSource) : Option EventStore :=
  (store.health.find source).map fun row =>
    { store with health := store.health.put { row with duplicateCount := row.duplicateCount + 1 } }

/-- The increments that were executed for an event. -/
def appliedFor (store : EventStore) (key : EventKey) : List Increment :=
  (store.applied.filter fun entry => entry.1 = key).map Prod.snd

end EventStore

/-! ## The calls -/

inductive IngestError where
  /-- `UnauthorizedException`. -/
  | unauthorized
  /-- `SOURCE_RATE_LIMITED`. -/
  | rateLimited
  /-- `findUniqueOrThrow` found nothing. -/
  | notFound
  /-- Redis or the database failed. -/
  | store
  deriving DecidableEq

structure IngestResult where
  id : String
  duplicate : Bool
  receivedAt : ℕ
  deriving DecidableEq

/-- The command or statement that a call is about to run. -/
inductive IngestStage where
  /-- Lines 36-40. -/
  | rating
  /-- Lines 48-84. -/
  | storing (receivedAt : ℕ)
  /-- An increment of `updateVelocity`. -/
  | counting (receivedAt : ℕ) (inc : Increment) (incs : List Increment)
  /-- Lines 96-104. -/
  | finding
  /-- Lines 105-108. -/
  | noting (existing : SecurityEventRow)
  | done (result : Except IngestError IngestResult)

structure IngestCall where
  event : SecurityEvent
  stage : IngestStage

/-- What a step gets from outside: the clock, and whether the answer arrives. -/
structure IngestEnv where
  now : ℕ
  answered : Bool

/-- The rate of a source, per minute. -/
def sourceRateLimit : ℕ := 1000

/-- The increment of the rate of a source. -/
def rateIncrement (event : SecurityEvent) : Increment :=
  ⟨event.source.text, "ingestion-source:60s", 60, 1⟩

namespace IngestCall

/-- The call after the transaction or an increment. -/
def afterIncrement (event : SecurityEvent) (receivedAt : ℕ) : List Increment → IngestStage
  | [] => .done (.ok { id := event.eventId, duplicate := false, receivedAt := receivedAt })
  | inc :: incs => .counting receivedAt inc incs

/-- The call goes on if the answer arrives. -/
def answer (e : IngestEnv) (p : IngestCall) (stage : IngestStage) : IngestCall :=
  { p with stage := if e.answered then stage else .done (.error .store) }

/-- The next command or statement; `e` is `none` when it fails. -/
def next (runtime : RiskRuntime) (store : EventStore) (p : IngestCall) (e : Option IngestEnv) :
    Option (EventStore × IngestCall) :=
  match p.stage, e with
  | .done _, _ => none
  | _, none => some (store, { p with stage := .done (.error .store) })
  | .rating, some e =>
    some (store.increment runtime.sha256 e.now (rateIncrement p.event), p.answer e
      (if sourceRateLimit <
          (store.increment runtime.sha256 e.now (rateIncrement p.event)).read runtime.sha256 e.now
            (rateIncrement p.event) then .done (.error .rateLimited)
      else .storing e.now))
  | .storing receivedAt, some e =>
    match store.create p.event receivedAt e.now with
    | none => some (store, p.answer e .finding)
    | some store' =>
      some (store', p.answer e (afterIncrement p.event e.now (p.event.increments runtime)))
  | .counting receivedAt inc incs, some e =>
    some (store.apply runtime.sha256 e.now p.event.key inc,
      p.answer e (afterIncrement p.event receivedAt incs))
  | .finding, some e =>
    match store.findByKey p.event.key with
    | none => some (store, { p with stage := .done (.error .notFound) })
    | some existing => some (store, p.answer e (.noting existing))
  | .noting existing, some e =>
    match store.noteDuplicate p.event.source with
    | none => some (store, { p with stage := .done (.error .store) })
    | some store' =>
      some (store', p.answer e (.done (.ok {
        id := existing.event.eventId
        duplicate := true
        receivedAt := existing.receivedAt })))

end IngestCall

/-- A call of `ingest`. -/
structure IngestRequest where
  event : SecurityEvent
  sourceToken : String

/-- Calls of `ingest`, from empty stores. -/
def ingestPool (runtime : RiskRuntime) (sourceTokens : RiskSource → String) :
    Pool EventStore IngestCall IngestRequest (Option IngestEnv) Empty where
  init store := store = EventStore.migrated
  start _ request := {
    event := request.event
    stage :=
      if sourceTokens request.event.source ≠ "" ∧
          request.sourceToken = sourceTokens request.event.source then .rating
      else .done (.error .unauthorized) }
  next := IngestCall.next runtime
  env _ x := nomatch x

abbrev IngestState := Pool.State EventStore IngestCall

abbrev IngestAction := Pool.Action IngestRequest (Option IngestEnv) Empty

/-! ## The property -/

/-- No event is stored twice, the accepted counts are right, and no increment is applied twice. -/
structure EventStore.Counted (runtime : RiskRuntime) (store : EventStore) : Prop where
  storedOnce : (store.events.rows.map fun row => row.event.key).Nodup
  accepted : ∀ source, ((store.health.find source).map SourceHealthRow.acceptedCount).getD 0 =
    store.events.rows.countP fun row => row.event.source = source
  atMostOnce : ∀ row ∈ store.events.rows,
    store.appliedFor row.event.key <+: row.event.increments runtime

/-- The increments of the stored event with the key have all been applied. -/
def EventStore.complete (runtime : RiskRuntime) (store : EventStore) (key : EventKey) : Bool :=
  (store.findByKey key).any fun row =>
    decide (store.appliedFor key = row.event.increments runtime)

/-- The call has returned. -/
def IngestCall.returned (p : IngestCall) : Bool :=
  match p.stage with
  | .done (.ok _) => true
  | _ => false

/-- Every call that has returned has all increments of its event applied. -/
def AnsweredComplete (runtime : RiskRuntime) (s : IngestState) : Prop :=
  ∀ p ∈ s.calls, p.returned = true → s.shared.complete runtime p.event.key = true

/-- The condition on the steps of a run: no call is answered as a duplicate while the increments
    of the stored event are incomplete. -/
def duplicatesComplete (runtime : RiskRuntime) (s : IngestState) : IngestAction → Bool
  | .next n (some e) =>
    match s.calls[n]? with
    | some ⟨event, .noting _⟩ => !e.answered || s.shared.complete runtime event.key
    | _ => true
  | _ => true

/-! ## What a step does -/

section Stores

variable {store store' : EventStore} {row : SecurityEventRow} {key k : EventKey} {inc : Increment}

theorem findByKey_some (h : store.findByKey key = some row) :
    row ∈ store.events.rows ∧ row.event.key = key :=
  ⟨List.mem_of_find?_eq_some h, by simpa using List.find?_some h⟩

theorem findByKey_insert (hfree : store.findByKey row.event.key = none)
    (hinsert : store.events.insert row = some store'.events) :
    store'.findByKey k = if row.event.key = k then some row else store.findByKey k := by
  unfold EventStore.findByKey at hfree ⊢
  rw [(Table.insert_some hinsert).2, List.find?_append]
  split_ifs with hk
  · subst hk
    rw [hfree]
    simp
  · simp [hk]

theorem appliedFor_concat (h : store'.applied = store.applied ++ [(key, inc)]) :
    store'.appliedFor k = store.appliedFor k ++ if key = k then [inc] else [] := by
  unfold EventStore.appliedFor
  rw [h, List.filter_append, List.map_append]
  congr 1
  split_ifs with hk
  · simp [hk]
  · simp [hk]

theorem appliedFor_congr (h : store'.applied = store.applied) :
    store'.appliedFor k = store.appliedFor k := by
  unfold EventStore.appliedFor
  rw [h]

/-- Nothing is applied for an event that is not stored. -/
theorem appliedFor_absent (h : ∀ entry ∈ store.applied, (store.findByKey entry.1).isSome = true)
    (hfree : store.findByKey key = none) : store.appliedFor key = [] := by
  have hnone : (store.applied.filter fun entry => entry.1 = key) = [] := by
    refine List.filter_eq_nil_iff.mpr fun entry hentry heq => ?_
    have hsome := h entry hentry
    rw [of_decide_eq_true heq, hfree] at hsome
    cases hsome
  unfold EventStore.appliedFor
  rw [hnone]
  rfl

/-- The accepted count of a source. -/
def acceptedBy (health : Table SourceHealthRow) (source : RiskSource) : ℕ :=
  ((health.find source).map SourceHealthRow.acceptedCount).getD 0

theorem acceptedBy_accept {health : Table SourceHealthRow} {event : SecurityEvent}
    {receivedAt : ℕ} (source : RiskSource) :
    acceptedBy (EventStore.accept health event receivedAt) source =
      acceptedBy health source + if event.source = source then 1 else 0 := by
  unfold acceptedBy EventStore.accept
  split
  next hnone =>
    have hfind : (health.add (EventStore.firstHealth event receivedAt)).find source =
        if event.source = source then some (EventStore.firstHealth event receivedAt)
        else health.find source := Table.find_add hnone
    rw [hfind]
    split_ifs with hsource
    · rw [← hsource, hnone]
      rfl
    · rfl
  next row hrow =>
    have hkey : row.source = event.source := Table.key_of_find hrow
    by_cases hsource : event.source = source
    · subst hsource
      rw [Table.find_put_of_find (by rfl) hrow, if_pos rfl, hrow]
      rfl
    · rw [Table.find_put_ne fun heq => hsource (hkey.symm.trans heq), if_neg hsource]
      rfl

theorem acceptedBy_noteDuplicate {source : RiskSource}
    (h : store.noteDuplicate source = some store') (other : RiskSource) :
    acceptedBy store'.health other = acceptedBy store.health other := by
  obtain ⟨row, hrow, rfl⟩ := Option.map_eq_some_iff.mp h
  have hkey : row.source = source := Table.key_of_find hrow
  unfold acceptedBy
  by_cases hsource : source = other
  · subst hsource
    rw [hrow]
    show (Option.map _ ((Table.put _ _).find source)).getD 0 = _
    rw [Table.find_put_of_find (by rfl) hrow]
    rfl
  · show (Option.map _ ((Table.put _ _).find other)).getD 0 = _
    rw [Table.find_put_ne fun heq => hsource (hkey.symm.trans heq)]

end Stores

/-- The call is about to apply an increment of the event. -/
def IngestCall.countingOn (key : EventKey) (p : IngestCall) : Bool :=
  match p.stage with
  | .counting _ _ _ => decide (p.event.key = key)
  | _ => false

/-- The call is about to be answered as a duplicate. -/
def IngestCall.isNoting (p : IngestCall) : Bool :=
  match p.stage with
  | .noting _ => true
  | _ => false

/-- The steps of a call. -/
inductive IngestMove (runtime : RiskRuntime) (store : EventStore) (p : IngestCall)
    (e : Option IngestEnv) (store' : EventStore) (p' : IngestCall) : Prop
  /-- Nothing is stored or applied; a call returns only as a duplicate. -/
  | quiet (hevents : store'.events = store.events)
      (hhealth : ∀ source, acceptedBy store'.health source = acceptedBy store.health source)
      (happlied : store'.applied = store.applied) (hidle : ∀ key, p'.countingOn key = false)
      (hnoting : p'.isNoting = true → (store.findByKey p.event.key).isSome = true)
      (hreturned : p'.returned = true →
        p.isNoting = true ∧ (e.any fun e => e.answered) = true)
  /-- The event is stored. -/
  | stored {row receivedAt} (hrow : row.event = p.event)
      (hfree : store.findByKey p.event.key = none)
      (hinsert : store.events.insert row = some store'.events)
      (hhealth : store'.health = EventStore.accept store.health p.event receivedAt)
      (happlied : store'.applied = store.applied) (hidle : ∀ key, p.countingOn key = false)
      (hstage : p'.stage = IngestCall.afterIncrement p.event row.receivedAt
        (p.event.increments runtime) ∨ p'.stage = .done (.error .store))
  /-- An increment is applied. -/
  | counted {receivedAt inc incs}
      (hstage : p.stage = .counting receivedAt inc incs) (hevents : store'.events = store.events)
      (hhealth : store'.health = store.health)
      (happlied : store'.applied = store.applied ++ [(p.event.key, inc)])
      (hstage' : p'.stage = IngestCall.afterIncrement p.event receivedAt incs ∨
        p'.stage = .done (.error .store))

section Steps

variable {runtime : RiskRuntime} {sourceTokens : RiskSource → String} {store store' : EventStore}
  {p p' : IngestCall} {e : Option IngestEnv} {s t : IngestState}

variable {stage : IngestStage}

theorem answer_stage {e : IngestEnv} :
    (p.answer e stage).stage = stage ∨ (p.answer e stage).stage = .done (.error .store) := by
  unfold IngestCall.answer
  dsimp only
  split_ifs
  · exact .inl rfl
  · exact .inr rfl

/-- A stage that neither counts nor returns, if the answer arrives. -/
theorem quiet_answer {e : IngestEnv} (hevents : store'.events = store.events)
    (hhealth : store'.health = store.health) (happlied : store'.applied = store.applied)
    (hcounting : ∀ key, IngestCall.countingOn key ⟨p.event, stage⟩ = false)
    (hnoting : IngestCall.isNoting ⟨p.event, stage⟩ = true →
      (store.findByKey p.event.key).isSome = true)
    (hreturned : IngestCall.returned ⟨p.event, stage⟩ = false) :
    IngestMove runtime store p (some e) store' (p.answer e stage) := by
  have hhealth : ∀ source, acceptedBy store'.health source = acceptedBy store.health source :=
    fun source => by rw [hhealth]
  unfold IngestCall.answer
  split_ifs
  · exact .quiet hevents hhealth happlied hcounting hnoting fun h => absurd h (by simp [hreturned])
  · exact .quiet hevents hhealth happlied (fun _ => rfl) (fun h => nomatch h) fun h => nomatch h

theorem create_some {event : SecurityEvent} {receivedAt now : ℕ}
    (h : store.create event receivedAt now = some store') :
    store.findByKey event.key = none ∧
      store.events.insert { event := event, receivedAt := now } = some store'.events ∧
      store'.health = EventStore.accept store.health event receivedAt ∧
      store'.applied = store.applied := by
  unfold EventStore.create at h
  split_ifs at h with hfree
  obtain ⟨events, hinsert, rfl⟩ := Option.map_eq_some_iff.mp h
  exact ⟨Option.not_isSome_iff_eq_none.mp hfree, hinsert, rfl, rfl⟩

theorem quiet_error (error : IngestError) :
    IngestMove runtime store p e store { p with stage := .done (.error error) } :=
  .quiet rfl (fun _ => rfl) rfl (fun _ => rfl) (fun h => nomatch h) fun h => nomatch h

theorem ingestMove_of_next (h : IngestCall.next runtime store p e = some (store', p')) :
    p'.event = p.event ∧ IngestMove runtime store p e store' p' := by
  obtain ⟨event, stage⟩ := p
  cases e with
  | none =>
    cases stage with
    | done result => cases h
    | _ =>
      cases h
      exact ⟨rfl, quiet_error .store⟩
  | some e =>
    cases stage with
    | rating =>
      simp only [IngestCall.next] at h
      cases h
      refine ⟨rfl, ?_⟩
      split_ifs
      · exact quiet_answer rfl rfl rfl (fun _ => rfl) (fun h => nomatch h) rfl
      · exact quiet_answer rfl rfl rfl (fun _ => rfl) (fun h => nomatch h) rfl
    | storing receivedAt =>
      simp only [IngestCall.next] at h
      split at h
      · cases h
        exact ⟨rfl, quiet_answer rfl rfl rfl (fun _ => rfl) (fun h => nomatch h) rfl⟩
      next hcreate =>
        cases h
        obtain ⟨hfree, hinsert, hhealth, happlied⟩ := create_some hcreate
        exact ⟨rfl, .stored rfl hfree hinsert hhealth happlied (fun _ => rfl) answer_stage⟩
    | counting receivedAt inc incs =>
      cases h
      exact ⟨rfl, .counted rfl rfl rfl rfl answer_stage⟩
    | finding =>
      simp only [IngestCall.next] at h
      split at h
      · cases h
        exact ⟨rfl, quiet_error .notFound⟩
      next existing hfound =>
        cases h
        refine ⟨rfl, quiet_answer rfl rfl rfl (fun _ => rfl) (fun _ => ?_) rfl⟩
        rw [hfound]
        rfl
    | noting existing =>
      simp only [IngestCall.next] at h
      split at h
      · cases h
        exact ⟨rfl, quiet_error .store⟩
      next hnote =>
        cases h
        have hstore : store'.events = store.events ∧ store'.applied = store.applied := by
          obtain ⟨row, -, rfl⟩ := Option.map_eq_some_iff.mp hnote
          exact ⟨rfl, rfl⟩
        refine ⟨rfl, .quiet hstore.1 (acceptedBy_noteDuplicate hnote) hstore.2 ?_ ?_ ?_⟩
        all_goals unfold IngestCall.answer
        · intro key
          split_ifs <;> rfl
        · split_ifs <;> exact fun h => nomatch h
        · split_ifs with hanswered
          · exact fun _ => ⟨rfl, hanswered⟩
          · exact fun h => nomatch h
    | done result => cases h

end Steps

/-! ## The invariant -/

/-- The event of a call that counts is stored, and the increments that are left are missing. -/
def IngestCall.Missing (runtime : RiskRuntime) (store : EventStore) (p : IngestCall) : Prop :=
  ∀ receivedAt inc incs, p.stage = .counting receivedAt inc incs →
    (∃ row, store.findByKey p.event.key = some row ∧ row.event = p.event) ∧
      store.appliedFor p.event.key ++ inc :: incs = p.event.increments runtime

/-- What is known of the calls: no two apply the increments of one event, and a duplicate is
    stored. -/
structure IngestInv (runtime : RiskRuntime) (s : IngestState) : Prop where
  counted : s.shared.Counted runtime
  known : ∀ entry ∈ s.shared.applied, (s.shared.findByKey entry.1).isSome = true
  missing : ∀ p ∈ s.calls, p.Missing runtime s.shared
  alone : ∀ key, s.calls.countP (IngestCall.countingOn key) ≤ 1
  noted : ∀ p ∈ s.calls, p.isNoting = true → (s.shared.findByKey p.event.key).isSome = true

section Invariant

variable {runtime : RiskRuntime} {sourceTokens : RiskSource → String} {store store' : EventStore}
  {p p' q : IngestCall} {e : Option IngestEnv} {s t : IngestState} {key : EventKey}
  {row : SecurityEventRow} {inc : Increment}

theorem findByKey_congr (h : store'.events = store.events) :
    store'.findByKey key = store.findByKey key := by
  unfold EventStore.findByKey
  rw [h]

theorem findByKey_of_mem (h : (store.events.rows.map fun row => row.event.key).Nodup)
    (hrow : row ∈ store.events.rows) : store.findByKey row.event.key = some row := by
  cases hfind : store.findByKey row.event.key with
  | none =>
    have hne := List.find?_eq_none.mp hfind row hrow
    simp at hne
  | some other =>
    obtain ⟨hother, hkey⟩ := findByKey_some hfind
    rw [List.inj_on_of_nodup_map h hother hrow hkey]

/-- The event of a call that counts is stored, and its increments are not complete. -/
theorem countingOn_stored (h : p.Missing runtime store) (hcounting : p.countingOn key = true) :
    p.event.key = key ∧ ∃ row, store.findByKey key = some row ∧
      store.appliedFor key ≠ row.event.increments runtime := by
  obtain ⟨event, stage⟩ := p
  cases stage with
  | counting receivedAt inc incs =>
    have hkey : event.key = key := of_decide_eq_true hcounting
    obtain ⟨⟨row, hrow, hevent⟩, happlied⟩ := h receivedAt inc incs rfl
    dsimp only at hrow hevent happlied
    rw [hkey] at hrow happlied
    refine ⟨hkey, row, hrow, fun heq => ?_⟩
    rw [hevent, ← happlied] at heq
    have hlength := congrArg List.length heq
    rw [List.length_append, List.length_cons] at hlength
    omega
  | _ => cases hcounting

variable {event : SecurityEvent} {receivedAt : ℕ} {incs : List Increment} {a : IngestAction}

theorem not_countingOn_afterIncrement (h : key ≠ event.key) :
    IngestCall.countingOn key ⟨event, IngestCall.afterIncrement event receivedAt incs⟩ = false := by
  cases incs with
  | nil => rfl
  | cons inc incs => exact decide_eq_false (Ne.symm h)

/-- The store after a step of a call. -/
theorem counted_move (hstore : store.Counted runtime)
    (hknown : ∀ entry ∈ store.applied, (store.findByKey entry.1).isSome = true)
    (hmissing : p.Missing runtime store) (h : IngestMove runtime store p e store' p') :
    store'.Counted runtime ∧
      ∀ entry ∈ store'.applied, (store'.findByKey entry.1).isSome = true := by
  cases h with
  | quiet hevents hhealth happlied hidle hnoting hreturned =>
    refine ⟨⟨?_, fun source => ?_, fun row hrow => ?_⟩, fun entry hentry => ?_⟩
    · rw [hevents]
      exact hstore.storedOnce
    · rw [hevents]
      exact (hhealth source).trans (hstore.accepted source)
    · rw [hevents] at hrow
      rw [appliedFor_congr happlied]
      exact hstore.atMostOnce row hrow
    · rw [happlied] at hentry
      rw [findByKey_congr hevents]
      exact hknown entry hentry
  | @stored row receivedAt hevent hfree hinsert hhealth happlied hidle hstage =>
    rw [← hevent] at hfree
    obtain ⟨-, hrows⟩ := Table.insert_some hinsert
    refine ⟨⟨?_, fun source => ?_, fun other hother => ?_⟩, fun entry hentry => ?_⟩
    · rw [hrows, List.map_append, List.nodup_append]
      refine ⟨hstore.storedOnce, List.nodup_singleton _, fun a ha b hb hab => ?_⟩
      rw [List.mem_singleton.mp hb] at hab
      obtain ⟨other, hother, hkey⟩ := List.mem_map.mp ha
      have hfound := findByKey_of_mem hstore.storedOnce hother
      rw [hkey, hab, hfree] at hfound
      cases hfound
    · have haccepted : acceptedBy store.health source =
          store.events.rows.countP fun row => row.event.source = source := hstore.accepted source
      show acceptedBy store'.health source = _
      rw [hhealth, acceptedBy_accept, haccepted, hrows, List.countP_append, List.countP_singleton,
        hevent]
      simp
    · rw [appliedFor_congr happlied]
      rw [hrows] at hother
      rcases List.mem_append.mp hother with hother | hother
      · exact hstore.atMostOnce other hother
      · rw [List.mem_singleton.mp hother, appliedFor_absent hknown hfree]
        exact List.nil_prefix
    · rw [happlied] at hentry
      rw [findByKey_insert hfree hinsert]
      split_ifs
      · rfl
      · exact hknown entry hentry
  | @counted receivedAt inc incs hstage hevents hhealth happlied hstage' =>
    obtain ⟨⟨stored, hstored, hevent⟩, hleft⟩ := hmissing receivedAt inc incs hstage
    refine ⟨⟨?_, fun source => ?_, fun row hrow => ?_⟩, fun entry hentry => ?_⟩
    · rw [hevents]
      exact hstore.storedOnce
    · rw [hevents, hhealth]
      exact hstore.accepted source
    · rw [hevents] at hrow
      rw [appliedFor_concat happlied]
      split_ifs with hkey
      · have hfound := findByKey_of_mem hstore.storedOnce hrow
        rw [← hkey, hstored] at hfound
        cases hfound
        rw [← hkey, hevent, ← hleft]
        exact ⟨incs, by simp⟩
      · rw [List.append_nil]
        exact hstore.atMostOnce row hrow
    · rw [findByKey_congr hevents]
      rw [happlied] at hentry
      rcases List.mem_append.mp hentry with hentry | hentry
      · exact hknown entry hentry
      · rw [List.mem_singleton.mp hentry, hstored]
        rfl

/-- A stored event stays stored. -/
theorem findByKey_move (h : IngestMove runtime store p e store' p')
    (hrow : store.findByKey key = some row) : store'.findByKey key = some row := by
  cases h with
  | quiet hevents | counted hstage hevents => rw [findByKey_congr hevents, hrow]
  | stored hevent hfree hinsert =>
    rw [← hevent] at hfree
    rw [findByKey_insert hfree hinsert]
    split_ifs with hkey
    · rw [← hkey, hfree] at hrow
      cases hrow
    · exact hrow

/-- Only a call that counts on an event applies its increments. -/
theorem appliedFor_move (h : IngestMove runtime store p e store' p')
    (hidle : p.countingOn key = false) : store'.appliedFor key = store.appliedFor key := by
  cases h with
  | quiet _ _ happlied => exact appliedFor_congr happlied
  | stored _ _ _ _ happlied => exact appliedFor_congr happlied
  | counted hstage _ _ happlied =>
    rw [appliedFor_concat happlied, if_neg, List.append_nil]
    intro heq
    rw [IngestCall.countingOn, hstage] at hidle
    exact of_decide_eq_false hidle heq

/-- A step of another call. -/
theorem missing_other (hq : q.Missing runtime store) (h : IngestMove runtime store p e store' p')
    (hapart : q.countingOn q.event.key = true → p.countingOn q.event.key = false) :
    q.Missing runtime store' := by
  intro receivedAt inc incs hstage
  obtain ⟨⟨row, hrow, hevent⟩, happlied⟩ := hq receivedAt inc incs hstage
  have hcounting : q.countingOn q.event.key = true := by
    rw [IngestCall.countingOn, hstage]
    exact decide_eq_true rfl
  refine ⟨⟨row, findByKey_move h hrow, hevent⟩, ?_⟩
  rw [appliedFor_move h (hapart hcounting)]
  exact happlied

/-- The stages after an increment, or after the transaction. -/
theorem missing_afterIncrement
    (hrow : ∃ row, store.findByKey event.key = some row ∧ row.event = event)
    (happlied : store.appliedFor event.key ++ incs = event.increments runtime) :
    IngestCall.Missing runtime store ⟨event, IngestCall.afterIncrement event receivedAt incs⟩ := by
  intro receivedAt' inc' incs' hstage
  cases incs with
  | nil => cases hstage
  | cons inc incs =>
    cases hstage
    exact ⟨hrow, happlied⟩

/-- A step of the call itself. -/
theorem missing_own (hknown : ∀ entry ∈ store.applied, (store.findByKey entry.1).isSome = true)
    (hp : p.Missing runtime store) (hevent : p'.event = p.event)
    (h : IngestMove runtime store p e store' p') :
    p'.Missing runtime store' ∧ ∀ key, p'.countingOn key = true →
      p.countingOn key = true ∨ store.findByKey key = none := by
  obtain ⟨event, stage⟩ := p
  obtain ⟨event', stage'⟩ := p'
  obtain rfl : event' = event := hevent
  cases h with
  | quiet _ _ _ hidle =>
    refine ⟨fun receivedAt inc incs hstage => ?_, fun key hkey => ?_⟩
    · obtain rfl : stage' = .counting receivedAt inc incs := hstage
      exact absurd (hidle event'.key) (by simp [IngestCall.countingOn])
    · rw [hidle key] at hkey
      cases hkey
  | @stored row receivedAt hrow hfree hinsert hhealth happlied hidle hstage =>
    have hfree' := hfree
    rw [← hrow] at hfree'
    rcases hstage with rfl | rfl
    · constructor
      · refine missing_afterIncrement ⟨row, ?_, hrow⟩ ?_
        · rw [findByKey_insert hfree' hinsert, if_pos (by rw [hrow])]
        · rw [appliedFor_congr happlied, appliedFor_absent hknown hfree]
          rfl
      · intro key hkey
        by_cases heq : key = event'.key
        · rw [heq]
          exact .inr hfree
        · rw [not_countingOn_afterIncrement heq] at hkey
          cases hkey
    · exact ⟨(fun _ _ _ hstage => nomatch hstage), fun _ hkey => nomatch hkey⟩
  | @counted receivedAt inc incs hstage hevents hhealth happlied hstage' =>
    obtain rfl : stage = .counting receivedAt inc incs := hstage
    obtain ⟨⟨row, hrow, hevent⟩, hleft⟩ := hp receivedAt inc incs rfl
    rcases hstage' with rfl | rfl
    · constructor
      · refine missing_afterIncrement ⟨row, ?_, hevent⟩ ?_
        · rw [findByKey_congr hevents]
          exact hrow
        · rw [appliedFor_concat happlied, if_pos rfl, List.append_assoc]
          exact hleft
      · intro key hkey
        by_cases heq : key = event'.key
        · rw [heq]
          exact .inl (decide_eq_true rfl)
        · rw [not_countingOn_afterIncrement heq] at hkey
          cases hkey
    · exact ⟨(fun _ _ _ hstage => nomatch hstage), fun _ hkey => nomatch hkey⟩

theorem noted_own (hevent : p'.event = p.event) (h : IngestMove runtime store p e store' p')
    (hnoting : p'.isNoting = true) : (store'.findByKey p'.event.key).isSome = true := by
  have hincrement : ∀ event receivedAt incs,
      p'.stage ≠ IngestCall.afterIncrement event receivedAt incs := by
    intro event receivedAt incs hstage
    rw [IngestCall.isNoting, hstage] at hnoting
    cases incs <;> cases hnoting
  have herror : p'.stage ≠ .done (.error .store) := by
    intro hstage
    rw [IngestCall.isNoting, hstage] at hnoting
    cases hnoting
  cases h with
  | quiet hevents _ _ _ hfound =>
    rw [findByKey_congr hevents, hevent]
    exact hfound hnoting
  | stored _ _ _ _ _ _ hstage =>
    rcases hstage with hstage | hstage
    · exact absurd hstage (hincrement _ _ _)
    · exact absurd hstage herror
  | counted _ _ _ _ hstage =>
    rcases hstage with hstage | hstage
    · exact absurd hstage (hincrement _ _ _)
    · exact absurd hstage herror

/-- The number of calls that count on an event. -/
theorem alone_next {calls : List IngestCall} {n : ℕ} (hn : calls[n]? = some p)
    (hmissing : ∀ q ∈ calls, q.Missing runtime store)
    (halone : ∀ key, calls.countP (IngestCall.countingOn key) ≤ 1)
    (hown : ∀ key, p'.countingOn key = true →
      p.countingOn key = true ∨ store.findByKey key = none) (key : EventKey) :
    (calls.set n p').countP (IngestCall.countingOn key) ≤ 1 := by
  have hcount := Pool.countP_next (f := IngestCall.countingOn key) p' hn
  have hone := halone key
  cases hcounting : p'.countingOn key with
  | false =>
    rw [hcounting, Bool.toNat_false] at hcount
    omega
  | true =>
    rw [hcounting, Bool.toNat_true] at hcount
    rcases hown key hcounting with hold | hfree
    · rw [hold, Bool.toNat_true] at hcount
      omega
    · have hnone : calls.countP (IngestCall.countingOn key) = 0 := by
        refine List.countP_eq_zero.mpr fun q hq hkey => ?_
        obtain ⟨-, row, hrow, -⟩ := countingOn_stored (hmissing q hq) hkey
        rw [hfree] at hrow
        cases hrow
      omega

theorem ingestInv_step (h : IngestInv runtime s)
    (hstep : (ingestPool runtime sourceTokens).machine.step s a = some t) :
    IngestInv runtime t := by
  cases a with
  | start request =>
    cases Pool.step_start hstep
    have hidle : ∀ key, ((ingestPool runtime sourceTokens).start s.shared request).countingOn key =
        false := by
      intro key
      show IngestCall.countingOn key ⟨_, if _ then _ else _⟩ = false
      split_ifs <;> rfl
    refine ⟨h.counted, h.known, fun p hp => ?_, fun key => ?_, fun p hp hnoting => ?_⟩
    · rcases List.mem_append.mp hp with hp | hp
      · exact h.missing p hp
      · rw [List.mem_singleton.mp hp]
        intro receivedAt inc incs hstage
        have hfalse := hidle request.event.key
        rw [IngestCall.countingOn, hstage] at hfalse
        exact absurd rfl (of_decide_eq_false hfalse)
    · rw [List.countP_append, List.countP_singleton, hidle key]
      exact h.alone key
    · rcases List.mem_append.mp hp with hp | hp
      · exact h.noted p hp hnoting
      · rw [List.mem_singleton.mp hp] at hnoting
        revert hnoting
        show IngestCall.isNoting ⟨_, if _ then _ else _⟩ = true → _
        split_ifs <;> exact fun hnoting => nomatch hnoting
  | next n e =>
    obtain ⟨p, store', p', hp, hnext, rfl⟩ := Pool.step_next hstep
    obtain ⟨hevent, hmove⟩ := ingestMove_of_next hnext
    have hmem := Pool.mem_of_getElem? hp
    obtain ⟨hcounted, hknown⟩ := counted_move h.counted h.known (h.missing p hmem) hmove
    obtain ⟨hmissing, hown⟩ := missing_own h.known (h.missing p hmem) hevent hmove
    refine ⟨hcounted, hknown, Pool.forall_set (fun m q hmn hq => ?_) hmissing,
      alone_next hp h.missing h.alone hown, Pool.forall_set (fun m q hmn hq hnoting => ?_) ?_⟩
    · refine missing_other (h.missing q (Pool.mem_of_getElem? hq)) hmove fun hcounting => ?_
      by_contra hboth
      have htwo := Pool.two_le_countP hmn hp hq (Bool.not_eq_false _ ▸ hboth) hcounting
      have hone := h.alone q.event.key
      omega
    · obtain ⟨row, hrow⟩ := Option.isSome_iff_exists.mp
        (h.noted q (Pool.mem_of_getElem? hq) hnoting)
      rw [findByKey_move hmove hrow]
      rfl
    · exact noted_own hevent hmove
  | env x => exact nomatch x

theorem ingestInv_reachable {C : IngestState → IngestAction → Prop}
    (h : (ingestPool runtime sourceTokens).machine.Reachable C s) : IngestInv runtime s := by
  refine Machine.invariant (I := IngestInv runtime) ?_ (fun _ _ _ hs _ hstep => ingestInv_step hs hstep) h
  rintro s ⟨hinit, hcalls⟩
  obtain ⟨shared, calls⟩ := s
  obtain rfl : shared = EventStore.migrated := hinit
  obtain rfl : calls = [] := hcalls
  refine ⟨⟨List.nodup_nil, fun _ => rfl, fun _ hrow => absurd hrow List.not_mem_nil⟩,
    fun _ hentry => absurd hentry List.not_mem_nil, fun _ hp => absurd hp List.not_mem_nil,
    fun _ => Nat.zero_le 1, fun _ hp => absurd hp List.not_mem_nil⟩

/-! ## Answers -/

theorem complete_iff : store.complete runtime key = true ↔
    ∃ row, store.findByKey key = some row ∧
      store.appliedFor key = row.event.increments runtime := by
  unfold EventStore.complete
  rw [Option.any_eq_true]
  simp only [decide_eq_true_eq]

/-- The increments of an event that are complete stay so. -/
theorem complete_move (hp : p.Missing runtime store) (h : IngestMove runtime store p e store' p')
    (hcomplete : store.complete runtime key = true) : store'.complete runtime key = true := by
  obtain ⟨row, hrow, happlied⟩ := complete_iff.mp hcomplete
  refine complete_iff.mpr ⟨row, findByKey_move h hrow, ?_⟩
  rw [appliedFor_move h, happlied]
  rw [← Bool.not_eq_true]
  intro hcounting
  obtain ⟨-, row', hrow', hne⟩ := countingOn_stored hp hcounting
  cases hrow.symm.trans hrow'
  exact hne happlied

/-- A call that returns has all increments of its event applied, unless it is a duplicate. -/
theorem complete_own (hknown : ∀ entry ∈ store.applied, (store.findByKey entry.1).isSome = true)
    (hp : p.Missing runtime store) (hevent : p'.event = p.event)
    (hduplicate : p.isNoting = true → (e.any fun e => e.answered) = true →
      store.complete runtime p.event.key = true)
    (h : IngestMove runtime store p e store' p') (hreturned : p'.returned = true) :
    store'.complete runtime p'.event.key = true := by
  have hmove := h
  rw [hevent]
  cases h with
  | quiet _ _ _ _ _ hnoting =>
    obtain ⟨hnoting, hanswered⟩ := hnoting hreturned
    exact complete_move hp hmove (hduplicate hnoting hanswered)
  | @stored row receivedAt hrow hfree hinsert hhealth happlied hidle hstage =>
    have hfree' := hfree
    rw [← hrow] at hfree'
    refine complete_iff.mpr ⟨row, ?_, ?_⟩
    · rw [findByKey_insert hfree' hinsert, if_pos (by rw [hrow])]
    · rw [appliedFor_congr happlied, appliedFor_absent hknown hfree, hrow]
      rcases hstage with hstage | hstage
      · cases hincs : p.event.increments runtime with
        | nil => rfl
        | cons inc incs =>
          rw [IngestCall.returned, hstage, hincs] at hreturned
          cases hreturned
      · rw [IngestCall.returned, hstage] at hreturned
        cases hreturned
  | @counted receivedAt inc incs hstage hevents hhealth happlied hstage' =>
    obtain ⟨⟨row, hrow, hrowEvent⟩, hleft⟩ := hp receivedAt inc incs hstage
    refine complete_iff.mpr ⟨row, ?_, ?_⟩
    · rw [findByKey_congr hevents]
      exact hrow
    · rw [appliedFor_concat happlied, if_pos rfl, hrowEvent, ← hleft]
      rcases hstage' with hstage' | hstage'
      · cases incs with
        | nil => rfl
        | cons inc incs =>
          rw [IngestCall.returned, hstage'] at hreturned
          cases hreturned
      · rw [IngestCall.returned, hstage'] at hreturned
        cases hreturned

theorem answeredComplete_step (hinv : IngestInv runtime s)
    (h : AnsweredComplete runtime s) (hc : duplicatesComplete runtime s a = true)
    (hstep : (ingestPool runtime sourceTokens).machine.step s a = some t) :
    AnsweredComplete runtime t := by
  cases a with
  | start request =>
    cases Pool.step_start hstep
    intro p hp hreturned
    rcases List.mem_append.mp hp with hp | hp
    · exact h p hp hreturned
    · rw [List.mem_singleton.mp hp] at hreturned
      revert hreturned
      show IngestCall.returned ⟨_, if _ then _ else _⟩ = true → _
      split_ifs <;> exact fun hreturned => nomatch hreturned
  | next n e =>
    obtain ⟨p, store', p', hp, hnext, rfl⟩ := Pool.step_next hstep
    obtain ⟨hevent, hmove⟩ := ingestMove_of_next hnext
    have hmissing := hinv.missing p (Pool.mem_of_getElem? hp)
    refine Pool.forall_set (fun m q _ hq hreturned => ?_) ?_
    · exact complete_move hmissing hmove (h q (Pool.mem_of_getElem? hq) hreturned)
    · refine complete_own hinv.known hmissing hevent (fun hnoting hanswered => ?_) hmove
      obtain ⟨event, stage⟩ := p
      obtain ⟨e, rfl, hanswered⟩ := (Option.any_eq_true _ _).mp hanswered
      have hanswered : e.answered = true := hanswered
      cases stage with
      | noting existing => simpa [duplicatesComplete, hp, hanswered] using hc
      | _ => cases hnoting
  | env x => exact nomatch x

/-- The source of a stored event has a health row. -/
theorem noteDuplicate_of_stored (hstore : store.Counted runtime)
    (hrow : store.findByKey key = some row) : ∃ store', store.noteDuplicate key.1 = some store' := by
  obtain ⟨hmem, hkey⟩ := findByKey_some hrow
  have hsource : row.event.source = key.1 := congrArg Prod.fst hkey
  have hpos : 0 < store.events.rows.countP fun row => row.event.source = key.1 :=
    List.countP_pos_iff.mpr ⟨row, hmem, decide_eq_true hsource⟩
  rw [← hstore.accepted key.1] at hpos
  cases hhealth : store.health.find key.1 with
  | none =>
    rw [hhealth] at hpos
    exact absurd hpos (Nat.lt_irrefl 0)
  | some health => exact ⟨_, by rw [EventStore.noteDuplicate, hhealth]; rfl⟩

/-- An answer as a duplicate before the increments are complete. -/
theorem not_answeredComplete_step (hinv : IngestInv runtime s)
    (hc : duplicatesComplete runtime s a = false)
    (hstep : (ingestPool runtime sourceTokens).machine.step s a = some t) :
    ¬ AnsweredComplete runtime t := by
  unfold duplicatesComplete at hc
  split at hc
  next n e =>
    split at hc
    next event existing hp =>
      rw [Bool.or_eq_false_iff, Bool.not_eq_false'] at hc
      obtain ⟨hanswered, hincomplete⟩ := hc
      obtain ⟨p, store', p', hp', hnext, rfl⟩ := Pool.step_next hstep
      cases hp.symm.trans hp'
      obtain ⟨row, hrow⟩ := Option.isSome_iff_exists.mp
        (hinv.noted _ (Pool.mem_of_getElem? hp) rfl)
      obtain ⟨store'', hnote⟩ := noteDuplicate_of_stored hinv.counted hrow
      have hkept : store''.events = s.shared.events ∧ store''.applied = s.shared.applied := by
        obtain ⟨row, -, rfl⟩ := Option.map_eq_some_iff.mp hnote
        exact ⟨rfl, rfl⟩
      have hnote : s.shared.noteDuplicate event.source = some store'' := hnote
      have hnext : IngestCall.next runtime s.shared ⟨event, .noting existing⟩ (some e) =
          some (store', p') := hnext
      simp only [IngestCall.next, hnote, IngestCall.answer, hanswered, if_true] at hnext
      cases hnext
      intro hall
      have hlt := (List.getElem?_eq_some_iff.mp hp).1
      have hcomplete := hall _ (List.mem_of_getElem? (List.getElem?_set_self hlt)) rfl
      obtain ⟨row', hrow', happlied⟩ := complete_iff.mp hcomplete
      have hcomplete : s.shared.complete runtime event.key = true := by
        refine complete_iff.mpr ⟨row', ?_, ?_⟩
        · rw [← findByKey_congr hkept.1]
          exact hrow'
        · rw [← appliedFor_congr hkept.2]
          exact happlied
      rw [hcomplete] at hincomplete
      cases hincomplete
    · cases hc
  · cases hc

end Invariant

/-! ## Main results -/

/-- In every run each event is stored at most once, the accepted counts are right, and no
    increment is applied twice. If no call is answered as a duplicate while the increments of the
    stored event are incomplete, every call that has returned has all increments of its event
    applied; an answer that does not meet this breaks it. -/
theorem ingest_exactly_once (runtime : RiskRuntime) (sourceTokens : RiskSource → String) :
    (∀ s, (ingestPool runtime sourceTokens).machine.Reachable Machine.always s →
      s.shared.Counted runtime) ∧
    ∀ s, (ingestPool runtime sourceTokens).machine.Reachable
        (fun s a => duplicatesComplete runtime s a = true) s →
      AnsweredComplete runtime s ∧
        ∀ a t, (ingestPool runtime sourceTokens).machine.step s a = some t →
          duplicatesComplete runtime s a = false → ¬ AnsweredComplete runtime t := by
  refine ⟨fun s h => (ingestInv_reachable h).counted, fun s h => ⟨?_, fun a t hstep hc => ?_⟩⟩
  · refine Machine.invariant_of_reachable (I := AnsweredComplete runtime) ?_
      (fun s a t hr hs hc hstep =>
        answeredComplete_step (ingestInv_reachable hr) hs hc hstep) h
    rintro s ⟨-, hcalls⟩ p hp
    rw [hcalls] at hp
    cases hp
  · exact not_answeredComplete_step (ingestInv_reachable h) hc hstep

/-! ## A retry that is answered early -/

theorem number_plain (n : ℕ) (_ : n ≤ Json.maxSafeInteger) :
    ((toString n).toNat?.map fun k : ℕ => (k : ℚ)) = some (n : ℚ) :=
  congrArg (Option.map fun k : ℕ => (k : ℚ)) (Nat.toNat?_repr n)

/-- No hashing, and `Number` on decimal texts only. -/
def plainRiskRuntime : RiskRuntime where
  sha256 := id
  number text := text.toNat?.map fun k : ℕ => (k : ℚ)
  number_toString := number_plain

/-- Empty stores, and no calls. -/
def noEvents : IngestState where
  shared := EventStore.migrated
  calls := []

theorem noEvents_init :
    (ingestPool plainRiskRuntime fun _ => "source-token").machine.init noEvents := ⟨rfl, rfl⟩

/-- A failed login of a customer. -/
def loginFailure : SecurityEvent where
  eventId := "event-1"
  source := .IDENTITY
  sourceEventId := "identity:1"
  eventType := .LOGIN_FAILURE
  occurredAt := 0
  subjectId := some "customer-1"
  amountMinor := none

def ingestLoginFailure : IngestAction :=
  .start { event := loginFailure, sourceToken := "source-token" }

/-- Call `n` takes a step, and its answer arrives. -/
def ingests (n : ℕ) : IngestAction := .next n (some { now := 0, answered := true })

/-- Some call has returned although the increments of its event are not complete. -/
def answeredEarly (s : IngestState) : Bool :=
  s.calls.any fun p => p.returned && !s.shared.complete plainRiskRuntime p.event.key

/-- Every call has returned. -/
def allReturned (s : IngestState) : Bool := s.calls.all IngestCall.returned

/-- The first call loses Redis after its transaction; the retry is answered as a duplicate. -/
theorem ingest_answered_early : ¬ ∀ (runtime : RiskRuntime) (sourceTokens : RiskSource → String)
    (s : IngestState), (ingestPool runtime sourceTokens).machine.Reachable Machine.always s →
    AnsweredComplete runtime s := by
  intro h
  obtain ⟨s, hs, hp⟩ := Machine.reachable_of_run
    [ingestLoginFailure, ingests 0, ingests 0, .next 0 none,
      ingestLoginFailure, ingests 1, ingests 1, ingests 1, ingests 1]
    answeredEarly noEvents_init (by decide)
  obtain ⟨p, hmem, hp⟩ := List.any_eq_true.mp hp
  obtain ⟨hreturned, hincomplete⟩ := Bool.and_eq_true_iff.mp hp
  rw [h _ _ s hs p hmem hreturned] at hincomplete
  cases hincomplete

/-- The retry after a call that has returned. -/
theorem ingest_exactly_once_retry : ∃ s : IngestState, allReturned s = true ∧
    AnsweredComplete plainRiskRuntime s := by
  obtain ⟨s, hs, hp⟩ := Machine.reachable_of_runUnder
    [ingestLoginFailure, ingests 0, ingests 0, ingests 0, ingests 0,
      ingestLoginFailure, ingests 1, ingests 1, ingests 1, ingests 1]
    (duplicatesComplete plainRiskRuntime) allReturned (fun _ _ hc => hc) noEvents_init
    (by decide)
  exact ⟨s, hp, ((ingest_exactly_once plainRiskRuntime fun _ => "source-token").2 s hs).1⟩

end AegisShield.Risk
