import AegisShield.Common.Expiring
import AegisShield.Common.Script
import AegisShield.Sabcl.Recipient

/-!
# Failures of `SabclRecipient.handle`

`handle` (`server/sabcl-recipient.ts`, lines 68-119) with its exceptions and its
effects: the commands to the replay store and the requests that it dispatches, in
their order, for any replay store that records what it reports as unseen
(`InMemoryReplayStore`, `RedisReplayStore`).

Results:
* `refusal_has_no_effect`: an envelope that is not parsed or not opened leaves the
  replay store as it was, is not dispatched and is answered with its protocol code; a
  dispatch comes after the claim of the message id, which the store holds by then.
* `handleOn_outcome`: the outcome is that of `handle`, and every exit is a return
  (`handleOn_returns`).
-/

namespace AegisShield.Sabcl

open Common Script

/-! ## Replay stores (`replay-store.ts`, `redis-replay-store.ts`) -/

/-- `SabclReplayStore` with states `σ`. -/
structure SabclReplayStore (σ : Type) where
  /-- `remember(messageId, ttlSeconds)` at a time in milliseconds. -/
  remember : ℕ → String → ℕ → σ → Except Thrown Bool × σ
  /-- Whether a message id is held at a time. -/
  recorded : ℕ → String → σ → Prop
  records : ∀ now messageId ttl s, 0 < ttl → (remember now messageId ttl s).1 = .ok true →
    recorded now messageId (remember now messageId ttl s).2

namespace InMemoryReplayStore

/-- The `Map` of message ids and expiry times, in insertion order. -/
abbrev Seen := List (String × ℕ)

/-- The sweep of `remember`. -/
def sweep (now : ℕ) (seen : Seen) : Seen := seen.filter fun entry => ¬entry.2 ≤ now

/-- `remember` (lines 34-43). -/
def remember (now : ℕ) (messageId : String) (ttlSeconds : ℕ) (seen : Seen) :
    Except Thrown Bool × Seen :=
  let swept := sweep now seen
  if swept.any fun entry => entry.1 == messageId then (.ok false, swept)
  else (.ok true, swept ++ [(messageId, now + ttlSeconds * 1000)])

theorem remember_records (now : ℕ) (messageId : String) (ttl : ℕ) (seen : Seen) (httl : 0 < ttl)
    (h : (remember now messageId ttl seen).1 = .ok true) :
    ∃ expiry, (messageId, expiry) ∈ (remember now messageId ttl seen).2 ∧ now < expiry := by
  unfold remember at h ⊢
  dsimp only at h ⊢
  split_ifs at h ⊢
  · cases h
  · exact ⟨_, List.mem_append_right _ List.mem_cons_self, by omega⟩

def store : SabclReplayStore Seen where
  remember := remember
  recorded now messageId seen := ∃ expiry, (messageId, expiry) ∈ seen ∧ now < expiry
  records := remember_records

end InMemoryReplayStore

namespace RedisReplayStore

/-- What becomes of a command: `lost` is a command that Redis executes and whose reply
    does not arrive. -/
inductive Link where
  | up
  | down
  | lost
  deriving DecidableEq

/-- What Redis holds under each message id. -/
abbrev Keys := String → Cell Unit

/-- `remember` (lines 41-49) over a connection. -/
def remember (link : ℕ → Link) (now : ℕ) (messageId : String) (ttlSeconds : ℕ) (keys : Keys) :
    Except Thrown Bool × Keys :=
  let (answer, after) :=
    match Cell.setNxEx now () (max 1 ttlSeconds) (keys messageId) with
    | none => (false, keys)
    | some cell => (true, Function.update keys messageId cell)
  match link now with
  | .up => (.ok answer, after)
  | .down => (.error (.runtime "Redis is not reachable"), keys)
  | .lost => (.error (.runtime "Socket closed unexpectedly"), after)

theorem remember_records (link : ℕ → Link) (now : ℕ) (messageId : String) (ttl : ℕ) (keys : Keys)
    (_ : 0 < ttl) (h : (remember link now messageId ttl keys).1 = .ok true) :
    Cell.get now ((remember link now messageId ttl keys).2 messageId) = some () := by
  unfold remember at h ⊢
  rcases hset : Cell.setNxEx now () (max 1 ttl) (keys messageId) with _ | cell
  · simp only [hset] at h
    rcases hlink : link now with _ | _ | _ <;> simp only [hlink] at h <;> cases h
  · simp only [hset] at h ⊢
    obtain ⟨-, rfl⟩ := Cell.setNxEx_eq_some.mp hset
    rcases hlink : link now with _ | _ | _ <;> simp only [hlink] at h ⊢
    · rw [Function.update_self]
      exact Cell.get_eq_some.mpr ⟨_, rfl, by simp [Entry.live], rfl⟩
    · cases h
    · cases h

def store (link : ℕ → Link) : SabclReplayStore Keys where
  remember := remember link
  recorded now messageId keys := Cell.get now (keys messageId) = some ()
  records := remember_records link

end RedisReplayStore

/-! ## `handle` with its effects -/

/-- What arrives at the recipient. -/
inductive RawEnvelope where
  | json (value : Json)
  | bytes (buffer : Bytes)

/-- The value that the schema sees: a `Buffer` is an object whose members are its indices. -/
def RawEnvelope.value : RawEnvelope → Json
  | .json value => value
  | .bytes buffer => .object (buffer.zipIdx.map fun b => (toString b.2, .number b.1.toNat))

/-- An effect of `handle`; `after` is the replay store after the command. -/
inductive Effect (σ : Type) where
  | remember (messageId : String) (ttlSeconds : ℕ) (after : σ)
  | dispatch (request : SabclInnerRequest)

/-- The replay store and the effects so far. -/
structure Progress (σ : Type) where
  store : σ
  effects : List (Effect σ)

/-- What `handle` takes from outside: its clock readings, the time at which the command
    reaches the replay store, the service behind it and the nonce of the response. -/
structure Outside where
  openedAt : ℕ
  claimedAt : ℕ
  storeAt : ℕ
  dispatch : SabclInnerRequest → Except Thrown Json
  nonce : Bytes

section
variable {σ : Type} (P : Primitives) (options : SabclRecipientOptions)
  (store : SabclReplayStore σ) (env : Outside)

/-- `this.options.replayStore.remember(messageId, ttlSeconds)`. -/
def rememberOn (messageId : String) (ttlSeconds : ℕ) : Script (Progress σ) Thrown Bool :=
  .of fun p =>
    let (answer, after) := store.remember env.storeAt messageId ttlSeconds p.store
    (answer, { store := after, effects := p.effects ++ [.remember messageId ttlSeconds after] })

/-- `this.options.dispatch(request)`. -/
def dispatchOn (request : SabclInnerRequest) : Script (Progress σ) Thrown Json :=
  .of fun p => (env.dispatch request, { p with effects := p.effects ++ [.dispatch request] })

/-- The second `try` block (lines 77-116). -/
def answerOn (envelope : SabclEnvelope) : Script (Progress σ) Thrown SabclRecipientOutcome := do
  let opened ← lift (openRequest P options.keyring.own options.keyring envelope env.openedAt)
  let unseen ← rememberOn store env envelope.mid (replayTtl envelope env.claimedAt)
  lift (failIf (unseen = false) .SABCL_REPLAYED)
  let inner ← lift (assertInner options opened)
  let result ← dispatchOn env inner
  let response ← lift
    (sealResponse P options.keyring.own opened.responseSecret opened.messageId result env.nonce)
  return { status := 200, body := .ok response }

/-- `handle` (lines 68-119) as it runs. -/
def handleOn (raw : RawEnvelope) : Script (Progress σ) Thrown SabclRecipientOutcome :=
  match parseEnvelope raw.value with
  | .error error => pure (reject (toSabclError error .SABCL_MALFORMED))
  | .ok envelope =>
    tryCatch (answerOn P options store env envelope) fun error => pure (reject (toSabclError error))

end

variable {σ : Type} {P : Primitives} {options : SabclRecipientOptions}
  {store : SabclReplayStore σ} {env : Outside} {raw : RawEnvelope}

/-! ## Failures before the claim -/

theorem parseEnvelope_error {raw : Json} {error : Thrown} (h : parseEnvelope raw = .error error) :
    error = .sabcl { code := .SABCL_MALFORMED } := by
  unfold parseEnvelope at h
  split at h <;> cases h
  rfl

/-- A failure to parse or to open is answered in the state in which the envelope arrived. -/
theorem handleOn_receive_error {error : Thrown}
    (h : receive P options raw.value env.openedAt = .error error) (p : Progress σ) :
    (handleOn P options store env raw).run p = (.ok (reject (toSabclError error)), p) := by
  unfold receive at h
  unfold handleOn
  rcases hparse : parseEnvelope raw.value with error' | envelope
  · rw [hparse] at h
    cases h
    rw [parseEnvelope_error hparse]
    rfl
  · rw [hparse] at h
    rcases hopen : openRequest P options.keyring.own options.keyring envelope env.openedAt
      with error' | opened
    · simp only [bind, Except.bind, hopen, Except.map] at h
      cases h
      have hwp : Wp (tryCatch (answerOn P options store env envelope)
          fun e => pure (reject (toSabclError e)))
          (fun r q => (r, q) = (.ok (reject (toSabclError error)), p)) p := by
        rw [wp_tryCatch, answerOn, wp_bind, wp_lift, hopen]
        rfl
      exact hwp
    · simp only [bind, Except.bind, hopen, Except.map] at h
      cases h

/-! ## What comes before a dispatch -/

/-- A run that claimed the message id and stopped has dispatched nothing. -/
theorem not_dispatched {messageId : String} {ttl : ℕ} {after : σ} {inner : SabclInnerRequest}
    (h : Effect.dispatch inner ∈ [Effect.remember messageId ttl after]) : False := by
  cases List.mem_singleton.mp h

variable (P options store env) in
/-- A request that is dispatched comes from an envelope that was opened, right after the
    claim of its message id. -/
def ClaimedFirst (envelope : SabclEnvelope) (effects : List (Effect σ)) : Prop :=
  ∀ inner, Effect.dispatch inner ∈ effects → ∃ opened after,
    openRequest P options.keyring.own options.keyring envelope env.openedAt = .ok opened ∧
    effects = [.remember envelope.mid (replayTtl envelope env.claimedAt) after, .dispatch inner] ∧
    store.recorded env.storeAt envelope.mid after

/-- The effects of the second block, once the envelope is parsed. -/
theorem answerOn_effects {envelope : SabclEnvelope} {s : σ} :
    Wp (answerOn P options store env envelope)
      (fun _ q => ClaimedFirst P options store env envelope q.effects)
      { store := s, effects := [] } := by
  have hrecords := store.records env.storeAt envelope.mid (replayTtl envelope env.claimedAt) s
    (by unfold replayTtl; omega)
  unfold answerOn
  rw [wp_bind, wp_lift]
  rcases hopen : openRequest P options.keyring.own options.keyring envelope env.openedAt
    with error | opened
  · intro inner hinner
    cases hinner
  rw [onReturn_ok, wp_bind, rememberOn, wp_of]
  rcases hremember : store.remember env.storeAt envelope.mid (replayTtl envelope env.claimedAt) s
    with ⟨error | unseen, after⟩
  · intro inner hinner
    exact (not_dispatched hinner).elim
  rw [hremember] at hrecords
  simp only [List.nil_append, onReturn_ok]
  rw [wp_bind, wp_lift]
  cases unseen with
  | false =>
    intro inner hinner
    exact (not_dispatched hinner).elim
  | true =>
    rw [failIf, if_neg (by decide), onReturn_ok, wp_bind, wp_lift]
    rcases assertInner options opened with error | inner'
    · intro inner hinner
      exact (not_dispatched hinner).elim
    rw [onReturn_ok, wp_bind, dispatchOn, wp_of]
    -- neither the answer of the service nor the sealing adds an effect
    have hdispatched : ClaimedFirst P options store env envelope
        [.remember envelope.mid (replayTtl envelope env.claimedAt) after, .dispatch inner'] := by
      intro inner hinner
      rcases List.mem_cons.mp hinner with hinner | hinner
      · cases hinner
      · cases List.mem_singleton.mp hinner
        exact ⟨opened, after, hopen, rfl, hrecords rfl⟩
    rcases env.dispatch inner' with error | result
    · exact hdispatched
    · rw [onReturn_ok, wp_bind, wp_lift]
      rcases sealResponse P options.keyring.own opened.responseSecret opened.messageId result
        env.nonce with error | response
      · exact hdispatched
      · exact hdispatched

/-- Every exit of `handle` is a return. -/
theorem handleOn_returns (p : Progress σ) :
    Wp (handleOn P options store env raw) (fun r _ => ∃ outcome, r = .ok outcome) p := by
  unfold handleOn
  split
  · exact ⟨_, rfl⟩
  · rw [wp_tryCatch]
    unfold Wp
    rcases ((answerOn P options store env _).run p).1 with error | outcome
    · exact ⟨_, rfl⟩
    · exact ⟨outcome, rfl⟩

/-! ## The statement -/

/-- An envelope that is not parsed or not opened is refused without an effect, and a
    request is dispatched only after its message id was recorded. -/
theorem refusal_has_no_effect (P : Primitives) (options : SabclRecipientOptions)
    (store : SabclReplayStore σ) (env : Outside) (raw : RawEnvelope) (s : σ) :
    (∀ error, receive P options raw.value env.openedAt = .error error →
      (handleOn P options store env raw).run { store := s, effects := [] } =
        (.ok { status := statusForCode (toSabclError error).code,
               body := .error (toSabclError error).code },
          { store := s, effects := [] })) ∧
    ∀ inner,
      Effect.dispatch inner ∈
        ((handleOn P options store env raw).run { store := s, effects := [] }).2.effects →
      ∃ envelope opened after,
        receive P options raw.value env.openedAt = .ok (envelope, opened) ∧
        ((handleOn P options store env raw).run { store := s, effects := [] }).2.effects =
          [.remember envelope.mid (replayTtl envelope env.claimedAt) after, .dispatch inner] ∧
        store.recorded env.storeAt envelope.mid after := by
  refine ⟨fun error h => handleOn_receive_error h _, ?_⟩
  unfold handleOn
  rcases hparse : parseEnvelope raw.value with error | envelope
  · intro inner hinner
    cases hinner
  · intro inner hinner
    have hwp : Wp (tryCatch (answerOn P options store env envelope)
        fun error => pure (reject (toSabclError error)))
        (fun _ q => ClaimedFirst P options store env envelope q.effects)
        { store := s, effects := [] } := by
      rw [wp_tryCatch]
      refine answerOn_effects.mono fun r q h => ?_
      rcases r with error | outcome
      · exact h
      · exact h
    obtain ⟨opened, after, hopen, heffects, hrecorded⟩ := hwp inner hinner
    refine ⟨envelope, opened, after, ?_, heffects, hrecorded⟩
    simp only [receive, hparse, bind, Except.bind, hopen, Except.map]

/-- The recipient of the balance query in its last second. -/
def balanceOutside : Outside where
  openedAt := 1030
  claimedAt := 1030
  storeAt := 1030000
  dispatch _ := .ok (.object [("status", .number 200)])
  nonce := List.replicate 12 8

/-- What the Ledger does with a value, from an empty store. -/
def ledgerHandles (value : Json) :
    Except Thrown SabclRecipientOutcome × Progress InMemoryReplayStore.Seen :=
  (handleOn (plainPrimitives balancePayload balanceText) (recipientFor "ledger" ledgerKeyring)
    InMemoryReplayStore.store balanceOutside (.json value)).run { store := [], effects := [] }

/-- The request of a dispatch. -/
def Effect.dispatched? : Effect σ → Option SabclInnerRequest
  | .remember _ _ _ => none
  | .dispatch request => some request

theorem query_dispatched :
    ((ledgerHandles (sealedUnderAccounts balancePayload balanceText)).2.effects.filterMap
      Effect.dispatched?).length = 1 := by
  decide +kernel

/-- `null` is refused without an effect; the balance query is claimed and then dispatched. -/
theorem refusal_has_no_effect_query :
    (ledgerHandles .null).2 = { store := [], effects := [] } ∧
    ∃ messageId ttl after inner,
      (ledgerHandles (sealedUnderAccounts balancePayload balanceText)).2.effects =
        [.remember messageId ttl after, .dispatch inner] ∧
      InMemoryReplayStore.store.recorded 1030000 messageId after := by
  unfold ledgerHandles
  have hrefusal := refusal_has_no_effect (plainPrimitives balancePayload balanceText)
    (recipientFor "ledger" ledgerKeyring) InMemoryReplayStore.store balanceOutside
  have hnull : receive (plainPrimitives balancePayload balanceText)
      (recipientFor "ledger" ledgerKeyring) (RawEnvelope.json .null).value 1030 =
        .error (.sabcl { code := .SABCL_MALFORMED }) := by rfl
  have hdispatched := query_dispatched
  unfold ledgerHandles at hdispatched
  obtain ⟨inner, hinner⟩ := List.length_eq_one_iff.mp hdispatched
  obtain ⟨effect, heffect, hsome⟩ :=
    List.mem_filterMap.mp (hinner ▸ List.mem_singleton_self inner)
  cases effect with
  | remember => cases hsome
  | dispatch request =>
    obtain ⟨_, _, after, -, heffects, hrecorded⟩ := (hrefusal _ []).2 request heffect
    exact ⟨congrArg Prod.snd ((hrefusal _ []).1 _ hnull), _, _, after, request, heffects, hrecorded⟩

/-- The outcome is that of `handle` on the answer of the replay store. -/
theorem handleOn_outcome (s : σ) :
    ((handleOn P options store env raw).run { store := s, effects := [] }).1 =
      .ok (handle P options
        { openedAt := env.openedAt, claimedAt := env.claimedAt,
          remember := fun messageId ttl => (store.remember env.storeAt messageId ttl s).1,
          dispatch := env.dispatch, nonce := env.nonce } raw.value).outcome := by
  rcases hreceive : receive P options raw.value env.openedAt with error | ⟨envelope, opened⟩
  · rw [handleOn_receive_error hreceive, handle, hreceive]
  obtain ⟨hschema, hopen⟩ := receive_ok hreceive
  rw [handleOn, parseEnvelope_ok.mpr hschema, handle, hreceive]
  dsimp only
  -- both sides take the same turn at every answer
  suffices hwp : Wp (tryCatch (answerOn P options store env envelope)
      fun error => pure (reject (toSabclError error)))
      (fun r _ => r = .ok _) { store := s, effects := [] } from hwp
  rw [wp_tryCatch]
  unfold answerOn
  rw [wp_bind, wp_lift, hopen, onReturn_ok, wp_bind, rememberOn, wp_of]
  rcases (store.remember env.storeAt envelope.mid (replayTtl envelope env.claimedAt) s).1
    with error | unseen
  · rfl
  cases unseen with
  | false => rfl
  | true =>
    dsimp only
    rw [onReturn_ok, wp_bind, wp_lift, failIf, if_neg (by decide), onReturn_ok, wp_bind, wp_lift]
    rcases assertInner options opened with error | inner
    · rfl
    rw [onReturn_ok, wp_bind, dispatchOn, wp_of]
    rcases hdispatch : env.dispatch inner with error | result
    · simp only [hdispatch]
      rfl
    rw [onReturn_ok, wp_bind, wp_lift]
    rcases hseal : sealResponse P options.keyring.own opened.responseSecret opened.messageId result
      env.nonce with error | response
    · simp only [hdispatch, hseal, bind, Except.bind]
      rfl
    · simp only [hdispatch, hseal, bind, Except.bind]
      rfl

end AegisShield.Sabcl
