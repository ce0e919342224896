import AegisShield.Ledger.Idempotency

/-!
# Exactly-once execution under an idempotency key

Any number of calls of `execute` on one database, interleaved statement by statement,
with callbacks that run any transaction on the application's tables, fail or are cut
off anywhere.

Results:
* `exactly_once`: at most one callback commits under a scope and key, every successful
  call returns its stored response, a call with another payload after the commit fails
  and changes nothing, and without a commit the next call runs its callback.
-/

namespace AegisShield.Ledger

open Common

variable {A LA V E T ρ ι : Type*}

/-! ## Model -/

/-- The calls of `execute` on a database without records. -/
def executions (runtime : Runtime) (B : Database A LA V Thrown)
    (options : ι → ExecuteOptions A LA V E T ρ) :
    Calls (Stored A ρ) (StoredLock LA) (StoredWrite V ρ) E Thrown T (IdempotentOutcome T) ι where
  database := stored B
  init d := d.records.rows = []
  call i := execute runtime (options i)

/-- The states of the calls. -/
abbrev ExecutionState (A LA V E T ρ ι : Type*) :=
  Calls.State (Stored A ρ) (StoredLock LA) (StoredWrite V ρ) E Thrown T (IdempotentOutcome T) ι

/-- Two calls with the same scope and idempotency key. -/
def SameKey (a b : ExecuteOptions A LA V E T ρ) : Prop :=
  a.scope = b.scope ∧ a.idempotencyKey = b.idempotencyKey

instance (a b : ExecuteOptions A LA V E T ρ) : Decidable (SameKey a b) :=
  inferInstanceAs (Decidable (_ ∧ _))

/-- Two calls with the same canonical payload. -/
def SamePayload (runtime : Runtime) (a b : ExecuteOptions A LA V E T ρ) : Prop :=
  canonicalJson runtime a.payload = canonicalJson runtime b.payload

instance (runtime : Runtime) (a b : ExecuteOptions A LA V E T ρ) :
    Decidable (SamePayload runtime a b) :=
  inferInstanceAs (Decidable (_ = _))

/-- SHA-256 has no collision among the keys and among the canonical payloads of the calls. -/
structure CollisionFree (runtime : Runtime) (options : ι → ExecuteOptions A LA V E T ρ) :
    Prop where
  keys : ∀ i j, runtime.sha256 (options i).idempotencyKey =
    runtime.sha256 (options j).idempotencyKey →
    (options i).idempotencyKey = (options j).idempotencyKey
  payloads : ∀ i j, (options i).requestHash runtime = (options j).requestHash runtime →
    SamePayload runtime (options i) (options j)

/-- Where a call stands before its reservation. -/
inductive Waiting (runtime : Runtime) (options : ExecuteOptions A LA V E T ρ) :
    Proc (Stored A ρ) (StoredLock LA) (StoredWrite V ρ) E Thrown T (IdempotentOutcome T) → Prop
  | called : Waiting runtime options (.client (execute runtime options))
  | looked : Waiting runtime options
      (.client (.tx (executeTx runtime options) (afterTx runtime options)))
  | begun : Waiting runtime options
      (.inTx [] [] (executeTx runtime options) (afterTx runtime options))

section Statement

variable [DecidableEq LA] (runtime : Runtime) (B : Database A LA V Thrown)
  (options : ι → ExecuteOptions A LA V E T ρ)

/-- Call `n` cannot succeed any more: it finds another request under its key, ends
    with IDEMPOTENCY_CONFLICT or a fault, and commits nothing. -/
structure Refused (n : ℕ) (j : ι) (s : ExecutionState A LA V E T ρ ι) : Prop where
  finds : ∀ conflicted, replayIfSettled runtime (options j) conflicted s.db =
    .error idempotencyConflictError
  returns : ∀ outcome, s.procs[n]? ≠ some (j, .client (.ret outcome))
  throws : ∀ e, s.procs[n]? = some (j, .client (.throw e)) →
    e = idempotencyConflictError ∨ e = B.fault
  commits : ∀ move t, (executions runtime B options).machine.step s (.next n move) = some t →
    t.db = s.db ∧ t.log = s.log

/-- Exactly-once execution. -/
structure ExactlyOnce (s : ExecutionState A LA V E T ρ ι) : Prop where
  /-- The data is what the commits made of it. -/
  effects : ∃ d, d.records.rows = [] ∧ s.db = (stored B).applyAll d (s.log.flatMap Prod.snd)
  /-- A commit is one complete run of a callback, with the record of its response. -/
  runs : ∀ i ws, (i, ws) ∈ s.log → ∃ vs value, (options i).run.Yields vs value ∧
    ws = executionWrites ((options i).reservation runtime) vs ((options i).encode value)
  /-- At most one callback commits under a scope and key. -/
  once : ∀ i, s.log.countP (fun entry => SameKey (options entry.1) (options i)) ≤ 1
  /-- A successful call returns the response that was stored for its payload. -/
  replays : ∀ j outcome, (j, .client (.ret outcome)) ∈ s.procs → ∃ i vs value,
    (i, executionWrites ((options i).reservation runtime) vs ((options i).encode value)) ∈ s.log ∧
      SameKey (options i) (options j) ∧ SamePayload runtime (options i) (options j) ∧
      if outcome.replayed then (options j).decode ((options i).encode value) = .ok outcome.result
      else (options j).encode outcome.result = (options i).encode value
  /-- After the commit of another payload a call that has not made its reservation,
      or that starts later, is refused. -/
  conflicts : ∀ i ws j n p t, (i, ws) ∈ s.log → SameKey (options i) (options j) →
    ¬ SamePayload runtime (options i) (options j) → s.procs[n]? = some (j, p) →
    Waiting runtime (options j) p →
    (executions runtime B options).machine.Path Machine.always s t →
    Refused runtime B options n j t
  /-- A callback that throws commits nothing, like every other step without a commit. -/
  fails : ∀ n move i held ws e next t, s.procs[n]? = some (i, .inTx held ws (.throw e) next) →
    (executions runtime B options).machine.step s (.next n move) = some t →
    t.db = s.db ∧ t.log = s.log
  /-- Without a commit under its key, the lookup of a call leads to its transaction and
      the reservation to its callback. -/
  afresh : ∀ j, (∀ entry ∈ s.log, ¬ SameKey (options entry.1) (options j)) → ∀ e : E,
    Proc.next (stored B) s.db (.client (execute runtime (options j))) (.query : Move E) =
        some (.client (.tx (executeTx runtime (options j)) (afterTx runtime (options j))), none) ∧
      Proc.next (stored B) s.db
          (.inTx [] [] (executeTx runtime (options j)) (afterTx runtime (options j))) (.stmt e) =
        some (.inTx [.record ((options j).recordKey runtime)]
          [.create ((options j).reservation runtime)]
          ((liftTx (options j).run).bind (complete runtime (options j)))
          (afterTx runtime (options j)), none)

end Statement

/-! ## The commits of an execution -/

section Commits

variable {runtime : Runtime} {options : ExecuteOptions A LA V E T ρ}

theorem liftTx_yields {run : Tx A LA V E Thrown T} {ws : List (StoredWrite V ρ)} {value : T}
    (h : (liftTx run).Yields ws value) : ∃ vs, run.Yields vs value ∧ ws = vs.map .app := by
  induction run generalizing ws with
  | ret b =>
    cases h
    exact ⟨[], .ret value, rfl⟩
  | throw e => cases h
  | stmt locks made rest ih =>
    cases h with
    | @stmt _ _ _ d e ws _ h =>
      obtain ⟨vs, hvs, rfl⟩ := ih _ _ h
      exact ⟨_, .stmt hvs, (List.map_append).symm⟩

/-- The transaction starts with its reservation. -/
theorem executeTx_eq : (executeTx runtime options : Tx (Stored A ρ) (StoredLock LA)
    (StoredWrite V ρ) E Thrown T) = .stmt (fun _ _ => [.record (options.recordKey runtime)])
      (fun d _ => if (d.records.find (options.recordKey runtime)).isSome then []
        else [.create (options.reservation runtime)])
      fun d _ => Tx.bind (if (d.records.find (options.recordKey runtime)).isSome then
          .throw (uniqueViolation runtime ["scope", "key_hash"])
        else .ret ()) fun _ => (liftTx options.run).bind (complete runtime options) := rfl

theorem reserve_yields {ws : List (StoredWrite V ρ)} {value : Unit}
    (h : (reserve runtime options : Tx (Stored A ρ) (StoredLock LA) (StoredWrite V ρ) E Thrown
      Unit).Yields ws value) : ws = [.create (options.reservation runtime)] := by
  unfold reserve at h
  cases h with
  | @stmt _ _ _ d e ws _ h =>
    cases hfind : d.records.find (options.recordKey runtime) with
    | none =>
      simp only [hfind, Option.isSome_none, Bool.false_eq_true, if_false] at h ⊢
      cases h
      rfl
    | some record =>
      simp only [hfind, Option.isSome_some, if_true] at h
      cases h

theorem complete_yields {ws : List (StoredWrite V ρ)} {value result : T}
    (h : (complete runtime options value : Tx (Stored A ρ) (StoredLock LA) (StoredWrite V ρ) E
      Thrown T).Yields ws result) :
    result = value ∧ ws = [.complete (options.recordKey runtime) (options.encode value)] := by
  unfold complete at h
  cases h with
  | stmt h =>
    cases h
    exact ⟨rfl, rfl⟩

theorem not_makes_afterTx (r : Except Thrown T) (ws : List (StoredWrite V ρ)) :
    ¬ (afterTx runtime options r).Makes ws := by
  intro h
  unfold afterTx at h
  split at h
  · cases h
  · split_ifs at h
    · cases h
    · cases h with
      | query h =>
        beta_reduce at h
        split at h <;> cases h

/-- A call commits a complete run of its callback between the reservation and the
    response, or nothing. -/
theorem makes_execute {ws : List (StoredWrite V ρ)} (h : (execute runtime options).Makes ws) :
    ∃ vs value, options.run.Yields vs value ∧
      ws = executionWrites (options.reservation runtime) vs (options.encode value) := by
  unfold execute at h
  cases h with
  | query h =>
    beta_reduce at h
    split at h
    · cases h
    · cases h
    · cases h with
      | after h => exact absurd h (not_makes_afterTx _ _)
      | tx h =>
        obtain ⟨ws₁, _, ws₂, hreserve, h₂, rfl⟩ := h.of_bind
        obtain ⟨ws₃, value, ws₄, hrun, hcomplete, rfl⟩ := h₂.of_bind
        obtain ⟨vs, hvs, rfl⟩ := liftTx_yields hrun
        obtain ⟨-, rfl⟩ := complete_yields hcomplete
        rw [reserve_yields hreserve]
        exact ⟨vs, value, hvs, rfl⟩

/-- `makes_execute` for a call that answers with a part of the outcome. -/
theorem makes_answered {δ : Type} {answer : IdempotentOutcome T → δ} {ws : List (StoredWrite V ρ)}
    (h : ((execute runtime options).bind fun outcome => .ret (answer outcome)).Makes ws) :
    ∃ vs value, options.run.Yields vs value ∧
      ws = executionWrites (options.reservation runtime) vs (options.encode value) := by
  rcases h.of_bind with hexecute | ⟨outcome, hret⟩
  · exact makes_execute hexecute
  · cases hret

theorem SameKey.recordKey {a b : ExecuteOptions A LA V E T ρ} (h : SameKey a b) :
    a.recordKey runtime = b.recordKey runtime := by
  unfold ExecuteOptions.recordKey
  rw [h.1, h.2]

theorem executionWrites_inj {record record' : IdempotencyRecord ρ} {vs vs' : List V}
    {body body' : ρ} (h : executionWrites record vs body = executionWrites record' vs' body') :
    record = record' ∧ body = body' := by
  obtain ⟨hcreate, hrest⟩ := List.cons.inj h
  obtain ⟨-, hlast⟩ := List.append_inj' hrest rfl
  exact ⟨StoredWrite.create.inj hcreate, (StoredWrite.complete.inj (List.singleton_inj.mp hlast)).2⟩

theorem CollisionFree.sameKey {options : ι → ExecuteOptions A LA V E T ρ}
    (hfree : CollisionFree runtime options) {i j : ι}
    (h : (options i).recordKey runtime = (options j).recordKey runtime) :
    SameKey (options i) (options j) :=
  ⟨congrArg Prod.fst h, hfree.keys i j (congrArg Prod.snd h)⟩

end Commits

/-! ## Reachable states -/

section Anything

variable {runtime : Runtime} {B : Database A LA V Thrown}

/-- A database without lock requirements on the application's writes. -/
def lockless (B : Database A LA V Thrown) : Database A LA V Thrown :=
  { B with footprint := fun _ => [] }

/-- The contract that asks nothing of the application. -/
def anything : Contract A V where
  inv _ _ := True
  rely _ _ := True
  guar _ _ := True
  refl _ := trivial
  trans _ _ _ _ _ := trivial

theorem runsValid_anything (options : ExecuteOptions A LA V E T ρ) (a₀ : A) :
    RunsValid runtime options (lockless B) anything (fun _ _ _ _ => True) a₀ := by
  intro a _
  have hwp : ∀ (run : Tx A LA V E Thrown T) H vs a, run.Wp (lockless B) anything
      (fun _ vs _ => Commits (lockless B) anything (fun _ => True) vs) (fun _ _ => True) H vs a := by
    intro run
    induction run with
    | ret value => exact fun H vs a a' _ _ log _ _ => ⟨trivial, trivial, trivial⟩
    | throw e => exact fun H vs a => trivial
    | stmt locks made rest ih =>
      exact fun H vs a a' e _ _ => ⟨fun w _ l hl => (List.not_mem_nil hl).elim, ih _ _ _ _ _⟩
  exact hwp _ _ _ _

end Anything

section Reachable

variable [DecidableEq LA] {runtime : Runtime} {B : Database A LA V Thrown}
  {options : ι → ExecuteOptions A LA V E T ρ}
  {C : ExecutionState A LA V E T ρ ι → Calls.Action E ι → Prop}
  {s t : ExecutionState A LA V E T ρ ι}

/-- The records stand for the commits, and a successful call returned a stored response. -/
theorem records_reachable (h : (executions runtime B options).machine.Reachable C s) :
    (recordContract anything (fun _ _ _ _ => True) (fun _ => False) (fun _ => True)).inv s.db
        (s.log.map Prod.snd) ∧
      ∀ j outcome, (j, .client (.ret outcome)) ∈ s.procs →
        Returns runtime (options j) outcome s.db := by
  have hsound := Calls.sound (S := executions runtime (lockless B) options)
    (σ := recordContract anything (fun _ _ _ _ => True) (fun _ => False) (fun _ => True))
    (Q := fun i => Returns runtime (options i))
    (R := fun i => Fails (fun _ => False) runtime (options i) (lockless B).fault)
    ?_ (fun i outcome => Returns.stable) (fun i e => Fails.stable) ?_
    (fun i d log _ => wp_execute (fun _ _ _ _ _ _ h => h) trivial (runsValid_anything _ _)) h
  · exact ⟨hsound.1, fun j outcome hmem => hsound.2 _ hmem⟩
  · exact fun d d' hguar => ⟨hguar.1, fun _ hk => hk.elim, trivial⟩
  · intro d hd
    have hnone : ∀ k, d.records.find k = none := by
      intro k
      rw [Table.find_eq_none, hd]
      exact List.not_mem_nil
    exact ⟨trivial, fun k record hrecord => by simp [hnone] at hrecord,
      fun ws hws => (List.not_mem_nil hws).elim, fun k => by simp [hnone]⟩

/-- A commit is a complete run of its call's callback, and its record is there. -/
theorem committed (h : (executions runtime B options).machine.Reachable C s) {i : ι}
    {ws : List (StoredWrite V ρ)} (hmem : (i, ws) ∈ s.log) :
    ∃ vs value, (options i).run.Yields vs value ∧
      ws = executionWrites ((options i).reservation runtime) vs ((options i).encode value) ∧
      s.db.records.find ((options i).recordKey runtime) = some
        { (options i).reservation runtime with
          status := .COMPLETED, responseBody := some ((options i).encode value) } := by
  obtain ⟨vs, value, hrun, hws⟩ := makes_execute (Calls.makes_of_mem_log h hmem)
  obtain ⟨⟨-, -, hlog, -⟩, -⟩ := records_reachable h
  obtain ⟨record, vs', body, hws', hfind⟩ := hlog ws (List.mem_map_of_mem hmem)
  obtain ⟨rfl, rfl⟩ := executionWrites_inj (hws.symm.trans hws')
  exact ⟨vs, value, hrun, hws, hfind⟩

theorem once_reachable (h : (executions runtime B options).machine.Reachable C s)
    (k : String × String) :
    s.log.countP (fun entry => (options entry.1).recordKey runtime = k) =
      if (s.db.records.find k).isSome then 1 else 0 := by
  obtain ⟨⟨-, -, -, hcount⟩, -⟩ := records_reachable h
  rw [← hcount k, List.countP_map]
  refine List.countP_congr fun entry hentry => ?_
  obtain ⟨vs, value, -, hws, -⟩ := committed h hentry
  rw [Function.comp_apply, hws, creates_execution]
  rfl

/-- Where there is a record there is the commit that made it. -/
theorem commit_of_record (h : (executions runtime B options).machine.Reachable C s) {j : ι}
    {record : IdempotencyRecord ρ}
    (hrecord : s.db.records.find ((options j).recordKey runtime) = some record) :
    ∃ i vs value,
      (i, executionWrites ((options i).reservation runtime) vs ((options i).encode value)) ∈ s.log ∧
        (options i).recordKey runtime = (options j).recordKey runtime ∧
        record.requestHash = (options i).requestHash runtime ∧
        record.responseBody = some ((options i).encode value) := by
  have hcount := once_reachable h ((options j).recordKey runtime)
  rw [hrecord, Option.isSome_some, if_pos rfl] at hcount
  obtain ⟨⟨i, ws⟩, hmem, hkey⟩ := List.countP_pos_iff.mp (by omega : 0 < s.log.countP
    (fun entry => (options entry.1).recordKey runtime = (options j).recordKey runtime))
  obtain ⟨vs, value, -, rfl, hfind⟩ := committed h hmem
  have hkey : (options i).recordKey runtime = (options j).recordKey runtime := by simpa using hkey
  rw [hkey, hrecord] at hfind
  refine ⟨i, vs, value, hmem, hkey, ?_, ?_⟩
  · rw [Option.some.inj hfind]
    rfl
  · rw [Option.some.inj hfind]

end Reachable

/-! ## A call after the commit of another payload -/

/-- A call that finds another request under its key commits nothing, whatever it has learned. -/
inductive Refusing (runtime : Runtime) (B : Database A LA V Thrown)
    (options : ExecuteOptions A LA V E T ρ) :
    Proc (Stored A ρ) (StoredLock LA) (StoredWrite V ρ) E Thrown T (IdempotentOutcome T) → Prop
  | waiting {p} (h : Waiting runtime options p) : Refusing runtime B options p
  | refused (held : List (StoredLock LA)) (ws : List (StoredWrite V ρ)) :
      Refusing runtime B options (.inTx held ws
        (.throw (uniqueViolation runtime ["scope", "key_hash"])) (afterTx runtime options))
  | handled {e : Thrown} (h : e = uniqueViolation runtime ["scope", "key_hash"] ∨ e = B.fault) :
      Refusing runtime B options (.client (afterTx runtime options (.error e)))
  | failed {e : Thrown} (h : e = idempotencyConflictError ∨ e = B.fault) :
      Refusing runtime B options (.client (.throw e))
  | crashed : Refusing runtime B options .crashed

section Refusing

variable {runtime : Runtime} {B : Database A LA V Thrown}
  {options : ExecuteOptions A LA V E T ρ} {d : Stored A ρ} {ws : List (StoredWrite V ρ)}
  {p p' : Proc (Stored A ρ) (StoredLock LA) (StoredWrite V ρ) E Thrown T (IdempotentOutcome T)}

theorem Refusing.holds (h : Refusing runtime B options p) {held : List (StoredLock LA)}
    {value : T} {next} : p ≠ .inTx held ws (.ret value) next := by
  intro heq
  cases h with
  | waiting h =>
    cases h with
    | called => cases heq
    | looked => cases heq
    | begun =>
      injection heq with _ _ hbody
      rw [executeTx_eq] at hbody
      cases hbody
  | refused | handled | failed | crashed => cases heq

theorem exists_of_conflict {conflicted : Bool}
    (h : replayIfSettled runtime options conflicted d = .error idempotencyConflictError) :
    ∃ record, d.records.find (options.recordKey runtime) = some record := by
  unfold replayIfSettled at h
  split at h
  · cases h
  · exact ⟨_, ‹_›⟩

theorem Refusing.step (h : Refusing runtime B options p)
    (hfinds : ∀ conflicted, replayIfSettled runtime options conflicted d =
      .error idempotencyConflictError) (hstep : p.Local (stored B) d p') :
    Refusing runtime B options p' := by
  cases h with
  | waiting h =>
    cases h with
    | called =>
      unfold execute at hstep
      cases hstep with
      | read next =>
        beta_reduce
        rw [hfinds false]
        exact .failed (.inl rfl)
      | fail next => exact .failed (.inr rfl)
      | crash p => exact .crashed
    | looked =>
      cases hstep with
      | begin body next => exact .waiting .begun
      | crash p => exact .crashed
    | begun =>
      obtain ⟨record, hrecord⟩ := exists_of_conflict (hfinds false)
      rw [executeTx_eq] at hstep
      cases hstep with
      | stmt held ws locks made rest next e =>
        have htaken : (d.records.find (options.recordKey runtime)).isSome = true := by
          rw [hrecord]
          rfl
        rw [Database.applyAll_nil]
        beta_reduce
        rw [htaken, if_pos rfl, if_pos rfl]
        exact .refused _ _
      | abort held ws rest next => exact .handled (.inr rfl)
      | crash p => exact .crashed
  | refused held ws =>
    cases hstep with
    | rollback held ws e next => exact .handled (.inl rfl)
    | abort held ws rest next => exact .handled (.inr rfl)
    | crash p => exact .crashed
  | handled he =>
    simp only [afterTx] at hstep
    split_ifs at hstep
    · cases hstep with
      | crash p => exact .crashed
    · cases hstep with
      | read next =>
        beta_reduce
        rw [hfinds true]
        exact .failed (.inl rfl)
      | fail next => exact .failed (.inr rfl)
      | crash p => exact .crashed
  | failed | crashed =>
    cases hstep with
    | crash p => exact .crashed

theorem Refusing.returns (h : Refusing runtime B options p) (outcome : IdempotentOutcome T) :
    p ≠ .client (.ret outcome) := by
  intro heq
  cases h with
  | waiting h =>
    cases h with
    | called =>
      unfold execute at heq
      cases heq
    | looked => cases heq
    | begun => cases heq
  | refused | failed | crashed => cases heq
  | handled he =>
    simp only [afterTx] at heq
    split_ifs at heq <;> cases heq

theorem Refusing.throws (h : Refusing runtime B options p) {e : Thrown}
    (heq : p = .client (.throw e)) : e = idempotencyConflictError ∨ e = B.fault := by
  cases h with
  | waiting h =>
    cases h with
    | called =>
      unfold execute at heq
      cases heq
    | looked => cases heq
    | begun => cases heq
  | refused | crashed => cases heq
  | @handled e' he =>
    simp only [afterTx] at heq
    split_ifs at heq with hconflict
    · cases heq
      rcases he with rfl | rfl
      · rw [isIdempotencyConflict_reserve] at hconflict
        cases hconflict
      · exact .inr rfl
    · cases heq
  | failed he =>
    cases heq
    exact he

end Refusing

/-! ## Exactly once -/

section Run

variable [DecidableEq LA] {runtime : Runtime} {B : Database A LA V Thrown}
  {options : ι → ExecuteOptions A LA V E T ρ} {s t : ExecutionState A LA V E T ρ ι}

variable {i j : ι} {n : ℕ}

/-- After the commit of another payload a lookup fails. -/
theorem replay_conflict (hfree : CollisionFree runtime options)
    (h : (executions runtime B options).machine.Reachable Machine.always s)
    {ws : List (StoredWrite V ρ)} (hmem : (i, ws) ∈ s.log) (hkey : SameKey (options i) (options j))
    (hpayload : ¬ SamePayload runtime (options i) (options j)) (conflicted : Bool) :
    replayIfSettled runtime (options j) conflicted s.db = .error idempotencyConflictError := by
  obtain ⟨vs, value, -, -, hfind⟩ := committed h hmem
  rw [hkey.recordKey] at hfind
  have hhash : timingSafeStringEqual ((options i).requestHash runtime)
      ((options j).requestHash runtime) = false := by
    have hne : (options j).requestHash runtime ≠ "" := runtime.sha256_ne_empty _
    rw [Bool.eq_false_iff, ne_eq, timingSafeStringEqual_iff hne]
    exact fun heq => hpayload (hfree.payloads i j heq)
  unfold replayIfSettled
  rw [hfind]
  show (if !timingSafeStringEqual ((options i).requestHash runtime) _ then _ else _) = _
  rw [hhash]
  rfl

section

variable {ws : List (StoredWrite V ρ)}
  {p : Proc (Stored A ρ) (StoredLock LA) (StoredWrite V ρ) E Thrown T (IdempotentOutcome T)}
  (hfree : CollisionFree runtime options)
  (h : (executions runtime B options).machine.Reachable Machine.always s)
  (hmem : (i, ws) ∈ s.log) (hkey : SameKey (options i) (options j))
  (hpayload : ¬ SamePayload runtime (options i) (options j))
  (hp : s.procs[n]? = some (j, p)) (hwaiting : Waiting runtime (options j) p)
  (hpath : (executions runtime B options).machine.Path Machine.always s t)
include hfree h hmem hkey hpayload hp hwaiting hpath

/-- A call that waits when another payload has committed stays refused. -/
theorem refused_path :
    (i, ws) ∈ t.log ∧ ∃ q, t.procs[n]? = some (j, q) ∧ Refusing runtime B (options j) q := by
  refine Machine.Path.stable (P := fun t => (i, ws) ∈ t.log ∧ ∃ q, t.procs[n]? = some (j, q) ∧
    Refusing runtime B (options j) q) h ?_ hpath ⟨hmem, p, hp, .waiting hwaiting⟩
  rintro t a u ht - hstep ⟨hmem, q, hq, hrefusing⟩
  refine ⟨Calls.mem_log_step hstep hmem, ?_⟩
  obtain ⟨q', hq', rfl | hlocal | ⟨held, ws', b, next, rfl⟩⟩ := Calls.proc_step hstep hq
  · exact ⟨q', hq', hrefusing⟩
  · exact ⟨q', hq', hrefusing.step (replay_conflict hfree ht hmem hkey hpayload) hlocal⟩
  · exact absurd rfl hrefusing.holds

theorem refused : Refused runtime B options n j t := by
  obtain ⟨hmem', q, hq, hrefusing⟩ := refused_path hfree h hmem hkey hpayload hp hwaiting hpath
  refine ⟨replay_conflict hfree (h.path hpath) hmem' hkey hpayload, fun outcome hreturns => ?_,
    fun e hthrows => ?_, fun move u hstep => ?_⟩
  · rw [hq] at hreturns
    exact hrefusing.returns outcome (Prod.mk.inj (Option.some.inj hreturns)).2
  · rw [hq] at hthrows
    exact hrefusing.throws (Prod.mk.inj (Option.some.inj hthrows)).2
  · exact Calls.step_uncommitted hstep hq fun held ws b next => hrefusing.holds

end

/-- Exactly-once execution, in every run. -/
theorem exactly_once (hfree : CollisionFree runtime options)
    (h : (executions runtime B options).machine.Reachable Machine.always s) :
    ExactlyOnce runtime B options s := by
  constructor
  · exact Calls.db_of_log h
  · intro i ws hmem
    exact makes_execute (Calls.makes_of_mem_log h hmem)
  · intro i
    have hcount := once_reachable h ((options i).recordKey runtime)
    have hle : s.log.countP (fun entry => SameKey (options entry.1) (options i)) ≤
        s.log.countP (fun entry => (options entry.1).recordKey runtime =
          (options i).recordKey runtime) :=
      List.countP_mono_left fun entry _ hkey => by
        simpa using (of_decide_eq_true hkey).recordKey
    split_ifs at hcount <;> omega
  · intro j outcome hmem
    obtain ⟨record, body, hrecord, hhash, hbody, hresult⟩ := (records_reachable h).2 j outcome hmem
    obtain ⟨i, vs, value, hi, hkey, hhash', hbody'⟩ := commit_of_record h hrecord
    obtain rfl : body = (options i).encode value := Option.some.inj (hbody.symm.trans hbody')
    refine ⟨i, vs, value, hi, hfree.sameKey hkey, hfree.payloads i j (hhash'.symm.trans hhash), ?_⟩
    split_ifs at hresult ⊢ with hreplayed
    · exact hresult
    · exact hresult.symm
  · exact fun i ws j n p t hmem hkey hpayload hp hwaiting hpath =>
      refused hfree h hmem hkey hpayload hp hwaiting hpath
  · intro n move i held ws e next t hp hstep
    exact Calls.step_uncommitted hstep hp fun _ _ _ _ heq => by cases heq
  · intro j hnew e
    have hnone : s.db.records.find ((options j).recordKey runtime) = none := by
      by_contra hsome
      obtain ⟨record, hrecord⟩ := Option.ne_none_iff_exists'.mp hsome
      obtain ⟨i, vs, value, hi, hkey, -⟩ := commit_of_record h hrecord
      exact hnew _ hi (hfree.sameKey hkey)
    have hlookup : replayIfSettled runtime (options j) false s.db = .ok none := by
      unfold replayIfSettled
      rw [hnone]
    constructor
    · unfold execute
      simp only [Proc.next, hlookup]
    · simp only [executeTx_eq, Proc.next, Database.applyAll_nil, hnone, List.nil_append,
        Option.isSome_none, Bool.false_eq_true, if_false]
      rfl

end Run

/-- A counter as an application. -/
def counter : Database ℤ Unit ℤ Thrown where
  apply := (· + ·)
  footprint _ := []
  deferred _ _ := true
  fault := .other

/-- A call that adds an amount to the counter. -/
def addition (amount : ℤ) : ExecuteOptions ℤ Unit ℤ Unit ℤ ℤ where
  scope := "counter"
  idempotencyKey := "key-1"
  payload := .object [("amount", .string (toString amount))]
  run := .stmt (fun _ _ => []) (fun _ _ => [amount]) fun _ _ => .ret amount
  encode := id
  decode := .ok

/-- Two calls look up the key, the first one commits and the second one replays its
    response; a third call with another amount is refused. -/
theorem exactly_once_three :
    ∃ s, ExactlyOnce plainRuntime counter (fun second : Bool => addition (if second then 7 else 5)) s ∧
      s.db.app = 5 ∧ s.procs.map (fun q => q.2.answer) = [
        some (.ok { result := 5, replayed := false }),
        some (.ok { result := 5, replayed := true }), some (.error idempotencyConflictError)] := by
  have hfree : CollisionFree plainRuntime fun second : Bool => addition (if second then 7 else 5) :=
    ⟨by decide, by decide⟩
  obtain ⟨s, hs, hanswers⟩ := Machine.reachable_of_run
    (M := (executions plainRuntime counter fun second : Bool =>
      addition (if second then 7 else 5)).machine)
    [.start false, .start false, .next 0 .query, .next 1 .query, .next 0 .begin, .next 1 .begin,
      .next 0 (.stmt ()), .next 0 (.stmt ()), .next 0 (.stmt ()), .next 0 .finish,
      .next 1 (.stmt ()), .next 1 .finish, .next 1 .query, .start true, .next 2 .query]
    (fun s => s.db.app = 5 ∧ s.procs.map (fun q => q.2.answer) = [
        some (.ok { result := 5, replayed := false }),
        some (.ok { result := 5, replayed := true }), some (.error idempotencyConflictError)])
    (s := { db := { records := Table.empty, app := 0 }, procs := [], log := [] })
    ⟨rfl, rfl, rfl⟩ (by decide)
  exact ⟨s, exactly_once hfree hs, of_decide_eq_true hanswers⟩

end AegisShield.Ledger
