import AegisShield.Common.Table
import AegisShield.Common.Transaction
import AegisShield.Ledger.Security

/-!
# Idempotent execution

`IdempotencyService` (`idempotency.service.ts`) over an arbitrary database of the
application `A`: the records table stands beside the application's tables, and
`execute` reserves a record, runs the caller's transaction and stores its response in
one database transaction. What the caller runs is any transaction on the
application's tables.

Results:
* `wp_execute`: what a successful `execute` returns, and that its commits keep the
  correspondence between records and commits.
* `exactly_once`: every interleaving of calls runs at most one callback to its commit
  for a scope and key.
-/

namespace AegisShield.Ledger

open Common

/-! ## Model -/

/-- `IdempotencyStatus` (`migration.sql`). -/
inductive IdempotencyStatus where
  | IN_PROGRESS
  | COMPLETED
  deriving DecidableEq

/-- A row of `idempotency_records` with a response of type `ρ`. -/
structure IdempotencyRecord (ρ : Type*) where
  scope : String
  keyHash : String
  requestHash : String
  status : IdempotencyStatus
  responseBody : Option ρ

variable {A LA V E T ρ ι : Type*}

instance : Keyed (IdempotencyRecord ρ) (String × String) := ⟨fun r => (r.scope, r.keyHash)⟩

/-- The records beside the application's data. -/
structure Stored (A ρ : Type*) where
  records : Table (IdempotencyRecord ρ)
  app : A

/-- An entry of the unique index on scope and key hash, or a lock of the application. -/
inductive StoredLock (LA : Type*) where
  | record (key : String × String)
  | app (lock : LA)
  deriving DecidableEq

/-- A write to the records or to the application's data. -/
inductive StoredWrite (V ρ : Type*) where
  | create (record : IdempotencyRecord ρ)
  | complete (key : String × String) (responseBody : ρ)
  | app (write : V)

/-- The application's writes among some writes. -/
def appWrites (ws : List (StoredWrite V ρ)) : List V :=
  ws.filterMap fun
    | .app write => some write
    | _ => none

/-- The update of a record to COMPLETED. -/
def completeRecord (records : Table (IdempotencyRecord ρ)) (key : String × String)
    (responseBody : ρ) : Table (IdempotencyRecord ρ) :=
  match records.find key with
  | none => records
  | some record =>
    records.put { record with status := .COMPLETED, responseBody := some responseBody }

/-- The database with the records table. -/
def stored (B : Database A LA V Thrown) :
    Database (Stored A ρ) (StoredLock LA) (StoredWrite V ρ) Thrown where
  apply d
    | .create record => { d with records := (d.records.insert record).getD d.records }
    | .complete key responseBody => { d with records := completeRecord d.records key responseBody }
    | .app write => { d with app := B.apply d.app write }
  footprint
    | .create record => [.record (key record)]
    | .complete key _ => [.record key]
    | .app write => (B.footprint write).map .app
  deferred d ws := B.deferred d.app (appWrites ws)
  fault := B.fault

/-- A transaction of the application, on the database with the records. -/
def liftTx : Tx A LA V E Thrown T → Tx (Stored A ρ) (StoredLock LA) (StoredWrite V ρ) E Thrown T
  | .ret value => .ret value
  | .throw e => .throw e
  | .stmt locks made rest => .stmt (fun d e => (locks d.app e).map .app)
      (fun d e => (made d.app e).map .app) fun d e => liftTx (rest d.app e)

/-- `ExecuteOptions` (lines 32-40). -/
structure ExecuteOptions (A LA V E T ρ : Type*) where
  scope : String
  idempotencyKey : String
  payload : Json
  run : Tx A LA V E Thrown T
  encode : T → ρ
  decode : ρ → Except Thrown T

/-- `IdempotentOutcome` (lines 27-30). -/
structure IdempotentOutcome (T : Type*) where
  result : T
  replayed : Bool
  deriving DecidableEq

section Execute

variable (runtime : Runtime) (options : ExecuteOptions A LA V E T ρ)

/-- The scope and key hash of a call. -/
def ExecuteOptions.recordKey : String × String :=
  (options.scope, runtime.sha256 options.idempotencyKey)

/-- The request hash of a call. -/
def ExecuteOptions.requestHash : String := canonicalRequestHash runtime options.payload

/-- The record that a call reserves. -/
def ExecuteOptions.reservation : IdempotencyRecord ρ where
  scope := options.scope
  keyHash := runtime.sha256 options.idempotencyKey
  requestHash := options.requestHash runtime
  status := .IN_PROGRESS
  responseBody := none

/-- `tx.idempotencyRecord.create` (lines 105-113): waits for another transaction that
    inserted the key, and fails if the key is there. -/
def reserve : Tx (Stored A ρ) (StoredLock LA) (StoredWrite V ρ) E Thrown Unit :=
  .stmt (fun _ _ => [.record (options.recordKey runtime)])
    (fun d _ => if (d.records.find (options.recordKey runtime)).isSome then []
      else [.create (options.reservation runtime)])
    fun d _ => if (d.records.find (options.recordKey runtime)).isSome then
        .throw (uniqueViolation runtime ["scope", "key_hash"])
      else .ret ()

/-- `tx.idempotencyRecord.update` (lines 115-118). -/
def complete (value : T) : Tx (Stored A ρ) (StoredLock LA) (StoredWrite V ρ) E Thrown T :=
  .stmt (fun _ _ => [.record (options.recordKey runtime)])
    (fun _ _ => [.complete (options.recordKey runtime) (options.encode value)])
    fun _ _ => .ret value

/-- The transaction of `execute` (lines 104-120). -/
def executeTx : Tx (Stored A ρ) (StoredLock LA) (StoredWrite V ρ) E Thrown T :=
  (reserve runtime options).bind fun _ =>
    (liftTx options.run).bind fun value => complete runtime options value

/-- `replayIfSettled` (lines 142-163). -/
def replayIfSettled (conflicted : Bool) (d : Stored A ρ) :
    Except Thrown (Option (IdempotentOutcome T)) :=
  match d.records.find (options.recordKey runtime) with
  | none => .ok none
  | some existing =>
    if !timingSafeStringEqual existing.requestHash (options.requestHash runtime) then
      .error idempotencyConflictError
    else
      match existing.status, existing.responseBody with
      | .COMPLETED, some responseBody =>
        (options.decode responseBody).map fun result => some { result := result, replayed := true }
      | _, _ => if conflicted then .error idempotencyInProgressError else .ok none

/-- The `catch` of `execute` (lines 122-139). -/
def afterTx : Except Thrown T →
    Client (Stored A ρ) (StoredLock LA) (StoredWrite V ρ) E Thrown T (IdempotentOutcome T)
  | .ok value => .ret { result := value, replayed := false }
  | .error e =>
    if !isIdempotencyConflict e then .throw e
    else .query fun d =>
      match replayIfSettled runtime options true d with
      | .error e => .throw e
      | .ok (some outcome) => .ret outcome
      | .ok none => .throw idempotencyInProgressError

/-- `execute` (lines 91-140). -/
def execute :
    Client (Stored A ρ) (StoredLock LA) (StoredWrite V ρ) E Thrown T (IdempotentOutcome T) :=
  .query fun d =>
    match replayIfSettled runtime options false d with
    | .error e => .throw e
    | .ok (some outcome) => .ret outcome
    | .ok none => .tx (executeTx runtime options) (afterTx runtime options)

end Execute

/-! ## The writes of one execution -/

section Writes

variable {B : Database A LA V Thrown} {d d' : Stored A ρ} {ws ws' : List (StoredWrite V ρ)}
  {vs : List V} {k : String × String} {record : IdempotencyRecord ρ} {body : ρ}

@[simp] theorem appWrites_nil : appWrites ([] : List (StoredWrite V ρ)) = [] := rfl

@[simp] theorem appWrites_append : appWrites (ws ++ ws') = appWrites ws ++ appWrites ws' :=
  List.filterMap_append

@[simp] theorem appWrites_app : appWrites (vs.map (StoredWrite.app (ρ := ρ))) = vs := by
  unfold appWrites
  rw [List.filterMap_map]
  exact List.filterMap_some

@[simp] theorem appWrites_create : appWrites [StoredWrite.create (V := V) record] = [] := rfl

@[simp] theorem appWrites_complete : appWrites [StoredWrite.complete (V := V) k body] = [] := rfl

/-- The application's data sees the application's writes only. -/
theorem applyAll_app : ((stored B).applyAll d ws).app = B.applyAll d.app (appWrites ws) := by
  induction ws generalizing d with
  | nil => rfl
  | cons w ws ih =>
    rw [Database.applyAll_cons, ih]
    cases w <;> rfl

/-- The application's writes leave the records alone. -/
theorem applyAll_records :
    ((stored B).applyAll d (vs.map .app)).records = d.records := by
  induction vs generalizing d with
  | nil => rfl
  | cons v vs ih =>
    rw [List.map_cons, Database.applyAll_cons, ih]
    rfl

theorem find_completeRecord {records : Table (IdempotencyRecord ρ)} (h : records.find k = some record)
    (k' : String × String) : (completeRecord records k body).find k' =
      if k = k' then some { record with status := .COMPLETED, responseBody := some body }
      else records.find k' := by
  unfold completeRecord
  rw [h]
  have hkey := Table.key_of_find h
  subst hkey
  exact Table.find_put (r := { record with status := .COMPLETED, responseBody := some body }) h

/-- The writes of an execution that commits. -/
def executionWrites (record : IdempotencyRecord ρ) (vs : List V) (body : ρ) :
    List (StoredWrite V ρ) :=
  .create record :: (vs.map .app ++ [.complete (key record) body])

@[simp] theorem appWrites_execution : appWrites (executionWrites record vs body) = vs := by
  rw [executionWrites, ← List.singleton_append, appWrites_append, appWrites_append]
  simp

/-- The writes create the record with this key. -/
def creates (k : String × String) (ws : List (StoredWrite V ρ)) : Bool :=
  ws.any fun
    | .create record => key record = k
    | _ => false

theorem creates_execution :
    creates k (executionWrites record vs body) = decide (key record = k) := by
  have happ : creates k (vs.map (StoredWrite.app (ρ := ρ))) = false := by
    unfold creates
    rw [List.any_map]
    exact List.any_eq_false.mpr fun v _ => by simp
  have hsplit : creates k (executionWrites record vs body) =
      (decide (key record = k) || (creates k (vs.map (StoredWrite.app (ρ := ρ))) || false)) := by
    simp only [creates, executionWrites, List.any_cons, List.any_append, List.any_nil,
      Bool.or_false]
  rw [hsplit, happ, Bool.or_self, Bool.or_false]

/-- The records after the commit of an execution. -/
theorem find_execution (vs : List V) (body : ρ) (hnone : d.records.find (key record) = none)
    (k : String × String) :
    ((stored B).applyAll d (executionWrites record vs body)).records.find k =
      if key record = k then some { record with status := .COMPLETED, responseBody := some body }
      else d.records.find k := by
  obtain ⟨records, hinsert, -⟩ := Table.insert_of_find_none hnone
  have hfind : ∀ k, records.find k = if key record = k then some record else d.records.find k :=
    fun k => Table.find_insert hinsert
  rw [executionWrites, Database.applyAll_cons, Database.applyAll_append]
  have hcreated : ((stored B).apply d (.create record)).records = records := by
    show (d.records.insert record).getD d.records = records
    rw [hinsert]
    rfl
  show (completeRecord ((stored B).applyAll _ (vs.map .app)).records (key record) body).find k = _
  rw [applyAll_records, hcreated, find_completeRecord (by rw [hfind, if_pos rfl]), hfind]
  split_ifs <;> rfl

end Writes

/-! ## The contract of executions -/

section Contract

variable (τ : Contract A V) (Valid : String × String → String → ρ → A → Prop)
  (keeps owns : String × String → Prop)

/-- Every committed record is COMPLETED with a response that `Valid` describes, and
    stands for one commit; every commit has its record. Records are kept; others leave
    the keys in `keeps` alone, and the call itself all but those in `owns`. -/
def recordContract : Contract (Stored A ρ) (StoredWrite V ρ) where
  inv d log := τ.inv d.app (log.map appWrites) ∧
    (∀ k record, d.records.find k = some record → record.status = .COMPLETED ∧
      ∃ body, record.responseBody = some body ∧ Valid k record.requestHash body d.app) ∧
    (∀ ws ∈ log, ∃ record vs body, ws = executionWrites record vs body ∧
      d.records.find (key record) = some
        { record with status := .COMPLETED, responseBody := some body }) ∧
    ∀ k, log.countP (creates k) = if (d.records.find k).isSome then 1 else 0
  rely d d' := (∀ k record, d.records.find k = some record → d'.records.find k = some record) ∧
    (∀ k, keeps k → d'.records.find k = d.records.find k) ∧ τ.rely d.app d'.app
  guar d d' := (∀ k record, d.records.find k = some record → d'.records.find k = some record) ∧
    (∀ k, ¬ owns k → d'.records.find k = d.records.find k) ∧ τ.guar d.app d'.app
  refl d := ⟨fun _ _ h => h, fun _ _ => rfl, τ.refl d.app⟩
  trans _ _ _ h h' := ⟨fun k record hrecord => h'.1 k record (h.1 k record hrecord),
    fun k hk => (h'.2.1 k hk).trans (h.2.1 k hk), τ.trans _ _ _ h.2.2 h'.2.2⟩

variable {τ Valid keeps owns} {B : Database A LA V Thrown} {d d' : Stored A ρ}

theorem after_app (h : (recordContract τ Valid keeps owns).After d d') :
    τ.After d.app d'.app := by
  obtain ⟨⟨-, -, hrely⟩, log, hinv, -⟩ := h
  exact ⟨hrely, _, hinv⟩

/-- What others do to the records and to the application, seen by the application. -/
theorem outside_app {H' : List (StoredLock LA)} {H : List LA} (hH : ∀ l ∈ H, .app l ∈ H')
    (h : (stored B).Outside H' d d') : B.Outside H d.app d'.app := by
  induction h with
  | refl => exact .refl
  | tail _ hstep ih =>
    obtain ⟨w, hw, rfl⟩ := hstep
    cases w with
    | create | complete => exact ih
    | app write =>
      refine Relation.ReflTransGen.tail ih ⟨write, fun l hl hlH => ?_, rfl⟩
      exact hw (.app l) (List.mem_map_of_mem hl) (hH l hlH)

/-- The entry of a locked key stays as it is. -/
theorem find_outside {k : String × String} {H : List (StoredLock LA)} (hk : .record k ∈ H)
    (h : (stored B).Outside H d d') : d'.records.find k = d.records.find k := by
  induction h with
  | refl => rfl
  | @tail d₁ d₂ _ hstep ih =>
    obtain ⟨w, hw, rfl⟩ := hstep
    rw [← ih]
    cases w with
    | create record =>
      have hne : key record ≠ k := fun heq => hw (.record k) (by simp [stored, heq]) hk
      show ((d₁.records.insert record).getD d₁.records).find k = _
      cases hinsert : d₁.records.insert record with
      | none => rfl
      | some records =>
        rw [Option.getD_some, Table.find_insert hinsert, if_neg hne]
    | complete k' body =>
      have hne : k' ≠ k := fun heq => hw (.record k) (by simp [stored, heq]) hk
      show (completeRecord d₁.records k' body).find k = _
      cases hfind : d₁.records.find k' with
      | none => rw [completeRecord, hfind]
      | some record => rw [find_completeRecord hfind, if_neg hne]
    | app write => rfl

/-- A transaction of the application inside a larger one: the locks and writes of the
    larger one come first. -/
theorem wp_lift {K : List (StoredLock LA)} {pre : List (StoredWrite V ρ)}
    (hpre : appWrites pre = []) {Q : List LA → List V → T → A → Prop} {QE : Thrown → A → Prop}
    {run : Tx A LA V E Thrown T} {H : List LA} {vs : List V} (h : run.Wp B τ Q QE H vs d.app) :
    (liftTx run).Wp (stored B) (recordContract τ Valid keeps owns)
      (fun H' ws' value d => ∃ H vs, H' = K ++ H.map .app ∧ ws' = pre ++ vs.map .app ∧
        Q H vs value d.app)
      (fun e d => QE e d.app) (K ++ H.map .app) (pre ++ vs.map .app) d := by
  have hH : ∀ l ∈ H, StoredLock.app l ∈ K ++ H.map .app :=
    fun l hl => List.mem_append_right _ (List.mem_map_of_mem hl)
  induction run generalizing H vs d with
  | ret value =>
    exact fun d' hd hafter => ⟨H, vs, rfl, rfl, h d'.app (outside_app hH hd) (after_app hafter)⟩
  | throw e => exact h
  | stmt locks made rest ih =>
    intro d' e hd hafter
    have hview : ((stored B).applyAll d' (pre ++ vs.map .app)).app = B.applyAll d'.app vs := by
      rw [applyAll_app, appWrites_append, hpre, appWrites_app, List.nil_append]
    obtain ⟨hfootprint, hrest⟩ := h d'.app e (outside_app hH hd) (after_app hafter)
    beta_reduce
    rw [hview, List.append_assoc, List.append_assoc, ← List.map_append, ← List.map_append]
    refine ⟨fun w hw l hl => ?_, ih _ _ hrest fun l hl =>
      List.mem_append_right _ (List.mem_map_of_mem hl)⟩
    obtain ⟨v, hv, rfl⟩ := List.mem_map.mp hw
    obtain ⟨l, hlv, rfl⟩ := List.mem_map.mp hl
    exact List.mem_append_right _ (List.mem_map_of_mem (hfootprint v hv l hlv))

/-! ## What an execution does -/

variable (runtime : Runtime) (options : ExecuteOptions A LA V E T ρ)

/-- The outcome is the stored response of the one committed execution. -/
def Returns (outcome : IdempotentOutcome T) (d : Stored A ρ) : Prop :=
  ∃ record body, d.records.find (options.recordKey runtime) = some record ∧
    record.requestHash = options.requestHash runtime ∧ record.responseBody = some body ∧
    if outcome.replayed then options.decode body = .ok outcome.result
    else body = options.encode outcome.result

variable (keeps) in
/-- If others leave the key alone: an error other than a fault or the rejection of a stored response
    means that nothing was committed under the key, or another request was. -/
def Fails (fault e : Thrown) (d : Stored A ρ) : Prop :=
  keeps (options.recordKey runtime) →
    d.records.find (options.recordKey runtime) = none ∨ e = fault ∨
      (e = idempotencyConflictError ∧ ∃ record,
        d.records.find (options.recordKey runtime) = some record ∧
          record.requestHash ≠ options.requestHash runtime) ∨
      ∃ body, options.decode body = .error e

variable {log : List (List (StoredWrite V ρ))}

variable {runtime options} in
theorem Returns.stable {outcome : IdempotentOutcome T} :
    (recordContract τ Valid keeps owns).Stable (Returns runtime options outcome) := by
  rintro d d' ⟨⟨hkept, -⟩, -⟩ ⟨record, body, hrecord, hrest⟩
  exact ⟨record, body, hkept _ _ hrecord, hrest⟩

variable {runtime options} in
theorem Fails.stable {fault e : Thrown} :
    (recordContract τ Valid keeps owns).Stable (Fails keeps runtime options fault e) := by
  rintro d d' ⟨⟨-, hsame, -⟩, -⟩ hfails hkeeps
  rw [hsame _ hkeeps]
  exact hfails hkeeps

/-- The outcomes of the lookup of a record. -/
theorem replayIfSettled_spec (fault : Thrown)
    (hd : (recordContract τ Valid keeps owns).inv d log) (conflicted : Bool) :
    (∀ outcome, replayIfSettled runtime options conflicted d = .ok (some outcome) →
      Returns runtime options outcome d) ∧
    (replayIfSettled runtime options conflicted d = .ok none →
      d.records.find (options.recordKey runtime) = none) ∧
    ∀ e, replayIfSettled runtime options conflicted d = .error e →
      Fails keeps runtime options fault e d := by
  unfold replayIfSettled
  cases hrecord : d.records.find (options.recordKey runtime) with
  | none => exact ⟨by simp, fun _ => rfl, by simp⟩
  | some record =>
    obtain ⟨hstatus, body, hbody, -⟩ := hd.2.1 _ record hrecord
    have hhash : timingSafeStringEqual record.requestHash (options.requestHash runtime) = true ↔
        record.requestHash = options.requestHash runtime :=
      timingSafeStringEqual_iff (runtime.sha256_ne_empty _)
    by_cases heq : record.requestHash = options.requestHash runtime
    · simp only [hhash.mpr heq, Bool.not_true, Bool.false_eq_true, if_false, hstatus, hbody]
      cases hdecode : options.decode body with
      | error e =>
        refine ⟨by simp [Except.map], by simp [Except.map], fun e' he' _ => ?_⟩
        obtain rfl : e = e' := by simpa [Except.map] using he'
        exact .inr (.inr (.inr ⟨body, hdecode⟩))
      | ok result =>
        refine ⟨fun outcome houtcome => ?_, by simp [Except.map], by simp [Except.map]⟩
        obtain rfl : { result := result, replayed := true } = outcome := by
          simpa [Except.map] using houtcome
        exact ⟨record, body, hrecord, heq, hbody, hdecode⟩
    · have hfalse := Bool.eq_false_iff.mpr (mt hhash.mp heq)
      simp only [hfalse, Bool.not_false, if_true]
      refine ⟨by simp, by simp, fun e he _ => .inr (.inr (.inl ⟨?_, record, hrecord, heq⟩))⟩
      simpa using he.symm

/-- The call after a failed transaction. -/
theorem wp_afterTx_error {e : Thrown}
    (he : isIdempotencyConflict e = false → Fails keeps runtime options B.fault e d) :
    (afterTx runtime options (.error e)).Wp (stored B) (recordContract τ Valid keeps owns)
      (Returns runtime options) (Fails keeps runtime options B.fault) d := by
  cases hconflict : isIdempotencyConflict e with
  | false =>
    simp only [afterTx, hconflict, Bool.not_false, if_true]
    exact he hconflict
  | true =>
    simp only [afterTx, hconflict, Bool.not_true, Bool.false_eq_true, if_false]
    rintro d' ⟨-, log', hinv⟩
    refine ⟨fun _ => .inr (.inl rfl), ?_⟩
    obtain ⟨hreturns, hnone, hfails⟩ :=
      replayIfSettled_spec runtime options B.fault hinv true
    beta_reduce
    split
    next e' he' =>
      exact hfails e' he'
    next outcome houtcome =>
      exact hreturns outcome houtcome
    next hmissing =>
      exact fun _ => .inl (hnone hmissing)

/-- What the run of a call has to establish, on data `a₀` or later: its commit keeps
    the application's invariant, and its value is a valid response to the request. -/
def RunsValid (B : Database A LA V Thrown) (τ : Contract A V)
    (Valid : String × String → String → ρ → A → Prop) (a₀ : A) : Prop :=
  ∀ a, τ.After a₀ a → options.run.Wp B τ
    (fun _ vs value => Commits B τ (Valid (options.recordKey runtime) (options.requestHash runtime)
      (options.encode value)) vs) (fun _ _ => True) [] [] a

variable {runtime options}

/-- The commit of an execution. -/
theorem commits_execution {value : T} {vs : List V}
    (hValid : ∀ k hash body a a', τ.guar a a' → Valid k hash body a → Valid k hash body a')
    (howns : owns (options.recordKey runtime))
    (hnone : d.records.find (options.recordKey runtime) = none)
    (h : Commits B τ (Valid (options.recordKey runtime) (options.requestHash runtime)
      (options.encode value)) vs d.app) :
    Commits (stored B) (recordContract τ Valid keeps owns)
      (Returns runtime options { result := value, replayed := false })
      (executionWrites (options.reservation runtime) vs (options.encode value)) d := by
  rintro log ⟨happ, hrecords, hlog, hcount⟩ hdeferred
  have hfind : ∀ k, ((stored B).applyAll d (executionWrites (options.reservation runtime) vs
      (options.encode value))).records.find k = if options.recordKey runtime = k then
        some { options.reservation runtime with
          status := .COMPLETED, responseBody := some (options.encode value) }
      else d.records.find k := find_execution vs (options.encode value) hnone
  have happ' : ((stored B).applyAll d
      (executionWrites (options.reservation runtime) vs (options.encode value))).app =
      B.applyAll d.app vs := by
    rw [applyAll_app, appWrites_execution]
  have hdeferred' : B.deferred d.app vs = true := by
    rw [← hdeferred]
    show _ = B.deferred d.app (appWrites _)
    rw [appWrites_execution]
  obtain ⟨hinv, hguar, hvalid⟩ := h _ happ hdeferred'
  have hnew := hfind (options.recordKey runtime)
  rw [if_pos rfl] at hnew
  have hold : ∀ k record, d.records.find k = some record → options.recordKey runtime ≠ k := by
    rintro k record hrecord rfl
    rw [hnone] at hrecord
    cases hrecord
  have hkeep : ∀ k record, d.records.find k = some record →
      ((stored B).applyAll d (executionWrites (options.reservation runtime) vs
        (options.encode value))).records.find k = some record := by
    intro k record hrecord
    rw [hfind, if_neg (hold k record hrecord)]
    exact hrecord
  refine ⟨⟨?_, fun k record hrecord => ?_, fun ws hws => ?_, fun k => ?_⟩, ⟨hkeep,
    fun k hk => ?_, ?_⟩, _, options.encode value, hnew, rfl, rfl, rfl⟩
  · rw [happ', List.map_append, List.map_singleton, appWrites_execution]
    exact hinv
  · rw [hfind] at hrecord
    rw [happ']
    split_ifs at hrecord with hk
    · cases hrecord
      exact ⟨rfl, _, rfl, hk ▸ hvalid⟩
    · obtain ⟨hstatus, body, hbody, hold⟩ := hrecords k record hrecord
      exact ⟨hstatus, body, hbody, hValid _ _ _ _ _ hguar hold⟩
  · rcases List.mem_append.mp hws with hws | hws
    · obtain ⟨record, vs', body, rfl, hrecord⟩ := hlog ws hws
      exact ⟨record, vs', body, rfl, hkeep _ _ hrecord⟩
    · rw [List.mem_singleton.mp hws]
      exact ⟨_, vs, options.encode value, rfl, hnew⟩
  · rw [List.countP_append, List.countP_singleton, creates_execution, hcount k, hfind]
    by_cases hk : options.recordKey runtime = k
    · subst hk
      have hkey : key (options.reservation runtime) = options.recordKey runtime := rfl
      simp [hnone, hkey]
    · have hkey : ¬ key (options.reservation runtime) = k := hk
      simp [hkey, hk]
  · rw [hfind, if_neg]
    rintro rfl
    exact hk howns
  · rw [happ']
    exact hguar

/-- A taken key is reported as a conflict. -/
theorem isIdempotencyConflict_reserve :
    isIdempotencyConflict (uniqueViolation runtime ["scope", "key_hash"]) = true := by
  unfold uniqueViolation
  cases runtime.reportsTarget with
  | false | true => decide

/-- The reservation: it holds the entry of the key, or the key is taken. -/
theorem wp_reserve
    {Q : List (StoredLock LA) → List (StoredWrite V ρ) → Unit → Stored A ρ → Prop}
    {QE : Thrown → Stored A ρ → Prop}
    (hfree : ∀ d', (recordContract τ Valid keeps owns).After d d' →
      d'.records.find (options.recordKey runtime) = none →
      Q [.record (options.recordKey runtime)] [.create (options.reservation runtime)] () d')
    (htaken : ∀ d, QE (uniqueViolation runtime ["scope", "key_hash"]) d) :
    (reserve runtime options : Tx (Stored A ρ) (StoredLock LA) (StoredWrite V ρ) E Thrown Unit).Wp
      (stored B) (recordContract τ Valid keeps owns) Q QE [] [] d := by
  intro d' e hd' hafter
  rw [Database.applyAll_nil]
  cases hfind : d'.records.find (options.recordKey runtime) with
  | some record =>
    simp only [hfind, Option.isSome_some, if_true]
    exact ⟨by simp, htaken d'⟩
  | none =>
    simp only [hfind, Option.isSome_none, Bool.false_eq_true, if_false, List.nil_append]
    refine ⟨fun w hw l hl => ?_, fun d'' hd'' hafter' => ?_⟩
    · rw [List.mem_singleton.mp hw] at hl
      exact hl
    · exact hfree d'' (hafter.trans hafter')
        ((find_outside List.mem_cons_self hd'').trans hfind)

/-- The transaction of an execution. -/
theorem wp_executeTx {log : List (List (StoredWrite V ρ))}
    (hValid : ∀ k hash body a a', τ.guar a a' → Valid k hash body a → Valid k hash body a')
    (howns : owns (options.recordKey runtime)) (hruns : RunsValid runtime options B τ Valid d.app)
    (hd : (recordContract τ Valid keeps owns).inv d log) :
    (executeTx runtime options).Wp (stored B) (recordContract τ Valid keeps owns)
      (fun _ ws value => Commits (stored B) (recordContract τ Valid keeps owns)
        (Returns runtime options { result := value, replayed := false }) ws)
      (fun e d => isIdempotencyConflict e = false → Fails keeps runtime options B.fault e d)
      [] [] d := by
  refine Tx.wp_bind hd (wp_reserve (fun d hafter hnone => ?_) fun d hconflict => ?_)
  · obtain ⟨log, hd⟩ := hafter.2
    -- the run, with the entry of the key locked and absent
    have hpre : appWrites [StoredWrite.create (V := V) (options.reservation runtime)] = [] := rfl
    have hrun : (liftTx options.run).Wp (stored B) (recordContract τ Valid keeps owns) _ _ _ _ d :=
      wp_lift (K := [.record (options.recordKey runtime)]) hpre (hruns _ (after_app hafter))
    have hkept : ∀ d d' : Stored A ρ,
        (stored B).Outside [.record (options.recordKey runtime)] d d' →
        d.records.find (options.recordKey runtime) = none →
        d'.records.find (options.recordKey runtime) = none :=
      fun d d' hout hnone => (find_outside List.mem_cons_self hout).trans hnone
    have hframed := (hrun.frame hkept (by simp) hnone).settled
    refine Tx.wp_bind hd (hframed.mono ?_ ?_)
    · intro H' ws' value d hend d' e hd' hafter
      refine ⟨fun w hw l hl => ?_, fun d'' hd'' hafter' => ?_⟩
      · rw [List.mem_singleton.mp hw] at hl
        exact List.mem_append_right _ hl
      · have hout := hd'.trans (hd''.mono fun l hl => List.mem_append_left _ hl)
        obtain ⟨⟨H, vs, -, rfl, hcommits⟩, -, hnone⟩ := hend d'' hout (hafter.trans hafter')
        rw [List.append_assoc]
        exact commits_execution hValid howns hnone hcommits
    · rintro e d ⟨-, hnone⟩ - -
      exact .inl hnone
  · rw [isIdempotencyConflict_reserve] at hconflict
    cases hconflict

/-- A call keeps the contract; it returns the stored response, and what its failure
    says about the record is `Fails`. -/
theorem wp_execute
    (hValid : ∀ k hash body a a', τ.guar a a' → Valid k hash body a → Valid k hash body a')
    (howns : owns (options.recordKey runtime))
    (hruns : RunsValid runtime options B τ Valid d.app) :
    (execute runtime options).Wp (stored B) (recordContract τ Valid keeps owns)
      (Returns runtime options) (Fails keeps runtime options B.fault) d := by
  intro d' hafter
  obtain ⟨log, hinv⟩ := hafter.2
  refine ⟨fun _ => .inr (.inl rfl), ?_⟩
  obtain ⟨hreturns, -, hfails⟩ := replayIfSettled_spec runtime options B.fault hinv false
  beta_reduce
  split
  next e he =>
    exact hfails e he
  next outcome houtcome =>
    exact hreturns outcome houtcome
  · intro d'' hafter'
    obtain ⟨log', hinv'⟩ := hafter'.2
    have hruns' : RunsValid runtime options B τ Valid d''.app := fun a ha =>
      hruns a ((after_app (hafter.trans hafter')).trans ha)
    have hfault : ∀ d : Stored A ρ, (afterTx runtime options (.error B.fault)).Wp (stored B)
        (recordContract τ Valid keeps owns) (Returns runtime options)
        (Fails keeps runtime options B.fault) d :=
      fun d => wp_afterTx_error runtime options fun _ _ => .inr (.inl rfl)
    refine ⟨hfault d'', (wp_executeTx hValid howns hruns' hinv').mono ?_ ?_⟩
    · intro H ws value d hcommits log hlog hdeferred
      obtain ⟨hinv, hguar, hreturns⟩ := hcommits log hlog hdeferred
      exact ⟨hinv, hguar, hreturns, hfault _⟩
    · exact fun e d he => wp_afterTx_error runtime options he

end Contract

end AegisShield.Ledger
