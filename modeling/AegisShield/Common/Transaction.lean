import AegisShield.Common.Machine

/-!
# Concurrent database transactions

Calls against one database, under READ COMMITTED with locks that are held to the
end of the transaction (row locks, entries of unique indexes, advisory locks). A
transaction is a tree of statements. A statement sees the data committed when it
runs together with the transaction's own writes, waits until the locks it needs are
free, and may make writes; the writes of a transaction take effect at its commit, all
together. A call is a tree of autocommit reads and transactions. Any number of calls
are interleaved statement by statement, and any statement may fail.

Results:
* `Calls.invariant`: the rule of interference freedom for assertions about each call.
* `Tx.Wp`, `Client.Wp`: weakest preconditions of the rest of a transaction and of a call, given what
  other transactions can do to the data in between; `wp_bind` composes them.
* `Calls.sound`: what the weakest preconditions of all calls establish holds in every
  reachable state.
* `Calls.makes_of_mem_log`: every commit is a complete run of a transaction of the call
  that made it.
-/

namespace AegisShield.Common

/-- The writes of the transactions of a database on data `D`: `L` are the locks, `W`
    the writes and `ε` the errors that statements raise. -/
structure Database (D L W ε : Type*) where
  /-- The data after a write. -/
  apply : D → W → D
  /-- The locks that a transaction holds when it makes a write. -/
  footprint : W → List L
  /-- The deferred constraints, checked at the commit of some writes. -/
  deferred : D → List W → Bool
  /-- The error of a statement or commit that the database or the connection fails. -/
  fault : ε

/-- A transaction: `E` is what a statement gets from the environment (a clock reading,
    a generated identifier). -/
inductive Tx (D L W E ε β : Type*) where
  | ret (b : β)
  | throw (e : ε)
  /-- A statement, by the locks it takes, its writes and the rest of the transaction,
      as functions of the data it sees. -/
  | stmt (locks : D → E → List L) (writes : D → E → List W) (next : D → E → Tx D L W E ε β)

/-- A call whose transactions return `β`. -/
inductive Client (D L W E ε β α : Type*) where
  | ret (a : α)
  | throw (e : ε)
  /-- An autocommit read. -/
  | query (next : D → Client D L W E ε β α)
  | tx (body : Tx D L W E ε β) (next : Except ε β → Client D L W E ε β α)

variable {D L W E ε β γ α δ ι : Type*}

namespace Tx

/-- Sequencing inside a transaction. -/
def bind : Tx D L W E ε β → (β → Tx D L W E ε γ) → Tx D L W E ε γ
  | ret b, f => f b
  | throw e, _ => throw e
  | stmt locks writes next, f => stmt locks writes fun d e => (next d e).bind f

/-- A statement that takes no lock and writes nothing. -/
def read (f : D → β) : Tx D L W E ε β := stmt (fun _ _ => []) (fun _ _ => []) fun d _ => ret (f d)

end Tx

namespace Client

/-- Sequencing of calls. -/
def bind : Client D L W E ε β α → (α → Client D L W E ε β δ) → Client D L W E ε β δ
  | ret a, f => f a
  | throw e, _ => throw e
  | query next, f => query fun d => (next d).bind f
  | tx body next, f => tx body fun r => (next r).bind f

/-- An autocommit read. -/
def read (f : D → α) : Client D L W E ε β α := query fun d => ret (f d)

end Client

/-- A complete run of a transaction: the writes it makes and the value it returns. -/
inductive Tx.Yields : Tx D L W E ε β → List W → β → Prop
  | ret (b : β) : Yields (.ret b) [] b
  | stmt {locks made next d e ws b} (h : Yields (next d e) ws b) :
      Yields (.stmt locks made next) (made d e ++ ws) b

/-- The writes that a transaction of a call may commit. -/
inductive Client.Makes : Client D L W E ε β α → List W → Prop
  | tx {body next ws b} (h : body.Yields ws b) : Makes (.tx body next) ws
  | after {body next r ws} (h : Makes (next r) ws) : Makes (.tx body next) ws
  | query {next d ws} (h : Makes (next d) ws) : Makes (.query next) ws

/-- A commit of two calls in sequence is one of either. -/
theorem Client.Makes.of_bind {c : Client D L W E ε β α} {f : α → Client D L W E ε β δ}
    {ws : List W} (h : (c.bind f).Makes ws) : c.Makes ws ∨ ∃ a, (f a).Makes ws := by
  induction c with
  | ret a => exact .inr ⟨a, h⟩
  | throw e => cases h
  | query next ih =>
    cases h with
    | query h => exact (ih _ h).imp_left .query
  | tx body next ih =>
    cases h with
    | tx h => exact .inl (.tx h)
    | after h => exact (ih _ h).imp_left .after

/-- A complete run of two transactions in sequence is one of each. -/
theorem Tx.Yields.of_bind {tx : Tx D L W E ε β} {f : β → Tx D L W E ε γ} {ws : List W} {c : γ}
    (h : (tx.bind f).Yields ws c) : ∃ ws₁ b ws₂, tx.Yields ws₁ b ∧ (f b).Yields ws₂ c ∧
      ws = ws₁ ++ ws₂ := by
  induction tx generalizing ws with
  | ret b => exact ⟨[], b, ws, .ret b, h, rfl⟩
  | throw e => cases h
  | stmt locks made next ih =>
    cases h with
    | @stmt _ _ _ d e ws _ h =>
      obtain ⟨ws₁, b, ws₂, h₁, h₂, rfl⟩ := ih d e h
      exact ⟨_, b, ws₂, .stmt h₁, h₂, (List.append_assoc _ _ _).symm⟩

namespace Database

variable (B : Database D L W ε)

/-- The data after some writes. -/
def applyAll (d : D) (ws : List W) : D := ws.foldl B.apply d

/-- What transactions that do not hold any of the locks `H` can make of the data. -/
def Outside (H : List L) : D → D → Prop :=
  Relation.ReflTransGen fun d d' => ∃ w, (∀ l ∈ B.footprint w, l ∉ H) ∧ d' = B.apply d w

variable {B} {H K : List L} {d d' : D} {w : W} {ws : List W}

@[simp] theorem applyAll_nil : B.applyAll d [] = d := rfl

@[simp] theorem applyAll_cons : B.applyAll d (w :: ws) = B.applyAll (B.apply d w) ws := rfl

theorem applyAll_append (ws' : List W) :
    B.applyAll d (ws ++ ws') = B.applyAll (B.applyAll d ws) ws' := List.foldl_append

theorem Outside.refl : B.Outside H d d := Relation.ReflTransGen.refl

theorem Outside.trans {d'' : D} (h : B.Outside H d d') (h' : B.Outside H d' d'') :
    B.Outside H d d'' := Relation.ReflTransGen.trans h h'

theorem Outside.mono (hsub : ∀ l ∈ K, l ∈ H) (h : B.Outside H d d') : B.Outside K d d' := by
  induction h with
  | refl => exact Outside.refl
  | tail _ hstep ih =>
    obtain ⟨w, hw, rfl⟩ := hstep
    exact Relation.ReflTransGen.tail ih ⟨w, fun l hl hK => hw l hl (hsub l hK), rfl⟩

/-- The commit of writes whose locks are all outside `H`. -/
theorem Outside.commit (h : ∀ w ∈ ws, ∀ l ∈ B.footprint w, l ∉ H) (d : D) :
    B.Outside H d (B.applyAll d ws) := by
  induction ws generalizing d with
  | nil => exact Outside.refl
  | cons w ws ih =>
    have hrest := ih (fun w' hw' => h w' (List.mem_cons_of_mem w hw')) (B.apply d w)
    exact Relation.ReflTransGen.head ⟨w, h w List.mem_cons_self, rfl⟩ hrest

/-- What no single write outside `H` destroys is kept. -/
theorem Outside.keeps {P : D → Prop} (hP : ∀ d w, (∀ l ∈ B.footprint w, l ∉ H) → P d →
    P (B.apply d w)) (h : B.Outside H d d') (hd : P d) : P d' := by
  induction h with
  | refl => exact hd
  | tail _ hstep ih =>
    obtain ⟨w, hw, rfl⟩ := hstep
    exact hP _ w hw ih

end Database

/-! ## Weakest preconditions -/

/-- What a call relies on and guarantees: an invariant of the committed data and the history of
    commits, a relation that the commits of others respect, and one that its own commits respect. -/
structure Contract (D W : Type*) where
  inv : D → List (List W) → Prop
  rely : D → D → Prop
  guar : D → D → Prop
  refl : ∀ d, rely d d
  trans : ∀ d d' d'', rely d d' → rely d' d'' → rely d d''

namespace Contract

variable (σ : Contract D W)

/-- What others may make of the committed data. -/
def After (d d' : D) : Prop := σ.rely d d' ∧ ∃ log, σ.inv d' log

/-- An assertion that the commits of others do not invalidate. -/
def Stable (P : D → Prop) : Prop := ∀ d d', σ.After d d' → P d → P d'

variable {σ} {d d' d'' : D}

theorem After.of_inv {log : List (List W)} (h : σ.inv d log) : σ.After d d := ⟨σ.refl d, log, h⟩

theorem After.trans (h : σ.After d d') (h' : σ.After d' d'') : σ.After d d'' :=
  ⟨σ.trans d d' d'' h.1 h'.1, h'.2⟩

end Contract

section Wp

variable (B : Database D L W ε) (σ : Contract D W)

/-- From the data `d`, holding the locks `H` and having made the writes `ws`, the
    transaction makes no write without its locks, reaches its end only with `Q` and an
    error only with `QE`, whatever other transactions commit in between. -/
def Tx.Wp (Q : List L → List W → β → D → Prop) (QE : ε → D → Prop) :
    Tx D L W E ε β → List L → List W → D → Prop
  | .ret b, H, ws, d => ∀ d', B.Outside H d d' → σ.After d d' → Q H ws b d'
  | .throw e, _, _, d => QE e d
  | .stmt locks made rest, H, ws, d => ∀ d' e, B.Outside H d d' → σ.After d d' →
      (∀ w ∈ made (B.applyAll d' ws) e, ∀ l ∈ B.footprint w, l ∈ H ++ locks (B.applyAll d' ws) e) ∧
        Wp Q QE (rest (B.applyAll d' ws) e) (H ++ locks (B.applyAll d' ws) e)
          (ws ++ made (B.applyAll d' ws) e) d'

/-- The commit of `ws` keeps the invariant, respects the guarantee and leads to `P`. -/
def Commits (P : D → Prop) (ws : List W) (d : D) : Prop :=
  ∀ log, σ.inv d log → B.deferred d ws = true →
    σ.inv (B.applyAll d ws) (log ++ [ws]) ∧ σ.guar d (B.applyAll d ws) ∧ P (B.applyAll d ws)

/-- From the data `d`, the commits of the call respect its contract, and it returns
    only with `Q` and fails only with `QE`. A commit may be reported as a fault. -/
def Client.Wp (Q : α → D → Prop) (QE : ε → D → Prop) : Client D L W E ε β α → D → Prop
  | .ret a, d => Q a d
  | .throw e, d => QE e d
  | .query next, d => ∀ d', σ.After d d' → QE B.fault d' ∧ Wp Q QE (next d') d'
  | .tx body next, d => ∀ d', σ.After d d' → Wp Q QE (next (.error B.fault)) d' ∧
      Tx.Wp B σ (fun _ ws b => Commits B σ (fun d => Wp Q QE (next (.ok b)) d ∧
        Wp Q QE (next (.error B.fault)) d) ws) (fun e => Wp Q QE (next (.error e))) body [] [] d'

variable {B σ} {Q R : List L → List W → β → D → Prop} {QE RE : ε → D → Prop} {H : List L}
  {ws : List W} {d d' : D}

namespace Tx

variable {tx : Tx D L W E ε β}

/-- Other transactions do not invalidate what is known of the rest of one. -/
theorem Wp.later (hQE : ∀ e, σ.Stable (QE e))
    (h : tx.Wp B σ Q QE H ws d) (hd : B.Outside H d d') (hafter : σ.After d d') :
    tx.Wp B σ Q QE H ws d' := by
  cases tx with
  | ret b => exact fun d'' hd' hafter' => h d'' (hd.trans hd') (hafter.trans hafter')
  | throw e => exact hQE e d d' hafter h
  | stmt locks made rest =>
    exact fun d'' e hd' hafter' => h d'' e (hd.trans hd') (hafter.trans hafter')

theorem Wp.mono (hQR : ∀ H ws b d, Q H ws b d → R H ws b d)
    (hQE : ∀ e d, QE e d → RE e d) (h : tx.Wp B σ Q QE H ws d) : tx.Wp B σ R RE H ws d := by
  induction tx generalizing H ws d with
  | ret b => exact fun d' hd hafter => hQR H ws b d' (h d' hd hafter)
  | throw e => exact hQE e d h
  | stmt locks made rest ih =>
    intro d' e hd hafter
    obtain ⟨hfootprint, hrest⟩ := h d' e hd hafter
    exact ⟨hfootprint, ih _ _ hrest⟩

/-- The same under a contract that leaves others less freedom. -/
theorem Wp.contract {τ : Contract D W}
    (hτ : ∀ d d', τ.After d d' → σ.After d d') (h : tx.Wp B σ Q QE H ws d) :
    tx.Wp B τ Q QE H ws d := by
  induction tx generalizing H ws d with
  | ret b => exact fun d' hd hafter => h d' hd (hτ d d' hafter)
  | throw e => exact h
  | stmt locks made rest ih =>
    intro d' e hd hafter
    obtain ⟨hfootprint, hrest⟩ := h d' e hd (hτ d d' hafter)
    exact ⟨hfootprint, ih _ _ hrest⟩

/-- The writes at the end of a transaction are those of a complete run. -/
theorem Wp.yields (h : tx.Wp B σ Q QE H ws d) :
    tx.Wp B σ (fun H ws' b d => Q H ws' b d ∧ ∃ vs, ws' = ws ++ vs ∧ tx.Yields vs b) QE H ws d := by
  induction tx generalizing H ws d with
  | ret b => exact fun d' hd hafter => ⟨h d' hd hafter, [], (List.append_nil ws).symm, .ret b⟩
  | throw e => exact h
  | stmt locks made rest ih =>
    intro d' e hd hafter
    obtain ⟨hfootprint, hrest⟩ := h d' e hd hafter
    refine ⟨hfootprint, (ih _ _ hrest).mono (fun H ws' b d hend => ?_) fun _ _ he => he⟩
    obtain ⟨hQ, vs, hws, hyields⟩ := hend
    exact ⟨hQ, _, hws.trans (List.append_assoc _ _ _), .stmt hyields⟩

/-- What the locks of the transaction protect still holds where it ends or throws. -/
theorem Wp.frame {K : List L} {P : D → Prop}
    (hP : ∀ d d', B.Outside K d d' → P d → P d') (hK : ∀ l ∈ K, l ∈ H) (hd : P d)
    (h : tx.Wp B σ Q QE H ws d) :
    tx.Wp B σ (fun H ws b d => Q H ws b d ∧ (∀ l ∈ K, l ∈ H) ∧ P d) (fun e d => QE e d ∧ P d)
      H ws d := by
  induction tx generalizing H ws d with
  | ret b =>
    exact fun d' hd' hafter => ⟨h d' hd' hafter, hK, hP d d' (hd'.mono hK) hd⟩
  | throw e => exact ⟨h, hd⟩
  | stmt locks made rest ih =>
    intro d' e hd' hafter
    obtain ⟨hfootprint, hrest⟩ := h d' e hd' hafter
    exact ⟨hfootprint, ih _ _ (fun l hl => List.mem_append_left _ (hK l hl))
      (hP d d' (hd'.mono hK) hd) hrest⟩

/-- What holds at the end of a transaction holds until its commit. -/
theorem Wp.settled (h : tx.Wp B σ Q QE H ws d) :
    tx.Wp B σ (fun H ws b d => ∀ d', B.Outside H d d' → σ.After d d' → Q H ws b d') QE H ws d := by
  induction tx generalizing H ws d with
  | ret b => exact fun d' hd hafter d'' hd' hafter' => h d'' (hd.trans hd') (hafter.trans hafter')
  | throw e => exact h
  | stmt locks made rest ih =>
    intro d' e hd hafter
    obtain ⟨hfootprint, hrest⟩ := h d' e hd hafter
    exact ⟨hfootprint, ih _ _ hrest⟩

/-- Sequencing: what the first part ends with is what the second one starts from. -/
theorem wp_bind {Q : List L → List W → γ → D → Prop}
    {f : β → Tx D L W E ε γ} {log : List (List W)} (hd : σ.inv d log)
    (h : tx.Wp B σ (fun H ws b d => (f b).Wp B σ Q QE H ws d) QE H ws d) :
    (tx.bind f).Wp B σ Q QE H ws d := by
  induction tx generalizing H ws d log with
  | ret b => exact h d .refl (.of_inv hd)
  | throw e => exact h
  | stmt locks made rest ih =>
    intro d' e hd' hafter
    obtain ⟨hfootprint, hrest⟩ := h d' e hd' hafter
    obtain ⟨log', hlog'⟩ := hafter.2
    exact ⟨hfootprint, ih _ _ hlog' hrest⟩

end Tx

namespace Client

variable {QE RE : ε → D → Prop} {Q R : α → D → Prop} {c : Client D L W E ε β α}

/-- Other transactions do not invalidate what is known of the rest of a call. -/
theorem Wp.later (hQ : ∀ a, σ.Stable (Q a)) (hQE : ∀ e, σ.Stable (QE e))
    (h : c.Wp B σ Q QE d) (hafter : σ.After d d') : c.Wp B σ Q QE d' := by
  cases c with
  | ret a => exact hQ a d d' hafter h
  | throw e => exact hQE e d d' hafter h
  | query | tx => exact fun d'' hafter' => h d'' (hafter.trans hafter')

theorem Wp.mono (hQR : ∀ a d, Q a d → R a d) (hQE : ∀ e d, QE e d → RE e d)
    (h : c.Wp B σ Q QE d) : c.Wp B σ R RE d := by
  induction c generalizing d with
  | ret a => exact hQR a d h
  | throw e => exact hQE e d h
  | query next ih =>
    intro d' hafter
    obtain ⟨hfault, hnext⟩ := h d' hafter
    exact ⟨hQE _ _ hfault, ih d' hnext⟩
  | tx body next ih =>
    intro d' hafter
    obtain ⟨hfault, hbody⟩ := h d' hafter
    refine ⟨ih _ hfault, hbody.mono (fun _ ws b d hcommits log hlog hdeferred => ?_)
      (fun e d he => ih _ he)⟩
    obtain ⟨hinv, hguar, hok, herror⟩ := hcommits log hlog hdeferred
    exact ⟨hinv, hguar, ih _ hok, ih _ herror⟩

/-- Sequencing of calls. -/
theorem wp_bind {Q : δ → D → Prop} {f : α → Client D L W E ε β δ}
    (h : c.Wp B σ (fun a d => (f a).Wp B σ Q QE d) QE d) : (c.bind f).Wp B σ Q QE d := by
  induction c generalizing d with
  | ret | throw => exact h
  | query next ih =>
    intro d' hafter
    obtain ⟨hfault, hnext⟩ := h d' hafter
    exact ⟨hfault, ih d' hnext⟩
  | tx body next ih =>
    intro d' hafter
    obtain ⟨hfault, hbody⟩ := h d' hafter
    refine ⟨ih _ hfault, hbody.mono (fun _ ws b d hcommits log hlog hdeferred => ?_)
      (fun e d he => ih _ he)⟩
    obtain ⟨hinv, hguar, hok, herror⟩ := hcommits log hlog hdeferred
    exact ⟨hinv, hguar, ih _ hok, ih _ herror⟩

end Client

end Wp

/-! ## The interleaving of calls -/

/-- Where a call stands: between transactions, or in a transaction with the locks it
    holds and the writes it has made. -/
inductive Proc (D L W E ε β α : Type*) where
  | client (c : Client D L W E ε β α)
  | inTx (held : List L) (writes : List W) (rest : Tx D L W E ε β)
      (next : Except ε β → Client D L W E ε β α)
  | crashed

/-- What the scheduler does with a call. -/
inductive Move (E : Type*) where
  /-- Its next autocommit read takes place. -/
  | query
  /-- Its transaction begins. -/
  | begin
  /-- The next statement of its transaction takes place. -/
  | stmt (e : E)
  /-- Its transaction commits, or rolls back on an error. -/
  | finish
  /-- Its transaction commits but the answer is lost. -/
  | lose
  /-- Its statement or commit fails. -/
  | abort
  /-- The process dies. -/
  | crash

namespace Proc

/-- The locks that the call holds. -/
def held : Proc D L W E ε β α → List L
  | inTx held _ _ _ => held
  | _ => []

/-- What the call has returned or failed with. -/
def answer : Proc D L W E ε β α → Option (Except ε α)
  | client (.ret a) => some (.ok a)
  | client (.throw e) => some (.error e)
  | _ => none

theorem answer_ok {p : Proc D L W E ε β α} {a : α} (h : p.answer = some (.ok a)) :
    p = client (.ret a) := by
  unfold answer at h
  split at h
  · cases h
    rfl
  · cases h
  · cases h

/-- The call after a move, and the writes that the move commits. -/
def next (B : Database D L W ε) (db : D) :
    Proc D L W E ε β α → Move E → Option (Proc D L W E ε β α × Option (List W))
  | client (.query next), .query => some (client (next db), none)
  | client (.query _), .abort => some (client (.throw B.fault), none)
  | client (.tx body next), .begin => some (inTx [] [] body next, none)
  | inTx held writes (.stmt locks made rest) next, .stmt e =>
    let view := B.applyAll db writes
    some (inTx (held ++ locks view e) (writes ++ made view e) (rest view e) next, none)
  | inTx _ writes (.ret b) next, .finish =>
    if B.deferred db writes then some (client (next (.ok b)), some writes)
    else some (client (next (.error B.fault)), none)
  | inTx _ _ (.throw e) next, .finish => some (client (next (.error e)), none)
  | inTx _ writes (.ret _) next, .lose =>
    if B.deferred db writes then some (client (next (.error B.fault)), some writes) else none
  | inTx _ _ _ next, .abort => some (client (next (.error B.fault)), none)
  | crashed, .crash => none
  | _, .crash => some (crashed, none)
  | _, _ => none

variable {B : Database D L W ε} {db : D} {p p' : Proc D L W E ε β α} {move : Move E}
  {ws : List W}

/-- The moves of a call that commit nothing. -/
inductive Local (B : Database D L W ε) (db : D) :
    Proc D L W E ε β α → Proc D L W E ε β α → Prop
  | read (next : D → Client D L W E ε β α) : Local B db (client (.query next)) (client (next db))
  | fail (next : D → Client D L W E ε β α) :
      Local B db (client (.query next)) (client (.throw B.fault))
  | begin (body : Tx D L W E ε β) (next : Except ε β → Client D L W E ε β α) :
      Local B db (client (.tx body next)) (inTx [] [] body next)
  | stmt (held : List L) (writes : List W) (locks : D → E → List L) (made : D → E → List W)
      (rest : D → E → Tx D L W E ε β) (next : Except ε β → Client D L W E ε β α) (e : E) :
      Local B db (inTx held writes (.stmt locks made rest) next)
        (inTx (held ++ locks (B.applyAll db writes) e) (writes ++ made (B.applyAll db writes) e)
          (rest (B.applyAll db writes) e) next)
  | rollback (held : List L) (writes : List W) (e : ε)
      (next : Except ε β → Client D L W E ε β α) :
      Local B db (inTx held writes (.throw e) next) (client (next (.error e)))
  | abort (held : List L) (writes : List W) (rest : Tx D L W E ε β)
      (next : Except ε β → Client D L W E ε β α) :
      Local B db (inTx held writes rest next) (client (next (.error B.fault)))
  | crash (p : Proc D L W E ε β α) : Local B db p crashed

theorem next_local (h : p.next B db move = some (p', none)) : p.Local B db p' := by
  unfold Proc.next at h
  split at h
  · cases h
    exact .read _
  · cases h
    exact .fail _
  · cases h
    exact .begin _ _
  · cases h
    exact .stmt _ _ _ _ _ _ _
  · -- a deferred constraint fails
    split_ifs at h
    · cases h
    · cases h
      exact .abort _ _ _ _
  · cases h
    exact .rollback _ _ _ _
  · split_ifs at h
    cases h
  · cases h
    exact .abort _ _ _ _
  · cases h
  · cases h
    exact .crash _
  · cases h

/-- A commit takes place at the end of a transaction, if the deferred constraints
    hold; the call learns of it or not. -/
theorem next_commit (h : p.next B db move = some (p', some ws)) :
    ∃ held b next, p = inTx held ws (.ret b) next ∧ B.deferred db ws = true ∧
      (p' = client (next (.ok b)) ∨ p' = client (next (.error B.fault))) := by
  unfold Proc.next at h
  split at h <;> try cases h
  · split_ifs at h with hdeferred
    · cases h
      exact ⟨_, _, _, rfl, hdeferred, .inl rfl⟩
    · cases h
  · split_ifs at h with hdeferred
    cases h
    exact ⟨_, _, _, rfl, hdeferred, .inr rfl⟩

/-- What is known of a call between its moves. -/
def Wp (B : Database D L W ε) (σ : Contract D W) (Q : α → D → Prop) (QE : ε → D → Prop) (d : D) :
    Proc D L W E ε β α → Prop
  | client c => c.Wp B σ Q QE d
  | inTx held ws rest next => (∀ w ∈ ws, ∀ l ∈ B.footprint w, l ∈ held) ∧
      (∀ d', σ.After d d' → (next (.error B.fault)).Wp B σ Q QE d') ∧
      rest.Wp B σ (fun _ ws b => Commits B σ (fun d => (next (.ok b)).Wp B σ Q QE d ∧
        (next (.error B.fault)).Wp B σ Q QE d) ws) (fun e => (next (.error e)).Wp B σ Q QE) held ws d
  | crashed => True

/-- What is left of the call `c`: it commits nothing that `c` does not. -/
def Continues (c : Client D L W E ε β α) : Proc D L W E ε β α → Prop
  | client c' => ∀ ws, c'.Makes ws → c.Makes ws
  | inTx _ ws rest next => (∀ ws' b, rest.Yields ws' b → c.Makes (ws ++ ws')) ∧
      ∀ r ws, (next r).Makes ws → c.Makes ws
  | crashed => True

theorem Continues.step {c : Client D L W E ε β α} (h : p.Continues c)
    (hstep : p.Local B db p') : p'.Continues c := by
  cases hstep with
  | read next => exact fun ws hws => h ws (.query hws)
  | fail next =>
    intro ws hws
    cases hws
  | begin body next =>
    exact ⟨fun ws b hws => h ws (.tx hws), fun r ws hws => h ws (.after hws)⟩
  | stmt held ws locks made rest next e =>
    refine ⟨fun ws' b hws' => ?_, h.2⟩
    rw [List.append_assoc]
    exact h.1 _ b (.stmt hws')
  | rollback | abort => exact h.2 _
  | crash p => trivial

variable {σ : Contract D W} {Q : α → D → Prop} {QE : ε → D → Prop} {d d' : D}

theorem Wp.step {log : List (List W)} (hd : σ.inv d log) (h : p.Wp B σ Q QE d)
    (hstep : p.Local B d p') : p'.Wp B σ Q QE d := by
  cases hstep with
  | read next => exact (h d (.of_inv hd)).2
  | fail next => exact (h d (.of_inv hd)).1
  | begin body next =>
    exact ⟨by simp, fun d' hafter => (h d' hafter).1, (h d (.of_inv hd)).2⟩
  | stmt held ws locks made rest next e =>
    obtain ⟨hheld, hfault, hwp⟩ := h
    obtain ⟨hfootprint, hrest⟩ := hwp d e .refl (.of_inv hd)
    refine ⟨fun w hw => ?_, hfault, hrest⟩
    rcases List.mem_append.mp hw with hw | hw
    · exact fun l hl => List.mem_append_left _ (hheld w hw l hl)
    · exact hfootprint w hw
  | rollback held ws e next => exact h.2.2
  | abort held ws rest next => exact h.2.1 d (.of_inv hd)
  | crash p => trivial

theorem Wp.later (hQ : ∀ a, σ.Stable (Q a)) (hQE : ∀ e, σ.Stable (QE e)) (h : p.Wp B σ Q QE d)
    (hd : B.Outside p.held d d') (hafter : σ.After d d') : p.Wp B σ Q QE d' := by
  cases p with
  | client c => exact Client.Wp.later hQ hQE h hafter
  | crashed => trivial
  | inTx held ws rest next =>
    obtain ⟨hheld, hfault, hwp⟩ := h
    have herror : ∀ e, σ.Stable ((next (.error e)).Wp B σ Q QE) :=
      fun e d d' hafter hnext => Client.Wp.later hQ hQE hnext hafter
    exact ⟨hheld, fun d'' hafter' => hfault d'' (hafter.trans hafter'),
      hwp.later herror hd hafter⟩

end Proc

/-- A system of calls: which database, what data it may start with, and which call
    an input starts. -/
structure Calls (D L W E ε β α ι : Type*) where
  database : Database D L W ε
  init : D → Prop
  call : ι → Client D L W E ε β α

namespace Calls

/-- The committed data, the calls started so far with their inputs, and each commit:
    the input of the call and the writes. -/
structure State (D L W E ε β α ι : Type*) where
  db : D
  procs : List (ι × Proc D L W E ε β α)
  log : List (ι × List W)

/-- A call starts, or call `n` makes a move. -/
inductive Action (E ι : Type*) where
  | start (i : ι)
  | next (n : ℕ) (move : Move E)

variable [DecidableEq L] (S : Calls D L W E ε β α ι)

/-- No call but number `n` holds one of the locks. -/
def free (procs : List (ι × Proc D L W E ε β α)) (n : ℕ) (locks : List L) : Bool :=
  (procs.eraseIdx n).all fun q => locks.all fun l => decide (l ∉ q.2.held)

/-- All interleavings of the calls. -/
def machine : Machine (State D L W E ε β α ι) (Action E ι) where
  init s := S.init s.db ∧ s.procs = [] ∧ s.log = []
  step s
    | .start i => some { s with procs := s.procs ++ [(i, .client (S.call i))] }
    | .next n move =>
      match s.procs[n]? with
      | none => none
      | some (i, p) =>
        match p.next S.database s.db move with
        | none => none
        | some (p', committed) =>
          if free s.procs n p'.held then
            some {
              db := match committed with
                | none => s.db
                | some ws => S.database.applyAll s.db ws
              procs := s.procs.set n (i, p')
              log := match committed with
                | none => s.log
                | some ws => s.log ++ [(i, ws)] }
          else none

variable {S} {C : State D L W E ε β α ι → Action E ι → Prop} {s t : State D L W E ε β α ι}
  {procs : List (ι × Proc D L W E ε β α)} {n : ℕ} {locks : List L}

theorem free_iff : free procs n locks = true ↔
    ∀ (m : ℕ) q, m ≠ n → procs[m]? = some q → ∀ l ∈ locks, l ∉ q.2.held := by
  simp only [free, List.all_eq_true, decide_eq_true_eq, List.mem_eraseIdx_iff_getElem?]
  constructor
  · intro h m q hmn hq
    exact h q ⟨m, hmn, hq⟩
  · rintro h q ⟨m, hmn, hq⟩
    exact h m q hmn hq

variable {i : ι} {a : Action E ι}

theorem step_start (h : S.machine.step s (.start i) = some t) :
    t = { s with procs := s.procs ++ [(i, .client (S.call i))] } := by
  simpa [machine] using h.symm

theorem step_next {move : Move E} (h : S.machine.step s (.next n move) = some t) :
    ∃ i p p', s.procs[n]? = some (i, p) ∧
      (∀ (m : ℕ) q, m ≠ n → s.procs[m]? = some q → ∀ l ∈ p'.held, l ∉ q.2.held) ∧
      ((p.next S.database s.db move = some (p', none) ∧
          t = { s with procs := s.procs.set n (i, p') }) ∨
        ∃ ws, p.next S.database s.db move = some (p', some ws) ∧
          t = { db := S.database.applyAll s.db ws, procs := s.procs.set n (i, p'),
                log := s.log ++ [(i, ws)] }) := by
  simp only [machine] at h
  split at h
  · cases h
  next i p hp =>
    split at h
    · cases h
    next p' committed hnext =>
      split_ifs at h with hfree
      refine ⟨i, p, p', hp, free_iff.mp hfree, ?_⟩
      cases committed with
      | none => exact .inl ⟨hnext, (Option.some.inj h).symm⟩
      | some ws => exact .inr ⟨ws, hnext, (Option.some.inj h).symm⟩

/-- A commit stays in the log. -/
theorem mem_log_step (h : S.machine.step s a = some t) {entry : ι × List W}
    (hentry : entry ∈ s.log) : entry ∈ t.log := by
  cases a with
  | start i =>
    rw [step_start h]
    exact hentry
  | next n move =>
    obtain ⟨i, p, p', -, -, ⟨-, rfl⟩ | ⟨ws, -, rfl⟩⟩ := step_next h
    · exact hentry
    · exact List.mem_append_left _ hentry

/-- What a step does to one call: nothing, a move without a commit, or its commit. -/
theorem proc_step (h : S.machine.step s a = some t)
    {p : Proc D L W E ε β α} (hp : s.procs[n]? = some (i, p)) :
    ∃ p', t.procs[n]? = some (i, p') ∧ (p' = p ∨ p.Local S.database s.db p' ∨
      ∃ held ws b next, p = .inTx held ws (.ret b) next) := by
  cases a with
  | start j =>
    rw [step_start h]
    have hn := (List.getElem?_eq_some_iff.mp hp).1
    exact ⟨p, by rw [List.getElem?_append_left hn, hp], .inl rfl⟩
  | next m move =>
    obtain ⟨j, q, q', hq, -, hcases⟩ := step_next h
    have hprocs : t.procs = s.procs.set m (j, q') := by
      rcases hcases with ⟨-, rfl⟩ | ⟨ws, -, rfl⟩ <;> rfl
    rw [hprocs, List.getElem?_set]
    by_cases hmn : m = n
    · subst hmn
      obtain ⟨rfl, rfl⟩ : j = i ∧ q = p := by simpa using hq.symm.trans hp
      have hm := (List.getElem?_eq_some_iff.mp hp).1
      refine ⟨q', by rw [if_pos rfl, if_pos hm], ?_⟩
      rcases hcases with ⟨hnext, -⟩ | ⟨ws, hnext, -⟩
      · exact .inr (.inl (Proc.next_local hnext))
      · obtain ⟨held, b, next, rfl, -⟩ := Proc.next_commit hnext
        exact .inr (.inr ⟨held, ws, b, next, rfl⟩)
    · exact ⟨p, by rw [if_neg hmn, hp], .inl rfl⟩

/-- A step of a call that is not at its commit leaves the data alone. -/
theorem step_uncommitted {move : Move E} (h : S.machine.step s (.next n move) = some t)
    {p : Proc D L W E ε β α} (hp : s.procs[n]? = some (i, p))
    (hret : ∀ held ws b next, p ≠ .inTx held ws (.ret b) next) : t.db = s.db ∧ t.log = s.log := by
  obtain ⟨j, q, q', hq, -, ⟨-, rfl⟩ | ⟨ws, hnext, rfl⟩⟩ := step_next h
  · exact ⟨rfl, rfl⟩
  · obtain ⟨-, rfl⟩ : j = i ∧ q = p := by simpa using hq.symm.trans hp
    obtain ⟨held, b, next, rfl, -⟩ := Proc.next_commit hnext
    exact absurd rfl (hret held ws b next)

/-- No two calls hold one lock. -/
def Apart (procs : List (ι × Proc D L W E ε β α)) : Prop :=
  ∀ (m n : ℕ) p q, m ≠ n → procs[m]? = some p → procs[n]? = some q →
    ∀ l ∈ p.2.held, l ∉ q.2.held

theorem apart_step (h : Apart s.procs) (hstep : S.machine.step s a = some t) :
    Apart t.procs := by
  cases a with
  | start i =>
    rw [step_start hstep]
    intro m k p q hmk hp hq l hlp hlq
    have hold : ∀ (m : ℕ) p, (s.procs ++ [(i, .client (S.call i))])[m]? = some p →
        l ∈ p.2.held → s.procs[m]? = some p := by
      intro m p hp hl
      rw [List.getElem?_append] at hp
      split_ifs at hp with hlt
      · exact hp
      · have hnew := List.mem_singleton.mp (List.mem_of_getElem? hp)
        rw [hnew] at hl
        cases hl
    exact h m k p q hmk (hold m p hp hlp) (hold k q hq hlq) l hlp hlq
  | next n move =>
    obtain ⟨i, p', q', -, hfree, hcases⟩ := step_next hstep
    have hprocs : t.procs = s.procs.set n (i, q') := by
      rcases hcases with ⟨-, rfl⟩ | ⟨ws, -, rfl⟩ <;> rfl
    rw [hprocs]
    intro m k p q hmk hp hq l hlp hlq
    rw [List.getElem?_set] at hp hq
    by_cases hm : n = m
    · by_cases hk : n = k
      · exact hmk (hm.symm.trans hk)
      · rw [if_neg hk] at hq
        rw [if_pos hm] at hp
        split_ifs at hp
        cases hp
        exact hfree k q (Ne.symm hk) hq l hlp hlq
    · rw [if_neg hm] at hp
      by_cases hk : n = k
      · rw [if_pos hk] at hq
        split_ifs at hq
        cases hq
        exact hfree m p (Ne.symm hm) hp l hlq hlp
      · rw [if_neg hk] at hq
        exact h m k p q hmk hp hq l hlp hlq

theorem apart_reachable (h : S.machine.Reachable C s) : Apart s.procs := by
  refine Machine.invariant (I := fun s => Apart s.procs) ?_
    (fun _ _ _ hs _ hstep => apart_step hs hstep) h
  rintro s ⟨-, hprocs, -⟩
  rw [hprocs]
  intro m n p q _ hp
  simp at hp

/-! ## The rule of interference freedom -/

/-- `G` about the committed data and `A` about each call hold in every reachable state
    if a call starts with `A`, its own moves keep `A`, and its commit keeps `G`, its
    own `A`, and the `A` of every call that holds none of its locks. -/
theorem invariant {G : D → List (ι × List W) → Prop} {A : ι → D → Proc D L W E ε β α → Prop}
    (hinit : ∀ d, S.init d → G d [])
    (hstart : ∀ i d log, G d log → A i d (.client (S.call i)))
    (hlocal : ∀ i d log p p', G d log → A i d p → p.Local S.database d p' → A i d p')
    (hcommit : ∀ i d log held ws b next, G d log → A i d (.inTx held ws (.ret b) next) →
      S.database.deferred d ws = true →
      G (S.database.applyAll d ws) (log ++ [(i, ws)]) ∧
        A i (S.database.applyAll d ws) (.client (next (.ok b))) ∧
        A i (S.database.applyAll d ws) (.client (next (.error S.database.fault))) ∧
        ∀ j q, A j d q → (∀ l ∈ held, l ∉ q.held) → A j (S.database.applyAll d ws) q)
    (h : S.machine.Reachable C s) : G s.db s.log ∧ ∀ q ∈ s.procs, A q.1 s.db q.2 := by
  refine Machine.invariant_of_reachable
    (I := fun s => G s.db s.log ∧ ∀ q ∈ s.procs, A q.1 s.db q.2) ?_ ?_ h
  · rintro s ⟨hdb, hprocs, hlog⟩
    rw [hprocs, hlog]
    exact ⟨hinit _ hdb, by simp⟩
  · rintro s a t hr ⟨hG, hA⟩ - hstep
    cases a with
    | start i =>
      rw [step_start hstep]
      refine ⟨hG, fun q hq => ?_⟩
      rcases List.mem_append.mp hq with hq | hq
      · exact hA q hq
      · rw [List.mem_singleton.mp hq]
        exact hstart i _ _ hG
    | next n move =>
      obtain ⟨i, p, p', hp, -, hcases⟩ := step_next hstep
      have hown := hA (i, p) (List.mem_of_getElem? hp)
      have hset : ∀ q ∈ s.procs.set n (i, p'), q = (i, p') ∨
          ∃ m, m ≠ n ∧ s.procs[m]? = some q := by
        intro q hq
        obtain ⟨m, hm⟩ := List.mem_iff_getElem?.mp hq
        rw [List.getElem?_set] at hm
        split_ifs at hm with hnm hlt
        · exact .inl (Option.some.inj hm).symm
        · exact .inr ⟨m, Ne.symm hnm, hm⟩
      rcases hcases with ⟨hnext, rfl⟩ | ⟨ws, hnext, rfl⟩
      · refine ⟨hG, fun q hq => ?_⟩
        rcases hset q hq with rfl | ⟨m, -, hm⟩
        · exact hlocal i _ _ p p' hG hown (Proc.next_local hnext)
        · exact hA q (List.mem_of_getElem? hm)
      · obtain ⟨held, b, next, rfl, hdeferred, hp'⟩ := Proc.next_commit hnext
        obtain ⟨hG', hok, herror, hothers⟩ := hcommit i _ _ held ws b next hG hown hdeferred
        refine ⟨hG', fun q hq => ?_⟩
        rcases hset q hq with rfl | ⟨m, hmn, hm⟩
        · rcases hp' with rfl | rfl
          · exact hok
          · exact herror
        · exact hothers q.1 q.2 (hA q (List.mem_of_getElem? hm))
            (apart_reachable hr n m (i, _) q (Ne.symm hmn) hp hm)

/-- The soundness of the weakest preconditions: if every call satisfies its own from
    any data that satisfies the invariant, then in every reachable state the committed
    data satisfies the invariant, and each call what is known of it. -/
theorem sound {σ : Contract D W} {Q : ι → α → D → Prop} {R : ι → ε → D → Prop}
    (hguar : ∀ d d', σ.guar d d' → σ.rely d d') (hQ : ∀ i a, σ.Stable (Q i a))
    (hR : ∀ i e, σ.Stable (R i e))
    (hinit : ∀ d, S.init d → σ.inv d [])
    (hcall : ∀ i d log, σ.inv d log → (S.call i).Wp S.database σ (Q i) (R i) d)
    (h : S.machine.Reachable C s) : σ.inv s.db (s.log.map Prod.snd) ∧
      ∀ q ∈ s.procs, q.2.Wp S.database σ (Q q.1) (R q.1) s.db := by
  refine invariant (G := fun d log => σ.inv d (log.map Prod.snd))
    (A := fun i d p => p.Wp S.database σ (Q i) (R i) d)
    hinit (fun i d _ hd => hcall i d _ hd) (fun _ _ _ _ _ hd hp hstep => hp.step hd hstep) ?_ h
  rintro i d log held ws b next hd ⟨hheld, hfault, hwp⟩ hdeferred
  obtain ⟨hinv, hcommit, hok, herror⟩ := hwp d .refl (.of_inv hd) _ hd hdeferred
  have hafter : σ.After d (S.database.applyAll d ws) := ⟨hguar _ _ hcommit, _, hinv⟩
  refine ⟨?_, hok, herror, fun j q hq happart => ?_⟩
  · rw [List.map_append, List.map_singleton]
    exact hinv
  · refine hq.later (hQ j) (hR j) ?_ hafter
    exact Database.Outside.commit (fun w hw l hl => happart l (hheld w hw l hl)) d

/-- A step leaves the data alone or respects the guarantee. -/
theorem step_guar {σ : Contract D W} {Q : ι → α → D → Prop} {R : ι → ε → D → Prop}
    (hinv : σ.inv s.db (s.log.map Prod.snd))
    (hprocs : ∀ q ∈ s.procs, q.2.Wp S.database σ (Q q.1) (R q.1) s.db)
    (h : S.machine.step s a = some t) : t.db = s.db ∨ σ.guar s.db t.db := by
  cases a with
  | start i =>
    rw [step_start h]
    exact .inl rfl
  | next n move =>
    obtain ⟨i, p, p', hp, -, ⟨-, rfl⟩ | ⟨ws, hnext, rfl⟩⟩ := step_next h
    · exact .inl rfl
    · obtain ⟨held, b, next, rfl, hdeferred, -⟩ := Proc.next_commit hnext
      obtain ⟨-, -, hwp⟩ := hprocs _ (List.mem_of_getElem? hp)
      exact .inr (hwp s.db .refl (.of_inv hinv) _ hinv hdeferred).2.1

/-- The data is what the commits make of the initial data. -/
theorem db_of_log (h : S.machine.Reachable C s) :
    ∃ d, S.init d ∧ s.db = S.database.applyAll d (s.log.flatMap Prod.snd) := by
  refine Machine.invariant (I := fun s => ∃ d, S.init d ∧
    s.db = S.database.applyAll d (s.log.flatMap Prod.snd)) ?_ ?_ h
  · rintro s ⟨hdb, -, hlog⟩
    rw [hlog]
    exact ⟨s.db, hdb, rfl⟩
  · rintro s a t ⟨d, hd, hdb⟩ - hstep
    cases a with
    | start i =>
      rw [step_start hstep]
      exact ⟨d, hd, hdb⟩
    | next n move =>
      obtain ⟨i, p, p', -, -, ⟨-, rfl⟩ | ⟨ws, -, rfl⟩⟩ := step_next hstep
      · exact ⟨d, hd, hdb⟩
      · refine ⟨d, hd, ?_⟩
        show S.database.applyAll s.db ws = _
        rw [hdb, ← Database.applyAll_append, List.flatMap_append, List.flatMap_singleton]

/-- Every commit is a complete run of a transaction of its call. -/
theorem makes_of_mem_log (h : S.machine.Reachable C s) {ws : List W}
    (hmem : (i, ws) ∈ s.log) : (S.call i).Makes ws := by
  have hinv := invariant (G := fun _ log => ∀ entry ∈ log, (S.call entry.1).Makes entry.2)
    (A := fun i _ p => p.Continues (S.call i)) (by simp) (fun i d log _ ws hws => hws)
    (fun _ _ _ _ _ _ hp hstep => hp.step hstep) ?_ h
  · exact hinv.1 _ hmem
  · rintro i d log held ws b next hlog ⟨hrest, hnext⟩ -
    refine ⟨fun entry hentry => ?_, hnext _, hnext _, fun j q hq _ => hq⟩
    rcases List.mem_append.mp hentry with hentry | hentry
    · exact hlog entry hentry
    · rw [List.mem_singleton.mp hentry]
      simpa using hrest [] b (.ret b)

end Calls

end AegisShield.Common
