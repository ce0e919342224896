import AegisShield.Common.Transaction

/-!
# Deadlock freedom by lock order

The calls of `Transaction`, lock by lock: a statement takes the locks it needs one
after the other, in its own order, and keeps those it has while it waits for the next one.
A transaction keeps its locks to its end. What a statement sees of the data is left
open, so that every state of the waiting calls that the data can lead to is covered. Locks that no
other call can ask for (index entries of freshly generated identifiers) are left out.

Results:
* `before_of_waits`: along a chain of calls that wait for one another, the locks waited for ascend.
* `acyclic_of_inOrder`: if every transaction takes its locks in the direction of one
  strict order, then the wait-for relation is acyclic in every reachable state.
-/

namespace AegisShield.Common

variable {D L W E ε β γ α δ ι : Type*}

/-! ## Calls that wait for locks -/

/-- Where a call stands: between transactions, or in a transaction with the locks it
    holds and those that its current statement is yet to take. -/
inductive LockProc (D L W E ε β α : Type*) where
  | client (c : Client D L W E ε β α)
  | inTx (held pending : List L) (rest : Tx D L W E ε β) (next : Except ε β → Client D L W E ε β α)
  | crashed

/-- What the scheduler does with a call, and what the call sees. -/
inductive LockMove (D E : Type*) where
  /-- Its next autocommit read sees the data. -/
  | query (d : D)
  /-- Its transaction begins. -/
  | begin
  /-- The next statement of its transaction starts. -/
  | stmt (d : D) (e : E)
  /-- Its statement takes the next lock. -/
  | take
  /-- Its transaction commits, or rolls back on an error. -/
  | finish
  /-- Its statement or commit fails. -/
  | abort
  /-- The process dies. -/
  | crash

namespace LockProc

/-- The locks that the call holds. -/
def held : LockProc D L W E ε β α → List L
  | inTx held _ _ _ => held
  | _ => []

/-- The lock that the call is to take next. -/
def waiting [DecidableEq L] : LockProc D L W E ε β α → Option L
  | inTx held (l :: _) _ _ => if l ∈ held then none else some l
  | _ => none

/-- The call after a move, if nobody else holds its locks. -/
def next (fault : ε) (contended : L → Bool) :
    LockProc D L W E ε β α → LockMove D E → Option (LockProc D L W E ε β α)
  | client (.query next), .query d => some (client (next d))
  | client (.query _), .abort => some (client (.throw fault))
  | client (.tx body next), .begin => some (inTx [] [] body next)
  | inTx held [] (.stmt locks _ rest) next, .stmt d e =>
    some (inTx held ((locks d e).filter contended) (rest d e) next)
  | inTx held (l :: pending) rest next, .take => some (inTx (held ++ [l]) pending rest next)
  | inTx _ [] (.ret b) next, .finish => some (client (next (.ok b)))
  | inTx _ [] (.throw e) next, .finish => some (client (next (.error e)))
  | inTx _ _ _ next, .abort => some (client (next (.error fault)))
  | crashed, .crash => none
  | _, .crash => some crashed
  | _, _ => none

end LockProc

namespace Calls

variable [DecidableEq L] (S : Calls D L W E ε β α ι)

/-- No call but number `n` holds one of the locks. -/
def unlocked (procs : List (ι × LockProc D L W E ε β α)) (n : ℕ) (locks : List L) : Bool :=
  (procs.eraseIdx n).all fun q => locks.all fun l => decide (l ∉ q.2.held)

/-- A call starts, or call `n` makes a move. -/
inductive LockAction (D E ι : Type*) where
  | start (i : ι)
  | next (n : ℕ) (move : LockMove D E)

/-- All interleavings of the calls, lock by lock. -/
def locking (contended : L → Bool) :
    Machine (List (ι × LockProc D L W E ε β α)) (LockAction D E ι) where
  init procs := procs = []
  step procs
    | .start i => some (procs ++ [(i, .client (S.call i))])
    | .next n move =>
      match procs[n]? with
      | none => none
      | some (i, p) =>
        match p.next S.database.fault contended move with
        | none => none
        | some p' => if unlocked procs n p'.held then some (procs.set n (i, p')) else none

/-- Call `n` waits for a lock that call `m` holds. -/
def WaitsFor (procs : List (ι × LockProc D L W E ε β α)) (n m : ℕ) : Prop :=
  ∃ p q l, procs[n]? = some p ∧ procs[m]? = some q ∧ p.2.waiting = some l ∧ l ∈ q.2.held

/-- No call waits, through any number of others, for itself. -/
def Acyclic (procs : List (ι × LockProc D L W E ε β α)) : Prop :=
  ∀ n, ¬ Relation.TransGen (WaitsFor procs) n n

end Calls

/-! ## Lock order -/

section Order

variable (before : L → L → Prop) (contended : L → Bool)

/-- Each of the locks comes after all that are held by then, or is held already. -/
def Ascends : List L → List L → Prop
  | _, [] => True
  | held, l :: locks => (l ∈ held ∨ ∀ k ∈ held, before k l) ∧ Ascends (held ++ [l]) locks

/-- From the locks `H`, the transaction takes its locks in order, and reaches its end
    only with `Q`. -/
def Tx.InOrder (Q : β → List L → Prop) : Tx D L W E ε β → List L → Prop
  | .ret b, H => Q b H
  | .throw _, _ => True
  | .stmt locks _ rest, H => ∀ d e, Ascends before H ((locks d e).filter contended) ∧
      InOrder Q (rest d e) (H ++ (locks d e).filter contended)

/-- Every transaction of the call takes its locks in order. -/
def Client.InOrder : Client D L W E ε β α → Prop
  | .ret _ => True
  | .throw _ => True
  | .query next => ∀ d, InOrder (next d)
  | .tx body next => body.InOrder before contended (fun _ _ => True) [] ∧ ∀ r, InOrder (next r)

/-- What is left of a call takes its locks in order. -/
def LockProc.InOrder : LockProc D L W E ε β α → Prop
  | client c => c.InOrder before contended
  | inTx held pending rest next => Ascends before held pending ∧
      rest.InOrder before contended (fun _ _ => True) (held ++ pending) ∧
      ∀ r, (next r).InOrder before contended
  | crashed => True

variable {before contended} {H K : List L} {l : L} {ls : List L}

/-- Locks that are held already. -/
theorem ascends_of_held (h : ∀ l ∈ ls, l ∈ H) : Ascends before H ls := by
  induction ls generalizing H with
  | nil => trivial
  | cons l ls ih =>
    refine ⟨.inl (h l List.mem_cons_self), ih fun k hk => ?_⟩
    exact List.mem_append_left _ (h k (List.mem_cons_of_mem l hk))

/-- Locks in order, after all that are held. -/
theorem ascends_of_pairwise (hH : ∀ k ∈ H, ∀ l ∈ ls, before k l) (hls : ls.Pairwise before) :
    Ascends before H ls := by
  induction ls generalizing H with
  | nil => trivial
  | cons l ls ih =>
    obtain ⟨hl, hls⟩ := List.pairwise_cons.mp hls
    refine ⟨.inr fun k hk => hH k hk l List.mem_cons_self, ih (fun k hk m hm => ?_) hls⟩
    rcases List.mem_append.mp hk with hk | hk
    · exact hH k hk m (List.mem_cons_of_mem l hm)
    · rw [List.mem_singleton.mp hk]
      exact hl m hm

namespace Tx

variable {Q R : β → List L → Prop} {tx : Tx D L W E ε β}

theorem InOrder.mono (hQ : ∀ b H, Q b H → R b H) (h : tx.InOrder before contended Q H) :
    tx.InOrder before contended R H := by
  induction tx generalizing H with
  | ret b => exact hQ b H h
  | throw e => trivial
  | stmt locks made rest ih =>
    intro d e
    obtain ⟨hlocks, hrest⟩ := h d e
    exact ⟨hlocks, ih d e hrest⟩

/-- The locks that are held at the start are held at the end. -/
theorem InOrder.keep {P : List L → Prop} (hP : ∀ H K, P H → P (H ++ K)) (hH : P H)
    (h : tx.InOrder before contended Q H) :
    tx.InOrder before contended (fun b H => Q b H ∧ P H) H := by
  induction tx generalizing H with
  | ret b => exact ⟨h, hH⟩
  | throw e => trivial
  | stmt locks made rest ih =>
    intro d e
    obtain ⟨hlocks, hrest⟩ := h d e
    exact ⟨hlocks, ih d e (hP _ _ hH) hrest⟩

theorem InOrder.bind {Q : γ → List L → Prop} {f : β → Tx D L W E ε γ}
    (h : tx.InOrder before contended (fun b H => (f b).InOrder before contended Q H) H) :
    (tx.bind f).InOrder before contended Q H := by
  induction tx generalizing H with
  | ret b => exact h
  | throw e => trivial
  | stmt locks made rest ih =>
    intro d e
    obtain ⟨hlocks, hrest⟩ := h d e
    exact ⟨hlocks, ih d e hrest⟩

end Tx

theorem Client.InOrder.bind {c : Client D L W E ε β α} {f : α → Client D L W E ε β δ}
    (hc : c.InOrder before contended) (hf : ∀ a, (f a).InOrder before contended) :
    (c.bind f).InOrder before contended := by
  induction c with
  | ret a => exact hf a
  | throw e => trivial
  | query next ih => exact fun d => ih d (hc d)
  | tx body next ih => exact ⟨hc.1, fun r => ih r (hc.2 r)⟩

/-! ## Acyclicity -/

/-- A move keeps the order. -/
theorem LockProc.InOrder.next {p p' : LockProc D L W E ε β α} {fault : ε} {move : LockMove D E}
    (h : p.InOrder before contended) (hnext : p.next fault contended move = some p') :
    p'.InOrder before contended := by
  unfold LockProc.next at hnext
  split at hnext
  · cases hnext
    exact h _
  · cases hnext
    trivial
  · cases hnext
    exact ⟨trivial, h.1, h.2⟩
  next held locks made rest next d e =>
    cases hnext
    obtain ⟨-, hrest, hnext⟩ := h
    rw [List.append_nil] at hrest
    exact ⟨(hrest d e).1, (hrest d e).2, hnext⟩
  · cases hnext
    obtain ⟨hpending, hrest, hnext⟩ := h
    refine ⟨hpending.2, ?_, hnext⟩
    rw [List.append_assoc]
    exact hrest
  iterate 3
    · cases hnext
      exact h.2.2 _
  · cases hnext
  · cases hnext
    trivial
  · cases hnext

variable [DecidableEq L] {S : Calls D L W E ε β α ι} {procs : List (ι × LockProc D L W E ε β α)}
  {C : List (ι × LockProc D L W E ε β α) → Calls.LockAction D E ι → Prop} {n m : ℕ}

theorem inOrder_reachable (hcalls : ∀ i, (S.call i).InOrder before contended)
    (h : (S.locking contended).Reachable C procs) : ∀ q ∈ procs, q.2.InOrder before contended := by
  refine Machine.invariant (I := fun procs => ∀ q ∈ procs, q.2.InOrder before contended) ?_ ?_ h
  · rintro procs rfl q hq
    cases hq
  · intro procs a procs' hprocs _ hstep
    cases a with
    | start i =>
      cases hstep
      intro q hq
      rcases List.mem_append.mp hq with hq | hq
      · exact hprocs q hq
      · rw [List.mem_singleton.mp hq]
        exact hcalls i
    | next n move =>
      simp only [Calls.locking] at hstep
      split at hstep
      · cases hstep
      next i p hp =>
        split at hstep
        · cases hstep
        next p' hnext =>
          split_ifs at hstep
          cases hstep
          intro q hq
          rcases List.mem_or_eq_of_mem_set hq with hq | rfl
          · exact hprocs q hq
          · exact (hprocs _ (List.mem_of_getElem? hp)).next hnext

/-- A lock that a call waits for comes after those it holds. -/
theorem LockProc.InOrder.waiting {p : LockProc D L W E ε β α} (h : p.InOrder before contended)
    (hwaiting : p.waiting = some l) : ∀ k ∈ p.held, before k l := by
  cases p with
  | inTx held pending rest next =>
    cases pending with
    | nil => cases hwaiting
    | cons k pending =>
      simp only [LockProc.waiting] at hwaiting
      split_ifs at hwaiting with hheld
      cases hwaiting
      exact h.1.1.resolve_left hheld
  | client | crashed => cases hwaiting

variable [IsTrans L before]

/-- Along a chain of calls that wait for one another, the locks waited for ascend. -/
theorem before_of_waits (hprocs : ∀ q ∈ procs, q.2.InOrder before contended)
    (hchain : Relation.TransGen (Calls.WaitsFor procs) n m) {p q : ι × LockProc D L W E ε β α}
    {k : L} (hn : procs[n]? = some p) (hm : procs[m]? = some q) (hp : p.2.waiting = some k)
    (hq : q.2.waiting = some l) : before k l := by
  -- one edge: the lock is held by a call that waits for a later one
  have hedge : ∀ {n m p q k l}, Calls.WaitsFor procs n m → procs[n]? = some p →
      procs[m]? = some q → p.2.waiting = some k → q.2.waiting = some l → before k l := by
    rintro n m p q k l ⟨p', q', k', hp', hq', hwaiting, hheld⟩ hn hm hp hq
    obtain rfl : p = p' := Option.some.inj (hn.symm.trans hp')
    obtain rfl : q = q' := Option.some.inj (hm.symm.trans hq')
    obtain rfl : k = k' := Option.some.inj (hp.symm.trans hwaiting)
    exact (hprocs q (List.mem_of_getElem? hm)).waiting hq k hheld
  induction hchain generalizing q l with
  | single hwaits => exact hedge hwaits hn hm hp hq
  | tail _ hwaits ih =>
    obtain ⟨r, _, k', hr, -, hwaiting, -⟩ := id hwaits
    exact Trans.trans (ih hr hwaiting) (hedge hwaits hr hm hwaiting hq)

/-- Calls that take their locks in one order do not deadlock. -/
theorem acyclic_of_inOrder [Std.Irrefl before] (hcalls : ∀ i, (S.call i).InOrder before contended)
    (h : (S.locking contended).Reachable C procs) : Calls.Acyclic procs := by
  intro n hcycle
  obtain ⟨m, ⟨p, _, l, hn, -, hwaiting, -⟩, -⟩ := Relation.TransGen.head'_iff.mp hcycle
  have hbefore := before_of_waits (inOrder_reachable hcalls h) hcycle hn hn hwaiting hwaiting
  exact Std.Irrefl.irrefl l hbefore

end Order

end AegisShield.Common
