import AegisShield.Common.Transaction

/-!
# A call on its own

The outcome of a transaction, and of a call, whose statements all run while no other call
commits. What the statements get from the environment is a stream.

Results:
* `Tx.perform_bind`, `Client.perform_bind`: sequencing.
* `Calls.path_perform`: where no other call holds a lock, the steps of the call lead there.
-/

namespace AegisShield.Common

variable {D L W E ε β γ α δ ι : Type*}

namespace Tx

variable (B : Database D L W ε) (env : ℕ → E) (d : D)

/-- The value or error of a transaction, its writes, and how many statements have run. -/
def perform : Tx D L W E ε β → List W → ℕ → Except ε β × List W × ℕ
  | ret b, ws, n => (.ok b, ws, n)
  | throw e, ws, n => (.error e, ws, n)
  | stmt _ made next, ws, n =>
    (next (B.applyAll d ws) (env n)).perform (ws ++ made (B.applyAll d ws) (env n)) (n + 1)

/-- What follows a transaction that has got so far. -/
def resume (f : β → Tx D L W E ε γ) : Except ε β × List W × ℕ → Except ε γ × List W × ℕ
  | (.ok b, ws, n) => (f b).perform B env d ws n
  | (.error e, ws, n) => (.error e, ws, n)

/-- The transaction that is over. -/
def ended : Except ε β → Tx D L W E ε β
  | .ok b => ret b
  | .error e => throw e

variable {B env d}

theorem perform_bind (tx : Tx D L W E ε β) (f : β → Tx D L W E ε γ) (ws : List W) (n : ℕ) :
    (tx.bind f).perform B env d ws n = resume B env d f (tx.perform B env d ws n) := by
  induction tx generalizing ws n with
  | ret | throw => rfl
  | stmt locks made next ih => exact ih _ _ _ _

end Tx

namespace Client

variable (B : Database D L W ε) (env : ℕ → E)

/-- The value or error of a call, the data after it, and how many statements have run. -/
def perform : Client D L W E ε β α → D → ℕ → Except ε α × D × ℕ
  | ret a, d, n => (.ok a, d, n)
  | throw e, d, n => (.error e, d, n)
  | query next, d, n => (next d).perform d n
  | tx body next, d, n =>
    match body.perform B env d [] n with
    | (.error e, _, n') => (next (.error e)).perform d n'
    | (.ok b, ws, n') =>
      if B.deferred d ws then (next (.ok b)).perform (B.applyAll d ws) n'
      else (next (.error B.fault)).perform d n'

/-- What follows a call that has got so far. -/
def resume (f : α → Client D L W E ε β δ) : Except ε α × D × ℕ → Except ε δ × D × ℕ
  | (.ok a, d, n) => (f a).perform B env d n
  | (.error e, d, n) => (.error e, d, n)

/-- The call that is over. -/
def ended : Except ε α → Client D L W E ε β α
  | .ok a => ret a
  | .error e => throw e

variable {B env}

theorem perform_bind (c : Client D L W E ε β α) (f : α → Client D L W E ε β δ) (d : D) (n : ℕ) :
    (c.bind f).perform B env d n = resume B env f (c.perform B env d n) := by
  induction c generalizing d n with
  | ret | throw => rfl
  | query next ih => exact ih _ _ _
  | tx body next ih =>
    rw [bind, perform, perform]
    rcases body.perform B env d [] n with ⟨result, ws, n'⟩
    cases result with
    | error e => exact ih _ _ _
    | ok b =>
      dsimp only
      split_ifs
      · exact ih _ _ _
      · exact ih _ _ _

end Client

/-! ## The steps of the call -/

namespace Calls

variable [DecidableEq L] {S : Calls D L W E ε β α ι} {env : ℕ → E}
  {procs : List (ι × Proc D L W E ε β α)} {i : ι} {log : List (ι × List W)} {d : D}

/-- The data, the idle calls and the call. -/
def beside (procs : List (ι × Proc D L W E ε β α)) (i : ι) (d : D) (p : Proc D L W E ε β α)
    (log : List (ι × List W)) : State D L W E ε β α ι :=
  { db := d, procs := procs ++ [(i, p)], log := log }

variable {p p' : Proc D L W E ε β α} {move : Move E} {committed : Option (List W)}

/-- A move of the last call, where no other call holds a lock. -/
theorem step_last (hidle : ∀ q ∈ procs, q.2.held = [])
    (h : p.next S.database d move = some (p', committed)) :
    S.machine.step (beside procs i d p log) (.next procs.length move) =
      some (beside procs i ((committed.map (S.database.applyAll d)).getD d) p'
        ((committed.map fun ws => log ++ [(i, ws)]).getD log)) := by
  have hfree : free (procs ++ [(i, p)]) procs.length p'.held = true := by
    rw [free_iff]
    intro m q hm hq l _
    have hmem : q ∈ procs := by
      have hlt := (List.getElem?_eq_some_iff.mp hq).1
      rw [List.length_append, List.length_singleton] at hlt
      rw [List.getElem?_append_left (by omega)] at hq
      exact List.mem_of_getElem? hq
    rw [hidle q hmem]
    exact List.not_mem_nil
  have hget : (procs ++ [(i, p)])[procs.length]? = some (i, p) := List.getElem?_concat_length
  have hset : (procs ++ [(i, p)]).set procs.length (i, p') = procs ++ [(i, p')] := by simp
  simp only [beside, machine, hget, h, hfree, hset, if_true]
  cases committed <;> rfl

/-- A path that starts with a move of the last call. -/
theorem path_of_next (hidle : ∀ q ∈ procs, q.2.held = []) {t : State D L W E ε β α ι}
    (h : p.next S.database d move = some (p', committed)) (hrest : S.machine.Path Machine.always
      (beside procs i ((committed.map (S.database.applyAll d)).getD d) p'
        ((committed.map fun ws => log ++ [(i, ws)]).getD log)) t) :
    S.machine.Path Machine.always (beside procs i d p log) t :=
  (Machine.Path.tail .refl trivial (step_last hidle h)).trans hrest

/-- The statements of a transaction. -/
theorem path_tx (hidle : ∀ q ∈ procs, q.2.held = []) (env : ℕ → E) (i : ι) (d : D)
    (log : List (ι × List W)) (tx : Tx D L W E ε β) (next : Except ε β → Client D L W E ε β α)
    (held : List L) (ws : List W) (n : ℕ) :
    ∃ held', S.machine.Path Machine.always (beside procs i d (.inTx held ws tx next) log)
      (beside procs i d (.inTx held' (tx.perform S.database env d ws n).2.1
        (.ended (tx.perform S.database env d ws n).1) next) log) := by
  induction tx generalizing held ws n with
  | ret | throw => exact ⟨held, .refl⟩
  | stmt locks made rest ih =>
    obtain ⟨held', hpath⟩ := ih _ _ (held ++ locks (S.database.applyAll d ws) (env n))
      (ws ++ made (S.database.applyAll d ws) (env n)) (n + 1)
    have hnext : (Proc.inTx held ws (.stmt locks made rest) next).next S.database d
        (.stmt (env n)) = some (.inTx (held ++ locks (S.database.applyAll d ws) (env n))
          (ws ++ made (S.database.applyAll d ws) (env n))
          (rest (S.database.applyAll d ws) (env n)) next, none) := rfl
    exact ⟨held', path_of_next hidle hnext hpath⟩

/-- Where no other call holds a lock, the call can do what it does on its own. -/
theorem path_perform (hidle : ∀ q ∈ procs, q.2.held = []) (env : ℕ → E) (i : ι)
    (c : Client D L W E ε β α) (d : D) (log : List (ι × List W)) (n : ℕ) :
    ∃ log', S.machine.Path Machine.always (beside procs i d (.client c) log)
      (beside procs i (c.perform S.database env d n).2.1
        (.client (.ended (c.perform S.database env d n).1)) log') := by
  induction c generalizing d log n with
  | ret | throw => exact ⟨log, .refl⟩
  | query next ih =>
    obtain ⟨log', hpath⟩ := ih d d log n
    have hnext : (Proc.client (.query next)).next S.database d .query =
        some (.client (next d), none) := rfl
    exact ⟨log', path_of_next hidle hnext hpath⟩
  | tx body next ih =>
    obtain ⟨held, hbody⟩ := path_tx (S := S) hidle env i d log body next [] [] n
    have hbegin : (Proc.client (.tx body next)).next S.database d .begin =
        some (.inTx [] [] body next, none) := rfl
    rw [Client.perform]
    rcases hresult : body.perform S.database env d [] n with ⟨result, ws, n'⟩
    rw [hresult] at hbody
    cases result with
    | error e =>
      obtain ⟨log', hrest⟩ := ih (.error e) d log n'
      have hnext : (Proc.inTx held ws (.ended (.error e)) next).next S.database d .finish =
          some (.client (next (.error e)), none) := rfl
      exact ⟨log', path_of_next hidle hbegin (hbody.trans (path_of_next hidle hnext hrest))⟩
    | ok b =>
      dsimp only
      split_ifs with hdeferred
      · obtain ⟨log', hrest⟩ := ih (.ok b) (S.database.applyAll d ws) (log ++ [(i, ws)]) n'
        have hnext : (Proc.inTx held ws (.ended (.ok b)) next).next S.database d .finish =
            some (.client (next (.ok b)), some ws) := by
          show (if S.database.deferred d ws then _ else _) = _
          rw [if_pos hdeferred]
        exact ⟨log', path_of_next hidle hbegin (hbody.trans (path_of_next hidle hnext hrest))⟩
      · obtain ⟨log', hrest⟩ := ih (.error S.database.fault) d log n'
        have hnext : (Proc.inTx held ws (.ended (.ok b)) next).next S.database d .finish =
            some (.client (next (.error S.database.fault)), none) := by
          show (if S.database.deferred d ws then _ else _) = _
          rw [if_neg hdeferred]
        exact ⟨log', path_of_next hidle hbegin (hbody.trans (path_of_next hidle hnext hrest))⟩

end Calls

end AegisShield.Common
