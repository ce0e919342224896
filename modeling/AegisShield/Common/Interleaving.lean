import AegisShield.Common.Interaction
import AegisShield.Common.Pool

/-!
# Programs that ask questions, interleaved

Any number of programs run against one shared state, which answers each question in a step of
its own and may be changed by it. Between two questions of a program the others may take any
number of steps.

Results:
* `Task.Started`, `tasks_started`: in every reachable state each program has run from its start
  through its own history; what is known of a program by itself holds of it here.
* `tally`: a quantity that each answer raises by the weight of the question and answer is the
  weight of all histories.
* `tally_countP`: a counter of what each program asks for at most once.
-/

namespace AegisShield.Common.Interaction

variable {Q : Type} {A : Q → Type} {ε α S ι κ η : Type}

/-- A program under way: what it was started with, its history, and what is left to run. -/
structure Task (ι : Type) (A : Q → Type) (ε α : Type) where
  input : ι
  past : History A
  rest : Interaction A ε α

/-- How a shared state answers: `κ` is what an answer depends on besides it, and `η` is what
    changes the state between the questions. -/
structure Host (A : Q → Type) (S κ η : Type) where
  init : S → Prop
  answer : S → (q : Q) → κ → Option (S × A q)
  env : S → η → Option S

/-- Whether a command to another system takes effect there, and whether its answer arrives. -/
inductive Link where
  | up
  | down
  | lost
  deriving DecidableEq

def Link.takesEffect : Link → Bool
  | .up | .lost => true
  | .down => false

/-- The answer, if it arrives. -/
def Link.reply {β : Type} (link : Link) (b : β) : Option β :=
  match link with
  | .up => some b
  | .down | .lost => none

/-- The next question of a task is answered. -/
def Task.next (H : Host A S κ η) (s : S) (task : Task ι A ε α) (e : κ) :
    Option (S × Task ι A ε α) :=
  match task.rest with
  | .done _ => none
  | .ask q next => (H.answer s q e).map fun r =>
      (r.1, { task with past := task.past ++ [⟨q, r.2⟩], rest := next r.2 })

/-- The programs `program i`, interleaved. -/
def Host.pool (H : Host A S κ η) (program : ι → Interaction A ε α) :
    Pool S (Task ι A ε α) ι κ η where
  init := H.init
  start _ i := { input := i, past := [], rest := program i }
  next := Task.next H
  env := H.env

variable {H : Host A S κ η} {program : ι → Interaction A ε α} {task task' : Task ι A ε α}
  {s s' : S} {e : κ}

/-- A step of a task appends the question it asks and the answer. -/
theorem Task.next_some (h : Task.next H s task e = some (s', task')) :
    ∃ q next a, task.rest = .ask q next ∧ H.answer s q e = some (s', a) ∧
      task' = { task with past := task.past ++ [⟨q, a⟩], rest := next a } := by
  unfold Task.next at h
  split at h
  · cases h
  next q next hrest =>
    obtain ⟨⟨t, a⟩, ha, hr⟩ := Option.map_eq_some_iff.mp h
    cases hr
    exact ⟨q, next, a, hrest, ha, rfl⟩

theorem Leads.snoc {p : Interaction A ε α} {t : History A} {q : Q}
    {next : A q → Interaction A ε α} (h : Leads p t (.ask q next)) (a : A q) :
    Leads p (t ++ [⟨q, a⟩]) (next a) := by
  generalize hr : ask q next = r at h
  induction h with
  | refl p =>
    subst hr
    exact .step a (.refl _)
  | step b _ ih => exact .step b (ih hr)

/-- The task has run from its start through its history. -/
def Task.Started (program : ι → Interaction A ε α) (task : Task ι A ε α) : Prop :=
  Leads (program task.input) task.past task.rest

theorem Task.Started.next (h : task.Started program)
    (hnext : Task.next H s task e = some (s', task')) : task'.Started program := by
  obtain ⟨q, next, a, hrest, -, rfl⟩ := Task.next_some hnext
  unfold Task.Started at h
  rw [hrest] at h
  exact h.snoc a

theorem Task.started (s : S) (i : ι) : ((H.pool program).start s i).Started program :=
  .refl _

variable {C : Pool.State S (Task ι A ε α) → Pool.Action ι κ η → Prop}
  {s : Pool.State S (Task ι A ε α)} {m : S → ℕ} {w : Sigma A → ℕ}

/-- Each program has run from its start through its own history. -/
theorem tasks_started (h : (H.pool program).machine.Reachable C s) :
    ∀ task ∈ s.calls, task.Started program := by
  have hinvariant := Pool.invariant (G := fun _ => True)
    (A := fun _ task => Task.Started program task) (fun _ _ => trivial)
    (fun s i _ => Task.started s i)
    (fun s n e task s' task' _ htasks _ hn hnext =>
      ⟨trivial, (htasks task (Pool.mem_of_getElem? hn)).next hnext,
        fun m other _ hm => htasks other (Pool.mem_of_getElem? hm)⟩)
    (fun s x s' _ _ _ => ⟨trivial, fun _ => id⟩) h
  exact hinvariant.2

/-! ## Quantities -/

/-- The weight of a history. -/
def weigh (w : Sigma A → ℕ) (past : History A) : ℕ := (past.map w).sum

@[simp] theorem weigh_nil (w : Sigma A → ℕ) : weigh w ([] : History A) = 0 := rfl

@[simp] theorem weigh_append (w : Sigma A → ℕ) (t u : History A) :
    weigh w (t ++ u) = weigh w t + weigh w u := by
  simp [weigh]

@[simp] theorem weigh_singleton (w : Sigma A → ℕ) (x : Sigma A) : weigh w [x] = w x := by
  simp [weigh]

/-- What each answer raises by its weight, and nothing else changes, is the weight of all
    histories. -/
theorem tally (hinit : ∀ s, H.init s → m s = 0)
    (hanswer : ∀ s q e s' a, H.answer s q e = some (s', a) → m s' = m s + w ⟨q, a⟩)
    (henv : ∀ s x s', H.env s x = some s' → m s' = m s)
    (h : (H.pool program).machine.Reachable C s) :
    m s.shared = (s.calls.map fun task => weigh w task.past).sum := by
  refine Machine.invariant
    (I := fun s => m s.shared = (s.calls.map fun task => weigh w task.past).sum) ?_ ?_ h
  · rintro s ⟨hs, hcalls⟩
    rw [hinit _ hs, hcalls]
    rfl
  · intro s a t hs _ hstep
    cases a with
    | start i =>
      cases Pool.step_start hstep
      simpa [Host.pool] using hs
    | next n e =>
      obtain ⟨task, s', task', hn, hnext, rfl⟩ := Pool.step_next hstep
      obtain ⟨q, next, a, -, ha, rfl⟩ := Task.next_some hnext
      have hsum := Pool.sum_next (f := fun task : Task ι A ε α => weigh w task.past)
        { task with past := task.past ++ [⟨q, a⟩], rest := next a } hn
      have hraise := hanswer _ _ _ _ _ ha
      simp only [weigh_append, weigh_singleton] at hsum
      show m s' = ((s.calls.set n _).map fun task => weigh w task.past).sum
      omega
    | env x =>
      obtain ⟨s', hs', rfl⟩ := Pool.step_env hstep
      exact (henv _ _ _ hs').trans hs

theorem countP_eq_sum {P : Type} (f : P → Bool) (calls : List P) :
    calls.countP f = (calls.map fun p => (f p).toNat).sum := by
  induction calls with
  | nil => rfl
  | cons p calls ih =>
    rw [List.countP_cons, ih, List.map_cons, List.sum_cons]
    cases f p <;> simp [Nat.add_comm]

/-- A counter of the tasks in which something has been asked, when each task asks for it at most
    once. -/
theorem tally_countP {f : Task ι A ε α → Bool} (hinit : ∀ s, H.init s → m s = 0)
    (hanswer : ∀ s q e s' a, H.answer s q e = some (s', a) → m s' = m s + w ⟨q, a⟩)
    (henv : ∀ s x s', H.env s x = some s' → m s' = m s)
    (hweigh : ∀ task : Task ι A ε α, task.Started program → weigh w task.past = (f task).toNat)
    (h : (H.pool program).machine.Reachable C s) : m s.shared = s.calls.countP f := by
  rw [tally hinit hanswer henv h, countP_eq_sum]
  congr 1
  exact List.map_congr_left fun task htask => hweigh task (tasks_started h task htask)

end AegisShield.Common.Interaction
