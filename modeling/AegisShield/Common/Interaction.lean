import Mathlib

/-!
# Programs that ask questions

Code that acts on the world only by asking other systems, each of which may answer anything of
its type, and that may throw. The questions asked so far with their answers are the history of
a run. A licence says of a history which questions may be asked next.

Results:
* `wp_bind`, `wp_query`, `Wp.mono`: the rules of sequencing, of one question and of consequence.
* `Wp.asked`, `Wp.returned`: a program that is licensed in all its runs asks only licensed
  questions, also in runs that are cut short, and returns only what its postcondition admits.
* `Relabelling.leads`: a program whose questions are exchanged for others with the same answers
  does in each run what it did before.
-/

namespace AegisShield.Common

/-- A program that asks questions `Q` with answers in `A`, and ends with a result or throws. -/
inductive Interaction {Q : Type} (A : Q → Type) (ε α : Type) where
  | done (result : Except ε α)
  | ask (q : Q) (next : A q → Interaction A ε α)

namespace Interaction

variable {Q : Type} {A : Q → Type} {ε α β : Type}

/-- The questions asked with their answers, the last one at the end. -/
abbrev History (A : Q → Type) := List (Sigma A)

/-- Sequencing: a throw ends the whole program. -/
def bind : Interaction A ε α → (α → Interaction A ε β) → Interaction A ε β
  | done (.ok a), f => f a
  | done (.error e), _ => done (.error e)
  | ask q next, f => ask q fun a => (next a).bind f

instance : Monad (Interaction A ε) where
  pure a := done (.ok a)
  bind := bind

/-- A throw. -/
def raise (e : ε) : Interaction A ε α := done (.error e)

/-- One question. -/
def query (q : Q) : Interaction A ε (A q) := ask q fun a => done (.ok a)

/-- A computation that asks nothing. -/
def lift (r : Except ε α) : Interaction A ε α := done r

/-- `try`: a throw becomes a result. -/
def attempt {ε' : Type} : Interaction A ε α → Interaction A ε' (Except ε α)
  | done r => done (.ok r)
  | ask q next => ask q fun a => (next a).attempt

/-! ## Runs -/

/-- After the questions and answers of a history, `r` is left to run of the program. -/
inductive Leads : Interaction A ε α → History A → Interaction A ε α → Prop
  | refl (p : Interaction A ε α) : Leads p [] p
  | step {q : Q} {next : A q → Interaction A ε α} (a : A q) {t : History A}
      {r : Interaction A ε α} : Leads (next a) t r → Leads (ask q next) (⟨q, a⟩ :: t) r

/-- After a history, the program asks the question. -/
def Asks (p : Interaction A ε α) (t : History A) (q : Q) : Prop := ∃ next, Leads p t (ask q next)

/-- With the history, the program returns or throws. -/
def Ends (p : Interaction A ε α) (t : History A) (r : Except ε α) : Prop := Leads p t (done r)

/-- The run in a world that answers each question from what was asked before. -/
def runIn (world : History A → (q : Q) → A q) :
    History A → Interaction A ε α → History A × Except ε α
  | h, done r => (h, r)
  | h, ask q next => runIn world (h ++ [⟨q, world h q⟩]) (next (world h q))

/-! ## Weakest preconditions -/

variable {R : History A → Q → Prop} {p : Interaction A ε α} {f : α → Interaction A ε β}
  {post : α → History A → Prop} {postβ : β → History A → Prop} {h t : History A} {q : Q}

/-- From the history `h` the program asks only licensed questions, and what it returns meets the
    postcondition; it may throw. -/
def Wp (R : History A → Q → Prop) : Interaction A ε α → (α → History A → Prop) → History A → Prop
  | done (.ok a), post, h => post a h
  | done (.error _), _, _ => True
  | ask q next, post, h => R h q ∧ ∀ a, Wp R (next a) post (h ++ [⟨q, a⟩])

@[simp] theorem wp_pure {a : α} : Wp R (pure a : Interaction A ε α) post h ↔ post a h := Iff.rfl

@[simp] theorem wp_raise {e : ε} : Wp R (raise e : Interaction A ε α) post h ↔ True := Iff.rfl

@[simp] theorem wp_lift {r : Except ε α} :
    Wp R (lift r : Interaction A ε α) post h ↔ ∀ a, r = .ok a → post a h := by
  cases r <;> simp [lift, Wp]

@[simp] theorem wp_query {post : A q → History A → Prop} :
    Wp R (query q : Interaction A ε (A q)) post h ↔ R h q ∧ ∀ a, post a (h ++ [⟨q, a⟩]) := Iff.rfl

@[simp] theorem wp_bind : Wp R (p >>= f) postβ h ↔ Wp R p (fun a => Wp R (f a) postβ) h := by
  show Wp R (p.bind f) postβ h ↔ _
  induction p generalizing h with
  | done r => cases r <;> rfl
  | ask q next ih => exact and_congr_right fun _ => forall_congr' fun a => ih a

theorem Wp.mono {post' : α → History A → Prop} (hp : Wp R p post h)
    (hpost : ∀ a t, post a (h ++ t) → post' a (h ++ t)) : Wp R p post' h := by
  induction p generalizing h with
  | done r =>
    cases r with
    | ok a =>
      have hpost := hpost a []
      rw [List.append_nil] at hpost
      exact hpost hp
    | error e => trivial
  | ask q next ih =>
    refine ⟨hp.1, fun a => ih a (hp.2 a) fun b t ht => ?_⟩
    rw [List.append_assoc] at ht ⊢
    exact hpost b _ ht

/-! ## What licensed programs do -/

theorem Wp.leads {r : Interaction A ε α} (hp : Wp R p post h) (hr : Leads p t r) :
    Wp R r post (h ++ t) := by
  induction hr generalizing h with
  | refl p => simpa using hp
  | step a _ ih => simpa using ih (hp.2 a)

/-- A licensed program asks only licensed questions. -/
theorem Wp.asked (hp : Wp R p post []) (hq : Asks p t q) : R t q := by
  obtain ⟨next, hnext⟩ := hq
  exact (hp.leads hnext).1

/-- What a licensed program returns meets the postcondition. -/
theorem Wp.returned {a : α} (hp : Wp R p post []) (hr : Ends p t (.ok a)) : post a t :=
  hp.leads hr

/-- A question that a run answers was asked after what came before. -/
theorem asks_of_leads {r : Interaction A ε α} {a : A q} {before after : History A}
    (hr : Leads p (before ++ ⟨q, a⟩ :: after) r) : Asks p before q := by
  induction before generalizing p with
  | nil =>
    cases hr with
    | step _ _ => exact ⟨_, .refl _⟩
  | cons x before ih =>
    cases hr with
    | step a' hrest =>
      obtain ⟨next, hnext⟩ := ih hrest
      exact ⟨next, .step a' hnext⟩

/-! ## The runs of composed programs -/

@[simp] theorem asks_done {r : Except ε α} : ¬ Asks (done r : Interaction A ε α) t q := by
  rintro ⟨next, h⟩
  cases h

@[simp] theorem ends_done {r r' : Except ε α} :
    Ends (done r : Interaction A ε α) t r' ↔ t = [] ∧ r' = r := by
  constructor
  · intro h
    cases h
    exact ⟨rfl, rfl⟩
  · rintro ⟨rfl, rfl⟩
    exact .refl _

variable {next : A q → Interaction A ε α} {q' : Q}

theorem asks_ask :
    Asks (ask q next) t q' ↔ t = [] ∧ q' = q ∨ ∃ a t', t = ⟨q, a⟩ :: t' ∧ Asks (next a) t' q' := by
  constructor
  · rintro ⟨next', h⟩
    cases h with
    | refl _ => exact .inl ⟨rfl, rfl⟩
    | step a h => exact .inr ⟨a, _, rfl, next', h⟩
  · rintro (⟨rfl, rfl⟩ | ⟨a, t', rfl, next', h⟩)
    · exact ⟨next, .refl _⟩
    · exact ⟨next', .step a h⟩

theorem ends_ask {r : Except ε α} :
    Ends (ask q next) t r ↔ ∃ a t', t = ⟨q, a⟩ :: t' ∧ Ends (next a) t' r := by
  constructor
  · intro h
    cases h with
    | step a h => exact ⟨a, _, rfl, h⟩
  · rintro ⟨a, t', rfl, h⟩
    exact .step a h

@[simp] theorem asks_pure {a : α} : ¬ Asks (pure a : Interaction A ε α) t q := asks_done

@[simp] theorem ends_pure {a : α} {r : Except ε α} :
    Ends (pure a : Interaction A ε α) t r ↔ t = [] ∧ r = .ok a := ends_done

@[simp] theorem asks_lift {r : Except ε α} : ¬ Asks (lift r : Interaction A ε α) t q := asks_done

@[simp] theorem ends_lift {r r' : Except ε α} :
    Ends (lift r : Interaction A ε α) t r' ↔ t = [] ∧ r' = r := ends_done

theorem query_bind_bind {γ : Type} {f : A q → Interaction A ε β} {g : β → Interaction A ε γ} :
    (query q >>= f) >>= g = query q >>= fun a => f a >>= g := rfl

theorem asks_query_bind {f : A q → Interaction A ε β} :
    Asks (query q >>= f) t q' ↔ t = [] ∧ q' = q ∨ ∃ a t', t = ⟨q, a⟩ :: t' ∧ Asks (f a) t' q' :=
  asks_ask

theorem ends_query_bind {f : A q → Interaction A ε β} {r : Except ε β} :
    Ends (query q >>= f) t r ↔ ∃ a t', t = ⟨q, a⟩ :: t' ∧ Ends (f a) t' r := ends_ask

theorem asks_lift_bind {r : Except ε α} :
    Asks (lift r >>= f) t q ↔ ∃ a, r = .ok a ∧ Asks (f a) t q := by
  cases r with
  | error e =>
    constructor
    · exact fun h => absurd h asks_done
    · rintro ⟨a, ha, -⟩
      cases ha
  | ok a =>
    refine ⟨fun h => ⟨a, rfl, h⟩, ?_⟩
    rintro ⟨a', ha, h⟩
    cases ha
    exact h

theorem ends_lift_bind {r : Except ε α} {r' : Except ε β} :
    Ends (lift r >>= f) t r' ↔
      (∃ e, r = .error e ∧ t = [] ∧ r' = .error e) ∨ ∃ a, r = .ok a ∧ Ends (f a) t r' := by
  cases r with
  | error e =>
    constructor
    · intro h
      obtain ⟨ht, hr⟩ := ends_done.mp h
      exact .inl ⟨e, rfl, ht, hr⟩
    · rintro (⟨e', he, ht, hr⟩ | ⟨a, ha, -⟩)
      · cases he
        exact ends_done.mpr ⟨ht, hr⟩
      · cases ha
  | ok a =>
    refine ⟨fun h => .inr ⟨a, rfl, h⟩, ?_⟩
    rintro (⟨e, he, -⟩ | ⟨a', ha, h⟩)
    · cases he
    · cases ha
      exact h

/-- A sequence asks what its first part asks, and after that part's result what the rest asks. -/
theorem asks_bind : Asks (p >>= f) t q ↔
    Asks p t q ∨ ∃ t₁ a t₂, t = t₁ ++ t₂ ∧ Ends p t₁ (.ok a) ∧ Asks (f a) t₂ q := by
  show Asks (p.bind f) t q ↔ _
  induction p generalizing t with
  | done r =>
    cases r with
    | error e =>
      refine ⟨fun h => absurd h asks_done, ?_⟩
      rintro (h | ⟨_, _, _, _, h, _⟩)
      · exact absurd h asks_done
      · cases (ends_done.mp h).2
    | ok a =>
      constructor
      · exact fun h => .inr ⟨[], a, t, rfl, .refl _, h⟩
      · rintro (h | ⟨t₁, a', t₂, rfl, h, hf⟩)
        · exact absurd h asks_done
        · obtain ⟨rfl, ha⟩ := ends_done.mp h
          cases ha
          exact hf
  | ask q' next ih =>
    show Asks (ask q' fun a => (next a).bind f) t q ↔ _
    simp only [asks_ask, ih, ends_ask]
    constructor
    · rintro (h | ⟨a, t', rfl, h | ⟨t₁, b, t₂, rfl, h, hf⟩⟩)
      · exact .inl (.inl h)
      · exact .inl (.inr ⟨a, t', rfl, h⟩)
      · exact .inr ⟨⟨q', a⟩ :: t₁, b, t₂, rfl, ⟨a, t₁, rfl, h⟩, hf⟩
    · rintro ((h | ⟨a, t', rfl, h⟩) | ⟨_, b, t₂, rfl, ⟨a, t₁, rfl, h⟩, hf⟩)
      · exact .inl h
      · exact .inr ⟨a, t', rfl, .inl h⟩
      · exact .inr ⟨a, t₁ ++ t₂, rfl, .inr ⟨t₁, b, t₂, rfl, h, hf⟩⟩

/-- A sequence throws where its first part does, and else ends as the rest does. -/
theorem ends_bind {r : Except ε β} : Ends (p >>= f) t r ↔
    (∃ e, r = .error e ∧ Ends p t (.error e)) ∨
      ∃ t₁ a t₂, t = t₁ ++ t₂ ∧ Ends p t₁ (.ok a) ∧ Ends (f a) t₂ r := by
  show Ends (p.bind f) t r ↔ _
  induction p generalizing t with
  | done r' =>
    cases r' with
    | error e =>
      constructor
      · intro h
        obtain ⟨rfl, rfl⟩ := ends_done.mp h
        exact .inl ⟨e, rfl, .refl _⟩
      · rintro (⟨e', rfl, h⟩ | ⟨_, _, _, _, h, _⟩)
        · obtain ⟨rfl, he⟩ := ends_done.mp h
          cases he
          exact .refl _
        · cases (ends_done.mp h).2
    | ok a =>
      constructor
      · exact fun h => .inr ⟨[], a, t, rfl, .refl _, h⟩
      · rintro (⟨e, -, h⟩ | ⟨t₁, a', t₂, rfl, h, hf⟩)
        · cases (ends_done.mp h).2
        · obtain ⟨rfl, ha⟩ := ends_done.mp h
          cases ha
          exact hf
  | ask q' next ih =>
    show Ends (ask q' fun a => (next a).bind f) t r ↔ _
    simp only [ends_ask, ih]
    constructor
    · rintro ⟨a, t', rfl, ⟨e, rfl, h⟩ | ⟨t₁, b, t₂, rfl, h, hf⟩⟩
      · exact .inl ⟨e, rfl, a, t', rfl, h⟩
      · exact .inr ⟨⟨q', a⟩ :: t₁, b, t₂, rfl, ⟨a, t₁, rfl, h⟩, hf⟩
    · rintro (⟨e, rfl, a, t', rfl, h⟩ | ⟨_, b, t₂, rfl, ⟨a, t₁, rfl, h⟩, hf⟩)
      · exact ⟨a, t', rfl, .inl ⟨e, rfl, h⟩⟩
      · exact ⟨a, t₁ ++ t₂, rfl, .inr ⟨t₁, b, t₂, rfl, h, hf⟩⟩

section
variable {ε' : Type}

theorem asks_attempt :
    Asks (p.attempt : Interaction A ε' (Except ε α)) t q ↔ Asks p t q := by
  induction p generalizing t with
  | done r => exact iff_of_false asks_done asks_done
  | ask q' next ih => simp only [attempt, asks_ask, ih]

theorem ends_attempt {r : Except ε' (Except ε α)} :
    Ends (p.attempt : Interaction A ε' (Except ε α)) t r ↔ ∃ r', r = .ok r' ∧ Ends p t r' := by
  induction p generalizing t with
  | done r' =>
    simp only [attempt, ends_done]
    constructor
    · rintro ⟨rfl, rfl⟩
      exact ⟨r', rfl, rfl, rfl⟩
    · rintro ⟨_, rfl, rfl, rfl⟩
      exact ⟨rfl, rfl⟩
  | ask q' next ih =>
    simp only [attempt, ends_ask, ih]
    constructor
    · rintro ⟨a, t', rfl, r', rfl, h⟩
      exact ⟨r', rfl, a, t', rfl, h⟩
    · rintro ⟨r', rfl, a, t', rfl, h⟩
      exact ⟨a, t', rfl, r', rfl, h⟩

end

/-! ## Exchanging the questions -/

/-- A question for each question, with answers that correspond. -/
structure Relabelling (A : Q → Type) where
  question : Q → Q
  answers : ∀ q, A q ≃ A (question q)

namespace Relabelling

variable (F : Relabelling A)

/-- The question and answer in place of a question and answer. -/
def entry (x : Sigma A) : Sigma A := ⟨F.question x.1, F.answers x.1 x.2⟩

/-- The program with its questions exchanged. -/
def apply : Interaction A ε α → Interaction A ε α
  | done r => done r
  | ask q next => ask (F.question q) fun a => apply (next ((F.answers q).symm a))

theorem apply_bind (p : Interaction A ε α) (f : α → Interaction A ε β) :
    F.apply (p >>= f) = F.apply p >>= fun a => F.apply (f a) := by
  show F.apply (p.bind f) = (F.apply p).bind _
  induction p with
  | done r => cases r <;> rfl
  | ask q next ih => exact congrArg (ask _) (funext fun a => ih _)

theorem apply_attempt {ε' : Type} (p : Interaction A ε α) :
    F.apply (p.attempt : Interaction A ε' (Except ε α)) = (F.apply p).attempt := by
  induction p with
  | done r => rfl
  | ask q next ih => exact congrArg (ask _) (funext fun a => ih _)

theorem apply_query_bind (f : A q → Interaction A ε β) :
    F.apply (query q >>= f) =
      query (F.question q) >>= fun a => F.apply (f ((F.answers q).symm a)) := rfl

theorem apply_lift_bind (r : Except ε α) :
    F.apply (lift r >>= f) = lift r >>= fun a => F.apply (f a) := by
  cases r <;> rfl

/-- The exchanged program goes through the exchanged histories. -/
theorem leads {r : Interaction A ε α} (h : Leads p t r) :
    Leads (F.apply p) (t.map F.entry) (F.apply r) := by
  induction h with
  | refl p => exact .refl _
  | @step q next a t r _ ih =>
    have hnext : next ((F.answers q).symm (F.answers q a)) = next a := by
      rw [Equiv.symm_apply_apply]
    refine .step (F.answers q a) ?_
    rw [hnext]
    exact ih

end Relabelling

/-! ## Evaluating runs -/

/-- The run in a world is a run. -/
theorem leads_runIn (world : History A → (q : Q) → A q) (p : Interaction A ε α) (h : History A) :
    ∃ t, (runIn world h p).1 = h ++ t ∧ Ends p t (runIn world h p).2 := by
  induction p generalizing h with
  | done r => exact ⟨[], by simp [runIn], .refl _⟩
  | ask q next ih =>
    obtain ⟨t, ht, hends⟩ := ih (world h q) (h ++ [⟨q, world h q⟩])
    refine ⟨⟨q, world h q⟩ :: t, ?_, .step _ hends⟩
    show (runIn world (h ++ [⟨q, world h q⟩]) (next (world h q))).1 = _
    rw [ht, List.append_assoc]
    rfl

end Interaction

end AegisShield.Common
