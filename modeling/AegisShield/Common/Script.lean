import Mathlib

/-!
# Scripts with exceptions

Code that reads and changes a state and may throw. What was done before a throw stays
done, and a handler runs in the state that the throw left.

Results:
* `wp_bind`, `wp_tryCatch`, `wp_andFinally`: the weakest preconditions of sequencing, of a
  handler and of a cleanup.
* `wp_forEach`: the invariant of a loop.
* `Wp.mono`: a postcondition may be weakened.
-/

namespace AegisShield.Common

universe u

/-- A script on states `σ` that throws `ε`. -/
abbrev Script (σ ε α : Type u) := ExceptT ε (StateM σ) α

namespace Script

variable {σ ε α β : Type u}

/-- A script from its effect. -/
def of (f : σ → Except ε α × σ) : Script σ ε α := ExceptT.mk f

/-- A computation that may throw and leaves the state alone. -/
def lift (x : Except ε α) : Script σ ε α := of fun s => (x, s)

/-- The end of a script: what it returned or threw, and the state it left. -/
def run (x : Script σ ε α) (s : σ) : Except ε α × σ := ExceptT.run x s

/-- What must hold of `s` so that the script ends in `post`. -/
def Wp (x : Script σ ε α) (post : Except ε α → σ → Prop) (s : σ) : Prop :=
  post (x.run s).1 (x.run s).2

/-- A postcondition that treats a return by `f` and a throw by `post`. -/
def onReturn (f : α → σ → Prop) (post : Except ε β → σ → Prop) : Except ε α → σ → Prop
  | .ok a => f a
  | .error e => post (.error e)

/-- A postcondition that treats a throw by `f` and a return by `post`. -/
def onThrow (f : ε → σ → Prop) (post : Except ε α → σ → Prop) : Except ε α → σ → Prop
  | .ok a => post (.ok a)
  | .error e => f e

variable {x : Script σ ε α} {f : α → Script σ ε β} {handler : ε → Script σ ε α} {s : σ}
  {post : Except ε α → σ → Prop} {postβ : Except ε β → σ → Prop}

theorem Wp.mono {post' : Except ε α → σ → Prop} (h : Wp x post s)
    (hpost : ∀ r t, post r t → post' r t) : Wp x post' s :=
  hpost _ _ h

variable {a : α} {e : ε}

@[simp] theorem onReturn_ok {g : α → σ → Prop} :
    onReturn g postβ (.ok a) = g a := rfl

@[simp] theorem onReturn_error {g : α → σ → Prop} :
    onReturn g postβ (.error e) = postβ (.error e) := rfl

@[simp] theorem onThrow_ok {g : ε → σ → Prop} :
    onThrow g post (.ok a) = post (.ok a) := rfl

@[simp] theorem onThrow_error {g : ε → σ → Prop} :
    onThrow g post (.error e) = g e := rfl

@[simp] theorem wp_of {g : σ → Except ε α × σ} : Wp (of g) post s ↔ post (g s).1 (g s).2 :=
  Iff.rfl

@[simp] theorem wp_lift {r : Except ε α} : Wp (lift r) post s ↔ post r s := Iff.rfl

@[simp] theorem wp_pure : Wp (pure a : Script σ ε α) post s ↔ post (.ok a) s := Iff.rfl

@[simp] theorem wp_throw : Wp (throw e : Script σ ε α) post s ↔ post (.error e) s :=
  Iff.rfl

@[simp] theorem wp_bind :
    Wp (x >>= f) postβ s ↔ Wp x (onReturn (fun a => Wp (f a) postβ) postβ) s := by
  simp only [Wp, run, bind, ExceptT.bind, ExceptT.run, ExceptT.mk, StateT.bind, ExceptT.bindCont]
  rcases x s with ⟨_ | _, _⟩ <;> rfl

@[simp] theorem wp_tryCatch :
    Wp (tryCatch x handler) post s ↔ Wp x (onThrow (fun e => Wp (handler e) post) post) s := by
  simp only [Wp, run, tryCatch, tryCatchThe, MonadExceptOf.tryCatch, ExceptT.tryCatch,
    ExceptT.run, ExceptT.mk, bind, StateT.bind]
  rcases x s with ⟨_ | _, _⟩ <;> rfl

/-! ## Updates, cleanups and loops -/

/-- An assignment. -/
def update (g : σ → σ) : Script σ ε PUnit := of fun s => (.ok ⟨⟩, g s)

/-- A postcondition that treats a return by `Q` and a throw by `E`. -/
def ends (Q : α → σ → Prop) (E : ε → σ → Prop) : Except ε α → σ → Prop
  | .ok a => Q a
  | .error e => E e

/-- `try { x } finally { cleanup }`: what the cleanup throws hides how `x` ended. -/
def andFinally (x : Script σ ε α) (cleanup : Script σ ε PUnit) : Script σ ε α := of fun s =>
  match cleanup.run (x.run s).2 with
  | (.ok _, t) => ((x.run s).1, t)
  | (.error e, t) => (.error e, t)

/-- `for (const a of as)`. -/
def forEach (body : α → Script σ ε PUnit) : List α → Script σ ε PUnit
  | [] => pure ⟨⟩
  | a :: as => body a >>= fun _ => forEach body as

section Loops

variable {Q : α → σ → Prop} {E : ε → σ → Prop} {cleanup : Script σ ε PUnit}

@[simp] theorem ends_ok {a : α} : ends Q E (.ok a) = Q a := rfl

@[simp] theorem ends_error {e : ε} : ends Q E (.error e : Except ε α) = E e := rfl

@[simp] theorem wp_update {g : σ → σ} {post : Except ε PUnit → σ → Prop} :
    Wp (update g) post s ↔ post (.ok ⟨⟩) (g s) := Iff.rfl

@[simp] theorem wp_andFinally :
    Wp (andFinally x cleanup) post s ↔
      Wp x (fun r => Wp cleanup (ends (fun _ => post r) fun e => post (.error e))) s := by
  simp only [Wp, andFinally, run, of, ExceptT.run, ExceptT.mk]
  rcases cleanup (x s).2 with ⟨_ | _, _⟩ <;> rfl

/-- What the body keeps, of the elements that are left, holds at the end of the loop. -/
theorem wp_forEach {g : α → Script σ ε PUnit} {I : List α → σ → Prop} {l : List α}
    (hbody : ∀ a l s, I (a :: l) s → Wp (g a) (ends (fun _ => I l) E) s) (hs : I l s) :
    Wp (forEach g l) (ends (fun _ => I []) E) s := by
  induction l generalizing s with
  | nil => exact hs
  | cons a l ih =>
    rw [forEach, wp_bind]
    refine (hbody a l s hs).mono fun r t h => ?_
    cases r with
    | ok _ => exact ih h
    | error e => exact h

end Loops

end Script

end AegisShield.Common
