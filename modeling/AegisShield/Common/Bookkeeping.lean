import AegisShield.Common.Machine

/-!
# Double-entry books

Accounts with a currency and a normal side, and movements between them: signed amounts, debits
positive, that add up to nothing. Opening an account and booking a movement are the steps of a
transition system; a movement is admitted if it stays within one currency and leaves no account
overdrawn that may not be.

Results:
* `AccountBooks.sound_of_reachable`: in all books that the system reaches, each currency adds up to
  nothing, and no account is overdrawn that may not be.
* `AccountBooks.balance_of_run`: the balances change by the sum of the movements.
-/

namespace AegisShield.Common

variable {α κ : Type*}

/-! ## AccountBooks -/

/-- The terms on which an account is opened. -/
structure AccountTerms (κ : Type*) where
  currency : κ
  /-- Whether the balance is the debits less the credits, or the other way round. -/
  debitNormal : Bool
  /-- Whether the balance may be negative. -/
  overdraft : Bool
  deriving DecidableEq

/-- The balance of an account with the given debits less credits. -/
def AccountTerms.signed (terms : AccountTerms κ) (net : ℤ) : ℤ :=
  if terms.debitNormal then net else -net

/-- The terms allow the debits less credits. -/
def AccountTerms.Covers (terms : AccountTerms κ) (net : ℤ) : Prop :=
  terms.overdraft = false → 0 ≤ terms.signed net

theorem AccountTerms.covers_zero (terms : AccountTerms κ) : terms.Covers 0 := by
  intro _
  unfold AccountTerms.signed
  split_ifs <;> simp

/-- The accounts with their terms, and the debits less credits of each. -/
@[ext]
structure AccountBooks (α κ : Type*) where
  terms : α → Option (AccountTerms κ)
  balance : α →₀ ℤ

/-- What is entered in the books. -/
inductive BookEntry (α κ : Type*) where
  | openAccount (account : α) (terms : AccountTerms κ)
  | move (amounts : α →₀ ℤ)

/-- What an entry moves. -/
noncomputable def BookEntry.amounts : BookEntry α κ → α →₀ ℤ
  | openAccount _ _ => 0
  | move amounts => amounts

namespace AccountBooks

/-- Books without accounts. -/
noncomputable def empty : AccountBooks α κ where
  terms _ := none
  balance := 0

/-- The currency of an account. -/
def currency (b : AccountBooks α κ) (account : α) : Option κ :=
  (b.terms account).map AccountTerms.currency

/-- The debits less credits of all accounts of a currency. -/
noncomputable def holdings [DecidableEq κ] (b : AccountBooks α κ) (c : κ) : ℤ :=
  b.balance.sum fun account net => if b.currency account = some c then net else 0

/-- A movement that adds up to nothing, within one currency, that every account it touches can
    bear. -/
structure Admits (b : AccountBooks α κ) (amounts : α →₀ ℤ) : Prop where
  balanced : (amounts.sum fun _ amount => amount) = 0
  currency : ∃ c, ∀ account ∈ amounts.support, b.currency account = some c
  covered : ∀ account ∈ amounts.support, ∀ terms, b.terms account = some terms →
    terms.Covers ((b.balance + amounts) account)

/-- The entries that may be made. -/
def Legal (b : AccountBooks α κ) : BookEntry α κ → Prop
  | .openAccount account _ => b.terms account = none
  | .move amounts => b.Admits amounts

open Classical in
/-- The books after an entry. -/
noncomputable def record (b : AccountBooks α κ) : BookEntry α κ → AccountBooks α κ
  | .openAccount account terms =>
    { b with terms := fun other => if other = account then some terms else b.terms other }
  | .move amounts => { b with balance := b.balance + amounts }

open Classical in
/-- Legal entries, one after the other. -/
noncomputable def machine : Machine (AccountBooks α κ) (BookEntry α κ) where
  init b := b = empty
  step b entry := if b.Legal entry then some (b.record entry) else none

variable {b b' : AccountBooks α κ} {entry : BookEntry α κ} {amounts : α →₀ ℤ}
  {C : AccountBooks α κ → BookEntry α κ → Prop}

theorem step_eq_some : machine.step b entry = some b' ↔ b.Legal entry ∧ b.record entry = b' := by
  simp only [machine, Option.ite_none_right_eq_some, Option.some.injEq]

section OpenAccount

variable {account other : α} {terms : AccountTerms κ}

theorem terms_openAccount_self :
    (b.record (.openAccount account terms)).terms account = some terms := if_pos rfl

theorem terms_openAccount_of_ne (h : other ≠ account) :
    (b.record (.openAccount account terms)).terms other = b.terms other := if_neg h

end OpenAccount

/-- An entry adds what it moves. -/
theorem balance_record (b : AccountBooks α κ) (entry : BookEntry α κ) :
    (b.record entry).balance = b.balance + entry.amounts := by
  cases entry with
  | openAccount account terms => exact (add_zero b.balance).symm
  | move amounts => rfl

/-- The balances after a run are those before and the sum of the movements. -/
theorem balance_of_run {entries : List (BookEntry α κ)} (h : machine.run b entries = some b') :
    b'.balance = b.balance + (entries.map BookEntry.amounts).sum := by
  induction entries generalizing b with
  | nil =>
    cases h
    simp
  | cons entry entries ih =>
    obtain ⟨b₁, hstep, hrun⟩ := Option.bind_eq_some_iff.mp h
    obtain ⟨-, rfl⟩ := step_eq_some.mp hstep
    rw [ih hrun, balance_record, List.map_cons, List.sum_cons, add_assoc]

/-! ## What legal entries keep -/

/-- Sound books: only open accounts have a balance, none is overdrawn that may not be, and each
    currency adds up to nothing. -/
structure Sound (b : AccountBooks α κ) : Prop where
  opened : ∀ account, b.terms account = none → b.balance account = 0
  covered : ∀ account terms, b.terms account = some terms → terms.Covers (b.balance account)
  conserved : ∀ [DecidableEq κ] (c : κ), b.holdings c = 0

theorem sound_empty : Sound (empty : AccountBooks α κ) where
  opened _ _ := rfl
  covered _ _ h := by cases h
  conserved _ := by simp [holdings, empty]

/-- A new account has no balance. -/
theorem Sound.openAccount (hb : b.Sound) {account : α} {terms : AccountTerms κ}
    (hnew : b.terms account = none) : (b.record (.openAccount account terms)).Sound := by
  have hzero : b.balance account = 0 := hb.opened account hnew
  refine ⟨fun other hother => ?_, fun other found hfound => ?_, fun c => ?_⟩
  · by_cases hne : other = account
    · exact hne ▸ hzero
    · exact hb.opened other ((terms_openAccount_of_ne hne).symm.trans hother)
  · show found.Covers (b.balance other)
    by_cases hne : other = account
    · rw [hne, hzero]
      exact found.covers_zero
    · exact hb.covered other found ((terms_openAccount_of_ne hne).symm.trans hfound)
  · refine Eq.trans ?_ (hb.conserved c)
    refine Finsupp.sum_congr fun other hother => ?_
    -- the new account is not among those with a balance
    have hne : other ≠ account := by
      rintro rfl
      exact Finsupp.mem_support_iff.mp hother hzero
    have hsame : (b.record (.openAccount account terms)).currency other = b.currency other :=
      congrArg (Option.map AccountTerms.currency) (terms_openAccount_of_ne hne)
    exact congrArg (fun found => if found = some c then b.balance other else 0) hsame

/-- What a movement within one currency does to the holdings of each. -/
theorem Admits.holdings (h : b.Admits amounts) [DecidableEq κ] (c : κ) :
    (b.record (.move amounts)).holdings c = b.holdings c := by
  obtain ⟨c₀, hc₀⟩ := h.currency
  have hadd : (b.record (.move amounts)).holdings c = b.holdings c +
      amounts.sum fun account net => if b.currency account = some c then net else 0 := by
    refine Finsupp.sum_add_index' (fun _ => by split_ifs <;> rfl) fun account x y => ?_
    by_cases hc : (b.record (.move amounts)).currency account = some c
    · rw [if_pos hc, if_pos hc, if_pos hc]
    · rw [if_neg hc, if_neg hc, if_neg hc, add_zero]
  have hmoved : (amounts.sum fun account net => if b.currency account = some c then net else 0) =
      if c₀ = c then amounts.sum fun _ net => net else 0 := by
    by_cases hc : c₀ = c
    · rw [if_pos hc]
      refine Finsupp.sum_congr fun account haccount => ?_
      rw [if_pos (hc ▸ hc₀ account haccount)]
    · rw [if_neg hc]
      refine Finset.sum_eq_zero fun account haccount => if_neg fun heq => hc ?_
      exact Option.some.inj ((hc₀ account haccount).symm.trans heq)
  rw [hadd, hmoved, h.balanced, ite_self, add_zero]

theorem Sound.move (hb : b.Sound) (h : b.Admits amounts) :
    (b.record (.move amounts)).Sound := by
  have hmiss : ∀ account, account ∉ amounts.support →
      (b.balance + amounts) account = b.balance account := by
    intro account haccount
    rw [Finsupp.add_apply, Finsupp.notMem_support_iff.mp haccount, add_zero]
  refine ⟨fun account hnone => ?_, fun account terms hterms => ?_, fun c => ?_⟩
  · have hout : account ∉ amounts.support := by
      intro haccount
      obtain ⟨c, hc⟩ := h.currency
      have hsome := hc account haccount
      rw [AccountBooks.currency, show b.terms account = none from hnone] at hsome
      cases hsome
    exact (hmiss account hout).trans (hb.opened account hnone)
  · by_cases haccount : account ∈ amounts.support
    · exact h.covered account haccount terms hterms
    · show terms.Covers ((b.balance + amounts) account)
      rw [hmiss account haccount]
      exact hb.covered account terms hterms
  · rw [h.holdings]
    exact hb.conserved c

theorem Sound.record (hb : b.Sound) (h : b.Legal entry) : (b.record entry).Sound := by
  cases entry with
  | openAccount account terms => exact hb.openAccount h
  | move amounts => exact hb.move h

/-- The books that legal entries lead to are sound. -/
theorem sound_of_reachable (h : machine.Reachable C b) : b.Sound := by
  refine Machine.invariant (I := Sound) ?_ ?_ h
  · rintro b rfl
    exact sound_empty
  · intro b entry b' hb _ hstep
    obtain ⟨hlegal, rfl⟩ := step_eq_some.mp hstep
    exact hb.record hlegal

end AccountBooks

end AegisShield.Common
