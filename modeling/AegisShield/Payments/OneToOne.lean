import AegisShield.Payments.IntentSteps

/-!
# One transfer for an intent

Results:
* `one_to_one`: in every reachable state, intents and transfers are linked one to one; a
  confirm with the used key of another intent is refused and changes nothing, and a repeated
  one returns the same transfer.
* `unauthorized_first`: with an intent that is not authorized, that refusal is not
  IDEMPOTENCY_CONFLICT.
-/

namespace AegisShield.Payments

open Common

/-! ## Statement -/

/-- The transfer says what its intent says. -/
structure TransferRow.Copies (row : TransferRow) (intent : TransferIntentRow) : Prop where
  sender : row.senderCustomerId = intent.senderCustomerId
  source : row.senderAccountId = intent.sourceAccountId
  recipient : row.recipientCustomerId = intent.recipientCustomerId
  recipientAccount : row.recipientAccountId = intent.recipientAccountId
  reference : row.recipientPublicReference = intent.recipientPublicReference
  currency : row.currency = intent.currency
  amount : row.amountMinor = intent.amountMinor

/-- Each transfer is of one intent and one key of its sender, and says what its intent says;
    the consumed intents are those with a transfer. -/
structure Linked (s : IntentShared) : Prop where
  once : ∀ row ∈ s.transfers.rows, ∀ row' ∈ s.transfers.rows,
    row.intentId = row'.intentId → row = row'
  key : ∀ row ∈ s.transfers.rows, ∀ row' ∈ s.transfers.rows,
    row.senderCustomerId = row'.senderCustomerId →
      row.idempotencyKeyHash = row'.idempotencyKeyHash → row = row'
  copies : ∀ row ∈ s.transfers.rows, ∃ intent ∈ s.intents.rows,
    intent.id = row.intentId ∧ row.Copies intent
  consumed : ∀ intent ∈ s.intents.rows,
    intent.consumedAt.isSome ↔ ∃ row ∈ s.transfers.rows, row.intentId = intent.id

/-- The text that `confirm` hashes. -/
def requestText (senderCustomerId : String) (intent : TransferIntentRow) : String :=
  canonicalText [
    ("amountMinor", toString intent.amountMinor), ("currency", intent.currency),
    ("intentId", intent.id), ("recipientAccountId", intent.recipientAccountId),
    ("senderCustomerId", senderCustomerId), ("sourceAccountId", intent.sourceAccountId)]

/-- The statements of a confirm up to the lookup of its key that are left. -/
def IntentCall.left : IntentCall → ℕ
  | .confirming _ => 2
  | .replaying _ _ => 1
  | _ => 0

section Statement

variable (runtime : Runtime) (limits : PaymentsLimits)

/-- SHA-256 has no collision among the texts of the intents. -/
def CollisionFree (s : IntentShared) : Prop :=
  ∀ intent ∈ s.intents.rows, ∀ intent' ∈ s.intents.rows,
    runtime.sha256 (requestText intent.senderCustomerId intent) =
      runtime.sha256 (requestText intent'.senderCustomerId intent') →
    requestText intent.senderCustomerId intent = requestText intent'.senderCustomerId intent'

/-- The confirm changes nothing but the clock and, if nothing fails it, ends with its next
    statements, as `final` says. -/
structure EndsWith (s : IntentShared) (c : Confirmation) (final : IntentCall → Prop)
    (call : IntentCall) : Prop where
  phase : call = .confirming c ∨ (∃ requestHash, call = .replaying c requestHash) ∨ final call ∨
    call = .thrown .other
  quiet : ∀ x s' call', intentNext runtime limits s call x = some (s', call') → s' = s.after x
  runs : ∀ e, call.left ≠ 0 → ∃ call',
    intentNext runtime limits s call (.run e) = some (s.after (.run e), call') ∧
      call'.left < call.left ∧ call' ≠ .thrown .other

/-- The guarantees about intents and transfers, along every run. -/
structure OneToOne : Prop where
  linked : ∀ p : IntentState, (intentService runtime limits).machine.Reachable Machine.always p →
    Linked p.shared
  /-- With a used key and another intent. -/
  conflict : ∀ (p q : IntentState) (n : ℕ) (c : Confirmation) (used : TransferRow)
      (intent : TransferIntentRow),
    (intentService runtime limits).machine.Reachable Machine.always p →
    (intentService runtime limits).machine.Path Machine.always p q →
    CollisionFree runtime p.shared → p.calls[n]? = some (.confirming c) →
    findTransfer runtime p.shared c = some used →
    findIntent runtime p.shared c.senderCustomerId c.intentToken = some intent →
    intent.id ≠ used.intentId →
    ∃ call, q.calls[n]? = some call ∧ EndsWith runtime limits q.shared c (fun call =>
      call = .thrown (.payments (paymentError "IDEMPOTENCY_CONFLICT")) ∨
      (intent.authorizedAt = none ∧
        call = .thrown (.payments (paymentError "AUTHORIZATION_FAILED")))) call
  /-- After a confirm that has returned `row`. -/
  repeated : ∀ (p q : IntentState) (m n : ℕ) (c : Confirmation) (row : TransferRow)
      (correlationId : String),
    (intentService runtime limits).machine.Reachable Machine.always p →
    (intentService runtime limits).machine.Path Machine.always p q →
    p.calls[m]? = some (.confirmed c row) → p.calls[n]? = some (.confirming { c with correlationId }) →
    ∃ call, q.calls[n]? = some call ∧
      EndsWith runtime limits q.shared { c with correlationId } (fun call =>
        ∃ row', call = .confirmed { c with correlationId } row' ∧ row'.id = row.id) call

end Statement

/-! ## The invariant -/

section Invariant

variable (runtime : Runtime) {limits : PaymentsLimits}

/-- What the tables keep. -/
structure OneInv (s : IntentShared) : Prop where
  token : ∀ id id' intent intent', s.intents.find id = some intent →
    s.intents.find id' = some intent' → intent.tokenHash = intent'.tokenHash → id = id'
  once : ∀ id id' row row', s.transfers.find id = some row → s.transfers.find id' = some row' →
    row.intentId = row'.intentId → id = id'
  key : ∀ id id' row row', s.transfers.find id = some row → s.transfers.find id' = some row' →
    row.senderCustomerId = row'.senderCustomerId →
      row.idempotencyKeyHash = row'.idempotencyKeyHash → id = id'
  origin : ∀ id row, s.transfers.find id = some row → ∃ intent,
    s.intents.find row.intentId = some intent ∧ intent.consumedAt.isSome ∧ row.Copies intent ∧
      row.requestHash = confirmHash runtime row.senderCustomerId intent
  consumed : ∀ id intent, s.intents.find id = some intent → intent.consumedAt.isSome →
    ∃ k row, s.transfers.find k = some row ∧ row.intentId = id

/-- The intent is the one of the confirm, as some statement has read it. -/
structure ReadFor (s : IntentShared) (c : Confirmation) (intent : TransferIntentRow) : Prop where
  found : ∃ current, s.intents.find intent.id = some current ∧ current.terms = intent.terms ∧
    (intent.authorizedAt.isSome → current.authorizedAt.isSome)
  token : intent.tokenHash = runtime.sha256 c.intentToken
  sender : intent.senderCustomerId = c.senderCustomerId

/-- It was authorized, and its request has the hash. -/
def Preflighted (s : IntentShared) (c : Confirmation) (requestHash : String) : Prop :=
  ∃ intent, ReadFor runtime s c intent ∧ intent.authorizedAt.isSome ∧
    requestHash = confirmHash runtime c.senderCustomerId intent

/-- The transfer is the one of the confirm. -/
def Returned (s : IntentShared) (c : Confirmation) (row : TransferRow) : Prop :=
  ∃ current, s.transfers.find row.id = some current ∧
    current.senderCustomerId = c.senderCustomerId ∧
    current.idempotencyKeyHash = runtime.sha256 c.idempotencyKey ∧
    Preflighted runtime s c current.requestHash

/-- What a call knows. -/
def OneCall (s : IntentShared) : IntentCall → Prop
  | .replaying c requestHash => Preflighted runtime s c requestHash
  | .enforcing c | .beginning c => ∃ requestHash, Preflighted runtime s c requestHash
  | .dating c intent | .waiting c intent _ | .inTx c intent _ _ =>
      (∃ requestHash, Preflighted runtime s c requestHash) ∧ ReadFor runtime s c intent
  | .settling c row | .awaiting c row | .answered c row _ | .confirmed c row =>
      Returned runtime s c row
  | _ => True

variable {runtime} {s s' : IntentShared} {call call' other : IntentCall} {x : IntentInput}
  {c : Confirmation} {intent intent' : TransferIntentRow} {row : TransferRow} {requestHash : String}

variable {senderCustomerId token id : String} {p : IntentState}

theorem confirmHash_congr (h : intent.terms = intent'.terms) :
    confirmHash runtime senderCustomerId intent = confirmHash runtime senderCustomerId intent' := calc
  confirmHash runtime senderCustomerId intent =
      confirmHash runtime senderCustomerId intent.terms := rfl
  _ = confirmHash runtime senderCustomerId intent'.terms := by rw [h]
  _ = confirmHash runtime senderCustomerId intent' := rfl

theorem TransferRow.Copies.congr {row' : TransferRow} (h : row.Copies intent)
    (hdata : row'.data = row.data) (hterms : intent'.terms = intent.terms) :
    row'.Copies intent' := by
  simp only [TransferRow.data, TransferIntentRow.terms, Prod.mk.injEq, NewTransfer.mk.injEq,
    TransferIntentRow.mk.injEq] at hdata hterms
  constructor <;> grind [TransferRow.Copies]

theorem copies_create {e : IntentEnv} {now : ℕ} (h : intent.senderCustomerId = c.senderCustomerId) :
    (TransferRow.create (newTransfer runtime c intent e) now).Copies intent :=
  ⟨h.symm, rfl, rfl, rfl, rfl, rfl, rfl⟩

theorem findIntent_some (h : findIntent runtime s senderCustomerId token = some intent) :
    s.intents.find intent.id = some intent ∧ intent.tokenHash = runtime.sha256 token ∧
      intent.senderCustomerId = senderCustomerId := by
  have hmatch := List.find?_some h
  simp only [Bool.and_eq_true, decide_eq_true_eq] at hmatch
  exact ⟨Table.find_of_mem (List.mem_of_find?_eq_some h), hmatch⟩

theorem findTransfer_some (h : findTransfer runtime s c = some row) :
    s.transfers.find row.id = some row ∧ row.senderCustomerId = c.senderCustomerId ∧
      row.idempotencyKeyHash = runtime.sha256 c.idempotencyKey := by
  have hmatch := List.find?_some h
  simp only [Bool.and_eq_true, decide_eq_true_eq] at hmatch
  exact ⟨Table.find_of_mem (List.mem_of_find?_eq_some h), hmatch⟩

theorem ReadFor.of_find (h : findIntent runtime s c.senderCustomerId c.intentToken = some intent) :
    ReadFor runtime s c intent := by
  obtain ⟨hfind, htoken, hsender⟩ := findIntent_some h
  exact ⟨⟨intent, hfind, rfl, fun h => h⟩, htoken, hsender⟩

/-- A token names one intent. -/
theorem ReadFor.unique (hinv : OneInv runtime s) (h : ReadFor runtime s c intent)
    (h' : ReadFor runtime s c intent') : intent.id = intent'.id ∧ intent.terms = intent'.terms := by
  obtain ⟨current, hfind, hterms, -⟩ := h.found
  obtain ⟨current', hfind', hterms', -⟩ := h'.found
  have htoken : current.tokenHash = current'.tokenHash := calc
    current.tokenHash = current.terms.tokenHash := rfl
    _ = intent.tokenHash := by rw [hterms]; rfl
    _ = intent'.tokenHash := h.token.trans h'.token.symm
    _ = current'.terms.tokenHash := by rw [hterms']; rfl
  have hid := hinv.token _ _ _ _ hfind hfind' htoken
  rw [hid] at hfind
  cases hfind.symm.trans hfind'
  exact ⟨hid, hterms.symm.trans hterms'⟩

/-! ## One step -/

section Step

variable (htables : TablesMove runtime limits s s' call call')
include htables

theorem ReadFor.move (h : ReadFor runtime s c intent) : ReadFor runtime s' c intent := by
  obtain ⟨current, hfind, hterms, hauthorized⟩ := h.found
  obtain ⟨current', hfind', hterms', hauthorized', -⟩ := htables.keeps_intent hfind
  exact ⟨⟨current', hfind', hterms'.trans hterms, fun h => hauthorized' (hauthorized h)⟩, h.token,
    h.sender⟩

theorem Preflighted.move (h : Preflighted runtime s c requestHash) :
    Preflighted runtime s' c requestHash := by
  obtain ⟨intent, hread, hauthorized, hhash⟩ := h
  exact ⟨intent, hread.move htables, hauthorized, hhash⟩

theorem Returned.move (h : Returned runtime s c row) : Returned runtime s' c row := by
  obtain ⟨current, hfind, hsender, hkey, hpreflighted⟩ := h
  obtain ⟨current', hfind', hdata⟩ := htables.keeps_transfer hfind
  simp only [TransferRow.data, Prod.mk.injEq, NewTransfer.mk.injEq] at hdata
  obtain ⟨⟨-, -, hsender', -, -, -, -, -, -, hkey', hhash', -, -⟩, -⟩ := hdata
  refine ⟨current', hfind', hsender'.trans hsender, hkey'.trans hkey, ?_⟩
  rw [hhash']
  exact hpreflighted.move htables

/-- A step leaves what another call knows true. -/
theorem OneCall.move (h : OneCall runtime s other) : OneCall runtime s' other := by
  cases other with
  | replaying | settling | awaiting | answered | confirmed => exact h.move htables
  | enforcing | beginning => exact h.imp fun _ h => h.move htables
  | dating | waiting | inTx => exact ⟨h.1.imp fun _ h => h.move htables, h.2.move htables⟩
  | _ => trivial

/-- A token still names one intent. -/
theorem token_move (hinv : OneInv runtime s) (id id' : String)
    (intent intent' : TransferIntentRow) (h : s'.intents.find id = some intent)
    (h' : s'.intents.find id' = some intent') (hsame : intent.tokenHash = intent'.tokenHash) :
    id = id' := by
  rcases htables.intent_of h with ⟨old, hold, hterms, -⟩ | ⟨-, -, -, -, -, hfresh, hfinds⟩
  · have htoken : intent.tokenHash = old.tokenHash := congrArg (·.tokenHash) hterms
    rcases htables.intent_of h' with ⟨old', hold', hterms', -⟩ | ⟨-, -, -, -, -, hfresh, -⟩
    · have htoken' : intent'.tokenHash = old'.tokenHash := congrArg (·.tokenHash) hterms'
      exact hinv.token _ _ _ _ hold hold' (htoken.symm.trans (hsame.trans htoken'))
    · exact absurd (htoken.symm.trans hsame) (hfresh old (Table.find_some hold).1)
  · by_contra hne
    rw [hfinds id' hne] at h'
    exact hfresh intent' (Table.find_some h').1 hsame.symm

/-- A transfer of the step shares nothing unique with the others. -/
theorem unique_move {f : TransferRow → α} (hf : ∀ row row' : TransferRow, row.data = row'.data →
      f row = f row')
    (hnew : ∀ {k : String} {row : TransferRow} {new : NewTransfer} {now : ℕ}
      {transfers : Table TransferRow}, createTransfer s.transfers new now = some transfers →
        s.transfers.find k = some row → f row ≠ f (TransferRow.create new now))
    (hinv : ∀ id id' row row', s.transfers.find id = some row → s.transfers.find id' = some row' →
      f row = f row' → id = id')
    (id id' : String) (row row' : TransferRow) (h : s'.transfers.find id = some row)
    (h' : s'.transfers.find id' = some row') (hsame : f row = f row') : id = id' := by
  rcases htables.transfer_of h with ⟨old, hold, hdata⟩ |
    ⟨c, intent, current, lockedAt, windowAt, e, rfl, hcreate, -, -, rfl, rfl⟩
  · rcases htables.transfer_of h' with ⟨old', hold', hdata'⟩ |
      ⟨c, intent, current, lockedAt, windowAt, e, rfl, hcreate, -, -, rfl, rfl⟩
    · exact hinv _ _ _ _ hold hold' ((hf _ _ hdata).symm.trans (hsame.trans (hf _ _ hdata')))
    · exact absurd ((hf _ _ hdata).symm.trans hsame) (hnew hcreate hold)
  · by_contra hne
    have hold := ((createTransfer_some hcreate).2 id').symm.trans h'
    rw [if_neg (show ¬(newTransfer runtime c intent e).id = id' from hne)] at hold
    exact hnew hcreate hold hsame.symm

/-- The transfers still say what their intents say. -/
theorem origin_move (hinv : OneInv runtime s) (hknown : OneCall runtime s call) (id : String)
    (row : TransferRow) (h : s'.transfers.find id = some row) :
    ∃ intent, s'.intents.find row.intentId = some intent ∧ intent.consumedAt.isSome ∧
      row.Copies intent ∧ row.requestHash = confirmHash runtime row.senderCustomerId intent := by
  rcases htables.transfer_of h with ⟨old, hold, hdata⟩ |
    ⟨c, read, current, lockedAt, windowAt, e, rfl, -, hcurrent, hintents, rfl, -⟩
  · obtain ⟨intent, hfind, hconsumed, hcopies, hhash⟩ := hinv.origin id old hold
    obtain ⟨intent', hfind', hterms, -, hconsumed'⟩ := htables.keeps_intent hfind
    have hintent : row.intentId = old.intentId := congrArg (·.1.intentId) hdata
    have hsender : row.senderCustomerId = old.senderCustomerId :=
      congrArg (·.1.senderCustomerId) hdata
    have hrequest : row.requestHash = old.requestHash := congrArg (·.1.requestHash) hdata
    refine ⟨intent', hintent ▸ hfind', hconsumed' hconsumed, hcopies.congr hdata hterms, ?_⟩
    rw [hrequest, hsender, hhash, confirmHash_congr hterms]
  · obtain ⟨-, hread⟩ := hknown
    obtain ⟨current', hcurrent', hterms, -⟩ := hread.found
    cases hcurrent.symm.trans hcurrent'
    refine ⟨{ current with consumedAt := some e.now }, ?_, rfl, ?_, ?_⟩
    · rw [hintents]
      exact Table.find_put_of_find (x := current) rfl hcurrent
    · exact (copies_create hread.sender).congr rfl hterms
    · exact confirmHash_congr hterms.symm

/-- A step keeps the invariant. -/
theorem oneInv_move (hinv : OneInv runtime s) (hknown : OneCall runtime s call) :
    OneInv runtime s' := by
  refine ⟨token_move htables hinv, ?_, ?_, origin_move htables hinv hknown, ?_⟩
  · refine unique_move htables (f := TransferRow.intentId) (fun row row' h => ?_) ?_ hinv.once
    · exact congrArg (·.1.intentId) h
    · intro k row new now transfers hcreate hfind
      exact (createTransfer_fresh hcreate hfind).1
  · intro id id' row row' h h' hsender hkey
    refine unique_move htables (f := fun row => (row.senderCustomerId, row.idempotencyKeyHash))
      (fun row row' h => ?_) ?_ ?_ id id' row row' h h' (Prod.ext hsender hkey)
    · exact congrArg (fun data => (data.1.senderCustomerId, data.1.idempotencyKeyHash)) h
    · intro k row new now transfers hcreate hfind hsame
      exact (createTransfer_fresh hcreate hfind).2 (Prod.mk.injEq _ _ _ _ ▸ hsame)
    · intro id id' row row' h h' hsame
      exact hinv.key id id' row row' h h' (congrArg Prod.fst hsame) (congrArg Prod.snd hsame)
  · intro id intent hfind hconsumed
    rcases htables.intent_of hfind with ⟨old, hold, -, horigin⟩ |
      ⟨request, preview, e, -, rfl, -, -⟩
    · rcases horigin hconsumed with hbefore | hcreated
      · obtain ⟨k, row, hrow, hintent⟩ := hinv.consumed id old hold hbefore
        obtain ⟨row', hrow', hdata⟩ := htables.keeps_transfer hrow
        have hsame : row'.intentId = row.intentId := congrArg (·.1.intentId) hdata
        exact ⟨k, row', hrow', hsame.trans hintent⟩
      · exact hcreated
    · cases hconsumed

end Step

theorem preflighted_of_read (hinv : OneInv runtime s)
    (h : ∃ requestHash, Preflighted runtime s c requestHash) (hread : ReadFor runtime s c intent) :
    Preflighted runtime s c (confirmHash runtime c.senderCustomerId intent) := by
  obtain ⟨requestHash, allowed, hallowed, hauthorized, -⟩ := h
  exact ⟨allowed, hallowed, hauthorized, confirmHash_congr (hread.unique hinv hallowed).2⟩

/-- What a call knows after its step. -/
theorem oneCall_move (hinv : OneInv runtime s) (hknown : OneCall runtime s call)
    (hmove : IntentMove runtime limits s call x s' call') : OneCall runtime s' call' := by
  have htables := hmove.tables
  have hkept := OneCall.move htables hknown
  cases hmove with
  | preflighted hfind hauthorized => exact ⟨_, .of_find hfind, hauthorized, rfl⟩
  | replayed hfind hhash =>
    obtain ⟨hrow, hsender, hkey⟩ := findTransfer_some hfind
    exact ⟨_, hrow, hsender, hkey, hhash ▸ hknown⟩
  | unused hfind => exact ⟨_, hknown⟩
  | enforced | dated | unseen | valid | reserved | answered | unanswered | unwritten => exact hknown
  | begun hfind => exact ⟨hknown, .of_find hfind⟩
  | locked | sent => exact hkept
  | repeated hfind hhash =>
    obtain ⟨hrow, hsender, hkey⟩ := findTransfer_some hfind
    have hpreflighted := preflighted_of_read hinv hknown.1 hknown.2
    exact Returned.move htables ⟨_, hrow, hsender, hkey, hhash ▸ hpreflighted⟩
  | @created c intent current lockedAt windowAt e transfers hcreate hfind =>
    have hpreflighted := preflighted_of_read hinv hknown.1 hknown.2
    refine ⟨TransferRow.create (newTransfer runtime c intent e) e.now, ?_, rfl, rfl,
      hpreflighted.move htables⟩
    exact ((createTransfer_some hcreate).2 _).trans (if_pos rfl)
  | @settled c row outcome e transfers hwrite =>
    have hid : ((transfers.find row.id).getD row).id = row.id := by
      cases hfind : transfers.find row.id with
      | none => rfl
      | some settled => exact Table.key_of_find hfind
    show Returned runtime _ c _
    unfold Returned
    rw [hid]
    exact hkept
  | _ => trivial

/-! ## Runs -/

theorem tablesMove_after : TablesMove runtime limits s (s.after x) call call := by
  cases x <;> exact .kept rfl rfl

/-- The invariant holds in every reachable state. -/
theorem oneInv_reachable (h : (intentService runtime limits).machine.Reachable Machine.always p) :
    OneInv runtime p.shared ∧ ∀ call ∈ p.calls, OneCall runtime p.shared call := by
  refine Pool.invariant ?_ ?_ ?_ ?_ h
  · rintro s rfl
    refine ⟨?_, ?_, ?_, ?_, ?_⟩
    · rintro id id' intent intent' ⟨⟩
    · rintro id id' row row' ⟨⟩
    · rintro id id' row row' ⟨⟩
    · rintro id row ⟨⟩
    · rintro id intent ⟨⟩
  · intro s start hinv
    cases start with
    | createIntent | authorize | confirm => trivial
  · intro p n x call s' call' hinv hcalls _ hcall hnext
    have hmove := intentMove_of_next hnext
    have hafter := @tablesMove_after runtime limits p.shared call x
    have hknown := hcalls call (Pool.mem_of_getElem? hcall)
    refine ⟨oneInv_move hmove.tables (oneInv_move hafter hinv hknown) (hknown.move hafter),
      oneCall_move (oneInv_move hafter hinv hknown) (hknown.move hafter) hmove, ?_⟩
    intro m other _ hother
    exact ((hcalls other (Pool.mem_of_getElem? hother)).move hafter).move hmove.tables
  · exact fun s x => x.elim

theorem linked_of_oneInv (h : OneInv runtime s) : Linked s where
  once row hrow row' hrow' hsame := by
    refine Table.eq_of_key hrow hrow' ?_
    exact h.once _ _ _ _ (Table.find_of_mem hrow) (Table.find_of_mem hrow') hsame
  key row hrow row' hrow' hsender hkey := by
    refine Table.eq_of_key hrow hrow' ?_
    exact h.key _ _ _ _ (Table.find_of_mem hrow) (Table.find_of_mem hrow') hsender hkey
  copies row hrow := by
    obtain ⟨intent, hfind, -, hcopies, -⟩ := h.origin _ _ (Table.find_of_mem hrow)
    exact ⟨intent, (Table.find_some hfind).1, Table.key_of_find hfind, hcopies⟩
  consumed intent hintent := by
    have hfind := Table.find_of_mem hintent
    constructor
    · intro hconsumed
      obtain ⟨k, row, hrow, hsame⟩ := h.consumed _ _ hfind hconsumed
      exact ⟨row, (Table.find_some hrow).1, hsame⟩
    · rintro ⟨row, hrow, hsame⟩
      obtain ⟨intent', hfind', hconsumed, -, -⟩ := h.origin _ _ (Table.find_of_mem hrow)
      rw [hsame] at hfind'
      cases hfind.symm.trans hfind'
      exact hconsumed

/-! ## A used key -/

theorem findIntent_of_find (hinv : OneInv runtime s)
    (hfind : s.intents.find id = some intent) (htoken : intent.tokenHash = runtime.sha256 token)
    (hsender : intent.senderCustomerId = senderCustomerId) :
    findIntent runtime s senderCustomerId token = some intent := by
  cases hread : findIntent runtime s senderCustomerId token with
  | none =>
    have hmiss := List.find?_eq_none.mp hread intent (Table.find_some hfind).1
    simp [htoken, hsender] at hmiss
  | some other =>
    obtain ⟨hother, htoken', -⟩ := findIntent_some hread
    have hid := hinv.token _ _ _ _ hother hfind (htoken'.trans htoken.symm)
    rw [hid] at hother
    exact hother.symm.trans hfind

theorem findTransfer_of_find (hinv : OneInv runtime s) (hfind : s.transfers.find id = some row)
    (hsender : row.senderCustomerId = c.senderCustomerId)
    (hkey : row.idempotencyKeyHash = runtime.sha256 c.idempotencyKey) :
    findTransfer runtime s c = some row := by
  cases hread : findTransfer runtime s c with
  | none =>
    have hmiss := List.find?_eq_none.mp hread row (Table.find_some hfind).1
    simp [hsender, hkey] at hmiss
  | some other =>
    obtain ⟨hother, hsender', hkey'⟩ := findTransfer_some hread
    have hid := hinv.key _ _ _ _ hother hfind (hsender'.trans hsender.symm)
      (hkey'.trans hkey.symm)
    rw [hid] at hother
    exact hother.symm.trans hfind

variable (runtime) in
/-- The key of the confirm is that of `used`, and its token that of `intent`. -/
structure KeyUsed (s : IntentShared) (c : Confirmation) (used : TransferRow)
    (intent : TransferIntentRow) : Prop where
  used : ∃ current, findTransfer runtime s c = some current ∧ current.id = used.id ∧
    current.requestHash = used.requestHash
  intent : ∃ current, findIntent runtime s c.senderCustomerId c.intentToken = some current ∧
    current.terms = intent.terms ∧ (intent.authorizedAt.isSome → current.authorizedAt.isSome)

variable {used : TransferRow}

theorem KeyUsed.move (htables : TablesMove runtime limits s s' call call')
    (hinv : OneInv runtime s') (h : KeyUsed runtime s c used intent) :
    KeyUsed runtime s' c used intent := by
  obtain ⟨⟨row, hrow, hid, hhash⟩, current, hcurrent, hterms, hauthorized⟩ := h
  constructor
  · obtain ⟨hfind, hsender, hkey⟩ := findTransfer_some hrow
    obtain ⟨row', hfind', hdata⟩ := htables.keeps_transfer hfind
    simp only [TransferRow.data, Prod.mk.injEq, NewTransfer.mk.injEq] at hdata
    obtain ⟨⟨hid', -, hsender', -, -, -, -, -, -, hkey', hhash', -, -⟩, -⟩ := hdata
    exact ⟨row', findTransfer_of_find hinv hfind' (hsender'.trans hsender) (hkey'.trans hkey),
      hid'.trans hid, hhash'.trans hhash⟩
  · obtain ⟨hfind, htoken, hsender⟩ := findIntent_some hcurrent
    obtain ⟨current', hfind', hterms', hauthorized', -⟩ := htables.keeps_intent hfind
    have htoken' : current'.tokenHash = current.tokenHash := congrArg (·.tokenHash) hterms'
    have hsender' : current'.senderCustomerId = current.senderCustomerId :=
      congrArg (·.senderCustomerId) hterms'
    exact ⟨current', findIntent_of_find hinv hfind' (htoken'.trans htoken)
      (hsender'.trans hsender), hterms'.trans hterms, fun h => hauthorized' (hauthorized h)⟩

variable (runtime) in
/-- Where a confirm with a used key stands. -/
inductive UsedCall (c : Confirmation) (used : TransferRow) (intent : TransferIntentRow) :
    IntentCall → Prop
  | confirming : UsedCall c used intent (.confirming c)
  | replaying : UsedCall c used intent
      (.replaying c (confirmHash runtime c.senderCustomerId intent))
  | replayed {row : TransferRow} (hid : row.id = used.id)
      (hhash : used.requestHash = confirmHash runtime c.senderCustomerId intent) :
      UsedCall c used intent (.confirmed c row)
  | conflict (hhash : used.requestHash ≠ confirmHash runtime c.senderCustomerId intent) :
      UsedCall c used intent (.thrown (.payments (paymentError "IDEMPOTENCY_CONFLICT")))
  | unauthorized (hnone : intent.authorizedAt = none) :
      UsedCall c used intent (.thrown (.payments (paymentError "AUTHORIZATION_FAILED")))
  | aborted : UsedCall c used intent (.thrown .other)

theorem next_confirmed : intentNext runtime limits s (.confirmed c row) x = none := by
  cases x <;> rfl

theorem next_thrown {e : Thrown} : intentNext runtime limits s (.thrown e) x = none := by
  cases x <;> rfl

/-- A step of the confirm. -/
theorem usedCall_next (hused : KeyUsed runtime (s.after x) c used intent)
    (hnext : intentNext runtime limits s call x = some (s', call'))
    (h : UsedCall runtime c used intent call) :
    s' = s.after x ∧ UsedCall runtime c used intent call' := by
  obtain ⟨⟨row, hrow, hid, hhash⟩, current, hcurrent, hterms, hauthorized⟩ := hused
  have hmove := intentMove_of_next hnext
  cases h with
  | confirming =>
    cases hmove with
    | preflighted hfind _ =>
      cases hcurrent.symm.trans hfind
      rw [confirmHash_congr hterms]
      exact ⟨rfl, .replaying⟩
    | refused hfind =>
      refine ⟨rfl, .unauthorized (Option.not_isSome_iff_eq_none.mp fun hsome => ?_)⟩
      rw [hfind current hcurrent] at hauthorized
      cases hauthorized hsome
    | stopped hcall _ =>
      rw [hcall c (.inl rfl)]
      exact ⟨rfl, .aborted⟩
  | replaying =>
    cases hmove with
    | replayed hfind hsame =>
      cases hrow.symm.trans hfind
      exact ⟨rfl, .replayed hid (hhash.symm.trans hsame)⟩
    | unused hfind => cases hrow.symm.trans hfind
    | conflicted hfind hne =>
      cases hrow.symm.trans hfind
      exact ⟨rfl, .conflict (hhash ▸ hne)⟩
    | stopped hcall _ =>
      rw [hcall c (.inr ⟨_, rfl⟩)]
      exact ⟨rfl, .aborted⟩
  | replayed hid hhash => cases next_confirmed.symm.trans hnext
  | conflict | unauthorized | aborted => cases next_thrown.symm.trans hnext

/-- The next statement of the confirm runs. -/
theorem usedCall_runs (e : IntentEnv) (hused : KeyUsed runtime (s.after (.run e)) c used intent)
    (h : UsedCall runtime c used intent call) (hleft : call.left ≠ 0) :
    ∃ call', intentNext runtime limits s call (.run e) = some (s.after (.run e), call') ∧
      call'.left < call.left ∧ call' ≠ .thrown .other := by
  obtain ⟨⟨row, hrow, -, -⟩, current, hcurrent, -, -⟩ := hused
  cases h with
  | confirming =>
    simp only [intentNext, intentStep, intentRun, hcurrent]
    split_ifs with hauthorized
    · exact ⟨_, rfl, Nat.two_pos, by simp⟩
    · exact ⟨_, rfl, Nat.one_lt_two, by simp⟩
  | replaying =>
    simp only [intentNext, intentStep, intentRun, hrow]
    split_ifs with hhash
    · exact ⟨_, rfl, Nat.one_pos, by simp⟩
    · exact ⟨_, rfl, Nat.one_pos, by simp⟩
  | replayed | conflict | unauthorized | aborted => exact absurd rfl hleft

/-- A confirm with a used key, along a run. -/
theorem usedCall_path {q : IntentState} {n : ℕ}
    (hp : (intentService runtime limits).machine.Reachable Machine.always p)
    (hpath : (intentService runtime limits).machine.Path Machine.always p q)
    (hn : p.calls[n]? = some (.confirming c)) (hused : KeyUsed runtime p.shared c used intent) :
    ∃ call, q.calls[n]? = some call ∧ KeyUsed runtime q.shared c used intent ∧
      UsedCall runtime c used intent call := by
  have hstep : ∀ (u : IntentState) (x : IntentInput) (call : IntentCall) (s' : IntentShared)
      (call' : IntentCall), (intentService runtime limits).machine.Reachable Machine.always u →
      call ∈ u.calls → KeyUsed runtime u.shared c used intent →
      intentNext runtime limits u.shared call x = some (s', call') →
      KeyUsed runtime (u.shared.after x) c used intent ∧ KeyUsed runtime s' c used intent := by
    intro u x call s' call' hu hcall hR hnext
    obtain ⟨hinv, hcalls⟩ := oneInv_reachable hu
    have hknown := hcalls call hcall
    have hafter := @tablesMove_after runtime limits u.shared call x
    have htables := (intentMove_of_next hnext).tables
    have hinv' := oneInv_move hafter hinv hknown
    have hused' := hR.move hafter hinv'
    exact ⟨hused', hused'.move htables (oneInv_move htables hinv' (hknown.move hafter))⟩
  refine Pool.path_call (R := fun s call => KeyUsed runtime s c used intent ∧
    UsedCall runtime c used intent call) hp hpath ?_ ?_ ?_ hn ⟨hused, .confirming⟩
  · intro u x call s' call' hu hcall hR hnext
    obtain ⟨hafter, hused'⟩ := hstep u x call s' call' hu hcall hR.1 hnext
    exact ⟨hused', (usedCall_next hafter hnext hR.2).2⟩
  · intro u x call other s' other' hu hother hR hnext
    exact ⟨(hstep u x other s' other' hu hother hR.1 hnext).2, hR.2⟩
  · exact fun u x => x.elim

/-- It changes nothing, and ends. -/
theorem endsWith_of_usedCall {final : IntentCall → Prop}
    (hp : (intentService runtime limits).machine.Reachable Machine.always p)
    (hused : KeyUsed runtime p.shared c used intent) (h : UsedCall runtime c used intent call)
    (hphase : call = .confirming c ∨ (∃ requestHash, call = .replaying c requestHash) ∨
      final call ∨ call = .thrown .other) : EndsWith runtime limits p.shared c final call := by
  have hinv := (oneInv_reachable hp).1
  have hafter : ∀ x, KeyUsed runtime (p.shared.after x) c used intent := fun x =>
    have htables := @tablesMove_after runtime limits p.shared (.thrown .other) x
    hused.move htables (oneInv_move htables hinv trivial)
  exact ⟨hphase, fun x s' call' hnext => (usedCall_next (hafter x) hnext h).1,
    fun e hleft => usedCall_runs e (hafter (.run e)) h hleft⟩

end Invariant

/-! ## Main results -/

/-- The hash of a request tells the intent, without collisions. -/
theorem id_of_confirmHash {runtime : Runtime} {s : IntentShared} (h : CollisionFree runtime s)
    {intent intent' : TransferIntentRow} (hmem : intent ∈ s.intents.rows)
    (hmem' : intent' ∈ s.intents.rows)
    (hhash : confirmHash runtime intent.senderCustomerId intent =
      confirmHash runtime intent'.senderCustomerId intent') : intent.id = intent'.id := by
  have htext := canonicalText_injective (h intent hmem intent' hmem' hhash)
  simp only [List.cons.injEq, Prod.mk.injEq] at htext
  exact htext.2.2.1.2

/-- In every run, transfers are linked to their intents one to one; a confirm with the used key of
    another intent is refused, with IDEMPOTENCY_CONFLICT if that intent is authorized, and changes
    nothing; a repeated confirm returns the same transfer. -/
theorem one_to_one (runtime : Runtime) (limits : PaymentsLimits) : OneToOne runtime limits where
  linked p hp := linked_of_oneInv (oneInv_reachable hp).1
  conflict p q n c used intent hp hpath hfree hn hused hintent hne := by
    obtain ⟨hinv, -⟩ := oneInv_reachable hp
    obtain ⟨call, hcall, hkey, hphase⟩ := usedCall_path hp hpath hn
      ⟨⟨used, hused, rfl, rfl⟩, intent, hintent, rfl, fun h => h⟩
    refine ⟨call, hcall, endsWith_of_usedCall (hp.path hpath) hkey hphase ?_⟩
    cases hphase with
    | confirming => exact .inl rfl
    | replaying => exact .inr (.inl ⟨_, rfl⟩)
    | conflict hhash => exact .inr (.inr (.inl (.inl rfl)))
    | unauthorized hnone => exact .inr (.inr (.inl (.inr ⟨hnone, rfl⟩)))
    | aborted => exact .inr (.inr (.inr rfl))
    | replayed hid hhash =>
      obtain ⟨hfind, hsender, -⟩ := findTransfer_some hused
      obtain ⟨hread, -, hsender'⟩ := findIntent_some hintent
      obtain ⟨original, horigin, -, hcopies, hrequest⟩ := hinv.origin _ _ hfind
      have hsame : confirmHash runtime intent.senderCustomerId intent =
          confirmHash runtime original.senderCustomerId original := by
        rw [hsender', ← hhash, hrequest, hcopies.sender]
      have hid := id_of_confirmHash hfree (Table.find_some hread).1 (Table.find_some horigin).1 hsame
      exact absurd (hid.trans (Table.key_of_find horigin)) hne
  repeated p q m n c row correlationId hp hpath hm hn := by
    obtain ⟨hinv, hcalls⟩ := oneInv_reachable hp
    obtain ⟨current, hcurrent, hsender, hkey, intent, hread, hauthorized, hhash⟩ :=
      hcalls _ (Pool.mem_of_getElem? hm)
    obtain ⟨read, hfind, hterms, hmarks⟩ := hread.found
    have htoken : read.tokenHash = intent.tokenHash := congrArg (·.tokenHash) hterms
    have hsender' : read.senderCustomerId = intent.senderCustomerId :=
      congrArg (·.senderCustomerId) hterms
    obtain ⟨call, hcall, hused, hphase⟩ := usedCall_path hp hpath hn
      ⟨⟨current, findTransfer_of_find hinv hcurrent hsender hkey, rfl, rfl⟩, read,
        findIntent_of_find hinv hfind (htoken.trans hread.token) (hsender'.trans hread.sender),
        hterms, hmarks⟩
    refine ⟨call, hcall, endsWith_of_usedCall (hp.path hpath) hused hphase ?_⟩
    cases hphase with
    | confirming => exact .inl rfl
    | replaying => exact .inr (.inl ⟨_, rfl⟩)
    | replayed hid _ => exact .inr (.inr (.inl ⟨_, rfl, hid.trans (Table.key_of_find hcurrent)⟩))
    | conflict hne => exact absurd hhash hne
    | unauthorized hnone =>
      rw [hnone] at hauthorized
      cases hauthorized
    | aborted => exact .inr (.inr (.inr rfl))

/-- Where the first of these parts goes on with another error: the intent of the confirm is
    not authorized. -/
theorem unauthorized_first : ¬ ∀ (runtime : Runtime) (limits : PaymentsLimits) (p q : IntentState)
    (n : ℕ) (c : Confirmation) (used : TransferRow) (intent : TransferIntentRow)
    (call : IntentCall), (intentService runtime limits).machine.Reachable Machine.always p →
    (intentService runtime limits).machine.Path Machine.always p q →
    CollisionFree runtime p.shared → p.calls[n]? = some (.confirming c) →
    findTransfer runtime p.shared c = some used →
    findIntent runtime p.shared c.senderCustomerId c.intentToken = some intent →
    intent.id ≠ used.intentId → q.calls[n]? = some call →
    call = .confirming c ∨ (∃ requestHash, call = .replaying c requestHash) ∨
      call = .thrown (.payments (paymentError "IDEMPOTENCY_CONFLICT")) ∨ call = .thrown .other := by
  intro h
  have hrun : ((intentService plainRuntime defaultLimits).machine.run noIntents
      (intentOf 0 0 "s" "i-1" "t-1" 500 ++ confirmOf 2 0 "s" "t-1" "k-1" ++
        statements 2 5 (plainInput 0 "p-1" "" 1) ++
        .start (.createIntent ⟨"s", "account-1", "AEGIS-2222-2222-2222", 700⟩) ::
          statements 3 2 (plainInput 0 "i-2" "t-2" 0) ++
        [.start (.confirm ⟨"s", "t-2", "k-1", ""⟩)])).any (fun p =>
      decide (p.calls[4]? = some (.confirming ⟨"s", "t-2", "k-1", ""⟩)) &&
        (findTransfer plainRuntime p.shared ⟨"s", "t-2", "k-1", ""⟩).any (fun used =>
          (findIntent plainRuntime p.shared "s" "t-2").any fun intent =>
            decide (intent.id ≠ used.intentId)) &&
        ((intentService plainRuntime defaultLimits).machine.run p
          (statements 4 1 (plainInput 0 "" "" 0))).any (fun q => decide (q.calls[4]? =
            some (.thrown (.payments (paymentError "AUTHORIZATION_FAILED")))))) = true := by decide
  obtain ⟨p, hp, htest⟩ := Machine.reachable_of_run _ _
    (noIntents_init plainRuntime defaultLimits) hrun
  simp only [Bool.and_eq_true, Option.any_eq_true, decide_eq_true_eq] at htest
  obtain ⟨⟨hcall, used, hused, intent, hintent, hne⟩, q, hq, hthrown⟩ := htest
  have hfree : CollisionFree plainRuntime p.shared := by
    intro intent _ intent' _ hsame
    exact String.append_right_inj _ |>.mp hsame
  have hphase := h plainRuntime defaultLimits p q 4 _ used intent _ hp (Machine.path_of_run hq)
    hfree hcall hused hintent hne hthrown
  simp [paymentError] at hphase

end AegisShield.Payments
