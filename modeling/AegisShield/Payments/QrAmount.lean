import AegisShield.Payments.Availability

/-!
# The amount of a QR payment

The amount goes from the code to the redemption that `preview` inserts, and from there to the
command of `settle` (`qr.service.ts`). The body of a confirm has an amount too
(`internalQrConfirmRequestSchema`), for codes without one.

Results:
* `priced_reachable`: a redemption has the amount of its code, or zero if the code has none.
* `settled_amount_iff`: a settlement sends the amount that is due if and only if the code has a
  fixed amount.

**Deviation.** `confirm` does not read the amount of its body, so that codes without an amount
are settled for zero.
-/

namespace AegisShield.Payments

open Common

/-! ## The property -/

/-- `internalQrConfirmRequestSchema` (`contracts/channels/v1.ts`, lines 130-137): what `confirm`
    reads, and the amount that it does not read. -/
structure QrConfirmBody extends ConfirmInput where
  amountMinor : Option ℤ

/-- The amount that a payment of the code is for: its own, or else the payer's. -/
def dueAmount (request : QrPaymentRequestRow) (body : QrConfirmBody) : Option ℤ :=
  request.amountMinor.or body.amountMinor

/-- The command that `settle` sends for the redemption is for the amount that is due, and it is
    positive. -/
def SendsDue (d : QrTables) (redemption : QrRedemptionRow) (body : QrConfirmBody) : Prop :=
  ∃ request, d.requests.find redemption.qrPaymentRequestId = some request ∧
    dueAmount request body = some (qrCommand d redemption).amountMinor ∧
      0 < (qrCommand d redemption).amountMinor

/-- The code has a fixed amount. -/
def HasAmount (d : QrTables) (redemption : QrRedemptionRow) : Prop :=
  ∃ request amount, d.requests.find redemption.qrPaymentRequestId = some request ∧
    request.amountMinor = some amount

/-- A payload whose signature holds is the one that `issue` signed for the record that it names. -/
def Authentic (runtime : QrRuntime) (d : QrTables) (input : QrPreviewInput) : Prop :=
  ∀ decoded record, decodeQrPayload runtime input.payload = some decoded →
    verifyQrSignature runtime decoded = true →
    d.requests.rows.find? (fun r => r.nonceHash = runtime.sha256 decoded.nonce) = some record →
    ∃ new, IssuedAs runtime new record ∧ decoded = new.payload runtime

/-- The codes that are scanned in a run are authentic. -/
def scansAuthentic (runtime : QrRuntime)
    (s : QrState) :
    Pool.Action (ChannelStart QrPreviewInput) ChannelInput (Outside QrIssue) → Prop
  | .next n (.run _) => ∀ input, s.calls[n]? = some (.previewing input) →
      Authentic runtime s.shared.side input
  | _ => True

/-! ## The amounts of the codes -/

section Amounts

variable {runtime : QrRuntime} {d d' : QrTables} {id : String} {price : ℤ}

/-- The amount of the code with an identifier. -/
def amountOf (d : QrTables) (id : String) : Option (Option ℤ) :=
  (d.requests.find id).map QrPaymentRequestRow.amountMinor

/-- The code has a positive amount and it is this one, or it has none and this is zero. -/
def Priced (d : QrTables) (id : String) (price : ℤ) : Prop :=
  ∃ fixed, amountOf d id = some fixed ∧ price = fixed.getD 0 ∧
    ∀ amount, fixed = some amount → 0 < amount

/-- No code is lost, and none gets another amount. -/
def KeepsAmounts (d d' : QrTables) : Prop :=
  ∀ id fixed, amountOf d id = some fixed → amountOf d' id = some fixed

theorem KeepsAmounts.refl (d : QrTables) : KeepsAmounts d d := fun _ _ h => h

theorem KeepsAmounts.trans {d'' : QrTables} (h : KeepsAmounts d d') (h' : KeepsAmounts d' d'') :
    KeepsAmounts d d'' := fun id fixed hid => h' id fixed (h id fixed hid)

theorem Priced.keeps (hkeeps : KeepsAmounts d d') (h : Priced d id price) :
    Priced d' id price := by
  obtain ⟨fixed, hfixed, hrest⟩ := h
  exact ⟨fixed, hkeeps id fixed hfixed, hrest⟩

/-- A row is replaced by one with its identifier and amount. -/
theorem keepsAmounts_put {request redeemed : QrPaymentRequestRow}
    (hfind : d.requests.find redeemed.id = some request)
    (hamount : redeemed.amountMinor = request.amountMinor) :
    KeepsAmounts d { d with requests := d.requests.put redeemed } := by
  intro id fixed hfixed
  have hput : (d.requests.put redeemed).find id =
      if redeemed.id = id then some redeemed else d.requests.find id := Table.find_put hfind
  unfold amountOf at hfixed ⊢
  dsimp only
  rw [hput]
  split_ifs with hid
  · rw [← hid, hfind] at hfixed
    rw [← hfixed, Option.map_some, Option.map_some, hamount]
  · exact hfixed

theorem keepsAmounts_apply (d : QrTables) (note : QrNote) : KeepsAmounts d (d.apply note) := by
  cases note with
  | event event => exact .refl d
  | redeem id redeemedAt =>
    unfold QrTables.apply
    dsimp only
    cases hfind : d.requests.find id with
    | none => exact .refl d
    | some request =>
      have hself : d.requests.find request.id = some request :=
        Table.find_of_mem (Table.find_some hfind).1
      exact keepsAmounts_put hself rfl

theorem keepsAmounts_foldl (notes : List QrNote) (d : QrTables) :
    KeepsAmounts d (notes.foldl QrTables.apply d) := by
  induction notes generalizing d with
  | nil => exact .refl d
  | cons note notes ih => exact (keepsAmounts_apply d note).trans (ih (d.apply note))

theorem keepsAmounts_issue {new : QrIssue} (h : issue runtime d new = some d') :
    KeepsAmounts d d' := by
  unfold issue at h
  obtain ⟨amountMinor, -, h⟩ := Option.bind_eq_some_iff.mp h
  split_ifs at h
  obtain ⟨requests, hinsert, hret⟩ := Option.bind_eq_some_iff.mp h
  cases hret
  intro id fixed hfixed
  obtain ⟨request, hfind, rfl⟩ := Option.map_eq_some_iff.mp hfixed
  have hne : key (new.row runtime amountMinor) ≠ id := by
    rintro rfl
    rw [(Table.insert_some hinsert).1] at hfind
    cases hfind
  unfold amountOf
  dsimp only
  rw [Table.find_insert hinsert, if_neg hne, hfind]
  rfl

/-! ## Along a run -/

/-- The amount of the redemption that a preview inserts. -/
def QrDraft.amountMinor (runtime : QrRuntime) (draft : QrDraft) : ℤ :=
  draft.record.amountMinor.getD ((draft.decoded.amountMinor.bind runtime.bigInt).getD 0)

/-- An authentic code that the checks accept gives its amount, or zero. -/
theorem priced_draft {input : QrPreviewInput} {now : ℕ} {draft : QrDraft}
    (hauthentic : Authentic runtime d input) (h : qrDraft runtime d input now = .ok draft) :
    Priced d draft.record.id (draft.amountMinor runtime) := by
  obtain ⟨decoded, record, hdecode, hpayload, hrecord, -, rfl⟩ := (qrDraft_eq_ok runtime).mp h
  have hverify : verifyQrSignature runtime decoded = true := by
    unfold checkPayload at hpayload
    split_ifs at hpayload with hversion hsignature
    simpa using hsignature
  have hamount : checkAmount runtime decoded = .ok () := by
    unfold checkPayload at hpayload
    split_ifs at hpayload
    exact hpayload
  obtain ⟨new, hissued, rfl⟩ := hauthentic decoded record hdecode hverify hrecord
  have hpayable : Payable record := (checkAmount_payload hissued).mp hamount
  have hfind : d.requests.find record.id = some record :=
    Table.find_of_mem (List.mem_of_find?_eq_some hrecord)
  refine ⟨record.amountMinor, ?_, ?_, hpayable⟩
  · unfold amountOf
    rw [hfind]
    rfl
  · obtain ⟨amountMinor, hnew, hrow⟩ := hissued
    have hsame : record.amountMinor = amountMinor :=
      (congrArg QrPaymentRequestRow.amountMinor hrow).symm
    have hgiven : (new.payload runtime).amountMinor = QrIssue.given new.amountMinor := rfl
    unfold QrDraft.amountMinor
    dsimp only
    rw [hsame, hgiven]
    unfold QrIssue.amount at hnew
    cases htext : QrIssue.given new.amountMinor with
    | none =>
      rw [htext] at hnew
      cases hnew
      rfl
    | some text =>
      rw [htext] at hnew
      obtain ⟨amount, -, rfl⟩ := Option.map_eq_some_iff.mp hnew
      rfl

/-- The row that the preview inserts. -/
theorem create_amount {draft : QrDraft} {e : Env} {row : QrRedemptionRow} {notes : List QrNote}
    (h : qrCreate runtime draft e = .ok (row, notes)) :
    row.qrPaymentRequestId = draft.record.id ∧ row.amountMinor = draft.amountMinor runtime := by
  unfold qrCreate at h
  split at h
  · cases h
    exact ⟨rfl, rfl⟩
  · cases h
  · cases h

/-- `settle` writes neither the code nor the amount of a redemption. -/
theorem settles_amount {current updated : QrRedemptionRow} {outcome : LedgerOutcome}
    (h : Settles (qrChannel runtime) current outcome updated) :
    updated.qrPaymentRequestId = current.qrPaymentRequestId ∧
      updated.amountMinor = current.amountMinor := by
  cases h with
  | _ => exact ⟨rfl, rfl⟩

/-- The redemption has the amount of its code. -/
def RowPriced (d : QrTables) (row : QrRedemptionRow) : Prop :=
  Priced d row.qrPaymentRequestId row.amountMinor

/-- What is known of a call: the redemption that it is to insert or to settle has the amount of
    its code. -/
structure CallPriced (runtime : QrRuntime) (d : QrTables)
    (call : ChannelCall QrRedemptionRow QrNote QrPreviewInput QrDraft) : Prop where
  creating : ∀ draft origin, call = .creating draft origin →
    Priced d draft.record.id (draft.amountMinor runtime)
  settling : ∀ input row, call = .settling input row → RowPriced d row

theorem CallPriced.keeps {call : ChannelCall QrRedemptionRow QrNote QrPreviewInput QrDraft}
    (hkeeps : KeepsAmounts d d') (h : CallPriced runtime d call) : CallPriced runtime d' call :=
  ⟨fun draft origin hcall => (h.creating draft origin hcall).keeps hkeeps,
    fun input row hcall => (h.settling input row hcall).keeps hkeeps⟩

end Amounts

section Runs

variable {runtime : QrRuntime} {s : QrState}

/-- The rows after a step of a call. -/
theorem rowPriced_move {p s' : ChannelShared QrRedemptionRow QrTables} {x : ChannelInput}
    {call call' : ChannelCall QrRedemptionRow QrNote QrPreviewInput QrDraft}
    (hkeeps : KeepsAmounts p.side s'.side)
    (hrows : ∀ id row, p.rows.find id = some row → RowPriced p.side row)
    (hcall : CallPriced runtime p.side call)
    (hmove : Move runtime.toRuntime (qrChannel runtime) p call x s' call') (id : String)
    (row : QrRedemptionRow) (hrow : s'.rows.find id = some row) : RowPriced s'.side row := by
  rcases hmove.row_cases hrow with ⟨hold, -⟩ | ⟨-, -, draft, origin, e, notes, hcreating, -, hcreate, -⟩ |
    ⟨confirm, claimed, current, e, -, -, -, hold, -, rfl, -, -⟩ |
    ⟨confirm, settled, current, outcome, notes, -, -, hold, -, hsettles, -⟩
  · exact (hrows id row hold).keeps hkeeps
  · obtain ⟨hid, hamount⟩ := create_amount hcreate
    unfold RowPriced
    rw [hid, hamount]
    exact (hcall.creating draft origin hcreating).keeps hkeeps
  · exact Priced.keeps hkeeps (hrows id current hold)
  · obtain ⟨hid, hamount⟩ := settles_amount hsettles
    unfold RowPriced
    rw [hid, hamount]
    exact Priced.keeps hkeeps (hrows id current hold)

/-- In a run whose scans are authentic, redemptions have the amounts of their codes. -/
theorem priced_reachable
    (h : (qrService runtime).machine.Reachable (scansAuthentic runtime) s) :
    (∀ id row, s.shared.rows.find id = some row → RowPriced s.shared.side row) ∧
      ∀ call ∈ s.calls, CallPriced runtime s.shared.side call := by
  refine Pool.invariant (G := fun p => ∀ id row, p.rows.find id = some row → RowPriced p.side row)
    (A := fun p call => CallPriced runtime p.side call) ?_ ?_ ?_ ?_ h
  · rintro p ⟨hrows, -⟩ id row hfind
    rw [Table.find, hrows] at hfind
    cases hfind
  · intro p start _
    cases start with
    | preview input | confirm input =>
      constructor
      · intro draft origin hcreating
        cases hcreating
      · intro input row hsettling
        cases hsettling
  · intro u n x call s' call' hrows hcalls hscans hcall hnext
    have hmove := move_of_next hnext
    obtain ⟨notes, hside⟩ := hmove.side
    have hkeeps : KeepsAmounts u.shared.side s'.side := by
      rw [hside]
      exact keepsAmounts_foldl notes u.shared.side
    have hown := hcalls call (Pool.mem_of_getElem? hcall)
    refine ⟨rowPriced_move hkeeps hrows hown hmove, ⟨?_, ?_⟩, fun m other _ hother =>
      (hcalls other (Pool.mem_of_getElem? hother)).keeps hkeeps⟩
    · intro draft origin hcreating
      cases hmove with
      | drafted hdraft =>
        cases hcreating
        exact priced_draft (hscans _ hcall) hdraft
      | _ => cases hcreating
    · intro input row hsettling
      cases hmove with
      | claimed hfind htaken =>
        cases hsettling
        exact (hrows _ _ hfind).keeps hkeeps
      | _ => cases hsettling
  · intro u x s' hrows _ henv
    have hkeeps : KeepsAmounts u.shared.side s'.side := by
      cases x with
      | post k =>
        obtain ⟨remote, -, rfl⟩ := Option.map_eq_some_iff.mp henv
        exact .refl _
      | other new =>
        obtain ⟨side, hside, rfl⟩ := Option.map_eq_some_iff.mp henv
        exact keepsAmounts_issue hside
    obtain ⟨hkept, -⟩ := env_spec henv
    exact ⟨fun id row hrow => (hrows id row (hkept ▸ hrow)).keeps hkeeps,
      fun call hcall => hcall.keeps hkeeps⟩

/-- What is due is sent for a code with an amount, and for no other. -/
theorem sendsDue_iff {d : QrTables} {row : QrRedemptionRow} (h : RowPriced d row)
    (body : QrConfirmBody) : SendsDue d row body ↔ HasAmount d row := by
  obtain ⟨fixed, hfixed, hprice, hpositive⟩ := h
  obtain ⟨request, hfind, rfl⟩ := Option.map_eq_some_iff.mp hfixed
  have hcommand : (qrCommand d row).amountMinor = row.amountMinor := rfl
  constructor
  · rintro ⟨other, hother, -, hpos⟩
    rw [hcommand, hprice] at hpos
    cases hamount : request.amountMinor with
    | none =>
      rw [hamount] at hpos
      exact absurd hpos (lt_irrefl 0)
    | some amount => exact ⟨request, amount, hfind, hamount⟩
  · rintro ⟨other, amount, hother, hamount⟩
    cases hfind.symm.trans hother
    refine ⟨request, hfind, ?_, ?_⟩
    · unfold dueAmount
      rw [hcommand, hprice, hamount]
      rfl
    · rw [hcommand, hprice, hamount]
      exact hpositive amount hamount

/-- **A settlement sends the amount that is due if and only if the code has a fixed amount.** In
    every run whose scans are authentic, whatever the confirm's body says. -/
theorem settled_amount_iff (runtime : QrRuntime)
    (s : QrState)
    (h : (qrService runtime).machine.Reachable (scansAuthentic runtime) s) (n : ℕ)
    (body : QrConfirmBody) (row : QrRedemptionRow)
    (hcall : s.calls[n]? = some (.settling body.toConfirmInput row)) :
    SendsDue s.shared.side row body ↔ HasAmount s.shared.side row := by
  have hpriced := (priced_reachable h).2 _ (Pool.mem_of_getElem? hcall)
  exact sendsDue_iff (hpriced.settling _ row rfl) body

end Runs

/-! ## Two runs -/

/-- The shop's code, with or without an amount. -/
def shopIssue (amountMinor : Option String) : QrIssue :=
  { fiveRupeeIssue .STATIC with amountMinor := amountMinor }

/-- Node, where `"shop"` is the text of that code. -/
def shopRuntime (amountMinor : Option String) : QrRuntime :=
  { plainQrRuntime with
    decodeJson := fun text =>
      if text = "shop" then some ((shopIssue amountMinor).payload plainQrRuntime).toJson else none }

/-- Alice scans the code and confirms. -/
def shopConfirm : ConfirmInput where
  caller := "alice"
  intentToken := "t-1"
  idempotencyKey := "k-1"

/-- Up to the claim of the redemption. -/
def scanShop (amountMinor : Option String) :
    List (Pool.Action (ChannelStart QrPreviewInput) ChannelInput (Outside QrIssue)) := [
  .env (.other (shopIssue amountMinor)),
  .start (.preview ⟨"shop", "alice", "account-alice"⟩),
  .next 0 (.run (plainEnv 0 "pay-1" "t-1" 0)), .next 0 (.run (plainEnv 0 "pay-1" "t-1" 0)),
  .start (.confirm shopConfirm),
  .next 1 (.run (plainEnv 0 "" "" 0)), .next 1 (.run (plainEnv 0 "" "" 0)),
  .next 1 (.run (plainEnv 0 "" "" 0))]

/-- The tables hold at most the shop's code as it was issued. -/
def onlyShop (amountMinor : Option String)
    (s : QrState)
    (_ : Pool.Action (ChannelStart QrPreviewInput) ChannelInput (Outside QrIssue)) : Bool :=
  s.shared.side.requests.rows.all fun request => decide
    (((shopIssue amountMinor).amount (shopRuntime amountMinor)).map
      ((shopIssue amountMinor).row (shopRuntime amountMinor)) =
        some { request with status := .ACTIVE, redeemedAt := none })

theorem scansAuthentic_of_onlyShop {amountMinor : Option String}
    {s : QrState}
    {a : Pool.Action (ChannelStart QrPreviewInput) ChannelInput (Outside QrIssue)}
    (h : onlyShop amountMinor s a = true) : scansAuthentic (shopRuntime amountMinor) s a := by
  cases a with
  | next n x =>
    cases x with
    | run e =>
      intro input _ decoded record hdecode _ hrecord
      have hissued := List.all_eq_true.mp h record (List.mem_of_find?_eq_some hrecord)
      obtain ⟨amount, hamount, hrow⟩ := Option.map_eq_some_iff.mp (of_decide_eq_true hissued)
      refine ⟨shopIssue amountMinor, ⟨amount, hamount, hrow⟩, ?_⟩
      unfold decodeQrPayload shopRuntime at hdecode
      dsimp only at hdecode
      split_ifs at hdecode
      · rw [Option.bind_some, isSignedQrPayload_toJson] at hdecode
        exact (Option.some.inj hdecode).symm
      · cases hdecode
    | _ => trivial
  | _ => trivial

/-- The second call is about to settle the redemption of the shop's code, for an amount. -/
def settlesShop (amount : ℤ) (s : QrState) : Bool :=
  match s.calls with
  | [_, .settling input row] => decide (input = shopConfirm ∧ row.amountMinor = amount)
  | _ => false

theorem settling_of_settlesShop {amount : ℤ}
    {s : QrState}
    (h : settlesShop amount s = true) : ∃ row,
      s.calls[1]? = some (.settling shopConfirm row) ∧ row.amountMinor = amount := by
  unfold settlesShop at h
  split at h
  next first input row hcalls =>
    obtain ⟨rfl, hamount⟩ := of_decide_eq_true h
    refine ⟨row, ?_, hamount⟩
    rw [hcalls]
    rfl
  · cases h

/-- A code over 5.00 LKR, with a body that says 2.50 LKR. -/
theorem settled_amount_fixed : ∃ s row,
    (qrService (shopRuntime (some "500"))).machine.Reachable
      (scansAuthentic (shopRuntime (some "500"))) s ∧
    SendsDue s.shared.side row { shopConfirm with amountMinor := some 250 } := by
  obtain ⟨s, hs, hend⟩ := Machine.reachable_of_runUnder
    (M := (qrService (shopRuntime (some "500"))).machine)
    (C := scansAuthentic (shopRuntime (some "500"))) (scanShop (some "500"))
    (onlyShop (some "500")) (settlesShop 500) (fun _ _ => scansAuthentic_of_onlyShop)
    (noQrPayments_init _) (by decide +kernel)
  obtain ⟨row, hcall, hamount⟩ := settling_of_settlesShop hend
  have hpriced := ((priced_reachable hs).2 _ (Pool.mem_of_getElem? hcall)).settling _ row rfl
  refine ⟨s, row, hs, (settled_amount_iff _ s hs 1 _ row hcall).mpr ?_⟩
  obtain ⟨fixed, hfixed, hprice, -⟩ := hpriced
  obtain ⟨request, hfind, rfl⟩ := Option.map_eq_some_iff.mp hfixed
  cases hrequest : request.amountMinor with
  | none =>
    rw [hrequest, hamount] at hprice
    cases hprice
  | some amount => exact ⟨request, amount, hfind, hrequest⟩

/-- A code without an amount, with a body that says 2.50 LKR: the command is for zero. -/
theorem settled_for_zero : ¬ ∀ (runtime : QrRuntime)
    (s : QrState),
    (qrService runtime).machine.Reachable (scansAuthentic runtime) s →
    ∀ (n : ℕ) (body : QrConfirmBody) (row : QrRedemptionRow),
      s.calls[n]? = some (.settling body.toConfirmInput row) →
      SendsDue s.shared.side row body := by
  intro h
  obtain ⟨s, hs, hend⟩ := Machine.reachable_of_runUnder
    (M := (qrService (shopRuntime none)).machine) (C := scansAuthentic (shopRuntime none))
    (scanShop none) (onlyShop none) (settlesShop 0) (fun _ _ => scansAuthentic_of_onlyShop)
    (noQrPayments_init _) (by decide +kernel)
  obtain ⟨row, hcall, hamount⟩ := settling_of_settlesShop hend
  obtain ⟨request, -, -, hpositive⟩ := h _ s hs 1 { shopConfirm with amountMinor := some 250 } row
    hcall
  have hcommand : (qrCommand s.shared.side row).amountMinor = row.amountMinor := rfl
  rw [hcommand, hamount] at hpositive
  exact absurd hpositive (lt_irrefl 0)

end AegisShield.Payments
