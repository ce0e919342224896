import AegisShield.Ledger.Accounts
import AegisShield.Payments.Security
import AegisShield.Payments.Transfer

/-!
# The schema of a transfer command

The Ledger parses the body of `POST /internal/customer-transfers` before it does anything else
(`customer-transfer.controller.ts`, line 26). The schema (`contracts/payments/v1.ts`, lines
237-243) takes no references but those of `createTransferReference`.

Results:
* `schema_of_reference`: a command with another reference is refused.
* `not_accepts_newQrPaymentReference`, `not_accepts_hexText`: those of QR and USSD payments are
  others.
-/

namespace AegisShield.Payments

open Common

/-! ## The schema -/

/-- What the schema takes from zod: `z.uuid()`, which accepts the text form of a UUID only. -/
structure Zod where
  isUuid : String → Bool
  uuid_text : ∀ text, isUuid text = true → text.toList.length = 36 ∧
    ∀ c ∈ text.toList, (c.isAlphanum || decide (c = '-')) = true

/-- A stand-in for `z.uuid()` in concrete runs. -/
def plainZod : Zod where
  isUuid text := decide (text.toList.length = 36) &&
    text.toList.all fun c => c.isAlphanum || decide (c = '-')
  uuid_text text h := by
    obtain ⟨hlength, hchars⟩ := Bool.and_eq_true_iff.mp h
    exact ⟨of_decide_eq_true hlength, List.all_eq_true.mp hchars⟩

/-- The white space of `String.prototype.trim`. -/
def isSpace (c : Char) : Bool :=
  c.toNat ∈ [9, 10, 11, 12, 13, 32, 0xA0, 0x1680, 0x2028, 0x2029, 0x202F, 0x205F, 0x3000, 0xFEFF] ||
    decide (0x2000 ≤ c.toNat ∧ c.toNat ≤ 0x200A)

/-- `String.prototype.trim`. -/
def trim (text : String) : String :=
  String.ofList ((text.toList.dropWhile isSpace).reverse.dropWhile isSpace).reverse

/-- `^[A-Z]{3}$`. -/
def currencyFormat : Format := List.replicate 3 Char.isUpper

/-- `currencyCodeSchema` (`contracts/accounts/v1.ts`, lines 11-14). -/
def currencyCodeSchema (text : String) : Bool := currencyFormat.accepts (trim text)

/-- `positiveMinorUnitsSchema` (`contracts/accounts/v1.ts`, lines 24-26). -/
def positiveMinorUnitsSchema (text : String) : Bool :=
  match text.toList with
  | [] => false
  | c :: cs => decide (c ≠ '0') && c.isDigit && cs.all Char.isDigit && decide (cs.length ≤ 23)

/-- `transferDisplayReferenceSchema` (`contracts/payments/v1.ts`, lines 66-68). -/
def transferDisplayReferenceSchema : Format := Format.literal "AEGIS-TRF-" ++ Ledger.threeGroups

/-- A character of `[A-Za-z0-9._:-]`. -/
def isKeyCharacter (c : Char) : Bool := c.isAlphanum || decide (c ∈ ['.', '_', ':', '-'])

/-- `/^[A-Za-z0-9._:-]{16,128}$/`. -/
def idempotencyKeySchema (text : String) : Bool :=
  decide (16 ≤ text.toList.length ∧ text.toList.length ≤ 128) && text.toList.all isKeyCharacter

/-- The JSON object that `LedgerClient.transfer` sends; what is undefined is left out. -/
structure CommandBody where
  senderCustomerId : Option String
  sourceAccountId : Option String
  recipientReference : Option String
  amountMinor : Option String
  currency : Option String
  transferId : Option String
  transferReference : Option String
  idempotencyKey : Option String
  deriving DecidableEq

/-- `internalLedgerTransferCommandSchema` (`contracts/payments/v1.ts`, lines 237-243). -/
def internalLedgerTransferCommandSchema (zod : Zod) (body : CommandBody) : Bool :=
  body.senderCustomerId.any zod.isUuid && body.sourceAccountId.any zod.isUuid &&
    body.recipientReference.any Ledger.publicAccountReferenceSchema.accepts &&
    body.amountMinor.any positiveMinorUnitsSchema && body.currency.any currencyCodeSchema &&
    body.transferId.any zod.isUuid &&
    body.transferReference.any transferDisplayReferenceSchema.accepts &&
    body.idempotencyKey.any idempotencyKeySchema

def InternalLedgerTransferCommand.body (command : InternalLedgerTransferCommand) : CommandBody where
  senderCustomerId := some command.senderCustomerId
  sourceAccountId := some command.sourceAccountId
  recipientReference := some command.recipientReference
  amountMinor := some (toString command.amountMinor)
  currency := some command.currency
  transferId := some command.transferId
  transferReference := some command.transferReference
  idempotencyKey := some command.idempotencyKey

/-! ## References -/

theorem hexDigit_letter : ∀ n < 16, Ledger.isReferenceLetter (hexDigit n) = true := by decide

theorem length_hexText (bytes : List UInt8) : (hexText bytes).length = 2 * bytes.length := by
  unfold hexText
  induction bytes with
  | nil => rfl
  | cons b bytes ih =>
    rw [List.flatMap_cons, List.length_append, ih, List.length_cons, List.length_cons,
      List.length_cons, List.length_nil]
    omega

theorem letter_of_mem_hexText {bytes : List UInt8} {c : Char} (h : c ∈ hexText bytes) :
    Ledger.isReferenceLetter c = true := by
  obtain ⟨b, -, hc⟩ := List.mem_flatMap.mp h
  have hbyte : b.toNat < 256 := b.toNat_lt
  rcases List.mem_pair.mp hc with rfl | rfl
  · exact hexDigit_letter _ (by omega)
  · exact hexDigit_letter _ (by omega)

/-- The text of a reference. -/
theorem toList_newReference (kind : String) (bytes : Vector UInt8 12) :
    ∃ groups, (newReference kind bytes).toList = ("AEGIS-" ++ kind ++ "-").toList ++ groups ∧
      Ledger.threeGroups.fits groups = true := by
  have hlength : (hexText bytes.toList).length = 24 := by
    rw [length_hexText, Vector.length_toList]
  have hgroup : ∀ n, n + 4 ≤ 24 →
      Format.fits (List.replicate 4 Ledger.isReferenceLetter)
        (((hexText bytes.toList).drop n).take 4) = true := by
    intro n hn
    refine Format.fits_replicate.mpr ⟨?_, fun c hc => ?_⟩
    · rw [List.length_take, List.length_drop, hlength]
      omega
    · exact letter_of_mem_hexText (List.mem_of_mem_drop (List.mem_of_mem_take hc))
  have hdash : (Format.literal "-").fits ['-'] = true := Format.fits_literal "-"
  refine ⟨((hexText bytes.toList).drop 0).take 4 ++ (['-'] ++ (((hexText bytes.toList).drop 4).take 4
    ++ (['-'] ++ ((hexText bytes.toList).drop 8).take 4))), ?_, ?_⟩
  · simp [newReference, String.toList_append]
  · unfold Ledger.threeGroups
    rw [Format.fits_append (hgroup 0 (by omega)), Format.fits_append hdash,
      Format.fits_append (hgroup 4 (by omega)), Format.fits_append hdash]
    exact hgroup 8 (by omega)

/-- The reference of a QR payment is not that of a transfer. -/
theorem not_accepts_newQrPaymentReference (bytes : Vector UInt8 12) :
    transferDisplayReferenceSchema.accepts (newQrPaymentReference bytes) = false := by
  refine Bool.eq_false_iff.mpr fun h => ?_
  obtain ⟨groups, htext, -⟩ := toList_newReference "QRP" bytes
  unfold transferDisplayReferenceSchema Format.accepts newQrPaymentReference at h
  rw [htext] at h
  have hliteral := Format.eq_of_fits_literal (Format.fits_of_append (by decide) h)
  exact absurd hliteral (by decide)

/-- Nor are eight digits. -/
theorem not_accepts_hexText (bytes : Vector UInt8 4) :
    transferDisplayReferenceSchema.accepts (String.ofList (hexText bytes.toList)) = false := by
  refine Bool.eq_false_iff.mpr fun h => ?_
  have hlength := Format.length_of_fits h
  rw [String.toList_ofList, length_hexText, Vector.length_toList] at hlength
  exact absurd hlength (by decide)

theorem schema_of_reference {zod : Zod} {body : CommandBody} {reference : String}
    (hreference : body.transferReference = some reference)
    (h : transferDisplayReferenceSchema.accepts reference = false) :
    internalLedgerTransferCommandSchema zod body = false := by
  unfold internalLedgerTransferCommandSchema
  rw [hreference, Option.any_some, h, Bool.and_false, Bool.false_and]

end AegisShield.Payments
