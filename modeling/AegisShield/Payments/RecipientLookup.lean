import AegisShield.Common.FormDecoding
import AegisShield.Ledger.Store
import AegisShield.Payments.Ussd

/-!
# The recipient of a USSD transfer

`SEND_MONEY_RECIPIENT` (`ussd.service.ts`) over the request that `LedgerClient` makes of the
text entered (`ledger.client.ts`) and the Ledger's answer (`channel-operations.controller.ts`).
The Ledger reads its query by the rules of URLs and forms; the URL parser on inputs that
name no path on the base is a parameter. A lone surrogate, which a JSON escape can put into a
text and a URL reads as U+FFFD, is outside the model.

Results:
* `lookup_literal_iff`: the text entered is looked up as it is if and only if the URL and the
  form leave it as it is.
* `fragment_accepted`: a text with a `#` is accepted, and names no account.

**Deviation.** `resolveAccountByReference` puts the text into the URL without
`encodeURIComponent`, so that the Ledger can be asked for another reference.
-/

namespace AegisShield.Payments

open Common.WebUrl
open Ledger (CustomerAccountRow)

/-! ## The lookup -/

/-- The path of the lookup. -/
def resolvePath : String := "/internal/channel-operations/resolve-account"

/-- The URL of `resolveAccountByReference` (lines 129-132). -/
def lookupTarget (elsewhere : List Char → Option Url) (ledgerServiceUrl : Url)
    (publicReference : String) : Option Url :=
  parse elsewhere ledgerServiceUrl (resolvePath ++ "?reference=" ++ publicReference).toList

/-- The parameters of a request to the Ledger. -/
def parameters (target : Url) : List (List Char × List Char) :=
  formParse (target.query.getD [])

variable (rows : List CustomerAccountRow)

/-- `resolveAccountByReference` of the Ledger (`channel-operations.service.ts`, lines 20-33). -/
def findAccount (publicReference : List Char) : AccountAnswer :=
  match rows.find? fun row => row.publicReference.toList = publicReference with
  | none => .callError 404
  | some row => .found row.customerId row.id row.maskedReference

/-- The Ledger's answer to a request; without a `reference` the query of the database throws. -/
def ledgerAnswer (target : Url) : AccountAnswer :=
  if target.pathname ≠ resolvePath.toList then .callError 404
  else
    match (parameters target).find? fun entry => entry.1 = "reference".toList with
    | none => .callError 500
    | some (_, reference) => findAccount rows reference

/-- `resolveAccountByReference` (`ledger.client.ts`, lines 118-150). -/
def resolveAccountByReference (elsewhere : List Char → Option Url) (ledgerServiceUrl : Url)
    (rows : List CustomerAccountRow) (publicReference : String) : AccountAnswer :=
  match lookupTarget elsewhere ledgerServiceUrl publicReference with
  | none => .unavailable
  | some target => ledgerAnswer rows target

/-- `SEND_MONEY_RECIPIENT` (`ussd.service.ts`, lines 75-89). -/
def enterRecipient (elsewhere : List Char → Option Url) (ledgerServiceUrl : Url)
    (rows : List CustomerAccountRow) (session : UssdSession) (input : String) : UssdSession :=
  (recipientTurn session input
    (resolveAccountByReference elsewhere ledgerServiceUrl rows input)).1

/-- The account that the Ledger takes for the recipient of a transfer
    (`customer-transfer.service.ts`, lines 53-56). -/
def transferRecipient (recipientReference : Option String) : Option CustomerAccountRow :=
  rows.find? fun row => some row.publicReference = recipientReference

/-! ## The statement -/

/-- The text entered is the reference that the Ledger is asked for, on the path and with the
    one parameter of the lookup; it is accepted when an account has that reference, and the
    session then holds this account and a reference that a transfer takes to it. -/
structure LiteralLookup (elsewhere : List Char → Option Url) (ledgerServiceUrl : Url)
    (input : String) : Prop where
  asks : ∃ target, lookupTarget elsewhere ledgerServiceUrl input = some target ∧
    target.origin = ledgerServiceUrl.origin ∧ target.pathname = resolvePath.toList ∧
    parameters target = [("reference".toList, input.toList)]
  accepts : ∀ (rows : List CustomerAccountRow) (session : UssdSession),
    session.state = .SEND_MONEY_RECIPIENT →
    ((enterRecipient elsewhere ledgerServiceUrl rows session input).state = .SEND_MONEY_AMOUNT ↔
      ∃ row ∈ rows, row.publicReference = input)
  keeps : ∀ (rows : List CustomerAccountRow) (session : UssdSession),
    session.state = .SEND_MONEY_RECIPIENT →
    (enterRecipient elsewhere ledgerServiceUrl rows session input).state = .SEND_MONEY_AMOUNT →
    ∃ row, row.publicReference = input ∧
      (enterRecipient elsewhere ledgerServiceUrl rows session input).recipientAccountId =
        some row.id ∧
      transferRecipient rows
        (enterRecipient elsewhere ledgerServiceUrl rows session input).recipientReference =
        some row

/-- A text that a URL and a form leave as it is at the end of a query. -/
structure IsLiteral (text : List Char) : Prop where
  marks : ∀ c ∈ text, c ∉ ['#', '&', '+', '\t', '\n', '\r']
  escapes : hasEscape text = false
  last : ∀ c ∈ text.getLast?, isStripped c = false

/-! ## What the Ledger reads -/

variable (text : List Char)

/-- What is left of the text entered in the query. -/
def inQuery : List Char :=
  ((text.rdropWhile isStripped).filter fun c => !isTabOrNewline c).takeWhile (· ≠ '#')

/-- The text whose decoding the Ledger takes for the reference. -/
def inReference : List Char := (inQuery text).takeWhile (· ≠ '&')

variable {elsewhere : List Char → Option Url} {ledgerServiceUrl : Url} {input : String}

theorem lookupTarget_eq (elsewhere : List Char → Option Url) (ledgerServiceUrl : Url)
    (input : String) :
    ∃ target, lookupTarget elsewhere ledgerServiceUrl input = some target ∧
      target.origin = ledgerServiceUrl.origin ∧ target.pathname = resolvePath.toList ∧
      target.query = some ("reference=".toList ++
        (inQuery input.toList).flatMap (utf8PercentEncode specialQuerySet)) := by
  have hplain : IsPlainPath "internal/channel-operations/resolve-account".toList := by
    have hall : ("internal/channel-operations/resolve-account".toList.all
        fun c => c == '/' || isPlain c) = true := by rfl
    intro c hc
    simpa using List.all_eq_true.mp hall c hc
  obtain ⟨path, fragment, hpath, hparse⟩ := parse_search elsewhere ledgerServiceUrl
    hplain (by simp) ("reference".toList ++ '=' :: input.toList)
  have hinput : (resolvePath ++ "?reference=" ++ input).toList =
      '/' :: "internal/channel-operations/resolve-account".toList ++
        '?' :: ("reference".toList ++ '=' :: input.toList) := by
    rw [String.toList_append, String.toList_append, List.append_assoc]
    rfl
  rw [rdropWhile_append_cons (by rfl), ← hinput] at hparse
  exact ⟨_, hparse, rfl, hpath, rfl⟩

/-- The entry of the query up to an ampersand. -/
theorem formEntry_reference :
    formEntry ("reference=".toList ++ text.flatMap (utf8PercentEncode specialQuerySet)) =
      ("reference".toList, formDecode text) := by
  rw [← formDecode_encoded fun c hc => specialQuerySet_hex hc]
  rfl

theorem parameters_eq {target : Url} {text : List Char}
    (h : target.query =
      some ("reference=".toList ++ text.flatMap (utf8PercentEncode specialQuerySet))) :
    ∃ more, parameters target =
        ("reference".toList, formDecode (text.takeWhile (· ≠ '&'))) :: more ∧
      ('&' ∉ text → more = []) := by
  have hname : '&' ∉ "reference=".toList := by decide
  have hpiece : ∀ front : List Char, '&' ∉ front →
      '&' ∉ "reference=".toList ++ front.flatMap (utf8PercentEncode specialQuerySet) :=
    fun front hfront => List.not_mem_append hname (ampersand_not_mem_encoded hfront)
  unfold parameters
  rw [h, Option.getD_some]
  by_cases hmem : '&' ∈ text
  · obtain ⟨front, rest, rfl, hfront⟩ := List.eq_append_cons_of_mem hmem
    have hkept : (front ++ '&' :: rest).takeWhile (· ≠ '&') = front := by
      rw [List.takeWhile_append_of_pos, List.takeWhile_cons_of_neg (by simp), List.append_nil]
      intro c hc
      exact decide_eq_true fun heq => hfront (heq ▸ hc)
    have hsplit : "reference=".toList ++
        (front ++ '&' :: rest).flatMap (utf8PercentEncode specialQuerySet) =
        ("reference=".toList ++ front.flatMap (utf8PercentEncode specialQuerySet)) ++
          '&' :: rest.flatMap (utf8PercentEncode specialQuerySet) := by
      rw [List.flatMap_append, List.append_assoc]
      rfl
    refine ⟨formParse (rest.flatMap (utf8PercentEncode specialQuerySet)), ?_,
      fun h => absurd hmem h⟩
    rw [hkept, hsplit, formParse_append (by simp) (hpiece front hfront), formEntry_reference]
  · have hall : text.takeWhile (· ≠ '&') = text := by
      rw [List.takeWhile_eq_self_iff]
      intro c hc
      exact decide_eq_true fun heq => hmem (heq ▸ hc)
    refine ⟨[], ?_, fun _ => rfl⟩
    rw [hall, formParse_single (by simp) (hpiece text hmem), formEntry_reference]

/-- The reference that the Ledger looks up. -/
theorem resolveAccountByReference_eq (elsewhere : List Char → Option Url)
    (ledgerServiceUrl : Url) (rows : List CustomerAccountRow) (input : String) :
    resolveAccountByReference elsewhere ledgerServiceUrl rows input =
      findAccount rows (formDecode (inReference input.toList)) := by
  obtain ⟨target, htarget, -, hpath, hquery⟩ := lookupTarget_eq elsewhere ledgerServiceUrl input
  obtain ⟨more, hparameters, -⟩ := parameters_eq hquery
  unfold resolveAccountByReference ledgerAnswer
  rw [htarget]
  dsimp only
  rw [if_neg (not_not.mpr hpath), hparameters, List.find?_cons_of_pos (by simp)]
  rfl

/-- An account is found by its own reference only. -/
theorem findAccount_cases (input : String) : (findAccount rows input.toList = .callError 404 ∧
        ∀ row ∈ rows, row.publicReference ≠ input) ∨
      ∃ row ∈ rows, row.publicReference = input ∧
        findAccount rows input.toList = .found row.customerId row.id row.maskedReference ∧
        transferRecipient rows (some input) = some row := by
  unfold findAccount transferRecipient
  simp only [String.toList_inj, Option.some.injEq]
  rcases hrow : rows.find? fun row => row.publicReference = input with _ | row
  · rw [hrow]
    refine .inl ⟨rfl, fun row hmem => ?_⟩
    simpa using List.find?_eq_none.mp hrow row hmem
  · rw [hrow]
    exact .inr ⟨row, List.mem_of_find?_eq_some hrow, by simpa using List.find?_some hrow, rfl, rfl⟩

/-! ## Texts that stay as they are -/

theorem inQuery_sublist : List.Sublist (inQuery text) text :=
  ((List.takeWhile_sublist _).trans List.filter_sublist).trans (List.rdropWhile_prefix _ _).sublist

/-- Each step from the text entered to the reference only leaves characters out. -/
theorem inReference_sublist : List.Sublist (inReference text) text :=
  (List.takeWhile_sublist _).trans (inQuery_sublist text)

/-- Nothing is left out of a text without the marks that end or split a query. -/
theorem inQuery_eq_self {text : List Char} (h : IsLiteral text) : inQuery text = text := by
  have hdrop : text.rdropWhile isStripped = text := by
    refine List.rdropWhile_eq_self_iff.mpr fun hne => ?_
    rw [h.last _ (List.getLast_mem_getLast? hne)]
    exact Bool.false_ne_true
  have hfilter : (text.filter fun c => !isTabOrNewline c) = text := by
    refine List.filter_eq_self.mpr fun c hc => ?_
    have hmarks := h.marks c hc
    simp only [List.mem_cons, not_or] at hmarks
    simp [isTabOrNewline, hmarks]
  have htake : text.takeWhile (· ≠ '#') = text := by
    refine List.takeWhile_eq_self_iff.mpr fun c hc => decide_eq_true ?_
    rintro rfl
    exact h.marks _ hc (by simp)
  unfold inQuery
  rw [hdrop, hfilter, htake]

theorem not_ampersand {text : List Char} (h : IsLiteral text) : '&' ∉ text :=
  fun hmem => h.marks _ hmem (by simp)

theorem inReference_eq_self {text : List Char} (h : IsLiteral text) : inReference text = text := by
  unfold inReference
  rw [inQuery_eq_self h, List.takeWhile_eq_self_iff]
  intro c hc
  refine decide_eq_true ?_
  rintro rfl
  exact not_ampersand h hc

theorem formDecode_of_literal {text : List Char} (h : IsLiteral text) : formDecode text = text :=
  formDecode_eq_self_iff.mpr ⟨fun hmem => h.marks _ hmem (by simp), h.escapes⟩

/-- A text that the Ledger looks up as it is has nothing that would be left out of it or
    read as something else. -/
theorem literal_of_formDecode {text : List Char} (h : formDecode (inReference text) = text) :
    IsLiteral text := by
  -- decoding does not make a text longer, so nothing was left out
  have hwhole : inReference text = text := by
    refine (inReference_sublist text).eq_of_length_le ?_
    have hle := (length_formDecode_le (inReference text)).1
    rwa [h] at hle
  rw [hwhole] at h
  obtain ⟨hplus, hescape⟩ := formDecode_eq_self_iff.mp h
  have hquery : inQuery text = text := by
    refine (inQuery_sublist text).eq_of_length_le ?_
    have hle := (List.takeWhile_sublist (· ≠ '&') (l := inQuery text)).length_le
    rwa [← inReference, hwhole] at hle
  have hdrop : text.rdropWhile isStripped = text := by
    have hsub : List.Sublist (inQuery text) (text.rdropWhile isStripped) :=
      (List.takeWhile_sublist _).trans List.filter_sublist
    rw [hquery] at hsub
    exact (List.rdropWhile_prefix _ _).eq_of_length_le hsub.length_le
  have hfilter : (text.filter fun c => !isTabOrNewline c) = text := by
    have hsub : List.Sublist (inQuery text) (text.filter fun c => !isTabOrNewline c) := by
      unfold inQuery
      rw [hdrop]
      exact List.takeWhile_sublist _
    rw [hquery] at hsub
    exact List.filter_sublist.eq_of_length_le hsub.length_le
  have hhash : text.takeWhile (· ≠ '#') = text := by
    unfold inQuery at hquery
    rwa [hdrop, hfilter] at hquery
  have hampersand : text.takeWhile (· ≠ '&') = text := by
    unfold inReference at hwhole
    rwa [hquery] at hwhole
  refine ⟨fun c hc hmark => ?_, hescape, fun c hc => ?_⟩
  · have htab := List.filter_eq_self.mp hfilter c hc
    have hne := List.takeWhile_eq_self_iff.mp hhash c hc
    have hne' := List.takeWhile_eq_self_iff.mp hampersand c hc
    simp only [List.mem_cons, List.not_mem_nil, or_false] at hmark
    rcases hmark with rfl | rfl | rfl | rfl | rfl | rfl
    · simp at hne
    · simp at hne'
    · exact hplus hc
    · cases htab
    · cases htab
    · cases htab
  · obtain ⟨hne, rfl⟩ := List.mem_getLast?_eq_getLast hc
    exact Bool.not_eq_true _ ▸ List.rdropWhile_eq_self_iff.mp hdrop hne

/-! ## The step -/

/-- A literal text is looked up as it is. -/
theorem lookup_of_literal (h : IsLiteral input.toList) :
    LiteralLookup elsewhere ledgerServiceUrl input := by
  have hreference : formDecode (inReference input.toList) = input.toList := by
    rw [inReference_eq_self h, formDecode_of_literal h]
  have hanswer : ∀ rows : List CustomerAccountRow,
      resolveAccountByReference elsewhere ledgerServiceUrl rows input =
        findAccount rows input.toList := by
    intro rows
    rw [resolveAccountByReference_eq, hreference]
  constructor
  · obtain ⟨target, htarget, horigin, hpath, hquery⟩ :=
      lookupTarget_eq elsewhere ledgerServiceUrl input
    obtain ⟨more, hparameters, hmore⟩ := parameters_eq hquery
    refine ⟨target, htarget, horigin, hpath, ?_⟩
    rw [hparameters, hmore (by rw [inQuery_eq_self h]; exact not_ampersand h)]
    show [("reference".toList, formDecode (inReference input.toList))] = _
    rw [hreference]
  · intro rows session hstate
    unfold enterRecipient
    rw [hanswer]
    rcases findAccount_cases rows input with ⟨hfound, hnone⟩ | ⟨row, hmem, hname, hfound, -⟩
    · rw [hfound]
      show session.state = .SEND_MONEY_AMOUNT ↔ _
      rw [hstate]
      constructor
      · intro hcase
        cases hcase
      · rintro ⟨row, hmem, hname⟩
        exact absurd hname (hnone row hmem)
    · rw [hfound]
      exact ⟨fun _ => ⟨row, hmem, hname⟩, fun _ => rfl⟩
  · intro rows session hstate haccepted
    unfold enterRecipient at haccepted ⊢
    rw [hanswer] at haccepted ⊢
    rcases findAccount_cases rows input with ⟨hfound, -⟩ | ⟨row, -, hname, hfound, htransfer⟩
    · rw [hfound] at haccepted
      change session.state = .SEND_MONEY_AMOUNT at haccepted
      rw [hstate] at haccepted
      cases haccepted
    · rw [hfound]
      exact ⟨row, hname, rfl, htransfer⟩

/-- A text that is looked up as it is is literal. -/
theorem literal_of_lookup (h : LiteralLookup elsewhere ledgerServiceUrl input) :
    IsLiteral input.toList := by
  obtain ⟨target, htarget, -, -, hasked⟩ := h.asks
  obtain ⟨target', htarget', -, -, hquery⟩ := lookupTarget_eq elsewhere ledgerServiceUrl input
  rw [htarget] at htarget'
  cases htarget'
  obtain ⟨more, hparameters, -⟩ := parameters_eq hquery
  rw [hparameters] at hasked
  have hentry := (List.cons.inj hasked).1
  exact literal_of_formDecode (Prod.mk.inj hentry).2

/-- The text that a user enters as the recipient is looked up as it is if and only if it has no
    `#`, `&`, `+`, tab or newline and no `%` before two hexadecimal digits, and does not end with
    a space or a control character. -/
theorem lookup_literal_iff (elsewhere : List Char → Option Url) (ledgerServiceUrl : Url)
    (input : String) :
    LiteralLookup elsewhere ledgerServiceUrl input ↔
      (∀ c ∈ input.toList, c ∉ ['#', '&', '+', '\t', '\n', '\r']) ∧
        hasEscape input.toList = false ∧ ∀ c ∈ input.toList.getLast?, isStripped c = false :=
  ⟨fun h => ⟨(literal_of_lookup h).marks, (literal_of_lookup h).escapes,
      (literal_of_lookup h).last⟩,
    fun h => lookup_of_literal ⟨h.1, h.2.1, h.2.2⟩⟩

/-! ## A reference with a fragment -/

/-- A session that waits for the recipient. -/
def waitingSession : UssdSession where
  state := .SEND_MONEY_RECIPIENT
  msisdn := "+94770000000"
  customerId := "customer-1"
  recipientReference := none
  recipientAccountId := none
  amountMinor := none

/-- An account of another customer. -/
def otherAccount : CustomerAccountRow where
  id := "account-2"
  customerId := "customer-2"
  publicReference := "AEGIS-ABCD-EFGH-2345"
  maskedReference := "AEGIS-****-2345"
  productType := .TIER0_WALLET
  currency := "LKR"
  status := .ACTIVE
  ledgerAccountId := "ledger-account-2"
  createdAt := 0

/-- The Ledger's base URL. -/
def localLedger : Url where
  scheme := .http
  username := ""
  password := ""
  host := "127.0.0.1"
  port := some 4102
  path := [[]]
  query := none
  fragment := none

/-- A reference with a fragment is accepted and kept, though no account has it. -/
theorem fragment_accepted : ¬ ∀ (rows : List CustomerAccountRow) (session : UssdSession)
    (input : String), session.state = .SEND_MONEY_RECIPIENT →
    ((enterRecipient (fun _ => none) localLedger rows session input).state = .SEND_MONEY_AMOUNT ↔
      ∃ row ∈ rows, row.publicReference = input) := by
  intro h
  have hfragment := h [otherAccount] waitingSession "AEGIS-ABCD-EFGH-2345#" rfl
  have haccepted : (enterRecipient (fun _ => none) localLedger [otherAccount] waitingSession
      "AEGIS-ABCD-EFGH-2345#").state = .SEND_MONEY_AMOUNT := by rfl
  obtain ⟨row, hrow, hreference⟩ := hfragment.mp haccepted
  rw [List.mem_singleton.mp hrow] at hreference
  exact absurd hreference (by decide)

end AegisShield.Payments
