import AegisShield.Common.NumberText
import AegisShield.Ledger.Locking
import AegisShield.Ledger.PostOutcome

/-!
# The identity of a journal request

`normalisePostings` (`journal.service.ts`, lines 53-83) and the payload that `post` compares
repeated requests by (lines 135-157).

Results:
* `normalisePostings_merged`: the merged postings are one for each line, in the order of the first
  ones, with the totals of the lines.
* `journalPayload_iff`: two payloads are equal exactly when the fields of the entry are, and the
  totals of all lines.
* `posting_identity`: both, and merging again changes nothing as far as the totals can be written.
-/

namespace AegisShield.Ledger

open Common

/-! ## Merging -/

section Merging

variable {ps qs : List Posting} {p : Posting}

variable (lines : List (String × PostingDirection))

/-- Each of some lines once, in the order in which they occur first. -/
def firstLines : List (String × PostingDirection) :=
  lines.reverse.dedup.reverse

theorem nodup_firstLines : (firstLines lines).Nodup :=
  List.nodup_reverse.mpr (List.nodup_dedup _)

theorem mem_firstLines {lines : List (String × PostingDirection)}
    {line : String × PostingDirection} : line ∈ firstLines lines ↔ line ∈ lines := by
  unfold firstLines
  rw [List.mem_reverse, List.mem_dedup, List.mem_reverse]

theorem firstLines_concat (line : String × PostingDirection) : firstLines (lines ++ [line]) =
      if line ∈ lines then firstLines lines else firstLines lines ++ [line] := by
  unfold firstLines
  rw [List.reverse_append, List.reverse_singleton, List.singleton_append]
  by_cases hmem : line ∈ lines
  · rw [if_pos hmem, List.dedup_cons_of_mem (List.mem_reverse.mpr hmem)]
  · rw [if_neg hmem, List.dedup_cons_of_notMem (mt List.mem_reverse.mp hmem), List.reverse_cons]

/-- The merged postings: one for each line, with the totals of the lines. -/
structure Normalised (merged ps : List Posting) : Prop where
  lines : merged.map Posting.line = firstLines (ps.map Posting.line)
  totals : ∀ P, lineTotal merged P = lineTotal ps P

theorem Normalised.nodup (h : Normalised qs ps) : (qs.map Posting.line).Nodup := by
  rw [h.lines]
  exact nodup_firstLines _

/-- What one round of the loop does. -/
theorem Normalised.combine (h : Normalised qs ps) (p : Posting) :
    Normalised (combine qs p) (ps ++ [p]) := by
  have hmem : p.line ∈ qs.map Posting.line ↔ p.line ∈ ps.map Posting.line := by
    rw [h.lines, mem_firstLines]
  by_cases hold : p.line ∈ qs.map Posting.line
  · rw [combine_of_mem hold]
    refine ⟨?_, fun P => ?_⟩
    · rw [map_line_add, h.lines, List.map_append, List.map_singleton, firstLines_concat,
        if_pos (hmem.mp hold)]
    · rw [lineTotal_add h.nodup hold, h.totals, lineTotal_append, lineTotal_singleton]
  · rw [combine_of_not_mem hold]
    refine ⟨?_, fun P => ?_⟩
    · rw [List.map_append, List.map_append, h.lines, List.map_singleton, firstLines_concat,
        if_neg (mt hmem.mpr hold)]
    · rw [lineTotal_append, lineTotal_append, h.totals]

theorem Normalised.foldl (ps : List Posting) : Normalised (ps.foldl Ledger.combine []) ps := by
  induction ps using List.reverseRecOn with
  | nil => exact ⟨rfl, fun _ => rfl⟩
  | append_singleton ps p ih =>
    rw [List.foldl_append]
    exact ih.combine p

/-- Postings of different lines are merged already. -/
theorem foldl_combine_of_nodup (h : (ps.map Posting.line).Nodup) :
    ps.foldl Ledger.combine [] = ps := by
  induction ps using List.reverseRecOn with
  | nil => rfl
  | append_singleton ps p ih =>
    rw [List.map_append, List.map_singleton, List.nodup_append] at h
    rw [List.foldl_append, ih h.1]
    refine combine_of_not_mem fun hmem => ?_
    exact h.2.2 p.line hmem p.line (List.mem_singleton_self _) rfl

/-- **The merged postings are one for each line, with the totals of the lines.** -/
theorem normalisePostings_merged (h : normalisePostings ps = .ok qs) : Normalised qs ps := by
  rw [normalisePostings_eq] at h
  split_ifs at h with hamounts
  rw [← Except.ok.inj h]
  exact Normalised.foldl ps

/-- Merging again changes nothing, unless it throws. -/
theorem normalisePostings_again (h : normalisePostings ps = .ok qs) :
    normalisePostings qs = .ok qs ↔ ∀ q ∈ qs, q.amountMinor.natAbs < 10 ^ 24 := by
  rw [normalisePostings_eq, foldl_combine_of_nodup (normalisePostings_merged h).nodup]
  constructor
  · intro hagain
    split_ifs at hagain with hamounts
    exact hamounts
  · intro hamounts
    rw [if_pos hamounts]

/-- Merged postings of positive amounts. -/
theorem Normalised.merged (h : Normalised qs ps) (hpositive : ∀ q ∈ qs, 0 < q.amountMinor) :
    Merged qs ps :=
  ⟨h.nodup, fun line => by rw [h.lines, mem_firstLines], h.totals, hpositive⟩

/-- A line without postings has no total. -/
theorem mem_lines_of_total {id : String} {direction : PostingDirection}
    (h : accountTotal ps id direction ≠ 0) : (id, direction) ∈ ps.map Posting.line := by
  by_contra hnot
  refine h ?_
  rw [accountTotal_eq_lineTotal]
  unfold lineTotal
  rw [List.filter_eq_nil_iff.mpr]
  · rfl
  · intro p hp hline
    exact hnot (of_decide_eq_true hline ▸ List.mem_map_of_mem hp)

/-- Merged postings of equal totals are the same, in some order. -/
theorem Merged.perm {qs' ps' : List Posting} (h : Merged qs ps) (h' : Merged qs' ps')
    (htotals : ∀ id direction, accountTotal ps id direction = accountTotal ps' id direction) :
    qs.Perm qs' := by
  have hsub : ∀ {qs ps qs' ps' : List Posting}, Merged qs ps → Merged qs' ps' →
      (∀ id direction, accountTotal ps id direction = accountTotal ps' id direction) →
      ∀ p ∈ qs, p ∈ qs' := by
    intro qs ps qs' ps' h h' htotals p hp
    have hamount : p.amountMinor = accountTotal ps' p.ledgerAccountId p.direction := by
      rw [h.amount hp, htotals]
    have hpositive := h.positive p hp
    have hline : p.line ∈ qs'.map Posting.line :=
      (h'.lines p.line).mpr (mem_lines_of_total (by omega))
    obtain ⟨q, hq, hqp⟩ := List.mem_map.mp hline
    obtain ⟨hid, hdirection⟩ := Prod.mk.inj hqp
    have hqamount := h'.amount hq
    rw [hid, hdirection, ← hamount] at hqamount
    have heq : q = p := by
      obtain ⟨id, direction, amount⟩ := p
      obtain ⟨id', direction', amount'⟩ := q
      subst hid hdirection hqamount
      rfl
    exact heq ▸ hq
  refine (List.perm_ext_iff_of_nodup h.nodup.of_map h'.nodup.of_map).mpr fun p => ⟨?_, ?_⟩
  · exact hsub h h' htotals p
  · exact hsub h' h (fun id direction => (htotals id direction).symm) p

theorem accountTotal_perm (h : qs.Perm ps) (id : String) (direction : PostingDirection) :
    accountTotal qs id direction = accountTotal ps id direction := by
  rw [accountTotal_eq_lineTotal, accountTotal_eq_lineTotal]
  unfold lineTotal
  exact ((h.filter _).map _).sum_eq

end Merging

/-! ## The payload -/

section Payload

variable {ms ns : List Posting}

/-- A posting of the payload. -/
def postingJson (p : Posting) : Json :=
  .object [("ledgerAccountId", .string p.ledgerAccountId),
    ("direction", .string p.direction.text), ("amountMinor", .string (toString p.amountMinor))]

theorem postingDirection_text_inj {a b : PostingDirection} (h : a.text = b.text) : a = b := by
  cases a
  · cases b
    · rfl
    · exact absurd h (by decide)
  · cases b
    · exact absurd h (by decide)
    · rfl

theorem postingJson_inj {p q : Posting} (h : postingJson p = postingJson q) : p = q := by
  obtain ⟨id, direction, amount⟩ := p
  obtain ⟨id', direction', amount'⟩ := q
  simp only [postingJson, Json.object.injEq, List.cons.injEq, Prod.mk.injEq, Json.string.injEq,
    true_and, and_true] at h
  obtain ⟨rfl, hdirection, hamount⟩ := h
  obtain rfl := postingDirection_text_inj hdirection
  obtain rfl := int_inj (congrArg String.toList hamount)
  rfl

theorem optionalText_inj {a b : Option String} (h : optionalText a = optionalText b) : a = b := by
  cases a with
  | none =>
    cases b with
    | none => rfl
    | some b => cases h
  | some a =>
    cases b with
    | none => cases h
    | some b => rw [Json.string.inj h]

theorem entryType_text_inj {a b : JournalEntryType} (h : a.text = b.text) : a = b := by
  revert h
  cases a <;> cases b <;> first | exact fun _ => rfl | exact fun h => absurd h (by decide)

/-- Sorting merged postings does not depend on their order. -/
theorem insertionSort_postingLe (hnodup : (ms.map Posting.line).Nodup) (hperm : ms.Perm ns) :
    ms.insertionSort postingLe = ns.insertionSort postingLe := by
  have hle : ∀ {p q : Posting}, postingLe p q ↔ utf16 (postingKey p) ≤ utf16 (postingKey q) :=
    textLe_iff
  have htotal : Std.Total postingLe := ⟨fun p q => (le_total _ _).imp hle.mpr hle.mpr⟩
  have htrans : IsTrans Posting postingLe :=
    ⟨fun p q r hpq hqr => hle.mpr ((hle.mp hpq).trans (hle.mp hqr))⟩
  have hsorted := List.perm_insertionSort postingLe ms
  have hsorted' := List.perm_insertionSort postingLe ns
  refine List.Perm.eq_of_pairwise (fun p q hp hq hpq hqp => ?_)
    (List.pairwise_insertionSort postingLe ms) (List.pairwise_insertionSort postingLe ns)
    (hsorted.trans (hperm.trans hsorted'.symm))
  have hline := postingKey_eq_iff.mp (utf16_inj (le_antisymm (hle.mp hpq) (hle.mp hqp)))
  exact List.inj_on_of_nodup_map hnodup (hsorted.mem_iff.mp hp)
    (hperm.mem_iff.mpr (hsorted'.mem_iff.mp hq)) hline

/-- The fields of the entry are equal. -/
structure SameEntry (r s : InternalJournalRequest) : Prop where
  entryType : r.entryType = s.entryType
  currency : r.currency = s.currency
  reference : r.reference = s.reference
  description : r.description = s.description
  effectiveAt : r.effectiveAt = s.effectiveAt
  metadata : r.metadata.getD .undefined = s.metadata.getD .undefined

variable {r s : InternalJournalRequest}

theorem journalPayload_eq_iff :
    journalPayload r ms = journalPayload s ns ↔
      SameEntry r s ∧ ms.insertionSort postingLe = ns.insertionSort postingLe := by
  have hinj : Function.Injective postingJson := fun p q => postingJson_inj
  have hpostings : ∀ ms : List Posting, (ms.insertionSort postingLe).map (fun p =>
      Json.object [("ledgerAccountId", .string p.ledgerAccountId),
        ("direction", .string p.direction.text),
        ("amountMinor", .string (toString p.amountMinor))]) =
      (ms.insertionSort postingLe).map postingJson := fun _ => rfl
  unfold journalPayload
  rw [hpostings, hpostings]
  simp only [Json.object.injEq, List.cons.injEq, Prod.mk.injEq, Json.string.injEq,
    Json.array.injEq, true_and, and_true]
  rw [(List.map_injective_iff.mpr hinj).eq_iff]
  constructor
  · rintro ⟨htype, hcurrency, hreference, hdescription, heffective, hmetadata, hsorted⟩
    exact ⟨⟨entryType_text_inj htype, hcurrency, optionalText_inj hreference,
      optionalText_inj hdescription, optionalText_inj heffective, hmetadata⟩, hsorted⟩
  · rintro ⟨⟨htype, hcurrency, hreference, hdescription, heffective, hmetadata⟩, hsorted⟩
    rw [htype, hcurrency, hreference, hdescription, heffective, hmetadata, hsorted]
    exact ⟨rfl, rfl, rfl, rfl, rfl, rfl, rfl⟩

/-- **Two payloads are equal exactly when the fields of the entry and all totals are.** -/
theorem journalPayload_iff {total total' : ℤ}
    (hr : normalisePostings r.postings = .ok ms) (hbalanced : assertBalanced ms = .ok total)
    (hs : normalisePostings s.postings = .ok ns) (hbalanced' : assertBalanced ns = .ok total') :
    journalPayload r ms = journalPayload s ns ↔ SameEntry r s ∧ ∀ id direction,
      accountTotal r.postings id direction = accountTotal s.postings id direction := by
  have hms := normalisePostings_merged hr
  have hns := normalisePostings_merged hs
  have hmerged := hms.merged (assertBalanced_ok hbalanced).2.1
  have hmerged' := hns.merged (assertBalanced_ok hbalanced').2.1
  rw [journalPayload_eq_iff]
  refine and_congr_right fun _ => ⟨fun hsorted id direction => ?_, fun htotals => ?_⟩
  · have hperm : ms.Perm ns := (List.perm_insertionSort postingLe ms).symm.trans
      (hsorted ▸ List.perm_insertionSort postingLe ns)
    have htotal := accountTotal_perm hperm id direction
    rw [accountTotal_eq_lineTotal, accountTotal_eq_lineTotal, hms.totals, hns.totals] at htotal
    rw [accountTotal_eq_lineTotal, accountTotal_eq_lineTotal]
    exact htotal
  · exact insertionSort_postingLe hmerged.nodup (hmerged.perm hmerged' htotals)

end Payload

/-- **Merged postings keep the totals, and requests are identified by them.** -/
theorem posting_identity (runtime : Runtime) :
    (∀ ps, ((∃ merged, normalisePostings ps = .ok merged) ↔
        ∀ p ∈ ps, p.amountMinor.natAbs < 10 ^ 24) ∧
      ∀ merged, normalisePostings ps = .ok merged →
        (∀ id direction, accountTotal merged id direction = accountTotal ps id direction) ∧
        (merged.map Posting.line).Nodup ∧
        merged.map Posting.line = firstLines (ps.map Posting.line) ∧
        (normalisePostings merged = .ok merged ↔ ∀ q ∈ merged, q.amountMinor.natAbs < 10 ^ 24)) ∧
    ∀ (r s : InternalJournalRequest) (correlationId correlationId' : String)
      (actor actor' : JournalActor) (ms ns : List Posting) (total total' : ℤ),
      normalisePostings r.postings = .ok ms → assertBalanced ms = .ok total →
      normalisePostings s.postings = .ok ns → assertBalanced ns = .ok total' →
      ((journalOptions runtime r correlationId actor ms total).payload =
          (journalOptions runtime s correlationId' actor' ns total').payload ↔
        SameEntry r s ∧ ∀ id direction,
          accountTotal r.postings id direction = accountTotal s.postings id direction) := by
  refine ⟨fun ps => ⟨?_, fun merged h => ?_⟩, ?_⟩
  · rw [normalisePostings_eq]
    constructor
    · rintro ⟨merged, h⟩
      split_ifs at h with hamounts
      exact hamounts
    · intro hamounts
      exact ⟨_, if_pos hamounts⟩
  · have hmerged := normalisePostings_merged h
    refine ⟨fun id direction => ?_, hmerged.nodup, hmerged.lines, normalisePostings_again h⟩
    rw [accountTotal_eq_lineTotal, accountTotal_eq_lineTotal, hmerged.totals]
  · intro r s correlationId correlationId' actor actor' ms ns total total' hr hbalanced hs
      hbalanced'
    exact journalPayload_iff hr hbalanced hs hbalanced'

/-- The funding with its credit in two parts, one of them in front. -/
def splitFund : InternalJournalRequest :=
  { fund "funding-key-0001" with postings := [
      { ledgerAccountId := accountUuid "0002", direction := .CREDIT, amountMinor := 150 },
      { ledgerAccountId := accountUuid "0001", direction := .DEBIT, amountMinor := 400 },
      { ledgerAccountId := accountUuid "0002", direction := .CREDIT, amountMinor := 250 }] }

/-- The funding in parts has the payload of the funding. -/
theorem posting_identity_split :
    ∃ ms, normalisePostings splitFund.postings = .ok ms ∧
      (journalOptions plainRuntime splitFund "correlation-1" operator ms 400).payload =
        (journalOptions plainRuntime (fund "funding-key-0001") "correlation-2" operator
          (fund "funding-key-0001").postings 400).payload := by
  have hsplit : normalisePostings splitFund.postings = .ok [
      { ledgerAccountId := accountUuid "0002", direction := .CREDIT, amountMinor := 400 },
      { ledgerAccountId := accountUuid "0001", direction := .DEBIT, amountMinor := 400 }] := by
    decide +kernel
  have hwhole : normalisePostings (fund "funding-key-0001").postings =
      .ok (fund "funding-key-0001").postings := by
    decide +kernel
  refine ⟨_, hsplit, ((posting_identity plainRuntime).2 _ _ _ _ _ _ _ _ 400 400 hsplit
    (by decide +kernel) hwhole (by decide +kernel)).mpr ⟨⟨rfl, rfl, rfl, rfl, rfl, rfl⟩, ?_⟩⟩
  intro id direction
  have hpostings : (fund "funding-key-0001").postings =
      [{ ledgerAccountId := accountUuid "0001", direction := .DEBIT, amountMinor := 400 },
        { ledgerAccountId := accountUuid "0002", direction := .CREDIT, amountMinor := 400 }] := rfl
  rw [hpostings]
  unfold splitFund
  simp only [accountTotal_cons]
  split_ifs <;> simp [accountTotal, directionTotal]

/-- Two postings of the largest amount cannot be merged twice. -/
theorem merging_again_throws : ¬ ∀ ps merged,
    normalisePostings ps = .ok merged → normalisePostings merged = .ok merged := by
  intro h
  let p : Posting := { ledgerAccountId := "a", direction := .DEBIT, amountMinor := 10 ^ 24 - 1 }
  have hmerged : normalisePostings [p, p] = .ok [{ p with amountMinor := 2 * (10 ^ 24 - 1) }] := by
    rfl
  have hagain := (normalisePostings_again hmerged).mp (h _ _ hmerged) _ (List.mem_singleton_self _)
  exact absurd hagain (by decide)

end AegisShield.Ledger
