import AegisShield.Payments.Channel

/-!
# Steps of a payment channel

Results:
* `move_of_next`: what one step of a call does.
* `Move.rows`, `Move.row_cases`: what it does to the rows and the history.
* `Move.claims`: a step claims one row at most.
* `Move.unique`: what the unique constraints keep apart stays apart.
* `side_reachable`, `row_reachable`: what every write to the other tables, or to a row,
  keeps holds of them in every reachable state.
* `draft_reachable`: a preview inserts from a draft that its checks have let through.
-/

namespace AegisShield.Payments

open Common

section Service

variable {Row S N I D X : Type} [Keyed Row String] (runtime : Runtime)
  (channel : Channel Row S N I D)

/-! ## What a step does -/

/-- The steps of a call, one constructor for each way it goes on. -/
inductive Move (s : ChannelShared Row S) : ChannelCall Row N I D → ChannelInput →
    ChannelShared Row S → ChannelCall Row N I D → Prop
  | drafted {input e draft} (hdraft : channel.draft s.rows s.side input e = .ok draft) :
      Move s (.previewing input) (.run e) s
        (.creating draft { readAt := e.now, claimsSeen := s.claims.length })
  | created {draft origin e row notes rows} (hcreate : channel.create draft e = .ok (row, notes))
      (hinsert : insertRow channel s.rows row = some rows) :
      Move s (.creating draft origin) (.run e) { s with
        rows := rows
        side := notes.foldl channel.apply s.side
        origins := s.origins ++ [(key row, origin)] } (.previewed row)
  | unknown {input e} (hkey : findByKey runtime channel s.rows input = none) :
      Move s (.confirming input) (.run e) s (.searching input)
  | replayed {input row e} (hkey : findByKey runtime channel s.rows input = some row)
      (hhash : channel.requestHash row = channel.hash input) :
      Move s (.confirming input) (.run e) s (.confirmed input row)
  | found {input row e} (htoken : findByToken runtime channel s.rows input = some row)
      (hchecks : channel.confirmable s.side row e.now = .ok ()) :
      Move s (.searching input) (.run e) s (.claiming input row)
  | claimed {input row current e} (hfind : s.rows.find (key row) = some current)
      (htaken : keyTaken channel s.rows (channel.claim current
        (runtime.sha256 input.idempotencyKey) (channel.hash input) e.now) = false) :
      Move s (.claiming input row) (.run e)
        (claimRow channel s (key row) input (channel.claim current
          (runtime.sha256 input.idempotencyKey) (channel.hash input) e.now) e.now)
        (.settling input (channel.claim current (runtime.sha256 input.idempotencyKey)
          (channel.hash input) e.now))
  | sent {input row e} :
      Move s (.settling input row) (.run e)
        { s with remote := s.remote.send (channel.command s.side row) } (.awaiting input row)
  | answered {input row outcome remote}
      (hanswer : s.remote.answer (channel.idempotencyKey (key row)) outcome = some remote)
      (hwrites : outcome.writes = true) :
      Move s (.awaiting input row) (.reply outcome) { s with remote := remote }
        (.answered input row outcome)
  | unanswered {input row outcome} :
      Move s (.awaiting input row) (.reply outcome) s (.confirmed input row)
  | completed {input row current result e} (hfind : s.rows.find (key row) = some current) :
      Move s (.answered input row (.result result)) (.run e)
        { s with rows := s.rows.put (channel.complete current result e.now) }
        (.noting input row (channel.complete current result e.now) (.result result)
          (channel.completeNotes row))
  | failed {input row current status code e} (hfind : s.rows.find (key row) = some current) :
      Move s (.answered input row (.callError status code)) (.run e)
        { s with rows := s.rows.put (channel.fail current e.now) }
        (.noting input row (channel.fail current e.now) (.callError status code)
          (channel.failNotes row code))
  | unwritten {input row outcome x} :
      Move s (.answered input row outcome) x s (.confirmed input row)
  | noted {input row updated outcome note notes e} :
      Move s (.noting input row updated outcome (note :: notes)) (.run e)
        { s with side := channel.apply s.side (note e.now) }
        (.noting input row updated outcome notes)
  | unnoted {input row updated outcome notes x} :
      Move s (.noting input row updated outcome notes) x s (.confirmed input row)
  | returned {input row updated outcome e} :
      Move s (.noting input row updated outcome []) (.run e) s (.confirmed input updated)
  | stopped {call x e} :
      Move s call x s (.thrown e)

variable {runtime channel} {s s' : ChannelShared Row S} {call call' : ChannelCall Row N I D}
  {input : ChannelInput}

omit [Keyed Row String] in
theorem afterFailure_cases (c : ConfirmInput) (row : Row) (outcome : LedgerOutcome) :
    afterFailure c row outcome = (.confirmed c row : ChannelCall Row N I D) ∨
      afterFailure c row outcome = (.thrown .other : ChannelCall Row N I D) := by
  cases outcome with
  | result result => exact .inl rfl
  | callError | unavailable => exact .inr rfl

theorem move_of_next (h : channelNext runtime channel s call input = some (s', call')) :
    Move runtime channel s call input s' call' := by
  unfold channelNext at h
  split at h
  · split at h
    · cases h
      exact .stopped
    · cases h
      exact .drafted ‹_›
  · split at h
    · cases h
      exact .stopped
    · split at h
      · cases h
        exact .stopped
      · cases h
        exact .created ‹_› ‹_›
  · split at h
    · cases h
      exact .unknown ‹_›
    · split_ifs at h with hhash
      · cases h
        exact .stopped
      · cases h
        exact .replayed ‹_› (not_not.mp hhash)
  · split at h
    · cases h
      exact .stopped
    · split at h
      · cases h
        exact .stopped
      · cases h
        exact .found ‹_› ‹_›
  · split at h
    · cases h
      exact .stopped
    · dsimp only at h
      split_ifs at h with htaken
      · cases h
        exact .stopped
      · cases h
        exact .claimed ‹_› (Bool.eq_false_iff.mpr htaken)
  · cases h
    exact .sent
  next c row outcome =>
    split at h
    · cases h
    next remote hanswer =>
      cases h
      cases hwrites : outcome.writes with
      | true => exact .answered hanswer hwrites
      | false =>
        have hsame : remote = s.remote := by
          cases outcome with
          | result result => cases hwrites
          | callError status code =>
            have hstatus : ¬ status < 500 := of_decide_eq_false hwrites
            simpa [Remote.answer, hstatus] using hanswer.symm
          | unavailable => simpa [Remote.answer] using hanswer.symm
        rw [hsame]
        exact .unanswered
  next c row outcome e =>
    split at h
    next current result hfind =>
      split_ifs at h with htaken
      · cases h
        exact .unwritten
      · cases h
        exact .completed hfind
    next current status code hfind =>
      cases h
      exact .failed hfind
    next outcome _ _ _ _ =>
      rcases afterFailure_cases (N := N) (I := I) (D := D) c row outcome with heq | heq
      · rw [heq] at h
        cases h
        exact .unwritten
      · rw [heq] at h
        cases h
        exact .stopped
  next c row outcome =>
    rcases afterFailure_cases (N := N) (I := I) (D := D) c row outcome with heq | heq
    · rw [heq] at h
      cases h
      exact .unwritten
    · rw [heq] at h
      cases h
      exact .stopped
  · cases h
    exact .returned
  · cases h
    exact .noted
  next c row updated outcome note notes =>
    rcases afterFailure_cases (N := N) (I := I) (D := D) c row outcome with heq | heq
    · rw [heq] at h
      cases h
      exact .unnoted
    · rw [heq] at h
      cases h
      exact .stopped
  iterate 5
    · cases h
      exact .stopped
  · cases h
  · cases h
  · cases h
  · cases h
    exact .stopped
  · cases h

/-! ## What a step does to the rows -/

/-- The write of `settle` for an outcome. -/
inductive Settles (channel : Channel Row S N I D) (current : Row) : LedgerOutcome → Row → Prop
  | completed (result : InternalLedgerTransferResult) (now : ℕ) :
      Settles channel current (.result result) (channel.complete current result now)
  | failed (status : ℕ) (code : Option String) (now : ℕ) :
      Settles channel current (.callError status code) (channel.fail current now)

/-- A step leaves the rows and the history alone, inserts a row, claims one or writes an
    outcome to one. -/
inductive RowsMove (runtime : Runtime) (channel : Channel Row S N I D) (s s' : ChannelShared Row S) :
    ChannelCall Row N I D → ChannelInput → ChannelCall Row N I D → Prop
  | kept {call call' x} (hrows : s'.rows = s.rows)
      (hclaims : s'.claims = s.claims) (horigins : s'.origins = s.origins) :
      RowsMove runtime channel s s' call x call'
  | created {draft origin e row notes} (hcreate : channel.create draft e = .ok (row, notes))
      (hinsert : insertRow channel s.rows row = some s'.rows)
      (hclaims : s'.claims = s.claims) (horigins : s'.origins = s.origins ++ [(key row, origin)]) :
      RowsMove runtime channel s s' (.creating draft origin) (.run e) (.previewed row)
  | claimed {input row current updated e} (hfind : s.rows.find (key row) = some current)
      (hupdated : updated = channel.claim current (runtime.sha256 input.idempotencyKey)
        (channel.hash input) e.now)
      (htaken : keyTaken channel s.rows updated = false)
      (hrows : s'.rows = s.rows.put updated) (hclaims : s'.claims = s.claims ++ [(key row, input)])
      (horigins : s'.origins = s.origins) :
      RowsMove runtime channel s s' (.claiming input row) (.run e) (.settling input updated)
  | settled {input row current updated outcome e notes} (hfind : s.rows.find (key row) = some current)
      (hsettles : Settles channel current outcome updated) (hrows : s'.rows = s.rows.put updated)
      (hclaims : s'.claims = s.claims) (horigins : s'.origins = s.origins) :
      RowsMove runtime channel s s' (.answered input row outcome) (.run e)
        (.noting input row updated outcome notes)

theorem Move.rows (h : Move runtime channel s call input s' call') :
    RowsMove runtime channel s s' call input call' := by
  cases h with
  | created hcreate hinsert => exact .created hcreate hinsert rfl rfl
  | claimed hfind htaken => exact .claimed hfind rfl htaken rfl rfl rfl
  | completed hfind => exact .settled hfind (.completed _ _) rfl rfl rfl
  | failed hfind => exact .settled hfind (.failed _ _ _) rfl rfl rfl
  | drafted | unknown | replayed | found | sent | answered | unanswered | unwritten | noted
  | unnoted | returned | stopped => exact .kept rfl rfl rfl

theorem Settles.key {current updated : Row} {outcome : LedgerOutcome}
    (h : Settles channel current outcome updated) : key updated = key current := by
  cases h with
  | completed result now => exact channel.complete_key _ _ _
  | failed status code now => exact channel.fail_key _ _

theorem Settles.terms {current updated : Row} {outcome : LedgerOutcome}
    (h : Settles channel current outcome updated) :
    channel.terms updated = channel.terms current := by
  cases h with
  | completed result now => exact channel.complete_terms _ _ _
  | failed status code now => exact channel.fail_terms _ _

theorem Settles.keyHash {current updated : Row} {outcome : LedgerOutcome}
    (h : Settles channel current outcome updated) :
    channel.keyHash updated = channel.keyHash current := by
  cases h with
  | completed result now => exact channel.complete_keyHash _ _ _
  | failed status code now => exact channel.fail_keyHash _ _

theorem Settles.requestHash {current updated : Row} {outcome : LedgerOutcome}
    (h : Settles channel current outcome updated) :
    channel.requestHash updated = channel.requestHash current := by
  cases h with
  | completed result now => exact channel.complete_requestHash _ _ _
  | failed status code now => exact channel.fail_requestHash _ _

/-! ## Finding rows again -/

variable {row current updated : Row} {rows rows' : Table Row} {id : String}

theorem find_insertRow (h : insertRow channel rows row = some rows') :
    rows'.find id = if key row = id then some row else rows.find id := by
  unfold insertRow at h
  split_ifs at h with hconflict
  exact Table.find_insert h

theorem find_insertRow_of_some (h : insertRow channel rows updated = some rows')
    (hrow : rows.find id = some row) : rows'.find id = some row := by
  rw [find_insertRow h, if_neg, hrow]
  rintro rfl
  unfold insertRow at h
  split_ifs at h with hconflict
  rw [(Table.insert_some h).1] at hrow
  cases hrow

/-- An update that keeps the terms of its row keeps those of every row. -/
theorem terms_put (hkey : key updated = key current)
    (hterms : channel.terms updated = channel.terms current)
    (hcurrent : rows.find (key current) = some current) (hrow : rows.find id = some row) :
    ∃ row', (rows.put updated).find id = some row' ∧ channel.terms row' = channel.terms row := by
  by_cases hid : key current = id
  · subst hid
    rw [hcurrent] at hrow
    cases hrow
    exact ⟨updated, Table.find_put_of_find hkey hcurrent, hterms⟩
  · exact ⟨row, by rw [Table.find_put_ne (hkey ▸ hid), hrow], rfl⟩

/-- A row stays in the table with its terms. -/
theorem Move.terms (h : Move runtime channel s call input s' call') (hrow : s.rows.find id = some row) :
    ∃ row', s'.rows.find id = some row' ∧ channel.terms row' = channel.terms row := by
  cases h.rows with
  | kept hrows hclaims horigins => exact ⟨row, by rw [hrows, hrow], rfl⟩
  | created hcreate hinsert hclaims horigins =>
    exact ⟨row, find_insertRow_of_some hinsert hrow, rfl⟩
  | claimed hfind hupdated htaken hrows hclaims horigins =>
    have hkey := Table.key_of_find hfind
    rw [← hkey] at hfind
    rw [hrows, hupdated]
    exact terms_put (channel.claim_key _ _ _ _) (channel.claim_terms _ _ _ _) hfind hrow
  | settled hfind hsettles hrows hclaims horigins =>
    have hkey := Table.key_of_find hfind
    rw [← hkey] at hfind
    rw [hrows]
    exact terms_put hsettles.key hsettles.terms hfind hrow

/-- The confirms that have claimed a row, in their order. -/
def claimsOf (s : ChannelShared Row S) (id : String) : List ConfirmInput :=
  (s.claims.filter fun claim => claim.1 = id).map Prod.snd

theorem claimsOf_of_eq (h : s'.claims = s.claims) (id : String) : claimsOf s' id = claimsOf s id := by
  unfold claimsOf
  rw [h]

variable {confirm : ConfirmInput} {initial : S → Prop} {other : S → X → Option S}
  {C : ChannelState Row S N I D → Pool.Action (ChannelStart I) ChannelInput (Outside X) → Prop}

theorem claimsOf_append {id' : String} (h : s'.claims = s.claims ++ [(id', confirm)]) :
    claimsOf s' id = if id' = id then claimsOf s id ++ [confirm] else claimsOf s id := by
  unfold claimsOf
  rw [h, List.filter_append, List.map_append]
  split_ifs with hid
  · simp [hid]
  · simp [hid]

theorem claimsOf_claimRow {id' : String} {now : ℕ} :
    claimsOf (claimRow channel s id' confirm updated now) id =
      if id' = id then claimsOf s id ++ [confirm] else claimsOf s id := claimsOf_append rfl

/-- Where a row comes from: it was there, or is new, was claimed or was settled in the step. -/
theorem Move.row_cases (h : Move runtime channel s call input s' call')
    (hrow : s'.rows.find id = some row) :
    (s.rows.find id = some row ∧ claimsOf s' id = claimsOf s id) ∨
    (s.rows.find id = none ∧ claimsOf s' id = claimsOf s id ∧ ∃ draft origin e notes,
      call = .creating draft origin ∧ input = .run e ∧ channel.create draft e = .ok (row, notes) ∧
      s.rows.rows.any (channel.conflicts row) = false) ∨
    (∃ confirm claimed current e, call = .claiming confirm claimed ∧ input = .run e ∧
      key claimed = id ∧ s.rows.find id = some current ∧
      claimsOf s' id = claimsOf s id ++ [confirm] ∧
      row = channel.claim current (runtime.sha256 confirm.idempotencyKey) (channel.hash confirm)
        e.now ∧
      keyTaken channel s.rows row = false ∧ call' = .settling confirm row) ∨
    ∃ confirm settled current outcome notes, call = .answered confirm settled outcome ∧
      key settled = id ∧ s.rows.find id = some current ∧ claimsOf s' id = claimsOf s id ∧
      Settles channel current outcome row ∧ call' = .noting confirm settled row outcome notes := by
  cases h.rows with
  | kept hrows hclaims horigins => exact .inl ⟨hrows ▸ hrow, claimsOf_of_eq hclaims id⟩
  | created hcreate hinsert hclaims horigins =>
    have hof := claimsOf_of_eq hclaims id
    rw [find_insertRow hinsert] at hrow
    unfold insertRow at hinsert
    split_ifs at hinsert with hconflict
    split_ifs at hrow with hid
    · cases hrow
      have hnone := hid ▸ (Table.insert_some hinsert).1
      exact .inr (.inl
        ⟨hnone, hof, _, _, _, _, rfl, rfl, hcreate, Bool.eq_false_iff.mpr hconflict⟩)
    · exact .inl ⟨hrow, hof⟩
  | claimed hfind hupdated htaken hrows hclaims horigins =>
    subst hupdated
    rw [hrows] at hrow
    have hof : claimsOf s' id = _ := claimsOf_append hclaims
    rcases Table.find_put_cases (channel.claim_key _ _ _ _) hfind hrow with ⟨hne, hold⟩ | ⟨hid, rfl⟩
    · rw [if_neg hne] at hof
      exact .inl ⟨hold, hof⟩
    · rw [if_pos hid] at hof
      exact .inr (.inr (.inl ⟨_, _, _, _, rfl, rfl, hid, hid ▸ hfind, hof, rfl, htaken, rfl⟩))
  | settled hfind hsettles hrows hclaims horigins =>
    have hof := claimsOf_of_eq hclaims id
    rw [hrows] at hrow
    rcases Table.find_put_cases hsettles.key hfind hrow with ⟨hne, hold⟩ | ⟨hid, rfl⟩
    · exact .inl ⟨hold, hof⟩
    · exact .inr (.inr (.inr ⟨_, _, _, _, _, rfl, hid, hid ▸ hfind, hof, hsettles, rfl⟩))

/-- A step adds one claim at most. -/
theorem Move.claims (h : Move runtime channel s call input s' call') (id : String) :
    claimsOf s' id = claimsOf s id ∨ ∃ confirm row current e, call = .claiming confirm row ∧
      input = .run e ∧ key row = id ∧ s.rows.find id = some current ∧
      claimsOf s' id = claimsOf s id ++ [confirm] := by
  cases h.rows with
  | kept hrows hclaims horigins | created hcreate hinsert hclaims horigins
  | settled hfind hsettles hrows hclaims horigins => exact .inl (claimsOf_of_eq hclaims id)
  | @claimed confirm row current updated e hfind hupdated htaken hrows hclaims horigins =>
    by_cases hid : key row = id
    · have hof := (claimsOf_append hclaims).trans (if_pos hid)
      exact .inr ⟨_, _, _, _, rfl, rfl, hid, hid ▸ hfind, hof⟩
    · exact .inl ((claimsOf_append hclaims).trans (if_neg hid))

/-- A row has the owner and the key of the row it was, or all others are as they were and
    none of them has both. -/
theorem Move.keyHash_cases (h : Move runtime channel s call input s' call')
    (hrow : s'.rows.find id = some row) :
    (∃ old, s.rows.find id = some old ∧ channel.terms row = channel.terms old ∧
      channel.keyHash row = channel.keyHash old) ∨
    ((∀ id' row', s'.rows.find id' = some row' → id' ≠ id → s.rows.find id' = some row') ∧
      ∀ id' other, s.rows.find id' = some other → id' ≠ id →
        (channel.terms other).owner = (channel.terms row).owner →
          channel.keyHash other ≠ channel.keyHash row) := by
  cases h.rows with
  | kept hrows hclaims horigins => exact .inl ⟨row, hrows ▸ hrow, rfl, rfl⟩
  | created hcreate hinsert hclaims horigins =>
    rw [find_insertRow hinsert] at hrow
    split_ifs at hrow with hid
    · cases hrow
      right
      constructor
      · intro id' row' hrow' hne
        rw [find_insertRow hinsert, if_neg (hid ▸ hne.symm)] at hrow'
        exact hrow'
      · intro id' other hother hne howner hsame
        unfold insertRow at hinsert
        split_ifs at hinsert with hconflict
        exact hconflict (List.any_eq_true.mpr
          ⟨other, (Table.find_some hother).1, channel.conflicts_key _ _ howner hsame⟩)
    · exact .inl ⟨row, hrow, rfl, rfl⟩
  | @claimed confirm claimed current updated e hfind hupdated htaken hrows hclaims horigins =>
    have hupdatedKey : key updated = key current := hupdated ▸ channel.claim_key _ _ _ _
    have hkey := hupdatedKey.trans (Table.key_of_find hfind)
    rw [hrows] at hrow
    rcases Table.find_put_cases hupdatedKey hfind hrow with ⟨-, hold⟩ | ⟨rfl, rfl⟩
    · exact .inl ⟨row, hold, rfl, rfl⟩
    · right
      constructor
      · intro id' row' hrow' hne
        rw [hrows, Table.find_put_ne (hkey ▸ hne.symm)] at hrow'
        exact hrow'
      · intro id' other hother hne howner hsame
        have hmem := Table.find_some hother
        have hother' := List.any_eq_false.mp htaken other hmem.1
        simp only [hkey, hmem.2, howner, hsame, decide_true, Bool.and_true] at hother'
        exact hother' (decide_eq_true hne)
  | @settled confirm settled current updated outcome e notes hfind hsettles hrows hclaims horigins =>
    rw [hrows] at hrow
    rcases Table.find_put_cases hsettles.key hfind hrow with ⟨-, hold⟩ | ⟨rfl, rfl⟩
    · exact .inl ⟨row, hold, rfl, rfl⟩
    · exact .inl ⟨current, hfind, hsettles.terms, hsettles.keyHash⟩

/-- What the unique constraints keep apart, and no update changes, stays apart. -/
theorem Move.unique {α : Type*} (attr : Row → α)
    (hconflicts : ∀ new row, attr row = attr new → channel.conflicts new row = true)
    (hclaim : ∀ row k h now, attr (channel.claim row k h now) = attr row)
    (hsettles : ∀ current outcome updated, Settles channel current outcome updated →
      attr updated = attr current)
    (h : Move runtime channel s call input s' call')
    (hunique : ∀ id id' row row', s.rows.find id = some row → s.rows.find id' = some row' →
      attr row = attr row' → id = id') :
    ∀ id id' row row', s'.rows.find id = some row → s'.rows.find id' = some row' →
      attr row = attr row' → id = id' := by
  have hcases : ∀ id row, s'.rows.find id = some row →
      (∃ old, s.rows.find id = some old ∧ attr row = attr old) ∨
        ∃ draft origin e notes, call = .creating draft origin ∧ input = .run e ∧
          channel.create draft e = .ok (row, notes) ∧
          s.rows.rows.any (channel.conflicts row) = false := by
    intro id row hrow
    rcases h.row_cases hrow with ⟨hold, -⟩ |
      ⟨-, -, draft, origin, e, notes, hcall, hinput, hcreate, hfree⟩ |
      ⟨confirm, claimed, current, e, -, -, -, hfind, -, rfl, -, -⟩ |
      ⟨confirm, settled, current, outcome, notes, -, -, hfind, -, hsettled, -⟩
    · exact .inl ⟨row, hold, rfl⟩
    · exact .inr ⟨draft, origin, e, notes, hcall, hinput, hcreate, hfree⟩
    · exact .inl ⟨current, hfind, hclaim _ _ _ _⟩
    · exact .inl ⟨current, hfind, hsettles _ _ _ hsettled⟩
  have hnew : ∀ (id : String) (old new : Row), s.rows.find id = some old →
      s.rows.rows.any (channel.conflicts new) = false → attr old ≠ attr new := by
    intro id old new hold hfree hsame
    have hnot := List.any_eq_false.mp hfree old (Table.find_some hold).1
    exact hnot (hconflicts new old hsame)
  intro id id' row row' hrow hrow' hsame
  rcases hcases id row hrow with ⟨old, hold, hattr⟩ |
    ⟨draft, origin, e, notes, hcall, hinput, hcreate, hfree⟩
  · rcases hcases id' row' hrow' with ⟨old', hold', hattr'⟩ | ⟨-, -, -, -, -, -, -, hfree'⟩
    · exact hunique id id' old old' hold hold' (by rw [← hattr, ← hattr', hsame])
    · exact absurd (hattr ▸ hsame) (hnew id old row' hold hfree')
  · rcases hcases id' row' hrow' with ⟨old', hold', hattr'⟩ |
      ⟨draft', origin', e', notes', hcall', hinput', hcreate', -⟩
    · exact absurd (hattr' ▸ hsame.symm) (hnew id' old' row hold' hfree)
    · rw [hcall] at hcall'
      rw [hinput] at hinput'
      cases hcall'
      cases hinput'
      rw [hcreate] at hcreate'
      cases hcreate'
      exact (Table.key_of_find hrow).symm.trans (Table.key_of_find hrow')

/-- A step makes writes to the other tables. -/
theorem Move.side (h : Move runtime channel s call input s' call') :
    ∃ notes : List N, s'.side = notes.foldl channel.apply s.side := by
  cases h with
  | created | claimed => exact ⟨_, rfl⟩
  | @noted _ _ _ _ note _ e => exact ⟨[note e.now], rfl⟩
  | drafted | unknown | replayed | found | sent | answered | unanswered | completed | failed
  | unwritten | unnoted | returned | stopped => exact ⟨[], rfl⟩

/-! ## Conditions on claims -/

/-- The claims of a run meet `p`, of the tables, the confirm, the row as it is then, and what
    the step gets. -/
def claimsMeet (p : ChannelShared Row S → ConfirmInput → Row → Env → Bool)
    (s : ChannelState Row S N I D) :
    Pool.Action (ChannelStart I) ChannelInput (Outside X) → Bool
  | .next n (.run e) =>
    match s.calls[n]? with
    | some (.claiming input row) =>
      (s.shared.rows.find (key row)).all fun current => p s.shared input current e
    | _ => true
  | _ => true

theorem claimsMeet_claiming {p : ChannelShared Row S → ConfirmInput → Row → Env → Bool}
    {s : ChannelState Row S N I D} {n : ℕ} {e : Env}
    (hmeets : claimsMeet (X := X) p s (.next n (.run e)) = true)
    (hcall : s.calls[n]? = some (.claiming confirm row))
    (hfind : s.shared.rows.find (key row) = some current) : p s.shared confirm current e = true := by
  simpa [claimsMeet, hcall, hfind] using hmeets

/-- The environment leaves the rows and the history alone. -/
theorem env_spec {x : Outside X}
    (h : (channelService runtime channel initial other).env s x = some s') :
    s'.rows = s.rows ∧ s'.claims = s.claims ∧ s'.origins = s.origins ∧
      (s'.remote = s.remote ∨ ∃ k, s.remote.post k = some s'.remote) := by
  cases x with
  | post k =>
    obtain ⟨remote, hremote, rfl⟩ := Option.map_eq_some_iff.mp h
    exact ⟨rfl, rfl, rfl, .inr ⟨k, hremote⟩⟩
  | other x =>
    obtain ⟨side, -, rfl⟩ := Option.map_eq_some_iff.mp h
    exact ⟨rfl, rfl, rfl, .inl rfl⟩

/-- What every write to the other tables keeps holds of them in every reachable state. -/
theorem side_reachable {P : S → Prop} {s : ChannelState Row S N I D}
    (hinitial : ∀ d, initial d → P d) (happly : ∀ d note, P d → P (channel.apply d note))
    (hother : ∀ d x d', P d → other d x = some d' → P d')
    (h : (channelService runtime channel initial other).machine.Reachable C s) :
    P s.shared.side := by
  have hfold : ∀ (notes : List N) (d : S), P d → P (notes.foldl channel.apply d) := by
    intro notes
    induction notes with
    | nil => exact fun d hd => hd
    | cons note notes ih => exact fun d hd => ih _ (happly d note hd)
  refine Machine.invariant (I := fun s => P s.shared.side) ?_ ?_ h
  · rintro s ⟨⟨-, hs, -⟩, -⟩
    exact hinitial _ hs
  · intro s a t hs hC hstep
    cases a with
    | start call =>
      rw [Pool.step_start hstep]
      exact hs
    | env x =>
      obtain ⟨s', henv, rfl⟩ := Pool.step_env hstep
      cases x with
      | post k =>
        obtain ⟨remote, -, rfl⟩ := Option.map_eq_some_iff.mp henv
        exact hs
      | other x =>
        obtain ⟨side, hside, rfl⟩ := Option.map_eq_some_iff.mp henv
        exact hother _ _ _ hs hside
    | next n x =>
      obtain ⟨call, s', call', -, hnext, rfl⟩ := Pool.step_next hstep
      obtain ⟨notes, hside⟩ := (move_of_next hnext).side
      show P s'.side
      rw [hside]
      exact hfold notes _ hs

/-- What the preview establishes of a row, and every write to it keeps, holds of the rows
    and of those about to be settled in every reachable state. -/
theorem row_reachable {P : Row → Prop} {s : ChannelState Row S N I D}
    (hcreate : ∀ d e row notes, channel.create d e = .ok (row, notes) → P row)
    (hclaim : ∀ row k h now, P row → P (channel.claim row k h now))
    (hsettle : ∀ current outcome updated, Settles channel current outcome updated → P current →
      P updated) (h : (channelService runtime channel initial other).machine.Reachable C s) :
    (∀ id row, s.shared.rows.find id = some row → P row) ∧
      ∀ call ∈ s.calls, ∀ input row, call = .settling input row → P row := by
  refine Pool.invariant (G := fun s => ∀ id row, s.rows.find id = some row → P row)
    (A := fun _ call => ∀ input row, call = .settling input row → P row) ?_ ?_ ?_ ?_ h
  · rintro s ⟨hrows, -⟩ id row hfind
    rw [Table.find, hrows] at hfind
    cases hfind
  · intro s start _ input row hcall
    cases start with
    | preview | confirm => cases hcall
  · intro p n x call s' call' hrows hcalls _ hcall hnext
    have hmove := move_of_next hnext
    refine ⟨fun id row hfind => ?_, fun input row hsettling => ?_,
      fun m other _ hother => hcalls other (Pool.mem_of_getElem? hother)⟩
    · cases hmove.rows with
      | kept hkept _ _ => exact hrows id row (hkept ▸ hfind)
      | created hnew hinsert _ _ =>
        rw [find_insertRow hinsert] at hfind
        split_ifs at hfind with hid
        · cases hfind
          exact hcreate _ _ _ _ hnew
        · exact hrows id row hfind
      | claimed hcurrent hupdated _ hput _ _ =>
        have hold := hrows _ _ hcurrent
        rw [hput] at hfind
        subst hupdated
        rcases Table.find_put_cases (channel.claim_key _ _ _ _) hcurrent hfind with
          ⟨-, hother⟩ | ⟨-, rfl⟩
        · exact hrows id row hother
        · exact hclaim _ _ _ _ hold
      | settled hcurrent hsettles hput _ _ =>
        have hold := hrows _ _ hcurrent
        rw [hput] at hfind
        rcases Table.find_put_cases hsettles.key hcurrent hfind with ⟨-, hother⟩ | ⟨-, rfl⟩
        · exact hrows id row hother
        · exact hsettle _ _ _ hsettles hold
    · cases hmove with
      | claimed hfind _ =>
        cases hsettling
        exact hclaim _ _ _ _ (hrows _ _ hfind)
      | _ => cases hsettling
  · intro p x s' hrows _ henv
    obtain ⟨hkept, -⟩ := env_spec henv
    exact ⟨hkept ▸ hrows, fun call hcall => hcall⟩

end Service

end AegisShield.Payments
