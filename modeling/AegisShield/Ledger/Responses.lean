import AegisShield.Ledger.Invariant

/-!
# Stored responses

What the idempotency records say of the journals: the response that a record of
`JournalService.post` holds describes a committed journal, with the postings of a request that
has the hash of the record.

Results:
* `responses_reachable`: in every reachable state the records hold such responses, and every
  call of `post` that has returned has returned the one of its key.
-/

namespace AegisShield.Ledger

open Common

/-- The journal of a response is committed, with the postings of the response. -/
def Describes (result : JournalResult) (d : LedgerStore) : Prop :=
  (∃ entry, d.entries.find result.id = some entry) ∧
    ∀ p ∈ result.postings, ∃ row ∈ d.postingsOf result.id,
      row.id = p.id ∧ row.toPosting = p.toPosting

/-- The response of some request with the hash. -/
def RespondsTo (runtime : Runtime) (hash : String) (result : JournalResult) : Prop :=
  ∃ request postings, normalisePostings request.postings = .ok postings ∧
    canonicalRequestHash runtime (journalPayload request postings) = hash ∧
    result.postings.map JournalPostingResult.toPosting = postings

/-- What a record says: its response is that of a committed journal. -/
def ValidResponse (runtime : Runtime) (k : String × String) (hash : String) (body : LedgerResponse)
    (d : LedgerStore) : Prop :=
  k.1 = "journal-entry" → ∃ result, body = .journal result ∧ RespondsTo runtime hash result ∧
    Describes result d

/-- The contract of the calls, with what the records say. -/
def responseContract (runtime : Runtime) :
    Contract LedgerDb (StoredWrite LedgerWrite LedgerResponse) :=
  recordContract storeContract (ValidResponse runtime) (fun _ => False) fun _ => True

/-- The record of a call of `post` holds the response. -/
def Recorded (runtime : Runtime) (idempotencyKey : String) (response : LedgerResponse)
    (d : LedgerDb) : Prop :=
  ∃ record, d.records.find ("journal-entry", runtime.sha256 idempotencyKey) = some record ∧
    record.responseBody = some response

/-- What a call has returned is recorded. -/
def Answered (runtime : Runtime) (call : LedgerCall) (response : LedgerResponse)
    (d : LedgerDb) : Prop :=
  match call with
  | .post request _ _ => Recorded runtime request.idempotencyKey response d
  | .provisionDefault _ => True

section Responses

variable {runtime : Runtime} {s t : LedgerState} {d : LedgerDb}
  {a a' : LedgerStore}
  {result : JournalResult} {C : _ → Calls.Action Env LedgerCall → Prop}

theorem Describes.extends (h : Describes result a) (hextends : Extends a a') :
    Describes result a' := by
  obtain ⟨⟨entry, hentry⟩, hpostings⟩ := h
  refine ⟨⟨entry, hextends.entries _ _ hentry⟩, ?_⟩
  rw [hextends.postingsOf _ _ hentry]
  exact hpostings

theorem ValidResponse.extends {k : String × String} {hash : String} {body : LedgerResponse}
    (hextends : Extends a a') (h : ValidResponse runtime k hash body a) :
    ValidResponse runtime k hash body a' := by
  intro hk
  obtain ⟨result, hbody, hresponds, hdescribes⟩ := h hk
  exact ⟨result, hbody, hresponds, hdescribes.extends hextends⟩

/-- The response of a journal describes it. -/
theorem describes_posted {entry : JournalEntryRow} {rows : List JournalPostingRow}
    {updates : List (String × Totals)} {totalMinor : ℤ} (hfits : JournalFits a entry rows updates)
    (hposted : JournalPosted a a' entry rows updates) (hrows : a'.postingsOf entry.id = rows) :
    Describes (journalResult entry rows totalMinor) a' := by
  constructor
  · refine ⟨entry, ?_⟩
    show a'.entries.find entry.id = some entry
    rw [hposted.entries, Table.find_add hfits.entry_new]
    exact if_pos rfl
  · intro p hp
    obtain ⟨row, hrow, rfl⟩ := List.mem_map.mp hp
    refine ⟨row, ?_, rfl, rfl⟩
    show row ∈ a'.postingsOf entry.id
    rw [hrows]
    exact hrow

theorem map_journalResult (entry : JournalEntryRow) (rows : List JournalPostingRow)
    (totalMinor : ℤ) : (journalResult entry rows totalMinor).postings.map
      JournalPostingResult.toPosting = rows.map JournalPostingRow.toPosting := by
  show (rows.map _).map _ = _
  rw [List.map_map]
  rfl

/-- A response that `post` accepts is returned as it is. -/
theorem decode_journal {request : InternalJournalRequest} {correlationId : String}
    {actor : JournalActor} {postings : List Posting} {totalMinor : ℤ} {body response : LedgerResponse}
    (h : (journalOptions runtime request correlationId actor postings totalMinor).decode body =
      .ok response) : body = response := by
  cases body with
  | journal result =>
    simp only [journalOptions] at h
    split_ifs at h
    cases h
    rfl
  | account result => cases h

/-- A call of `post` keeps the contract and returns what its record holds. -/
theorem wp_post (request : InternalJournalRequest) (correlationId : String) (actor : JournalActor) :
    (post runtime request correlationId actor).Wp (stored ledgerDatabase)
      (responseContract runtime) (Recorded runtime request.idempotencyKey) (fun _ _ => True) d := by
  unfold post
  split
  · exact trivial
  next postings hnormal =>
    split
    · exact trivial
    next totalMinor hbalanced =>
      refine Client.wp_bind (Client.Wp.mono ?_ (fun _ _ _ => trivial)
        (wp_execute (fun _ _ _ _ _ hext h => h.extends hext) trivial ?_))
      · rintro ⟨response, replayed⟩ d ⟨record, body, hrecord, -, hbody, hvalue⟩
        refine ⟨record, hrecord, hbody.trans (congrArg some ?_)⟩
        cases replayed with
        | false => exact hvalue
        | true => exact decode_journal hvalue
      · rintro b ⟨-, log, hb⟩
        refine runs_journalRun hbalanced hb fun d d' entry rows updates hd' hfits hposted hrows hmap => ?_
        exact fun _ => ⟨_, rfl, ⟨request, postings, hnormal, rfl, (map_journalResult _ _ _).trans hmap⟩,
          describes_posted hfits hposted hrows⟩

theorem wp_provision (input : InternalProvisionDefaultAccountInput) :
    (provisionDefault runtime input).Wp (stored ledgerDatabase) (responseContract runtime)
      (fun _ _ => True) (fun _ _ => True) d := by
  refine Client.wp_bind (Client.Wp.mono (fun _ _ _ => trivial) (fun _ _ _ => trivial)
    (wp_execute (fun _ _ _ _ _ hext h => h.extends hext) trivial ?_))
  rintro a ⟨-, log, ha⟩
  refine (runs_provisionRun ha).mono (fun _ vs response d hcommits log hlog hdeferred => ?_)
    fun _ _ h => h
  obtain ⟨hinv, hguar, -⟩ := hcommits log hlog hdeferred
  exact ⟨hinv, hguar, fun hscope => absurd hscope (by simp [ExecuteOptions.recordKey, provisionOptions])⟩

/-- Every call keeps the contract. -/
theorem responses_sound (h : (ledger runtime).machine.Reachable C s) :
    (responseContract runtime).inv s.db (s.log.map Prod.snd) ∧ ∀ q ∈ s.procs,
      q.2.Wp (ledger runtime).database (responseContract runtime) (Answered runtime q.1)
        (fun _ _ => True) s.db := by
  refine Calls.sound (σ := responseContract runtime) (Q := Answered runtime)
    (R := fun _ _ _ => True) ?_ ?_ (fun _ _ _ _ _ _ => trivial) ?_ ?_ h
  · exact fun d d' hguar => ⟨hguar.1, fun k hk => absurd hk id, hguar.2.2⟩
  · rintro call response d d' ⟨⟨hkept, -⟩, -⟩ hanswered
    cases call with
    | post request correlationId actor =>
      obtain ⟨record, hrecord, hbody⟩ := hanswered
      exact ⟨record, hkept _ _ hrecord, hbody⟩
    | provisionDefault input => trivial
  · rintro d ⟨hrecords, settlementId, controlId, hne, happ⟩
    refine ⟨?_, fun k record hrecord => ?_, by simp, fun k => ?_⟩
    · rw [happ]
      exact storeInvariant_migrated hne
    · rw [hrecords] at hrecord
      cases hrecord
    · rw [hrecords]
      rfl
  · rintro call d log -
    cases call with
    | post request correlationId actor => exact wp_post request correlationId actor
    | provisionDefault input =>
      exact (wp_provision input).mono (fun _ _ _ => trivial) fun _ _ h => h

/-- The records describe committed journals, and calls have returned what is recorded. -/
theorem responses_reachable (h : (ledger runtime).machine.Reachable C s) :
    (∀ k record, s.db.records.find k = some record → ∃ body, record.responseBody = some body ∧
      ValidResponse runtime k record.requestHash body s.db.app) ∧
      ∀ call response, (call, .client (.ret response)) ∈ s.procs →
        Answered runtime call response s.db := by
  obtain ⟨⟨-, hrecords, -⟩, hprocs⟩ := responses_sound h
  exact ⟨fun k record hrecord => (hrecords k record hrecord).2,
    fun call response hmem => hprocs _ hmem⟩

/-- What the Ledger never takes back. -/
structure Grows (s t : LedgerState) : Prop where
  records : ∀ k record, s.db.records.find k = some record → t.db.records.find k = some record
  store : Extends s.db.app t.db.app
  postings : s.db.app.postings.rows <+: t.db.app.postings.rows
  procs : ∀ (n : ℕ) call proc, s.procs[n]? = some (call, proc) →
    ∃ proc', t.procs[n]? = some (call, proc')

theorem Grows.refl (s : LedgerState) : Grows s s where
  records _ _ hrecord := hrecord
  store := storeContract.refl _
  postings := List.prefix_refl _
  procs _ _ proc hn := ⟨proc, hn⟩

theorem rows_add_cases {ρ κ : Type} [Keyed ρ κ] [DecidableEq κ] (table : Table ρ) (row : ρ) :
    (table.add row).rows = table.rows ∨ (table.add row).rows = table.rows ++ [row] := by
  unfold Table.add
  cases hinsert : table.insert row with
  | none => exact .inl rfl
  | some table' => exact .inr (Table.insert_some hinsert).2

/-- Writes only add postings, those that they insert. -/
theorem postings_applyAll (ws : List LedgerWrite) (a : LedgerStore) :
    ∃ rows, (ledgerDatabase.applyAll a ws).postings.rows = a.postings.rows ++ rows ∧
      ∀ p ∈ rows, .createPosting p ∈ ws := by
  induction ws generalizing a with
  | nil => exact ⟨[], (List.append_nil _).symm, by simp⟩
  | cons w ws ih =>
    rw [Database.applyAll_cons]
    obtain ⟨rows, hrows, hmem⟩ := ih (applyWrite a w)
    have hlater : ∀ p ∈ rows, .createPosting p ∈ w :: ws :=
      fun p hp => List.mem_cons_of_mem w (hmem p hp)
    cases w with
    | createPosting posting =>
      rcases rows_add_cases a.postings posting with hsame | hadded
      · exact ⟨rows, hrows.trans (congrArg (· ++ rows) hsame), hlater⟩
      · refine ⟨posting :: rows, ?_, List.forall_mem_cons.mpr ⟨List.mem_cons_self, hlater⟩⟩
        rw [← List.singleton_append, ← List.append_assoc, ← hadded]
        exact hrows
    | createAccount | createCustomerAccount | createEntry | updateProjection =>
      exact ⟨rows, hrows, hlater⟩

/-- A step of the Ledger takes nothing back. -/
theorem grows_of_step (h : (ledger runtime).machine.Reachable C s)
    {action : Calls.Action Env LedgerCall} (hstep : (ledger runtime).machine.step s action = some t) :
    Grows s t := by
  obtain ⟨hinv, hprocs⟩ := responses_sound h
  have hguar := Calls.step_guar (Q := Answered runtime) (R := fun _ _ _ => True) hinv hprocs hstep
  refine ⟨?_, ?_, ?_, fun n call proc hn => ?_⟩
  · rcases hguar with hsame | hguar
    · rw [hsame]
      exact fun _ _ hrecord => hrecord
    · exact hguar.1
  · rcases hguar with hsame | hguar
    · rw [hsame]
      exact storeContract.refl _
    · exact hguar.2.2
  · cases action with
    | start call =>
      obtain rfl := Calls.step_start hstep
      exact List.prefix_refl _
    | next n move =>
      obtain ⟨i, p, p', -, -, ⟨-, rfl⟩ | ⟨ws, -, rfl⟩⟩ := Calls.step_next hstep
      · exact List.prefix_refl _
      · obtain ⟨rows, hrows, -⟩ := postings_applyAll (appWrites ws) s.db.app
        show _ <+: ((stored ledgerDatabase).applyAll s.db ws).app.postings.rows
        rw [applyAll_app, hrows]
        exact List.prefix_append _ _
  · obtain ⟨proc', hn', -⟩ := Calls.proc_step hstep hn
    exact ⟨proc', hn'⟩

end Responses

end AegisShield.Ledger
