import AegisShield.Payments.Ussd

/-!
# Isolation of USSD sessions

Requests that are served one after another. A session is stored under the id that its
requests name, with the customer and the number that opened it; no request is compared
with these.

Results:
* `ussd_isolation`: when every request that finds a session is from its opener, each customer and
  number gets the replies, and makes the transfers, of a run without the others.
* `hijacked`: otherwise a request pays from the session of another customer.
-/

namespace AegisShield.Payments

open Common

/-! ## Requests in a row -/

/-- The customer and the number of a request. -/
def UssdRequest.caller (request : UssdRequest) : String × String :=
  (request.activeCustomerId, request.msisdn)

/-- The customer and the number that opened a session. -/
def UssdSession.opener (session : UssdSession) : String × String :=
  (session.customerId, session.msisdn)

/-- A call of `handleWebhook` or `handleSimulate`. -/
inductive UssdStep where
  | webhook (sessionId msisdn input : String)
  | simulate (sessionId : Option String) (uuid input : String) (customerId : Option String)

def UssdStep.request : UssdStep → UssdRequest
  | .webhook sessionId msisdn input => webhookRequest sessionId msisdn input
  | .simulate sessionId uuid input customerId => simulateRequest sessionId uuid input customerId

/-- The steps of one call, with what each of them gets. -/
def ussdRun (runtime : UssdRuntime) (s : UssdShared) (call : UssdCall) :
    List UssdInput → Option (UssdShared × UssdCall)
  | [] => some (s, call)
  | x :: xs => (ussdNext runtime s call x).bind fun next => ussdRun runtime next.1 next.2 xs

/-- What the caller of a call that is over gets: a reply, or an error. -/
def UssdCall.outcome : UssdCall → Option (Option UssdReply)
  | .ended reply => some (some reply)
  | .thrown => some none
  | _ => none

/-- The shared state, and what each request got. -/
structure UssdLog where
  shared : UssdShared
  served : List (UssdRequest × Option UssdReply)

abbrev UssdTurnInput := UssdStep × List UssdInput

/-- Requests that are served one after another. -/
def ussdMachine (runtime : UssdRuntime) : Machine UssdLog UssdTurnInput where
  init s := s = { shared := .empty, served := [] }
  step s a := (ussdRun runtime s.shared (.loading a.1.request) a.2).bind fun last =>
    last.2.outcome.map fun outcome =>
      { shared := last.1, served := s.served ++ [(a.1.request, outcome)] }

/-- The session that a request finds is its own. -/
def ownSession (s : UssdShared) (request : UssdRequest) (now : ℕ) : Bool :=
  (Cell.get now (s.sessions request.sessionId)).all fun session =>
    session.opener = request.caller

/-- Every request that finds a session is from its opener. -/
def ownSessions (s : UssdLog) (a : UssdTurnInput) : Bool :=
  match a.2 with
  | .run e :: _ => ownSession s.shared a.1.request e.now
  | _ => true

/-- No session, and nothing served. -/
def noSessions : UssdLog where
  shared := .empty
  served := []

def callerIs (caller : String × String) (a : UssdTurnInput) : Bool := a.1.request.caller = caller

/-- What is said of a run: who a transfer is made for, and what a caller has without the others. -/
structure UssdIsolated (runtime : UssdRuntime) (as : List UssdTurnInput) (s : UssdLog) : Prop where
  /-- A transfer from a session is made at the request, and from the account, of the
      customer that opened it. -/
  acts : ∀ transfer ∈ s.shared.sent, transfer.request.caller = transfer.session.opener ∧
    transfer.command.senderCustomerId = transfer.session.customerId ∧
    transfer.command.sourceAccountId = transfer.session.customerId
  /-- Without the requests of others, a caller gets the same and makes the same transfers. -/
  alone : ∀ caller, ∃ t, (ussdMachine runtime).run noSessions (as.filter (callerIs caller)) = some t ∧
    t.served = s.served.filter (fun entry => entry.1.caller = caller) ∧
    t.shared.sent = s.shared.sent.filter (fun transfer => transfer.request.caller = caller)

/-! ## Sessions keep their opener -/

section Opener

variable {runtime : UssdRuntime} {s s' t : UssdShared} {call call' : UssdCall} {x : UssdInput}
  {request : UssdRequest} {session : UssdSession} {caller : String × String}

/-- The call is one of the request that has read its session. -/
def UssdCall.Of (request : UssdRequest) : UssdCall → Prop
  | .loading _ => False
  | .resolving r session | .paying r session | .storing r session _ =>
    r = request ∧ session.opener = request.caller
  | .awaiting r _ | .deleting r _ _ => r = request
  | .ended _ | .thrown => True

theorem afterMenu_of (h : session.opener = request.caller) :
    (afterMenu runtime request session).Of request := by
  unfold afterMenu ussdMenu
  cases session.state with
  | MAIN_MENU =>
    dsimp only
    by_cases hone : request.input = "1"
    · rw [if_pos hone]
      exact ⟨rfl, h⟩
    · rw [if_neg hone]
      by_cases htwo : request.input = "2"
      · rw [if_pos htwo]
        exact ⟨rfl, h⟩
      · rw [if_neg htwo]
        exact rfl
  | SEND_MONEY_AMOUNT =>
    dsimp only
    by_cases hamount : isUssdAmount request.input = true
    · rw [if_pos hamount]
      exact ⟨rfl, h⟩
    · rw [if_neg hamount]
      exact ⟨rfl, h⟩
  | SEND_MONEY_CONFIRM =>
    dsimp only
    by_cases hone : request.input = "1"
    · rw [if_pos hone]
      exact ⟨rfl, h⟩
    · rw [if_neg hone]
      exact rfl
  | SEND_MONEY_PIN =>
    dsimp only
    by_cases hpin : request.input ≠ "123456"
    · rw [if_pos hpin]
      exact rfl
    · rw [if_neg hpin]
      exact ⟨rfl, h⟩
  | WELCOME | BALANCE | SEND_MONEY_RECIPIENT => exact ⟨rfl, h⟩
  | _ => exact rfl

theorem recipientTurn_opener (answer : AccountAnswer) (input : String) :
    (recipientTurn session input answer).1.opener = session.opener := by
  cases answer with
  | found | callError | unavailable => rfl

/-- A request that finds its own session, or none, has the session of its caller. -/
theorem loadSession_opener {now : ℕ} (h : ownSession s request now = true) :
    (loadSession s request now).opener = request.caller := by
  unfold ownSession at h
  unfold loadSession
  cases hget : Cell.get now (s.sessions request.sessionId) with
  | none => rfl
  | some session =>
    rw [hget] at h
    exact of_decide_eq_true h

/-- A step of a call of a request is followed by one of the same request. -/
theorem UssdMove.of (hof : call.Of request) (h : UssdMove runtime s call x s' call') :
    call'.Of request := by
  cases h with
  | loaded hclock => exact absurd hof id
  | resolved => exact ⟨hof.1, (recipientTurn_opener _ _).trans hof.2⟩
  | sent => exact hof.1
  | answered => exact hof
  | stored | deleted | stopped => trivial

end Opener

/-! ## What a caller sees -/

/-- The part of a cell that belongs to the caller. -/
def cellOf (caller : String × String) (cell : Cell UssdSession) : Cell UssdSession :=
  cell.filter fun entry => entry.value.opener = caller

/-- `t` has the caller's part of `s`: its transfers, and from now on its sessions. -/
structure View (caller : String × String) (s t : UssdShared) : Prop where
  clock : t.clock ≤ s.clock
  sessions : ∀ id now, s.clock ≤ now →
    Cell.find now (t.sessions id) = cellOf caller (Cell.find now (s.sessions id))
  sent : t.sent = s.sent.filter fun transfer => transfer.request.caller = caller

/-- Nothing of the caller's is found under an id. -/
def Hidden (caller : String × String) (s : UssdShared) (id : String) : Prop :=
  ∀ now, s.clock ≤ now → cellOf caller (Cell.find now (s.sessions id)) = none

section View

variable {runtime : UssdRuntime} {s s' t : UssdShared} {call call' : UssdCall} {x : UssdInput}
  {request : UssdRequest} {session : UssdSession} {caller : String × String} {now : ℕ}

theorem cellOf_setEx (h : session.opener = caller) (later ttl : ℕ) :
    cellOf caller (Cell.find later (Cell.setEx now session ttl)) =
      Cell.find later (Cell.setEx now session ttl) := by
  cases hfind : Cell.find later (Cell.setEx now session ttl) with
  | none => rfl
  | some entry =>
    obtain ⟨hentry, -⟩ := Option.filter_eq_some_iff.mp hfind
    cases hentry
    rw [cellOf, Option.filter_some, if_pos (decide_eq_true h)]

theorem cellOf_setEx_ne (h : session.opener ≠ caller) (later ttl : ℕ) :
    cellOf caller (Cell.find later (Cell.setEx now session ttl)) = none := by
  unfold cellOf
  rw [Option.filter_eq_none_iff]
  intro entry hentry
  obtain ⟨hentry, -⟩ := Option.filter_eq_some_iff.mp hentry
  cases hentry
  exact fun hopener => h (of_decide_eq_true hopener)

/-- A caller that finds its own session, or none, finds it in its part. -/
theorem View.get (h : View caller s t) (hclock : s.clock ≤ now)
    (hown : ownSession s request now = true) (hcaller : request.caller = caller) :
    Cell.get now (t.sessions request.sessionId) = Cell.get now (s.sessions request.sessionId) := by
  unfold Cell.get
  rw [h.sessions _ _ hclock]
  unfold ownSession Cell.get at hown
  cases hfind : Cell.find now (s.sessions request.sessionId) with
  | none => rfl
  | some entry =>
    rw [hfind] at hown
    have hopener : entry.value.opener = caller := hcaller ▸ of_decide_eq_true hown
    unfold cellOf
    rw [Option.filter_some, if_pos (decide_eq_true hopener)]

/-- What is found later is found now. -/
theorem find_of_later {cell : Cell UssdSession} {later : ℕ} {entry : Entry UssdSession}
    (hle : now ≤ later) (h : Cell.find later cell = some entry) : Cell.find now cell = some entry := by
  obtain ⟨hcell, hlive⟩ := Option.filter_eq_some_iff.mp h
  exact Option.filter_eq_some_iff.mpr ⟨hcell, Entry.live_mono hlive hle⟩

/-- A request that finds its own session, or none, hides it from others. -/
theorem hidden_of_ownSession (hown : ownSession s request now = true)
    (hcaller : request.caller ≠ caller) : Hidden caller { s with clock := now } request.sessionId := by
  intro later hle
  unfold cellOf
  rw [Option.filter_eq_none_iff]
  intro entry hentry hopener
  unfold ownSession Cell.get at hown
  rw [find_of_later hle hentry] at hown
  exact hcaller ((of_decide_eq_true hown).symm.trans (of_decide_eq_true hopener))

/-! ## Steps of the caller -/

/-- The caller's request reads the same session in its part. -/
theorem View.own_load (h : View caller s t) (hcaller : request.caller = caller)
    (hown : ∀ e, x = .run e → ownSession s request e.now = true)
    (hmove : UssdMove runtime s (.loading request) x s' call') :
    ∃ t', ussdNext runtime t (.loading request) x = some (t', call') ∧ View caller s' t' ∧
      call'.Of request := by
  cases hmove with
  | @loaded _ e hclock =>
    have hload : loadSession t request e.now = loadSession s request e.now := by
      unfold loadSession
      rw [h.get hclock (hown e rfl) hcaller]
    refine ⟨{ t with clock := e.now }, ?_, ?_, afterMenu_of (loadSession_opener (hown e rfl))⟩
    · rw [ussdNext, if_pos (le_trans h.clock hclock), hload]
    · exact ⟨le_rfl, fun id now hle => h.sessions id now (le_trans hclock hle), h.sent⟩
  | stopped hx hstops => exact ⟨t, hstops t, h, trivial⟩

/-- The caller's call takes the same step in its part. -/
theorem View.own_next (h : View caller s t) (hcaller : request.caller = caller)
    (hof : call.Of request) (hmove : UssdMove runtime s call x s' call') :
    ∃ t', ussdNext runtime t call x = some (t', call') ∧ View caller s' t' := by
  cases hmove with
  | loaded hclock => exact absurd hof id
  | resolved | answered => exact ⟨t, rfl, h⟩
  | stopped hx hstops => exact ⟨t, hstops t, h⟩
  | @sent r session e =>
    refine ⟨_, rfl, h.clock, h.sessions, ?_⟩
    have hr : r.caller = caller := by rw [hof.1, hcaller]
    rw [List.filter_append, h.sent]
    simp [hr]
  | @stored r session message e hclock =>
    obtain ⟨rfl, hopener⟩ := hof
    refine ⟨storeSession t r.sessionId session e.now, ?_, le_rfl, ?_, h.sent⟩
    · rw [ussdNext, if_pos (le_trans h.clock hclock)]
    · intro id now hle
      by_cases hid : id = r.sessionId
      · rw [hid, storeSession_self, storeSession_self, cellOf_setEx (hopener.trans hcaller)]
      · rw [storeSession_of_ne hid, storeSession_of_ne hid]
        exact h.sessions id now (le_trans hclock hle)
  | @deleted r message sent e =>
    refine ⟨deleteSession t r.sessionId, rfl, h.clock, ?_, h.sent⟩
    intro id now hle
    by_cases hid : id = r.sessionId
    · rw [hid, deleteSession_self, deleteSession_self]
      rfl
    · rw [deleteSession_of_ne hid, deleteSession_of_ne hid]
      exact h.sessions id now hle

theorem View.own_run (hcaller : request.caller = caller) :
    ∀ (xs : List UssdInput) (s t : UssdShared) (call : UssdCall), View caller s t →
      call.Of request → ussdRun runtime s call xs = some (s', call') →
      ∃ t', ussdRun runtime t call xs = some (t', call') ∧ View caller s' t' := by
  intro xs
  induction xs with
  | nil =>
    intro s t call h hof hrun
    cases hrun
    exact ⟨t, rfl, h⟩
  | cons x xs ih =>
    intro s t call h hof hrun
    obtain ⟨⟨u, next⟩, hnext, hrest⟩ := Option.bind_eq_some_iff.mp hrun
    have hmove := ussdMove_of_next hnext
    obtain ⟨v, hv, hview⟩ := h.own_next hcaller hof hmove
    obtain ⟨t', ht', hview'⟩ := ih u v next hview (hmove.of hof) hrest
    refine ⟨t', ?_, hview'⟩
    rw [ussdRun, hv]
    exact ht'

/-! ## Steps of others -/

theorem View.other_load (h : View caller s t) (hcaller : request.caller ≠ caller)
    (hown : ∀ e, x = .run e → ownSession s request e.now = true)
    (hmove : UssdMove runtime s (.loading request) x s' call') :
    View caller s' t ∧ (call' = .thrown ∨ call'.Of request ∧ Hidden caller s' request.sessionId) := by
  cases hmove with
  | @loaded _ e hclock =>
    refine ⟨⟨le_trans h.clock hclock, ?_, h.sent⟩, .inr ⟨?_, ?_⟩⟩
    · exact fun id now hle => h.sessions id now (le_trans hclock hle)
    · exact afterMenu_of (loadSession_opener (hown e rfl))
    · exact hidden_of_ownSession (hown e rfl) hcaller
  | stopped hx hstops => exact ⟨h, .inl rfl⟩

/-- A step of another's call changes nothing that the caller has. -/
theorem View.other_next (h : View caller s t) (hcaller : request.caller ≠ caller)
    (hof : call.Of request) (hhidden : Hidden caller s request.sessionId)
    (hmove : UssdMove runtime s call x s' call') :
    View caller s' t ∧ Hidden caller s' request.sessionId := by
  cases hmove with
  | loaded hclock => exact absurd hof id
  | resolved | answered | stopped => exact ⟨h, hhidden⟩
  | @sent r session e =>
    refine ⟨⟨h.clock, h.sessions, ?_⟩, hhidden⟩
    have hr : r.caller ≠ caller := by rw [hof.1]; exact hcaller
    rw [List.filter_append, h.sent]
    simp [hr]
  | @stored r session message e hclock =>
    obtain ⟨rfl, hopener⟩ := hof
    have hhidden' : Hidden caller (storeSession s r.sessionId session e.now) r.sessionId := by
      intro now hle
      rw [storeSession_self]
      exact cellOf_setEx_ne (fun heq => hcaller (hopener.symm.trans heq)) _ _
    refine ⟨⟨le_trans h.clock hclock, ?_, h.sent⟩, hhidden'⟩
    intro id now hle
    rw [h.sessions id now (le_trans hclock hle)]
    by_cases hid : id = r.sessionId
    · rw [hid, hhidden now (le_trans hclock hle), hhidden' now hle]
    · rw [storeSession_of_ne hid]
  | @deleted r message sent e =>
    have hr : r = request := hof
    subst hr
    have hhidden' : Hidden caller (deleteSession s r.sessionId) r.sessionId := by
      intro now hle
      rw [deleteSession_self]
      rfl
    refine ⟨⟨h.clock, ?_, h.sent⟩, hhidden'⟩
    intro id now hle
    rw [h.sessions id now hle]
    by_cases hid : id = r.sessionId
    · rw [hid, hhidden now hle, hhidden' now hle]
    · rw [deleteSession_of_ne hid]

theorem View.other_run (hcaller : request.caller ≠ caller) :
    ∀ (xs : List UssdInput) (s : UssdShared) (call : UssdCall), View caller s t →
      call.Of request → Hidden caller s request.sessionId →
      ussdRun runtime s call xs = some (s', call') → View caller s' t := by
  intro xs
  induction xs with
  | nil =>
    intro s call h hof hhidden hrun
    cases hrun
    exact h
  | cons x xs ih =>
    intro s call h hof hhidden hrun
    obtain ⟨⟨u, next⟩, hnext, hrest⟩ := Option.bind_eq_some_iff.mp hrun
    have hmove := ussdMove_of_next hnext
    obtain ⟨hview, hhidden'⟩ := h.other_next hcaller hof hhidden hmove
    exact ih u next hview (hmove.of hof) hhidden' hrest

end View

/-! ## Runs -/

section Runs

variable {runtime : UssdRuntime} {caller : String × String}

/-- The log `t` is the caller's part of the log `s`. -/
def LogView (caller : String × String) (s t : UssdLog) : Prop :=
  View caller s.shared t.shared ∧ t.served = s.served.filter fun entry => entry.1.caller = caller

theorem ownSession_of_ownSessions {s : UssdLog} {step : UssdStep} {x : UssdInput}
    {xs : List UssdInput} (hC : ownSessions s (step, x :: xs) = true) :
    ∀ e, x = .run e → ownSession s.shared step.request e.now = true := by
  rintro e rfl
  exact hC

theorem own_step (s s' t : UssdLog) (a : UssdTurnInput) (ha : callerIs caller a = true)
    (hC : ownSessions s a = true) (h : LogView caller s t)
    (hstep : (ussdMachine runtime).step s a = some s') :
    ∃ t', (ussdMachine runtime).step t a = some t' ∧ LogView caller s' t' := by
  obtain ⟨step, xs⟩ := a
  have hcaller : step.request.caller = caller := of_decide_eq_true ha
  obtain ⟨⟨u, last⟩, hrun, hlast⟩ := Option.bind_eq_some_iff.mp hstep
  obtain ⟨outcome, houtcome, rfl⟩ := Option.map_eq_some_iff.mp hlast
  cases xs with
  | nil =>
    cases hrun
    cases houtcome
  | cons x xs =>
    obtain ⟨⟨u', next⟩, hnext, hrest⟩ := Option.bind_eq_some_iff.mp hrun
    obtain ⟨v', hv', hview', hof⟩ :=
      h.1.own_load hcaller (ownSession_of_ownSessions hC) (ussdMove_of_next hnext)
    obtain ⟨v, hv, hview⟩ := View.own_run hcaller xs u' v' next hview' hof hrest
    refine ⟨{ shared := v, served := t.served ++ [(step.request, outcome)] }, ?_, hview, ?_⟩
    · have hrun' : ussdRun runtime t.shared (.loading step.request) (x :: xs) = some (v, last) := by
        rw [ussdRun, hv']
        exact hv
      simp only [ussdMachine]
      rw [hrun', Option.bind_some, houtcome]
      rfl
    · rw [List.filter_append, h.2]
      simp [hcaller]

theorem other_step (s s' t : UssdLog) (a : UssdTurnInput) (ha : callerIs caller a = false)
    (hC : ownSessions s a = true) (h : LogView caller s t)
    (hstep : (ussdMachine runtime).step s a = some s') : LogView caller s' t := by
  obtain ⟨step, xs⟩ := a
  have hcaller : step.request.caller ≠ caller := of_decide_eq_false ha
  obtain ⟨⟨u, last⟩, hrun, hlast⟩ := Option.bind_eq_some_iff.mp hstep
  obtain ⟨outcome, houtcome, rfl⟩ := Option.map_eq_some_iff.mp hlast
  have hserved : t.served = (s.served ++ [(step.request, outcome)]).filter
      fun entry => entry.1.caller = caller := by
    rw [List.filter_append, h.2]
    simp [hcaller]
  refine ⟨?_, hserved⟩
  cases xs with
  | nil =>
    cases hrun
    cases houtcome
  | cons x xs =>
    obtain ⟨⟨u', next⟩, hnext, hrest⟩ := Option.bind_eq_some_iff.mp hrun
    obtain ⟨hview, hthrown | ⟨hof, hhidden⟩⟩ :=
      h.1.other_load hcaller (ownSession_of_ownSessions hC) (ussdMove_of_next hnext)
    · subst hthrown
      cases xs with
      | nil =>
        cases hrest
        exact hview
      | cons y ys =>
        obtain ⟨next', hnext', -⟩ := Option.bind_eq_some_iff.mp hrest
        cases y <;> cases hnext'
    · exact View.other_run hcaller xs u' next hview hof hhidden hrest

/-- Every transfer is made at the request, and from the account, of the customer that opened
    its session. -/
def Acts (s : UssdShared) : Prop :=
  ∀ transfer ∈ s.sent, transfer.request.caller = transfer.session.opener ∧
    transfer.command.senderCustomerId = transfer.session.customerId ∧
    transfer.command.sourceAccountId = transfer.session.customerId

theorem Acts.next {s s' : UssdShared} {call call' : UssdCall} {x : UssdInput} {request : UssdRequest}
    (h : Acts s) (hof : call.Of request) (hmove : UssdMove runtime s call x s' call') :
    Acts s' := by
  cases hmove with
  | loaded | resolved | answered | stored | deleted | stopped => exact h
  | @sent r session e =>
    intro transfer htransfer
    rcases List.mem_append.mp htransfer with hold | hnew
    · exact h transfer hold
    · rw [List.mem_singleton.mp hnew]
      have hopener : session.opener = r.caller := hof.1 ▸ hof.2
      have hcustomer : session.customerId = r.activeCustomerId := congrArg Prod.fst hopener
      exact ⟨hopener.symm, hcustomer.symm, hcustomer.symm⟩

theorem Acts.run {s' : UssdShared} {call' : UssdCall} {request : UssdRequest} :
    ∀ (xs : List UssdInput) (s : UssdShared) (call : UssdCall), Acts s → call.Of request →
      ussdRun runtime s call xs = some (s', call') → Acts s' := by
  intro xs
  induction xs with
  | nil =>
    intro s call h hof hrun
    cases hrun
    exact h
  | cons x xs ih =>
    intro s call h hof hrun
    obtain ⟨⟨u, next⟩, hnext, hrest⟩ := Option.bind_eq_some_iff.mp hrun
    have hmove := ussdMove_of_next hnext
    exact ih u next (h.next hof hmove) (hmove.of hof) hrest

theorem acts_step (s s' : UssdLog) (a : UssdTurnInput) (h : Acts s.shared)
    (hC : ownSessions s a = true) (hstep : (ussdMachine runtime).step s a = some s') :
    Acts s'.shared := by
  obtain ⟨step, xs⟩ := a
  obtain ⟨⟨u, last⟩, hrun, hlast⟩ := Option.bind_eq_some_iff.mp hstep
  obtain ⟨outcome, houtcome, rfl⟩ := Option.map_eq_some_iff.mp hlast
  cases xs with
  | nil =>
    cases hrun
    exact h
  | cons x xs =>
    obtain ⟨⟨u', next⟩, hnext, hrest⟩ := Option.bind_eq_some_iff.mp hrun
    have hmove := ussdMove_of_next hnext
    have hown := ownSession_of_ownSessions hC
    have hsame : Acts u' ∧ next.Of step.request := by
      cases hmove with
      | @loaded _ e hclock => exact ⟨h, afterMenu_of (loadSession_opener (hown e rfl))⟩
      | stopped hx hstops => exact ⟨h, trivial⟩
    exact Acts.run xs u' next hsame.1 hsame.2 hrest

end Runs

/-! ## Main results -/

/-- In every run in which a request that finds a session is from its opener, transfers are made
    for the opener of their session, and each caller gets what it gets without the others. -/
theorem ussd_isolation (runtime : UssdRuntime) (as : List UssdTurnInput) (s : UssdLog)
    (h : (ussdMachine runtime).runUnder ownSessions noSessions as = some s) :
    UssdIsolated runtime as s where
  acts := by
    have hs : (ussdMachine runtime).Reachable (fun s a => ownSessions s a = true) s :=
      (Machine.Reachable.init rfl).path (Machine.path_of_runUnder (fun _ _ h => h) as _ h)
    refine Machine.invariant (I := fun s => Acts s.shared) ?_ ?_ hs
    · rintro s rfl transfer htransfer
      cases htransfer
    · exact fun s a t hacts hC hstep => acts_step s t a hacts hC hstep
  alone caller := by
    have hstart : LogView caller noSessions noSessions :=
      ⟨⟨le_rfl, fun _ _ _ => rfl, rfl⟩, rfl⟩
    obtain ⟨t, ht, hview, hserved⟩ :=
      Machine.run_filter (callerIs caller) own_step other_step as _ _ _ hstart h
    exact ⟨t, ht, hserved, hview.sent⟩

/-- A turn of a customer in the simulator, in session `s-1`. -/
def simulated (customerId input : String) (xs : List UssdInput) : UssdTurnInput :=
  (.simulate (some "s-1") "" input (some customerId), xs)

/-- A customer prepares a transfer of 500 rupees. -/
def prepares (customerId : String) : List UssdTurnInput := [
  simulated customerId "" [.run (plainUssdEnv 0 ""), .run (plainUssdEnv 0 "")],
  simulated customerId "2" [.run (plainUssdEnv 0 ""), .run (plainUssdEnv 0 "")],
  simulated customerId "AEGIS-AAAA-BBBB-CCCC" [.run (plainUssdEnv 0 ""),
    .resolved (.found "customer-1" "account-1" "AEGIS-****-CCCC"), .run (plainUssdEnv 0 "")],
  simulated customerId "500" [.run (plainUssdEnv 0 ""), .run (plainUssdEnv 0 "")],
  simulated customerId "1" [.run (plainUssdEnv 0 ""), .run (plainUssdEnv 0 "")]]

/-- A customer enters the PIN. -/
def pays (customerId : String) : UssdTurnInput :=
  simulated customerId "123456" [.run (plainUssdEnv 0 ""), .run (plainUssdEnv 0 "transfer-1"),
    .answered .result, .run (plainUssdEnv 0 "")]

/-- Bob uses the session id after Alice has paid. -/
theorem ussd_isolation_two : ∃ s : UssdLog, s.shared.sent.length = 1 ∧
    UssdIsolated plainUssdRuntime (prepares "alice" ++ [pays "alice"] ++ prepares "bob") s := by
  have hrun : ((ussdMachine plainUssdRuntime).runUnder ownSessions noSessions
      (prepares "alice" ++ [pays "alice"] ++ prepares "bob")).any (fun s =>
        decide (s.shared.sent.length = 1)) = true := by decide
  obtain ⟨s, hs, hsent⟩ := (Option.any_eq_true _ _).mp hrun
  exact ⟨s, of_decide_eq_true hsent, ussd_isolation plainUssdRuntime _ s hs⟩

/-- Not in every run: Mallory enters the PIN in the session of Alice, and pays the recipient
    that Alice named. -/
theorem hijacked : ¬ ∀ (runtime : UssdRuntime) (as : List UssdTurnInput) (s : UssdLog),
    (ussdMachine runtime).run noSessions as = some s → UssdIsolated runtime as s := by
  intro h
  have hrun : ((ussdMachine plainUssdRuntime).run noSessions
      (prepares "alice" ++ [pays "mallory"])).any (fun s =>
        s.shared.sent.any fun transfer =>
          decide (transfer.request.caller ≠ transfer.session.opener)) = true := by decide
  obtain ⟨s, hs, hany⟩ := (Option.any_eq_true _ _).mp hrun
  obtain ⟨transfer, htransfer, hne⟩ := List.any_eq_true.mp hany
  exact of_decide_eq_true hne ((h plainUssdRuntime _ s hs).acts transfer htransfer).1

end AegisShield.Payments
