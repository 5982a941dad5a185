import CodexApi.Session.Context

/-!
# Turns that do not complete

A turn changes the history of its session only by `finishTurn` on a completed response that has an
id and an output. `Completes` describes that end of a turn; `failedTurn_intact` says that any other end
leaves the history as it was, and drops the upstream socket unless the request was refused with 400.
The last successful response can then be continued however many turns have failed since.
-/

namespace CodexApi

open Transition

variable {session session' : Session} {snapshotBytes : Snapshot → Nat} {turn : Turn}
  {events : TurnEvents}

/-! ### How a turn ends -/

/-- A terminal event that a snapshot can be made of: a completed response with a nonempty id and an
output. -/
structure StreamEnd.Storable (terminal : StreamEnd) : Prop where
  completed : terminal.completed = true
  id : ∃ id, id ≠ "" ∧ terminal.payload.pointer ["response", "id"] = some (.string id)
  output : ∃ output, terminal.payload.pointer ["response", "output"] = some (.array output)

/-- The turn gets to such a terminal event, and to the slot that delivers it. -/
structure Completes (session : Session) (turn : Turn) (events : TurnEvents) : Prop where
  /-- `prepare` succeeded. -/
  prepared : ∃ replies result, events.prepare = some replies ∧
    (session.prepare turn replies).result = some (.ok result)
  /-- The client took the stream. -/
  replied : events.replied = true
  /-- The stream came to its end. -/
  stream : ∃ terminal, events.stream = some terminal ∧ terminal.Storable
  /-- The slot was obtained. -/
  permit : events.permit = true

/-- What a turn leaves that does not complete: the history, and after anything but a refusal no
socket. A refusal leaves everything. -/
structure TurnIntact (session session' : Session) (turnEnd : TurnEnd) : Prop where
  history : SameHistory session session'
  refused : ∀ error, turnEnd = .error error → error.status = 400 → session' = session
  dropped : (∀ error, turnEnd = .error error → error.status ≠ 400) → session'.upstream = false

theorem sameHistory_disconnect (session : Session) : SameHistory session session.disconnect :=
  ⟨rfl, rfl, rfl⟩

/-- A terminal event that no snapshot can be made of drops the socket. -/
theorem finishTurn_of_not_storable {terminal : StreamEnd} (h : ¬ terminal.Storable)
    (input : List Value) (parameters : Value) :
    session.finishTurn snapshotBytes input parameters terminal = session.disconnect := by
  unfold Session.finishTurn
  simp only
  split
  · next responseId output hcompleted hid houtput =>
    obtain ⟨hid, hnonempty⟩ := Option.filter_eq_some_iff.mp hid
    obtain ⟨id, hid, hstr⟩ := Option.bind_eq_some_iff.mp hid
    obtain ⟨value, houtput, harray⟩ := Option.bind_eq_some_iff.mp houtput
    rw [Value.asStr_eq_some_iff.mp hstr] at hid
    rw [Value.asArray_eq_some_iff.mp harray] at houtput
    exact absurd ⟨(Bool.and_eq_true_iff.mp hcompleted).2, ⟨_, by simpa using hnonempty, hid⟩,
      ⟨_, houtput⟩⟩ h
  · rfl

/-- The end of a turn on a session whose socket is dropped. -/
theorem turnIntact_disconnect (h : SameHistory session session') {turnEnd : TurnEnd}
    (hend : ∀ error, turnEnd = .error error → error.status ≠ 400) :
    TurnIntact session session'.disconnect turnEnd where
  history := h.trans (sameHistory_disconnect session')
  refused := fun error herror hstatus => absurd hstatus (hend error herror)
  dropped := fun _ => rfl

/-- **A turn that does not complete leaves the history intact.** The cases are the exits of
`respond`. -/
theorem respond_intact (h : ¬ Completes session turn events) :
    TurnIntact session (session.respond snapshotBytes turn events).1
      (session.respond snapshotBytes turn events).2 := by
  have hprepared : SameHistory session
      (((events.prepare.map (session.prepare turn)).map (·.session)).getD session) := by
    cases events.prepare with
    | none => exact .refl session
    | some replies => exact sameHistory_prepare session turn replies
  unfold Session.respond
  simp only
  split
  · -- interrupted before `prepare` had a result
    refine turnIntact_disconnect hprepared fun error herror => ?_
    split_ifs at herror
    cases herror
    decide
  · next error hresult =>
    obtain ⟨prepared, hprepare, hresult⟩ := Option.bind_eq_some_iff.mp hresult
    obtain ⟨replies, hreplies, rfl⟩ := Option.map_eq_some_iff.mp hprepare
    split_ifs with hstatus
    · -- refused before anything was done
      rw [hreplies, Option.map_some, Option.map_some, Option.getD_some,
        prepare_of_badRequest hresult hstatus]
      exact {
        history := .refl session
        refused := fun _ _ _ => rfl
        dropped := fun hend => absurd hstatus (hend error rfl) }
    · refine turnIntact_disconnect hprepared fun error' herror => ?_
      cases herror
      exact hstatus
  · next input parameters hresult =>
    obtain ⟨prepared, hprepare, hresult⟩ := Option.bind_eq_some_iff.mp hresult
    obtain ⟨replies, hreplies, rfl⟩ := Option.map_eq_some_iff.mp hprepare
    cases hreplied : events.replied with
    | false => exact turnIntact_disconnect hprepared fun _ herror => by cases herror
    | true =>
      cases hstream : events.stream with
      | none => exact turnIntact_disconnect hprepared fun _ herror => by cases herror
      | some terminal =>
        cases hpermit : events.permit with
        | false => exact turnIntact_disconnect hprepared fun _ herror => by cases herror
        | true =>
          -- the slot was obtained, so the terminal event cannot be stored
          have hterminal : ¬ terminal.Storable := fun hstorable => h {
            prepared := ⟨replies, _, hreplies, hresult⟩
            replied := hreplied
            stream := ⟨terminal, hstream, hstorable⟩
            permit := hpermit }
          simp only [Bool.not_true, Bool.false_eq_true, if_false]
          rw [finishTurn_of_not_storable hterminal]
          exact turnIntact_disconnect hprepared fun _ herror => by cases herror

/-! ### Any number of failed turns -/

/-- The action does not complete a turn. -/
def SessionAction.Fails (session : Session) : SessionAction → Prop
  | .idle _ => True
  | .turn turn events => ¬ Completes session turn events

/-- The runs of a session in which no turn completes. -/
abbrev FailingRun (snapshotBytes : Snapshot → Nat) :=
  Run (restrict (fun w a w' => sessionStep snapshotBytes w a = w')
    fun w a => a.Fails w.session)

/-- An action that completes no turn keeps the history. -/
theorem sameHistory_step {w : SessionWorld} {a : SessionAction} (h : a.Fails w.session) :
    SameHistory w.session (sessionStep snapshotBytes w a).session := by
  cases a with
  | idle event =>
    rcases idleMessage_cases w.session event with hsame | hdropped
    · simp only [sessionStep, hsame]
      exact .refl w.session
    · simp only [sessionStep, hdropped]
      exact sameHistory_disconnect w.session
  | turn turn events => exact (respond_intact h).history

theorem sameHistory_of_run {w w' : SessionWorld} {as : List SessionAction}
    (h : FailingRun snapshotBytes w as w') : SameHistory w.session w'.session := by
  refine h.invariant (I := fun v => SameHistory w.session v.session) (fun v a v' hv hstep => ?_)
    (.refl w.session)
  obtain ⟨hfails, rfl⟩ := hstep
  exact hv.trans (sameHistory_step hfails)

/-- What a turn may continue depends on the history alone. -/
theorem fullInput_of_sameHistory (h : SameHistory session session') (previousId : Option String)
    (input : List Value) : session'.fullInput previousId input = session.fullInput previousId input := by
  unfold Session.fullInput
  rw [h.keyed, h.snapshot]

/-- The last completed response can be continued. -/
theorem fullInput_of_snapshot {snapshot : Snapshot} (hkeyed : session.keyed = true)
    (hsnapshot : session.snapshot = some snapshot) (input : List Value) :
    session.fullInput (some snapshot.responseId) input = .ok (snapshot.input ++ input) := by
  have hfound : session.snapshot.filter (·.responseId = snapshot.responseId) = some snapshot := by
    rw [hsnapshot, Option.filter_some]
    simp
  simp only [Session.fullInput, hkeyed, hfound, Bool.not_true, Bool.false_eq_true, if_false]

/-- **Failed turns are harmless.** Any turn on any session that does not complete leaves the history
intact. In any run without a completed turn the history stays as it was, so the last response that
completed before can be continued with everything it had. -/
theorem failedTurns_intact (snapshotBytes : Snapshot → Nat) :
    (∀ session turn events, ¬ Completes session turn events →
      TurnIntact session (session.respond snapshotBytes turn events).1
        (session.respond snapshotBytes turn events).2) ∧
    ∀ w as w', FailingRun snapshotBytes w as w' → SameHistory w.session w'.session ∧
      ∀ snapshot, w.session.keyed = true → w.session.snapshot = some snapshot → ∀ input,
        w'.session.fullInput (some snapshot.responseId) input = .ok (snapshot.input ++ input) := by
  refine ⟨fun session turn events h => respond_intact h, fun w as w' hrun => ?_⟩
  have hsame := sameHistory_of_run hrun
  refine ⟨hsame, fun snapshot hkeyed hsnapshot input => ?_⟩
  rw [fullInput_of_sameHistory hsame]
  exact fullInput_of_snapshot hkeyed hsnapshot input

/-- A turn whose stream is interrupted. -/
private def lostTurn : TurnEvents := { completedTurn "lost" with stream := none }

/-- A turn that continues the first one. -/
private def secondTurn : Turn := exampleTurn "second" [("previous_response_id", .string "r")]

/-- After an interrupted second turn the first one can still be continued. -/
theorem failedTurns_intact_lost :
    (sessionStep (fun _ => 0) afterFirstTurn (.turn secondTurn lostTurn)).session.fullInput
        (some "r") [.string "third"] =
      .ok [.string "first", .string "answer", .string "third"] := by
  have hlost : ¬ Completes afterFirstTurn.session secondTurn lostTurn := by
    rintro ⟨-, -, ⟨terminal, hstream, -⟩, -⟩
    cases hstream
  have hrun : FailingRun (fun _ => 0) afterFirstTurn [.turn secondTurn lostTurn]
      (sessionStep (fun _ => 0) afterFirstTurn (.turn secondTurn lostTurn)) :=
    .single ⟨hlost, rfl⟩
  have hsnapshot : ∃ snapshot, afterFirstTurn.session.snapshot = some snapshot ∧
      snapshot.responseId = "r" ∧ snapshot.input = [.string "first", .string "answer"] := by decide
  obtain ⟨snapshot, hsnapshot, hid, hinput⟩ := hsnapshot
  have hcontinued := ((failedTurns_intact (fun _ => 0)).2 _ _ _ hrun).2 snapshot (by decide)
    hsnapshot [.string "third"]
  rwa [hid, hinput] at hcontinued

end CodexApi
