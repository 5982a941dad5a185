import CodexApi.Delivery.Outputs
import CodexApi.Delivery.ResponsesRespect

/-!
# Code that serves its client

The contract of the code of an HTTP operation towards its client and the ledger (`serve`). Its ghost
state, a `Serving`, knows what the client is still to get: code only passes on what is owed next, and
only listens to the upstream when nothing is owed. A terminal event makes a booking due, and the code
orders it, with the usage of the event, before it does anything else. Code ends when nothing is owed,
or when it has been told to stop.
-/

namespace CodexApi.Delivery

open Program (Contract Safe bind_op perform safe_pure)

/-! ### The contract -/

/-- How far the answer of an HTTP operation is. -/
structure Serving where
  mode : Mode
  /-- What has come and has not been passed on. -/
  owed : List Output
  /-- The terminal event that has come and has not been booked. -/
  due : Option TerminalEvent
  /-- The code has been told to stop. -/
  halted : Bool

/-- An operation that has been told nothing. -/
def Serving.start (mode : Mode) : Serving := ⟨mode, [], none, false⟩

/-- The terminal event that a cause is. -/
def Cause.terminal? : Cause → Option TerminalEvent
  | .terminal event => some event
  | _ => none

/-- A message of the upstream. -/
def Serving.hear (isHttpDate : String → Bool) (g : Serving) (said : Said) (cause : Cause) :
    Serving :=
  { g with
    mode := (g.mode.step isHttpDate said).1
    owed := g.owed ++ (g.mode.step isHttpDate said).2
    due := cause.terminal? }

/-- Something that has been passed on, or not. -/
def Serving.pass (g : Serving) (ok : Bool) : Serving :=
  if ok then { g with owed := g.owed.tail } else { g with halted := true }

/-- A call that tells the code to stop when it fails. -/
def Serving.check (g : Serving) (ok : Bool) : Serving :=
  if ok then g else { g with halted := true }

/-- The answer after a reply. -/
def Serving.after (isHttpDate : String → Bool) (g : Serving) : (effect : Effect) → effect.Reply →
    Serving
  | .select _ effect, .done reply => g.after isHttpDate effect reply
  | .select _ _, _ => { g with halted := true }
  | .next, .message (.text frame) => g.hear isHttpDate (.frame frame) frame.cause
  | .nextRecord, .record record => g.hear isHttpDate (.record record) (SseRead.record record).cause
  | .send _, ok => g.pass ok
  | .deliver _, () | .answer (.completion _ _), () => g.pass true
  | .join, ok | .reserve, ok | .replyStream, ok => g.check ok
  | .spawnFinalizer _, () => { g with due := none }
  | _, _ => g

/-- What is to be passed on next. -/
def Serving.Owes (g : Serving) (output : Output) : Prop := ∃ rest, g.owed = output :: rest

/-- What may be passed on, and when the upstream is listened to. -/
def Serving.Permits (g : Serving) : Effect → Prop
  | .select _ effect => g.Permits effect
  | .next | .nextRecord => g.owed = []
  | .send item | .deliver item => g.Owes (.item item)
  | .answer (.completion terminal body) => g.Owes (.completion terminal body)
  | .receive | .finalize _ _ => False
  | _ => True

/-- The attempts to book a row: the first one has a usage if the terminal event that is due has one,
and no other has one. -/
def BooksUsage (due : Option TerminalEvent) (attempts : List Attempt) : Prop :=
  ∃ attempt rest, attempts = attempt :: rest ∧
    attempt.usage.isSome = (due.bind (·.usage)).isSome ∧ ∀ later ∈ rest, later.usage = none

/-- What the code may do: a booking that is due comes first. -/
def Serving.Allows (g : Serving) : Effect → Prop
  | .spawnFinalizer attempts => BooksUsage g.due attempts
  | effect => g.due = none ∧ g.Permits effect

/-- Nothing is owed any more, or the code has been told to stop. -/
structure Serving.Over (g : Serving) : Prop where
  due : g.due = none
  owed : g.owed = [] ∨ g.halted = true

/-- The next message is waited for. -/
structure Serving.Awaits (mode : Mode) (g : Serving) : Prop where
  due : g.due = none
  owed : g.owed = []
  mode : g.mode = mode

/-- The mode of a loop. -/
def Loop.mode : Loop → Option Mode
  | .forward _ => some .responses
  | .chatStream _ converter => some (.chatStream converter)
  | .chatRead _ completedOutputItems => some (.chatCompletion completedOutputItems)
  | .connection _ _ => none

/-- **The contract** of code that serves its client. -/
def serve (isHttpDate : String → Bool) : Contract Effect Effect.Reply Loop Serving where
  pre g effect := g.Allows effect
  may _ _ _ := True
  after g effect reply := g.after isHttpDate effect reply
  entry loop g := ∃ mode, loop.mode = some mode ∧ g.Awaits mode

/-! ### Rules -/

variable {isHttpDate : String → Bool} {g : Serving} {mode : Mode} {α β : Type}
  {Q : Serving → α → Prop}

theorem Serving.Awaits.over (h : g.Awaits mode) : g.Over := ⟨h.due, .inl h.owed⟩

/-- An effect that is neither about the client nor about the row. -/
def Effect.aside : Effect → Bool
  | .now | .plan _ _ _ _ | .insert _ | .newPending _ | .responseStarted _ | .dropPending
  | .isShutdown | .model _ | .callSession _ | .takeJob | .connect _ | .sendCreate _ _
  | .prewarmReply | .sendPong _ | .post _ | .detach | .flush | .ready | .answer (.error _)
  | .answer .stream => true
  | _ => false

/-- An effect and what comes after it. -/
theorem serve_await {R : Serving → β → Prop} {effect : Effect} {f : effect.Reply → Code β}
    (hallows : g.Allows effect)
    (hf : ∀ reply, Safe (serve isHttpDate) R (f reply) (g.after isHttpDate effect reply)) :
    Safe (serve isHttpDate) R (await effect >>= f) g :=
  Safe.perform_bind hallows fun reply _ => hf reply

/-- What is aside is allowed when no booking is due, and changes nothing. -/
theorem Serving.allows_aside (isHttpDate : String → Bool) {effect : Effect} (hdue : g.due = none)
    (haside : effect.aside = true) :
    g.Allows effect ∧ ∀ reply, g.after isHttpDate effect reply = g := by
  cases effect with
  | answer answer =>
    cases answer with
    | completion => cases haside
    | error | stream => exact ⟨⟨hdue, trivial⟩, fun _ => rfl⟩
  | select | next | nextRecord | send | deliver | join | reserve | replyStream | spawnFinalizer
  | receive | finalize | sendUpstream => cases haside
  | _ => exact ⟨⟨hdue, trivial⟩, fun _ => rfl⟩

/-- An effect aside and what comes after it. -/
theorem serve_aside {R : Serving → β → Prop} {effect : Effect} {f : effect.Reply → Code β}
    (hdue : g.due = none) (haside : effect.aside = true)
    (hf : ∀ reply, Safe (serve isHttpDate) R (f reply) g) :
    Safe (serve isHttpDate) R (await effect >>= f) g := by
  obtain ⟨hallows, hsame⟩ := Serving.allows_aside isHttpDate hdue haside
  refine serve_await hallows fun reply => ?_
  rw [hsame reply]
  exact hf reply

/-- What a `select!` leaves that has let the code go on to its end, or has been interrupted. -/
def Serving.Selects (Q : Serving → α → Prop) (g : Serving) : Selected α → Prop
  | .done value => Q g value
  | _ => g.Over

/-- Inside a `select!`, the code may be told to stop where it would wait. -/
theorem serve_interruptible (closable : Bool) {program : Code α}
    (h : Safe (serve isHttpDate) Q program g) :
    Safe (serve isHttpDate) (Serving.Selects Q) (interruptible closable program) g := by
  induction program generalizing g with
  | pure value => exact h
  | jump loop => exact h
  | op effect next ih =>
    obtain ⟨hallows, hnext⟩ := h
    rw [interruptible]
    split
    · rename_i hawaits
      -- Nothing is due where the code waits.
      have hselect : g.due = none ∧ g.Permits effect := by
        cases effect with
        | spawnFinalizer => cases hawaits
        | _ => exact hallows
      refine ⟨hselect, fun selected _ => ?_⟩
      cases selected with
      | shutdown | closed => exact ⟨hselect.1, .inr rfl⟩
      | done reply => exact ih reply (hnext reply trivial)
    · exact ⟨hallows, fun reply _ => ih reply (hnext reply trivial)⟩

/-! ### The store and the pending request -/

/-- What a function leaves before the response is awaited: code that goes on has been told nothing. -/
def Serving.Ready (mode : Mode) (g : Serving) : Except ApiError α → Prop
  | .ok _ => g = .start mode
  | .error _ => g.Over

theorem Serving.over_start (mode : Mode) : (Serving.start mode).Over := ⟨rfl, .inl rfl⟩

theorem beginRequest_serves (context : RequestContext) (quota : QuotaLimits)
    (candidates : ModelCandidates) :
    Safe (serve isHttpDate) (fun g _ => g = .start mode) (beginRequest context quota candidates)
      (.start mode) := by
  refine serve_aside rfl rfl fun now => serve_aside rfl rfl fun planned => ?_
  cases planned with
  | error error => exact rfl
  | ok insertion =>
    refine serve_aside rfl rfl fun inserted => ?_
    cases inserted <;> exact rfl

theorem recordRejection_serves (context : RequestContext) (model : String)
    (reasoningEffort : Option String) (httpStatus : Option Nat) :
    Safe (serve isHttpDate) (fun g _ => g = .start mode)
      (recordRejection context model reasoningEffort httpStatus) (.start mode) := by
  refine serve_aside rfl rfl fun now => ?_
  cases rejectionRow now context model reasoningEffort httpStatus with
  | error error => exact rfl
  | ok row =>
    refine serve_aside rfl rfl fun inserted => ?_
    cases inserted <;> exact rfl

theorem admitRequest_serves (identity : ClientIdentity) (candidates : ModelCandidates)
    (apiProtocol : ApiProtocol) :
    Safe (serve isHttpDate) (Serving.Ready mode) (admitRequest identity candidates apiProtocol)
      (.start mode) := by
  refine (beginRequest_serves _ _ candidates).bind fun g result hg => ?_
  subst hg
  cases result with
  | error error => exact Serving.over_start mode
  | ok admission =>
    cases admission with
    | weeklyQuotaExceeded => exact Serving.over_start mode
    | admitted requestId effectiveModel => exact rfl

theorem rejectRequest_serves {Q : Serving → Except ApiError α → Prop}
    (hQ : ∀ error, Q (.start mode) (.error error)) (identity : ClientIdentity)
    (apiProtocol : ApiProtocol) (model : String) (reasoningEffort : Option String)
    (error : ApiError) :
    Safe (serve isHttpDate) Q (rejectRequest identity apiProtocol model reasoningEffort error)
      (.start mode) := by
  refine (recordRejection_serves _ model reasoningEffort _).bind fun g result hg => ?_
  subst hg
  cases result <;> exact hQ _

theorem Serving.Over.check (h : g.Over) (ok : Bool) : (g.check ok).Over := by
  cases ok with
  | true => exact h
  | false => exact ⟨h.due, .inr rfl⟩

/-- An operation without a terminal event is finalized without usage. -/
theorem finish_serves {status : FinalStatus} {httpStatus : Option Nat} (hg : g.Over) :
    Safe (serve isHttpDate) (fun g _ => g.Over) (finish status httpStatus none) g := by
  refine serve_await ⟨_, [], rfl, by simp [hg.due], by simp⟩ fun _ =>
    serve_await ⟨rfl, trivial⟩ fun ok => ?_
  have hover : Serving.Over { g with due := none } := ⟨rfl, hg.owed⟩
  have hchecked := hover.check ok
  cases ok <;> exact hchecked

/-- What `finish_terminal` leaves: what is owed is still owed, or the code is told to stop. -/
def Serving.Booked (mode : Mode) (owed : List Output) (g : Serving) (ok : Bool) : Prop :=
  g.due = none ∧ g.mode = mode ∧ g.owed = owed ∧ (ok = false → g.halted = true)

/-- A terminal event is booked with its usage. -/
theorem finishTerminal_serves {status : FinalStatus} {httpStatus fallback : Nat}
    {usage : Option BillableUsage} {terminal : TerminalEvent} (hdue : g.due = some terminal)
    (husage : usage.isSome = terminal.usage.isSome) :
    Safe (serve isHttpDate) (Serving.Booked g.mode g.owed)
      (finishTerminal status httpStatus fallback usage) g := by
  refine serve_await ⟨_, _, rfl, by simpa [hdue] using husage, by simp⟩ fun _ =>
    ⟨⟨rfl, trivial⟩, fun ok _ => ?_⟩
  cases ok with
  | true => exact ⟨rfl, rfl, rfl, fun h => by cases h⟩
  | false => exact ⟨rfl, rfl, rfl, fun _ => rfl⟩

theorem finishWith_serves {status : FinalStatus} {httpStatus : Option Nat} {error : ApiError}
    (hg : g.Over) :
    Safe (serve isHttpDate) (Serving.Ready (α := α) mode) (finishWith status httpStatus error) g := by
  refine (finish_serves hg).bind fun g result hg => ?_
  cases result <;> exact hg

/-- A completion is answered when it is owed, and an error when nothing is. -/
def Serving.Answers (g : Serving) : Answer → Prop
  | .completion terminal body => g.due = none ∧ g.owed = [.completion terminal body]
  | .error _ | .stream => g.Over

theorem answerWith_serves {answer : Answer} (hg : g.Answers answer) :
    Safe (serve isHttpDate) (fun g _ => g.Over) (answerWith answer) g := by
  have haside : ∀ answer, (Effect.answer answer).aside = true → g.Over →
      Safe (serve isHttpDate) (fun g _ => g.Over) (answerWith answer) g := fun answer haside hg =>
    serve_aside hg.due rfl fun _ =>
      (serve_aside hg.due haside fun _ => hg : Safe (serve isHttpDate) (fun g _ => g.Over)
        (await (.answer answer) >>= fun _ => pure ()) g)
  cases answer with
  | error | stream => exact haside _ rfl hg
  | completion terminal body =>
    refine serve_aside hg.1 rfl fun _ => ?_
    exact (serve_await ⟨hg.1, [], hg.2⟩ fun _ => ⟨hg.1, .inl (congrArg List.tail hg.2)⟩ :
      Safe (serve isHttpDate) (fun g _ => g.Over)
        (await (.answer (.completion terminal body)) >>= fun _ => pure ()) g)

/-! ### Responses -/

theorem prepareTurn_serves (config : Config) (identity : ClientIdentity) (headers : HeaderMap)
    (body : Option Value) :
    Safe (serve isHttpDate) (Serving.Ready .responses) (prepareTurn config identity headers body)
      (.start .responses) := by
  have hover : ApiError → (Serving.start .responses).Over := fun _ => Serving.over_start .responses
  unfold prepareTurn
  cases body with
  | none => exact rejectRequest_serves hover _ _ _ _ _
  | some parsed =>
    simp only
    cases responsesRequest config parsed with
    | error error => exact rejectRequest_serves hover _ _ _ _ _
    | ok accepted =>
      simp only
      cases SessionKey.fromHeaders identity.id headers with
      | error error => exact rejectRequest_serves hover _ _ _ _ _
      | ok key =>
        refine (admitRequest_serves identity accepted.candidates .responses).bind
          fun g result hresult => ?_
        cases result with
        | error error => exact hresult
        | ok admitted =>
          obtain rfl : g = .start .responses := hresult
          refine serve_aside rfl rfl fun _ => serve_aside rfl rfl fun found => ?_
          cases liteModel found with
          | none => exact Serving.over_start .responses
          | some model =>
            refine serve_aside rfl rfl fun called => ?_
            cases called with
            | busy | closed => exact finishWith_serves (Serving.over_start .responses)
            | queued => exact rfl

theorem sendGeneration_serves (plan : Plan) (previousId : String) (input : List Value) :
    Safe (serve isHttpDate) (Serving.Ready mode) (sendGeneration plan previousId input)
      (.start mode) := by
  refine serve_aside rfl rfl fun ok => ?_
  cases ok with
  | true => exact rfl
  | false => exact Serving.over_start mode

theorem sendTurn_serves (session : Session) (plan : Plan) :
    Safe (serve isHttpDate) (Serving.Ready mode) (sendTurn session plan) (.start mode) := by
  unfold sendTurn
  cases session.incremental plan with
  | some snapshot => exact sendGeneration_serves plan _ _
  | none =>
    have hprewarm : Safe (serve isHttpDate) (fun g _ => g = .start mode)
        (sendResponsesPrewarm (plan.prewarm.erase "previous_response_id")) (.start mode) := by
      refine serve_aside rfl rfl fun ok => ?_
      cases ok with
      | true => exact (serve_aside rfl rfl fun _ => rfl : Safe (serve isHttpDate)
          (fun g _ => g = .start mode) (await .prewarmReply >>= pure) (.start mode))
      | false => exact rfl
    refine hprewarm.bind fun g result hg => ?_
    subst hg
    cases result with
    | error error => exact Serving.over_start mode
    | ok responseId => exact sendGeneration_serves plan _ _

theorem prepare_serves (session : Session) (turn : Turn) :
    Safe (serve isHttpDate) (Serving.Ready mode) (prepare session turn) (.start mode) := by
  unfold prepare
  cases session.plan turn with
  | error error => exact Serving.over_start mode
  | ok plan =>
    simp only
    split
    · exact sendTurn_serves session plan
    · refine serve_aside rfl rfl fun ok => ?_
      cases ok with
      | true => exact sendTurn_serves _ plan
      | false => exact Serving.over_start mode

/-- A turn ends with the item that is owed, or with nothing owed. -/
def Serving.Ends (g : Serving) : SessionEnd → Prop
  | .terminal item => g.due = none ∧ g.owed = [.item item]
  | .error _ | .canceled => g.Over

theorem endTurn_serves (sessionEnd : SessionEnd) (hg : g.Ends sessionEnd) :
    Safe (serve isHttpDate) (fun g _ => g.Over) (endTurn sessionEnd) g := by
  have hdue : g.due = none := by
    cases sessionEnd with
    | terminal item => exact hg.1
    | error | canceled => exact hg.due
  refine serve_aside hdue rfl fun _ => ?_
  cases sessionEnd with
  | error error =>
    exact (serve_aside hdue rfl fun _ => hg : Safe (serve isHttpDate) (fun g _ => g.Over)
      (await (.answer (.error error)) >>= fun _ => pure ()) g)
  | terminal item =>
    refine (serve_await ⟨hdue, [], hg.2⟩ fun _ => ⟨hdue, .inl ?_⟩ : Safe (serve isHttpDate)
      (fun g _ => g.Over) (await (.deliver item) >>= fun _ => pure ()) g)
    show g.owed.tail = []
    rw [hg.2]
    rfl
  | canceled => exact hg

theorem failTurn_serves {error : ApiError} (hg : g.Over) :
    Safe (serve isHttpDate) (fun g _ => g.Over) (failTurn error) g := by
  have hend : ∀ status, Safe (serve isHttpDate) (fun g _ => g.Over)
      (finish status (some error.status) none >>= fun _ => endTurn (.error error)) g :=
    fun status => (finish_serves hg).bind fun g _ hg =>
      endTurn_serves (.error error) hg
  unfold failTurn
  split
  · exact hend _
  · refine serve_aside hg.due rfl fun cancelled => ?_
    cases cancelled <;> exact hend _

theorem respond_serves (session : Session) (turn : Turn) (rates : ModelRates) :
    Safe (serve isHttpDate) (fun g _ => g.Over) (respond session turn rates)
      (.start .responses) := by
  have hprepared : Safe (serve isHttpDate) (Serving.Selects (Serving.Ready .responses))
      (race true (prepare session turn)) (.start .responses) := by
    refine serve_await ⟨rfl, trivial⟩ fun selected => ?_
    cases selected with
    | shutdown | closed => exact ⟨rfl, .inr rfl⟩
    | done => exact serve_interruptible true (prepare_serves session turn)
  refine hprepared.bind fun g selected hselected => ?_
  cases selected with
  | shutdown => exact failTurn_serves hselected
  | closed => exact endTurn_serves .canceled hselected
  | done prepared =>
    cases prepared with
    | error error => exact failTurn_serves hselected
    | ok =>
      obtain rfl : g = .start .responses := hselected
      refine serve_aside rfl rfl fun _ => serve_await ⟨rfl, trivial⟩ fun ok => ?_
      cases ok with
      | true => exact serve_aside rfl rfl fun _ => ⟨_, rfl, rfl, rfl, rfl⟩
      | false => exact endTurn_serves .canceled ⟨rfl, .inr rfl⟩

theorem responses_serves (config : Config) (identity : ClientIdentity) (headers : HeaderMap)
    (body : Option Value) :
    Safe (serve isHttpDate) (fun g _ => g.Over) (responses config identity headers body)
      (.start .responses) := by
  refine (prepareTurn_serves config identity headers body).bind fun g result hresult => ?_
  cases result with
  | error error => exact answerWith_serves hresult
  | ok prepared =>
    obtain rfl : g = .start .responses := hresult
    refine serve_aside rfl rfl fun received => ?_
    cases received with
    | none => exact answerWith_serves (Serving.over_start .responses)
    | some session => exact respond_serves session _ _

/-! ### Responses: the stream -/

/-- What a round of `forward` leaves. -/
def Serving.Forwards (g : Serving) : Round Unit (Option Item) → Prop
  | .again () => g.Awaits .responses
  | .finished none => g.Over
  | .finished (some item) => g.Ends (.terminal item)

theorem failStream_serves {status : FinalStatus} (hg : g.Over) :
    Safe (serve isHttpDate) Serving.Forwards
      (failStream status : Code (Round Unit (Option Item))) g :=
  (finish_serves hg).bind fun _ _ hg => hg

theorem forwardText_serves (rates : ModelRates) (frame : TextFrame) (hg : g.Awaits .responses) :
    Safe (serve isHttpDate) Serving.Forwards (forwardText isHttpDate rates frame)
      (g.hear isHttpDate (.frame frame) frame.cause) := by
  obtain ⟨mode, owed, due, halted⟩ := g
  obtain ⟨rfl, rfl, rfl⟩ := hg
  simp only [forwardText, Serving.hear, Mode.step, TextFrame.step, TextFrame.typed]
  cases hevent : frame.event.bind fun event => (eventType event).map (event, ·) with
  | none =>
    rw [TextFrame.cause_of_untyped hevent]
    exact failStream_serves ⟨rfl, .inl rfl⟩
  | some found =>
    obtain ⟨event, eventName⟩ := found
    simp only [TextFrame.cause, TextFrame.filter_of_typed hevent]
    cases parseTerminalPayload event with
    | error error => exact failStream_serves ⟨rfl, .inl rfl⟩
    | ok parsed =>
      cases parsed with
      | none =>
        refine serve_await ⟨rfl, [], rfl⟩ fun ok => ?_
        cases ok with
        | true => exact ⟨rfl, rfl, rfl⟩
        | false => exact failStream_serves ⟨rfl, .inr rfl⟩
      | some terminal =>
        have husage : (terminalUsage terminal rates).isSome = terminal.usage.isSome :=
          Option.isSome_map
        refine (finishTerminal_serves rfl husage).bind fun g ok hbooked => ?_
        obtain ⟨hdue, -, howed, hhalted⟩ := hbooked
        cases ok with
        | true => exact ⟨hdue, howed⟩
        | false => exact ⟨hdue, .inr (hhalted rfl)⟩

theorem forwardRound_serves (rates : ModelRates) (hg : g.Awaits .responses) :
    Safe (serve isHttpDate) Serving.Forwards (forwardRound isHttpDate rates) g := by
  refine serve_await ⟨hg.due, hg.owed⟩ fun selected => ?_
  have hhalted : Serving.Over { g with halted := true } := ⟨hg.due, .inr rfl⟩
  cases selected with
  | shutdown | closed => exact failStream_serves hhalted
  | done next =>
    cases next with
    | broken | ended => exact failStream_serves hg.over
    | message message =>
      cases message with
      | text frame => exact forwardText_serves rates frame hg
      | pong => exact hg
      | ping payload =>
        refine serve_aside hg.due rfl fun ok => ?_
        cases ok with
        | true => exact hg
        | false => exact failStream_serves hg.over
      | close | binary | frame => exact failStream_serves hg.over

theorem forward_serves (rates : ModelRates) (hg : g.Awaits .responses) :
    Safe (serve isHttpDate) (fun g _ => g.Over) (forward isHttpDate rates) g := by
  refine (serve_interruptible true (forwardRound_serves rates hg)).bind
    fun g selected hselected => ?_
  cases selected with
  | shutdown | closed => exact endTurn_serves .canceled hselected
  | done round =>
    cases round with
    | again => exact ⟨_, rfl, hselected⟩
    | finished item =>
      cases item with
      | none => exact endTurn_serves .canceled hselected
      | some item =>
        have hhalted : Serving.Over { g with halted := true } := ⟨hselected.1, .inr rfl⟩
        refine serve_await ⟨hselected.1, trivial⟩ fun reserved => ?_
        cases reserved with
        | shutdown | closed => exact endTurn_serves .canceled hhalted
        | done ok =>
          cases ok with
          | true => exact endTurn_serves (.terminal item) hselected
          | false => exact endTurn_serves .canceled hhalted

/-! ### Chat -/

/-- What `prepareChat` leaves: an accepted request is answered as it asks for. -/
def Serving.Prepared (g : Serving) :
    Except ApiError (ConvertedRequest × Object × ModelRates) → Prop
  | .ok (converted, _) => g = .start (modeOf converted)
  | .error _ => g.Over

theorem prepareChat_serves (config : Config) (identity : ClientIdentity) (body : Option Value) :
    Safe (serve isHttpDate) Serving.Prepared (prepareChat config identity body)
      (.start (chatMode config body)) := by
  have hover : ∀ mode (_ : ApiError), (Serving.start mode).Over := fun mode _ =>
    Serving.over_start mode
  unfold prepareChat chatMode
  cases body with
  | none => exact rejectRequest_serves (hover _) _ _ _ _ _
  | some parsed =>
    simp only
    cases chatRequest config parsed with
    | error error => exact rejectRequest_serves (hover _) _ _ _ _ _
    | ok accepted =>
      refine (admitRequest_serves identity _ .chatCompletions).bind fun g result hresult => ?_
      cases result with
      | error error => exact hresult
      | ok admitted =>
        obtain rfl : g = _ := hresult
        exact serve_aside rfl rfl fun _ => rfl

theorem sendUpstream_serves (body : Object) :
    Safe (serve isHttpDate) (Serving.Ready mode) (sendUpstream body) (.start mode) := by
  refine serve_await ⟨rfl, trivial⟩ fun selected => ?_
  cases selected with
  | shutdown | closed => exact finishWith_serves ⟨rfl, .inr rfl⟩
  | done success =>
    cases success with
    | none => exact finishWith_serves (Serving.over_start mode)
    | some success =>
      cases success with
      | true => exact rfl
      | false => exact finishWith_serves (Serving.over_start mode)

theorem chatCompletions_serves (config : Config) (identity : ClientIdentity)
    (body : Option Value) :
    Safe (serve isHttpDate) (fun g _ => g.Over) (chatCompletions config identity body)
      (.start (chatMode config body)) := by
  refine (prepareChat_serves config identity body).bind fun g result hresult => ?_
  cases result with
  | error error => exact answerWith_serves hresult
  | ok prepared =>
    obtain ⟨converted, upstreamRequest, rates⟩ := prepared
    obtain rfl : g = _ := hresult
    refine (sendUpstream_serves _).bind fun g result hresult => ?_
    cases result with
    | error error => exact answerWith_serves hresult
    | ok =>
      obtain rfl : g = _ := hresult
      simp only
      split
      · rename_i hstream
        refine serve_aside rfl rfl fun _ => serve_aside rfl rfl fun _ =>
          serve_aside rfl rfl fun _ => ⟨_, rfl, rfl, rfl, ?_⟩
        show modeOf converted = _
        rw [modeOf, if_pos hstream]
      · rename_i hstream
        refine ⟨_, rfl, rfl, rfl, ?_⟩
        show modeOf converted = _
        rw [modeOf, if_neg hstream]

/-! ### Chat: the stream -/

/-- What a round of `chatStream` leaves. -/
def Serving.Streams (g : Serving) : Round ChatStreamConverter Unit → Prop
  | .again converter => g.Awaits (.chatStream converter)
  | .finished () => g.Over

theorem failChatStream_serves {status : FinalStatus} (hg : g.Over) :
    Safe (serve isHttpDate) Serving.Streams (failChatStream status) g :=
  (finish_serves hg).bind fun _ _ hg => hg

/-- The chunks that end a stream are sent one after another, then `[DONE]`. -/
theorem sendChunks_serves {terminal : TerminalEvent} {chunks : List Value} (hdue : g.due = none)
    (howed : g.owed = chunks.map (fun chunk => .item (.chunk chunk (some terminal))) ++
      [.item (.done terminal)]) :
    Safe (serve isHttpDate) (fun g _ => g.Over) (sendChunks terminal chunks) g := by
  induction chunks generalizing g with
  | nil =>
    refine serve_await ⟨hdue, [], howed⟩ fun ok => ⟨?_, ?_⟩
    · cases ok <;> exact hdue
    · cases ok with
      | true => exact .inl (congrArg List.tail howed)
      | false => exact .inr rfl
  | cons chunk chunks ih =>
    refine serve_await ⟨hdue, _, howed⟩ fun ok => ?_
    cases ok with
    | true => exact ih hdue (congrArg List.tail howed)
    | false => exact ⟨hdue, .inr rfl⟩

theorem chatStreamTerminal_serves (rates : ModelRates) {converter : ChatStreamConverter}
    {terminal : TerminalEvent} (hdue : g.due = some terminal)
    (howed : g.owed = terminalOutputs converter terminal) :
    Safe (serve isHttpDate) Serving.Streams (chatStreamTerminal rates converter terminal) g := by
  have husage : (terminalUsage terminal rates).isSome = terminal.usage.isSome := Option.isSome_map
  unfold chatStreamTerminal
  unfold terminalOutputs at howed
  cases hupstream : terminal.upstreamError with
  | some error =>
    rw [hupstream] at howed
    refine (finishTerminal_serves hdue husage).bind fun g' _ hbooked => ?_
    obtain ⟨hdue, -, howed', -⟩ := hbooked
    rw [howed] at howed'
    refine serve_await ⟨hdue, [], howed'⟩ fun ok => ?_
    cases ok with
    | true => exact ⟨hdue, .inl (congrArg List.tail howed')⟩
    | false => exact ⟨hdue, .inr rfl⟩
  | none =>
    simp only [hupstream] at howed ⊢
    cases hconverted : converter.convertTerminal terminal with
    | error error =>
      simp only [hconverted] at howed
      refine (finishTerminal_serves hdue husage).bind fun g' _ hbooked => ?_
      exact ⟨hbooked.1, .inl (hbooked.2.2.1.trans howed)⟩
    | ok converted =>
      simp only [hconverted] at howed
      have hused : (some (billableUsage converted.usage rates)).isSome = terminal.usage.isSome := by
        obtain ⟨status, response, metadata, usage, finishReason, -, -, -, husage, -⟩ :=
          convertTerminal_eq_ok.mp hconverted
        rw [husage]
        rfl
      refine (finishTerminal_serves hdue hused).bind fun g' ok hbooked => ?_
      obtain ⟨hdue, -, howed', hhalted⟩ := hbooked
      cases ok with
      | true =>
        refine (sendChunks_serves hdue (howed'.trans howed)).bind fun _ _ hg => hg
      | false => exact ⟨hdue, .inr (hhalted rfl)⟩

theorem chatStreamEvent_serves {converter : ChatStreamConverter} {data : Option Value}
    (hdue : g.due = none) (hmode : g.mode = (eventStep converter data).1)
    (howed : g.owed = (eventStep converter data).2) :
    Safe (serve isHttpDate) Serving.Streams (chatStreamEvent converter data) g := by
  unfold chatStreamEvent
  unfold eventStep at hmode howed
  cases data with
  | none => exact ⟨hdue, howed, hmode⟩
  | some value =>
    simp only at hmode howed ⊢
    cases hconverted : converter.convertEvent value with
    | error error =>
      simp only [hconverted] at howed
      exact failChatStream_serves ⟨hdue, .inl howed⟩
    | ok converted =>
      obtain ⟨converter', chunk⟩ := converted
      cases chunk with
      | none =>
        simp only [hconverted] at hmode howed
        exact ⟨hdue, howed, hmode⟩
      | some chunk =>
        simp only [hconverted] at hmode howed
        refine serve_await ⟨hdue, [], howed⟩ fun ok => ?_
        cases ok with
        | true => exact ⟨hdue, congrArg List.tail howed, hmode⟩
        | false => exact failChatStream_serves ⟨hdue, .inr rfl⟩

theorem chatStream_serves (rates : ModelRates) {converter : ChatStreamConverter}
    (hg : g.Awaits (.chatStream converter)) :
    Safe (serve isHttpDate) (fun g _ => g.Over) (chatStream rates converter) g := by
  have hround : Safe (serve isHttpDate) Serving.Streams (chatStreamRound rates converter) g := by
    refine serve_await ⟨hg.due, hg.owed⟩ fun selected => ?_
    cases selected with
    | shutdown | closed => exact failChatStream_serves ⟨hg.due, .inr rfl⟩
    | done read =>
      cases read with
      | eof | broken => exact failChatStream_serves hg.over
      | record record =>
        obtain ⟨mode, owed, due, halted⟩ := g
        obtain ⟨rfl, rfl, rfl⟩ := hg
        simp only [Serving.after, Serving.hear, Mode.step, streamStep, SseRead.cause]
        cases validateEvent record with
        | error error => exact failChatStream_serves ⟨rfl, .inl rfl⟩
        | ok validated =>
          cases validated with
          | none => exact chatStreamEvent_serves rfl rfl rfl
          | some terminal => exact chatStreamTerminal_serves rates rfl rfl
  refine hround.bind fun g round hround => ?_
  cases round with
  | again converter => exact ⟨_, rfl, hround⟩
  | finished => exact serve_aside hround.due rfl fun _ => hround

/-! ### Chat: the single answer -/

/-- What a round of `chatRead` leaves. -/
def Serving.Collects (g : Serving) : Round (List Value) Answer → Prop
  | .again completedOutputItems => g.Awaits (.chatCompletion completedOutputItems)
  | .finished answer => g.Answers answer

theorem failChat_serves {status : FinalStatus} {httpStatus : Option Nat} {error : ApiError}
    (hg : g.Over) :
    Safe (serve isHttpDate) Serving.Collects (failChat status httpStatus error) g := by
  refine (finish_serves hg).bind fun g result hg => ?_
  cases result <;> exact hg

theorem refuseTerminal_serves {rates : ModelRates} {terminal : TerminalEvent} {error : ApiError}
    (hdue : g.due = some terminal) (howed : g.owed = []) :
    Safe (serve isHttpDate) Serving.Collects (refuseTerminal rates terminal error) g :=
  (finishTerminal_serves hdue Option.isSome_map).bind fun _ _ hbooked =>
    ⟨hbooked.1, .inl (hbooked.2.2.1.trans howed)⟩

theorem chatReadTerminal_serves (rates : ModelRates) {completedOutputItems : List Value}
    {terminal : TerminalEvent} (hdue : g.due = some terminal)
    (howed : g.owed = completionOutputs completedOutputItems terminal) :
    Safe (serve isHttpDate) Serving.Collects
      (chatReadTerminal rates completedOutputItems terminal) g := by
  unfold chatReadTerminal
  unfold completionOutputs at howed
  cases hupstream : terminal.upstreamError with
  | some error =>
    rw [hupstream] at howed
    exact refuseTerminal_serves hdue howed
  | none =>
    simp only [hupstream] at howed ⊢
    cases hconverted : convertTerminalEvent (terminal.withOutputItems completedOutputItems) with
    | error error =>
      simp only [hconverted] at howed
      exact refuseTerminal_serves hdue howed
    | ok converted =>
      simp only [hconverted] at howed
      have hused : (some (billableUsage converted.usage rates)).isSome = terminal.usage.isSome := by
        obtain ⟨status, response, metadata, usage, output, converted, finishReason, -, -, -, -,
          -, -, -, -, -, husage, -⟩ := convertTerminalEvent_eq_ok.mp hconverted
        rw [TerminalEvent.usage_withOutputItems] at husage
        rw [husage]
        rfl
      refine (finishTerminal_serves hdue hused).bind fun g' ok hbooked => ?_
      obtain ⟨hdue, -, howed', hhalted⟩ := hbooked
      cases ok with
      | true => exact ⟨hdue, howed'.trans howed⟩
      | false => exact ⟨hdue, .inr (hhalted rfl)⟩

theorem chatRead_serves (rates : ModelRates) {completedOutputItems : List Value}
    (hg : g.Awaits (.chatCompletion completedOutputItems)) :
    Safe (serve isHttpDate) (fun g _ => g.Over) (chatRead rates completedOutputItems) g := by
  have hround : Safe (serve isHttpDate) Serving.Collects
      (chatReadRound rates completedOutputItems) g := by
    refine serve_await ⟨hg.due, hg.owed⟩ fun selected => ?_
    cases selected with
    | shutdown | closed => exact failChat_serves ⟨hg.due, .inr rfl⟩
    | done read =>
      cases read with
      | eof | broken => exact failChat_serves hg.over
      | record record =>
        obtain ⟨mode, owed, due, halted⟩ := g
        obtain ⟨rfl, rfl, rfl⟩ := hg
        simp only [Serving.after, Serving.hear, Mode.step, completionStep, SseRead.cause]
        cases validateEvent record with
        | error error => exact failChat_serves ⟨rfl, .inl rfl⟩
        | ok validated =>
          cases validated with
          | none => exact ⟨rfl, rfl, rfl⟩
          | some terminal => exact chatReadTerminal_serves rates rfl rfl
  refine hround.bind fun g round hround => ?_
  cases round with
  | again completedOutputItems => exact ⟨_, rfl, hround⟩
  | finished answer => exact answerWith_serves hround

/-! ### All code -/

/-- **Every loop of an HTTP operation serves its client.** -/
theorem loop_serves (config : Config) {loop : Loop} (h : (serve isHttpDate).entry loop g) :
    Safe (serve isHttpDate) (fun g _ => g.Over) (loop.code config isHttpDate) g := by
  obtain ⟨mode, hmode, hg⟩ := h
  cases loop with
  | forward rates =>
    cases hmode
    exact forward_serves rates hg
  | chatStream rates converter =>
    cases hmode
    exact chatStream_serves rates hg
  | chatRead rates completedOutputItems =>
    cases hmode
    exact chatRead_serves rates hg
  | connection identity active => cases hmode

end CodexApi.Delivery
