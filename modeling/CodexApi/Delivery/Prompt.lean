import CodexApi.Delivery.Replies
import CodexApi.Delivery.ResponsesRespect

/-!
# Code that acts on an upstream outcome at once

Once an operation has been told a terminal event or a failure of the upstream, its code does not wait
before it finalizes the row, and after a terminal event it does not cancel it. This is a contract of
its own (`prompt`), whose ghost state is the `Stage` of the operation. After the finalizing task is
spawned, nothing is left to do: `settled` code is safe whatever it is.
-/

namespace CodexApi.Delivery

open Program (Contract Safe bind_op perform safe_pure)

/-! ### Outcomes -/

/-- What the upstream makes of an operation. -/
inductive Outcome
  | terminal
  | failure
deriving DecidableEq

/-- The outcome that a cause is. -/
def Cause.outcome : Cause → Option Outcome
  | .terminal _ => some .terminal
  | .failed _ => some .failure
  | .clear | .interrupted _ => none

/-- The outcome that a reply tells. -/
def Effect.outcome (effect : Effect) (reply : effect.Reply) : Option Outcome :=
  (effect.observe reply).bind Cause.outcome

/-! ### The contract -/

/-- How far the code of an operation is. -/
inductive Stage
  /-- No outcome has come. -/
  | waiting
  /-- The upstream has failed an HTTP operation. -/
  | failed
  /-- A terminal event has come. -/
  | answered
  /-- A task finalizes the row. -/
  | settled

/-- An effect after a terminal event: the row is finalized, but not canceled, or a WebSocket session
goes on with it finalized. -/
def Effect.settles (path : ApiPath) : Effect → Prop
  | spawnFinalizer attempts => ∀ attempt ∈ attempts, attempt.status ≠ .canceled
  | finalize _ attempt => path = .webSocket ∧ attempt.status ≠ .canceled
  | send _ | sendUpstream _ => path = .webSocket
  | _ => False

/-- The stage lets an effect begin. -/
def Stage.Lets (path : ApiPath) (effect : Effect) : Stage → Prop
  | waiting | settled => True
  | failed => effect.awaits = false
  | answered => effect.settles path

/-- The stage after an outcome. A WebSocket session that is failed finishes its connection. -/
def Stage.hear (path : ApiPath) (stage : Stage) : Option Outcome → Stage
  | none => stage
  | some .terminal => answered
  | some .failure => if path = .webSocket then stage else failed

/-- The stage after a reply. -/
def Stage.after (path : ApiPath) (stage : Stage) (effect : Effect) (reply : effect.Reply) : Stage :=
  match stage, effect with
  | settled, _ | _, .spawnFinalizer _ => settled
  | answered, _ => answered
  | stage, effect => stage.hear path (effect.outcome reply)

/-- A session waits for its next event with its row finalized, and code with a row only as long as
no outcome has come. -/
def Stage.AtLoop (loop : Loop) : Stage → Prop
  | waiting | settled => True
  | failed => False
  | answered => ∃ identity, loop = .connection identity none

/-- **The contract** of code that acts on an outcome at once. -/
def prompt (path : ApiPath) : Contract Effect Effect.Reply Loop Stage where
  pre stage effect := stage.Lets path effect
  may _ _ _ := True
  after := Stage.after path
  entry loop stage := stage.AtLoop loop

variable {path : ApiPath} {stage : Stage} {α β : Type} {Q : Stage → α → Prop}

/-- What a `select!` leaves that has let the code go on to its end, or has been interrupted. -/
def Stage.Selects (Q : Stage → α → Prop) (stage : Stage) : Selected α → Prop
  | .done value => Q stage value
  | _ => stage ≠ .answered

/-! ### Rules -/

theorem Stage.after_spawnFinalizer (stage : Stage) (attempts : List Attempt) (reply : Unit) :
    stage.after path (.spawnFinalizer attempts) reply = .settled := by
  cases stage <;> rfl

theorem Stage.settled_after {effect : Effect} (reply : effect.Reply) :
    Stage.settled.after path effect reply = .settled := by
  cases effect <;> rfl

theorem Stage.answered_after {effect : Effect} {reply : effect.Reply}
    (hspawn : ¬ ∃ attempts, effect = .spawnFinalizer attempts) :
    Stage.answered.after path effect reply = .answered := by
  cases effect <;> first | rfl | exact absurd ⟨_, rfl⟩ hspawn

/-- Apart from a spawned task, it matters what the reply tells. -/
theorem Stage.after_eq_hear {effect : Effect} {reply : effect.Reply}
    (hspawn : ¬ ∃ attempts, effect = .spawnFinalizer attempts)
    (hstage : stage = .waiting ∨ stage = .failed) :
    stage.after path effect reply = stage.hear path (effect.outcome reply) := by
  rcases hstage with rfl | rfl <;> cases effect <;> first | rfl | exact absurd ⟨_, rfl⟩ hspawn

theorem Stage.failed_ne_answered : Stage.failed ≠ .answered := fun h => by cases h

/-- Only a message of the upstream answers. -/
theorem Stage.after_ne_answered {effect : Effect} {reply : effect.Reply} (hstage : stage ≠ .answered)
    (hlistens : effect.listens = false) : stage.after path effect reply ≠ .answered := by
  simp only [Stage.after]
  split
  · exact fun h => by cases h
  · exact fun h => by cases h
  · exact absurd rfl hstage
  · cases hobserve : effect.observe reply with
    | none => simpa [Effect.outcome, hobserve, Stage.hear] using hstage
    | some cause =>
      cases cause with
      | clear | interrupted =>
      simpa [Effect.outcome, hobserve, Cause.outcome, Stage.hear] using hstage
      | failed failure =>
        simp only [Effect.outcome, hobserve, Option.bind_some, Cause.outcome, Stage.hear]
        split
        · exact hstage
        · exact fun h => by cases h
      | terminal terminal =>
        rw [listens_of_terminal hobserve] at hlistens
        cases hlistens

/-- An effect and what comes after it. -/
theorem prompt_await {R : Stage → β → Prop} {effect : Effect} {f : effect.Reply → Code β}
    (hlets : stage.Lets path effect)
    (hf : ∀ reply, Safe (prompt path) R (f reply) (stage.after path effect reply)) :
    Safe (prompt path) R (await effect >>= f) stage :=
  Safe.perform_bind hlets fun reply _ => hf reply

/-- An effect at which the code does not wait. -/
theorem prompt_await_of_not {R : Stage → β → Prop} {effect : Effect} {f : effect.Reply → Code β}
    (hstage : stage ≠ .answered) (hawaits : effect.awaits = false)
    (hf : ∀ stage reply, stage ≠ .answered → Safe (prompt path) R (f reply) stage) :
    Safe (prompt path) R (await effect >>= f) stage := by
  refine prompt_await ?_ fun reply =>
    hf _ reply (Stage.after_ne_answered hstage (by cases effect <;> first | rfl | cases hawaits))
  cases stage with
  | waiting | settled => trivial
  | failed => exact hawaits
  | answered => exact absurd rfl hstage

/-- Settled code may do anything. -/
theorem prompt_settled (program : Code α) (hQ : ∀ value, Q .settled value) :
    Safe (prompt path) Q program .settled := by
  induction program with
  | pure value => exact hQ value
  | jump loop => trivial
  | op effect next ih => exact ⟨trivial, fun reply _ => ih reply⟩

/-- Inside a `select!`, the code is told of shutdown and client where it would wait. -/
theorem prompt_interruptible {R : Stage → Selected α → Prop} {closable : Bool} {program : Code α}
    (hpath : path ≠ .webSocket) (h : Safe (prompt path) Q program stage)
    (hdone : ∀ stage value, Q stage value → R stage (.done value))
    (hshutdown : ∀ stage, stage = .waiting ∨ stage = .settled → R stage .shutdown)
    (hclosed : ∀ stage, stage = .waiting ∨ stage = .settled → R stage .closed) :
    Safe (prompt path) R (interruptible closable program) stage := by
  induction program generalizing stage with
  | pure value => exact hdone stage value h
  | jump loop => exact h
  | op effect next ih =>
    obtain ⟨hlets, hnext⟩ := h
    rw [interruptible]
    split
    · rename_i hawaits
      have hstage : stage = .waiting ∨ stage = .settled := by
        cases stage with
        | waiting => exact .inl rfl
        | settled => exact .inr rfl
        | failed =>
          rw [show effect.awaits = false from hlets] at hawaits
          cases hawaits
        | answered =>
          cases effect with
          | spawnFinalizer => cases hawaits
          | finalize => exact absurd hlets.1 hpath
          | send | sendUpstream => exact absurd hlets hpath
          | _ => exact hlets.elim
      have hsame : ∀ reply : Selected effect.Reply, reply = .shutdown ∨ reply = .closed →
          stage.after path (.select closable effect) reply = stage := by
        rintro reply (rfl | rfl) <;> rcases hstage with rfl | rfl <;> rfl
      have hafter : ∀ reply, stage.after path (.select closable effect) (.done reply) =
          stage.after path effect reply := by
        intro reply
        rcases hstage with rfl | rfl
        · cases effect with
          | spawnFinalizer => cases hawaits
          | _ => rfl
        · rfl
      refine ⟨by rcases hstage with rfl | rfl <;> trivial, fun selected _ => ?_⟩
      cases selected with
      | shutdown =>
        show R (stage.after path (.select closable effect) .shutdown) .shutdown
        rw [hsame .shutdown (.inl rfl)]
        exact hshutdown stage hstage
      | closed =>
        show R (stage.after path (.select closable effect) .closed) .closed
        rw [hsame .closed (.inr rfl)]
        exact hclosed stage hstage
      | done reply =>
        show Safe (prompt path) R (interruptible closable (next reply))
          (stage.after path (.select closable effect) (.done reply))
        rw [hafter reply]
        exact ih reply (hnext reply trivial)
    · exact ⟨hlets, fun reply _ => ih reply (hnext reply trivial)⟩

/-! ### The store and the pending request -/

/-- No outcome of the upstream stands for a cancellation. -/
theorem finalStatus_ne_canceled (kind : TerminalKind) : kind.finalStatus ≠ .canceled := by
  cases kind <;> decide

theorem convertedStatus_ne_canceled (status : TerminalStatus) :
    status.finalStatus ≠ .canceled := by
  cases status <;> decide

theorem beginRequest_prompt (context : RequestContext) (quota : QuotaLimits)
    (candidates : ModelCandidates) :
    Safe (prompt path) (fun stage _ => stage = .waiting) (beginRequest context quota candidates)
      .waiting := by
  refine prompt_await trivial fun now => prompt_await trivial fun planned => ?_
  cases planned with
  | error error => exact rfl
  | ok insertion =>
    refine prompt_await trivial fun inserted => ?_
    cases inserted <;> exact rfl

theorem recordRejection_prompt (context : RequestContext) (model : String)
    (reasoningEffort : Option String) (httpStatus : Option Nat) :
    Safe (prompt path) (fun stage _ => stage = .waiting)
      (recordRejection context model reasoningEffort httpStatus) .waiting := by
  refine prompt_await trivial fun now => ?_
  cases rejectionRow now context model reasoningEffort httpStatus with
  | error error => exact rfl
  | ok row =>
    refine prompt_await trivial fun inserted => ?_
    cases inserted <;> exact rfl

/-- What a function leaves before the response is awaited: code that goes on still waits. -/
def Stage.Ready (stage : Stage) : Except ApiError α → Prop
  | .ok _ => stage = .waiting
  | .error _ => stage ≠ .answered

theorem admitRequest_prompt (identity : ClientIdentity) (candidates : ModelCandidates)
    (apiProtocol : ApiProtocol) :
    Safe (prompt path) Stage.Ready (admitRequest identity candidates apiProtocol) .waiting := by
  refine (beginRequest_prompt _ _ candidates).bind fun stage result hstage => ?_
  subst hstage
  cases result with
  | error error => exact fun h => by cases h
  | ok admission =>
    cases admission with
    | weeklyQuotaExceeded => exact fun h => by cases h
    | admitted requestId effectiveModel => exact rfl

theorem rejectRequest_prompt (identity : ClientIdentity) (apiProtocol : ApiProtocol)
    (model : String) (reasoningEffort : Option String) (error : ApiError) :
    Safe (prompt path) (Stage.Ready (α := α))
      (rejectRequest identity apiProtocol model reasoningEffort error) .waiting := by
  refine (recordRejection_prompt _ model reasoningEffort _).bind fun stage result hstage => ?_
  subst hstage
  cases result <;> exact fun h => by cases h

/-- Before a terminal event, a task may be spawned whatever its attempts; after it, none cancels. -/
theorem Stage.lets_spawnFinalizer {attempts : List Attempt}
    (h : stage = .answered → ∀ attempt ∈ attempts, attempt.status ≠ .canceled) :
    stage.Lets path (.spawnFinalizer attempts) := by
  cases stage with
  | waiting | settled => trivial
  | failed => exact rfl
  | answered => exact h rfl

theorem finish_prompt {status : FinalStatus} {httpStatus : Option Nat}
    {usage : Option BillableUsage} (hstage : stage ≠ .answered) :
    Safe (prompt path) (fun stage _ => stage = .settled) (finish status httpStatus usage) stage := by
  refine prompt_await (Stage.lets_spawnFinalizer fun h => absurd h hstage) fun _ => ?_
  rw [Stage.after_spawnFinalizer]
  exact prompt_settled _ fun _ => rfl

theorem finishTerminal_prompt {status : FinalStatus} {httpStatus fallback : Nat}
    {usage : Option BillableUsage} (hstatus : status ≠ .canceled) :
    Safe (prompt path) (fun stage _ => stage = .settled)
      (finishTerminal status httpStatus fallback usage) stage := by
  refine prompt_await (Stage.lets_spawnFinalizer fun _ => by simpa using hstatus) fun _ => ?_
  rw [Stage.after_spawnFinalizer]
  exact prompt_settled _ fun _ => rfl

theorem finishWith_prompt {status : FinalStatus} {httpStatus : Option Nat} {error : ApiError}
    (hstage : stage ≠ .answered) :
    Safe (prompt path) (Stage.Ready (α := α)) (finishWith status httpStatus error) stage := by
  refine (finish_prompt hstage).bind fun stage result hstage => ?_
  subst hstage
  cases result <;> exact fun h => by cases h

/-- A row that is not answered may be left to the task of its `Drop`. -/
theorem answerWith_prompt {answer : Answer} (hstage : stage ≠ .answered) :
    Safe (prompt path) (fun _ _ => True) (answerWith answer) stage :=
  prompt_await_of_not hstage rfl fun _ _ hstage =>
    (prompt_await_of_not hstage rfl fun _ _ _ => trivial : Safe (prompt path) (fun _ _ => True)
      (await (.answer answer) >>= fun _ => pure ()) _)

/-! ### Responses -/

theorem prepareTurn_prompt (config : Config) (identity : ClientIdentity) (headers : HeaderMap)
    (body : Option Value) :
    Safe (prompt .responses) Stage.Ready (prepareTurn config identity headers body) .waiting := by
  unfold prepareTurn
  cases body with
  | none => exact rejectRequest_prompt _ _ _ _ _
  | some parsed =>
    simp only
    cases responsesRequest config parsed with
    | error error => exact rejectRequest_prompt _ _ _ _ _
    | ok accepted =>
      simp only
      cases SessionKey.fromHeaders identity.id headers with
      | error error => exact rejectRequest_prompt _ _ _ _ _
      | ok key =>
        refine (admitRequest_prompt identity accepted.candidates .responses).bind
          fun stage result hresult => ?_
        cases result with
        | error error => exact hresult
        | ok admitted =>
          obtain rfl : stage = .waiting := hresult
          refine prompt_await trivial fun _ => prompt_await trivial fun found => ?_
          cases hlite : liteModel found with
          | none => exact Stage.after_ne_answered (fun h => by cases h) rfl
          | some model =>
            have hafter : Stage.waiting.after .responses (.model admitted.2.model) found =
                .waiting := by
              simp [Stage.after, Effect.outcome, Effect.observe, hlite, Stage.hear]
            rw [show Stage.after .responses .waiting (.newPending admitted.1) () = .waiting from rfl,
              hafter]
            refine prompt_await trivial fun called => ?_
            cases called with
            | busy | closed => exact finishWith_prompt fun h => by cases h
            | queued => exact rfl

theorem sendGeneration_prompt (plan : Plan) (previousId : String) (input : List Value) :
    Safe (prompt .responses) Stage.Ready (sendGeneration plan previousId input) .waiting := by
  refine prompt_await trivial fun ok => ?_
  cases ok with
  | true => exact rfl
  | false => exact fun h => by cases h

theorem sendTurn_prompt (session : Session) (plan : Plan) :
    Safe (prompt .responses) Stage.Ready (sendTurn session plan) .waiting := by
  unfold sendTurn
  cases session.incremental plan with
  | some snapshot => exact sendGeneration_prompt plan _ _
  | none =>
    refine prompt_await trivial fun ok => ?_
    cases ok with
    | false => exact fun h => by cases h
    | true =>
      refine prompt_await trivial fun reply => ?_
      cases reply with
      | error error => exact fun h => by cases h
      | ok responseId => exact sendGeneration_prompt plan _ _

theorem prepare_prompt (session : Session) (turn : Turn) :
    Safe (prompt .responses) Stage.Ready (prepare session turn) .waiting := by
  unfold prepare
  cases session.plan turn with
  | error error => exact fun h => by cases h
  | ok plan =>
    simp only
    split
    · exact sendTurn_prompt session plan
    · refine prompt_await trivial fun ok => ?_
      cases ok with
      | true => exact sendTurn_prompt _ plan
      | false => exact fun h => by cases h

theorem endTurn_prompt {sessionEnd : SessionEnd} (hstage : stage ≠ .answered) :
    Safe (prompt path) (fun _ _ => True) (endTurn sessionEnd) stage := by
  refine prompt_await_of_not hstage rfl fun stage _ hstage => ?_
  cases sessionEnd with
  | error error =>
    exact (prompt_await_of_not hstage rfl fun _ _ _ => trivial : Safe (prompt path) (fun _ _ => True)
      (await (.answer (.error error)) >>= fun _ => pure ()) _)
  | terminal item =>
    exact (prompt_await_of_not hstage rfl fun _ _ _ => trivial : Safe (prompt path) (fun _ _ => True)
      (await (.deliver item) >>= fun _ => pure ()) _)
  | canceled => trivial

theorem failTurn_prompt {error : ApiError} (hstage : stage ≠ .answered) :
    Safe (prompt path) (fun _ _ => True) (failTurn error) stage := by
  have hend : ∀ stage status, stage ≠ .answered → Safe (prompt path) (fun _ _ => True)
      (finish status (some error.status) none >>= fun _ => endTurn (.error error)) stage :=
    fun stage status hstage => (finish_prompt hstage).bind fun stage _ hstage => by
      subst hstage
      exact prompt_settled _ fun _ => trivial
  unfold failTurn
  split
  · exact hend stage _ hstage
  · refine prompt_await_of_not hstage rfl fun stage cancelled hstage => ?_
    cases cancelled <;> exact hend stage _ hstage

theorem respond_prompt (session : Session) (turn : Turn) (rates : ModelRates) :
    Safe (prompt .responses) (fun _ _ => True) (respond session turn rates) .waiting := by
  have hprepared : Safe (prompt .responses) (Stage.Selects Stage.Ready)
      (race true (prepare session turn)) .waiting := by
    have hrest : ∀ stage, stage = Stage.waiting ∨ stage = .settled → stage ≠ .answered := by
      rintro stage (rfl | rfl) <;> exact fun h => by cases h
    refine prompt_await trivial fun selected => ?_
    cases selected with
    | shutdown | closed => exact fun h => by cases h
    | done =>
      exact prompt_interruptible (by decide) (prepare_prompt session turn) (fun _ _ h => h) hrest
        hrest
  refine hprepared.bind fun stage selected hselected => ?_
  cases selected with
  | shutdown => exact failTurn_prompt hselected
  | closed => exact endTurn_prompt hselected
  | done prepared =>
    cases prepared with
    | error error => exact failTurn_prompt hselected
    | ok =>
      obtain rfl : stage = .waiting := hselected
      refine prompt_await trivial fun _ => prompt_await trivial fun ok => ?_
      cases ok with
      | true => exact prompt_await trivial fun _ => trivial
      | false =>
        have hcanceled : Safe (prompt .responses) (fun _ _ => True) (endTurn .canceled) .waiting :=
          endTurn_prompt fun h => by cases h
        exact hcanceled

theorem responses_prompt (config : Config) (identity : ClientIdentity) (headers : HeaderMap)
    (body : Option Value) :
    Safe (prompt .responses) (fun _ _ => True) (responses config identity headers body)
      .waiting := by
  refine (prepareTurn_prompt config identity headers body).bind fun stage result hresult => ?_
  cases result with
  | error error => exact answerWith_prompt hresult
  | ok prepared =>
    obtain rfl : stage = .waiting := hresult
    refine prompt_await trivial fun received => ?_
    cases received with
    | none => exact answerWith_prompt fun h => by cases h
    | some session => exact respond_prompt session _ _

/-! ### Responses: the stream -/

/-- What a round of a loop leaves. -/
def Stage.Rounds {σ : Type} (stage : Stage) : Round σ α → Prop
  | .again _ => stage = .waiting ∨ stage = .settled
  | .finished _ => stage = .settled

theorem Stage.rounds_settled {σ : Type} (round : Round σ α) : Stage.settled.Rounds round := by
  cases round with
  | again state => exact .inr rfl
  | finished result => exact rfl

theorem failStream_prompt {status : FinalStatus} {σ : Type} (hstage : stage ≠ .answered) :
    Safe (prompt path) Stage.Rounds (failStream status : Code (Round σ (Option α))) stage :=
  (finish_prompt hstage).bind fun _ _ hstage => hstage

theorem forwardText_prompt (isHttpDate : String → Bool) (rates : ModelRates) (frame : TextFrame) :
    Safe (prompt .responses) Stage.Rounds (forwardText isHttpDate rates frame)
      (Stage.waiting.hear .responses frame.cause.outcome) := by
  unfold forwardText
  cases hevent : frame.event.bind fun event => (eventType event).map (event, ·) with
  | none =>
    rw [TextFrame.cause_of_untyped hevent]
    exact failStream_prompt fun h => by cases h
  | some found =>
    obtain ⟨event, eventName⟩ := found
    simp only [TextFrame.cause, TextFrame.filter_of_typed hevent]
    cases parseTerminalPayload event with
    | error error => exact failStream_prompt fun h => by cases h
    | ok parsed =>
      cases parsed with
      | none =>
        refine prompt_await trivial fun ok => ?_
        cases ok with
        | true => exact .inl rfl
        | false => exact failStream_prompt fun h => by cases h
      | some terminal =>
        refine (finishTerminal_prompt (finalStatus_ne_canceled _)).bind fun stage ok hstage => ?_
        cases ok <;> exact hstage

theorem forwardRound_prompt (isHttpDate : String → Bool) (rates : ModelRates) :
    Safe (prompt .responses) Stage.Rounds (forwardRound isHttpDate rates) .waiting := by
  refine prompt_await trivial fun selected => ?_
  cases selected with
  | shutdown | closed => exact failStream_prompt fun h => by cases h
  | done next =>
    cases next with
    | broken | ended => exact failStream_prompt fun h => by cases h
    | message message =>
      cases message with
      | text frame => exact forwardText_prompt isHttpDate rates frame
      | pong => exact .inl rfl
      | ping payload =>
        refine prompt_await trivial fun ok => ?_
        cases ok with
        | true => exact .inl rfl
        | false => exact failStream_prompt fun h => by cases h
      | close | binary | frame => exact failStream_prompt fun h => by cases h

theorem forward_prompt (isHttpDate : String → Bool) (rates : ModelRates) :
    Safe (prompt .responses) (fun _ _ => True) (forward isHttpDate rates) .waiting := by
  have hround : Safe (prompt .responses) (Stage.Selects Stage.Rounds)
      (interruptible true (forwardRound isHttpDate rates)) .waiting := by
    have hrest : ∀ stage, stage = Stage.waiting ∨ stage = .settled → stage ≠ .answered := by
      rintro stage (rfl | rfl) <;> exact fun h => by cases h
    exact prompt_interruptible (by decide) (forwardRound_prompt isHttpDate rates) (fun _ _ h => h)
      hrest hrest
  refine hround.bind fun stage selected hselected => ?_
  cases selected with
  | shutdown | closed => exact endTurn_prompt hselected
  | done round =>
    cases round with
    | again => rcases hselected with rfl | rfl <;> trivial
    | finished item =>
      obtain rfl : stage = .settled := hselected
      exact prompt_settled _ fun _ => trivial

/-! ### Chat -/

theorem prepareChat_prompt (config : Config) (identity : ClientIdentity) (body : Option Value) :
    Safe (prompt .chatCompletions) Stage.Ready (prepareChat config identity body) .waiting := by
  unfold prepareChat
  cases body with
  | none => exact rejectRequest_prompt _ _ _ _ _
  | some parsed =>
    simp only
    cases chatRequest config parsed with
    | error error => exact rejectRequest_prompt _ _ _ _ _
    | ok accepted =>
      refine (admitRequest_prompt identity _ .chatCompletions).bind fun stage result hresult => ?_
      cases result with
      | error error => exact hresult
      | ok admitted =>
        obtain rfl : stage = .waiting := hresult
        exact prompt_await trivial fun _ => rfl

theorem sendUpstream_prompt (body : Object) :
    Safe (prompt .chatCompletions) Stage.Ready (sendUpstream body) .waiting := by
  refine prompt_await trivial fun selected => ?_
  cases selected with
  | shutdown | closed => exact finishWith_prompt fun h => by cases h
  | done success =>
    cases success with
    | none => exact finishWith_prompt fun h => by cases h
    | some success =>
      cases success with
      | true => exact rfl
      | false => exact finishWith_prompt fun h => by cases h

theorem chatCompletions_prompt (config : Config) (identity : ClientIdentity)
    (body : Option Value) :
    Safe (prompt .chatCompletions) (fun _ _ => True) (chatCompletions config identity body)
      .waiting := by
  refine (prepareChat_prompt config identity body).bind fun stage result hresult => ?_
  cases result with
  | error error => exact answerWith_prompt hresult
  | ok prepared =>
    obtain rfl : stage = .waiting := hresult
    refine (sendUpstream_prompt _).bind fun stage result hresult => ?_
    cases result with
    | error error => exact answerWith_prompt hresult
    | ok =>
      obtain rfl : stage = .waiting := hresult
      simp only
      split
      · exact prompt_await trivial fun _ => prompt_await trivial fun _ =>
          prompt_await trivial fun _ => trivial
      · trivial

theorem failChatStream_prompt {status : FinalStatus} (hstage : stage ≠ .answered) :
    Safe (prompt path) Stage.Rounds (failChatStream status) stage :=
  (finish_prompt hstage).bind fun _ _ hstage => hstage

theorem chatStreamTerminal_prompt (rates : ModelRates) (converter : ChatStreamConverter)
    (terminal : TerminalEvent) :
    Safe (prompt .chatCompletions) Stage.Rounds (chatStreamTerminal rates converter terminal)
      stage := by
  unfold chatStreamTerminal
  cases terminal.upstreamError with
  | some error =>
    refine (finishTerminal_prompt (by decide)).bind fun stage _ hstage => ?_
    subst hstage
    exact prompt_settled _ Stage.rounds_settled
  | none =>
    simp only
    cases converter.convertTerminal terminal with
    | error error =>
      exact (finishTerminal_prompt (by decide)).bind fun _ _ hstage => hstage
    | ok converted =>
      refine (finishTerminal_prompt (convertedStatus_ne_canceled _)).bind fun stage ok hstage => ?_
      subst hstage
      exact prompt_settled _ Stage.rounds_settled

theorem chatStreamEvent_prompt (converter : ChatStreamConverter) (data : Option Value) :
    Safe (prompt .chatCompletions) Stage.Rounds (chatStreamEvent converter data) .waiting := by
  unfold chatStreamEvent
  cases data with
  | none => exact .inl rfl
  | some value =>
    simp only
    split
    · exact failChatStream_prompt fun h => by cases h
    · exact .inl rfl
    · refine prompt_await trivial fun ok => ?_
      cases ok with
      | true => exact .inl rfl
      | false => exact failChatStream_prompt fun h => by cases h

theorem chatStream_prompt (rates : ModelRates) (converter : ChatStreamConverter) :
    Safe (prompt .chatCompletions) (fun _ _ => True) (chatStream rates converter) .waiting := by
  have hround : Safe (prompt .chatCompletions) Stage.Rounds (chatStreamRound rates converter)
      .waiting := by
    refine prompt_await trivial fun selected => ?_
    cases selected with
    | shutdown | closed => exact failChatStream_prompt fun h => by cases h
    | done read =>
      cases read with
      | eof | broken => exact failChatStream_prompt fun h => by cases h
      | record record =>
        have hafter : Stage.waiting.after .chatCompletions (.select true .nextRecord)
            (.done (.record record)) =
              Stage.waiting.hear .chatCompletions (SseRead.record record).cause.outcome := rfl
        simp only [hafter, SseRead.cause]
        cases validateEvent record with
        | error error => exact failChatStream_prompt Stage.failed_ne_answered
        | ok validated =>
          cases validated with
          | none => exact chatStreamEvent_prompt converter record.data
          | some terminal => exact chatStreamTerminal_prompt rates converter terminal
  refine hround.bind fun stage round hround => ?_
  cases round with
  | again converter => rcases hround with rfl | rfl <;> trivial
  | finished =>
    obtain rfl : stage = .settled := hround
    exact prompt_settled _ fun _ => trivial

theorem failChat_prompt {status : FinalStatus} {httpStatus : Option Nat} {error : ApiError}
    (hstage : stage ≠ .answered) :
    Safe (prompt path) Stage.Rounds (failChat status httpStatus error) stage := by
  refine (finish_prompt hstage).bind fun stage result hstage => ?_
  cases result <;> exact hstage

theorem refuseTerminal_prompt {rates : ModelRates} {terminal : TerminalEvent} {error : ApiError} :
    Safe (prompt path) Stage.Rounds (refuseTerminal rates terminal error) stage :=
  (finishTerminal_prompt (by decide)).bind fun _ _ hstage => hstage

theorem chatReadTerminal_prompt (rates : ModelRates) (completedOutputItems : List Value)
    (terminal : TerminalEvent) :
    Safe (prompt .chatCompletions) Stage.Rounds
      (chatReadTerminal rates completedOutputItems terminal) stage := by
  unfold chatReadTerminal
  cases terminal.upstreamError with
  | some error => exact refuseTerminal_prompt
  | none =>
    simp only
    cases convertTerminalEvent (terminal.withOutputItems completedOutputItems) with
    | error error => exact refuseTerminal_prompt
    | ok converted =>
      refine (finishTerminal_prompt (convertedStatus_ne_canceled _)).bind fun stage ok hstage => ?_
      cases ok <;> exact hstage

theorem chatRead_prompt (rates : ModelRates) (completedOutputItems : List Value) :
    Safe (prompt .chatCompletions) (fun _ _ => True) (chatRead rates completedOutputItems)
      .waiting := by
  have hround : Safe (prompt .chatCompletions) Stage.Rounds
      (chatReadRound rates completedOutputItems) .waiting := by
    refine prompt_await trivial fun selected => ?_
    cases selected with
    | shutdown | closed => exact failChat_prompt fun h => by cases h
    | done read =>
      cases read with
      | eof | broken => exact failChat_prompt fun h => by cases h
      | record record =>
        have hafter : Stage.waiting.after .chatCompletions (.select false .nextRecord)
            (.done (.record record)) =
              Stage.waiting.hear .chatCompletions (SseRead.record record).cause.outcome := rfl
        simp only [hafter, SseRead.cause]
        cases validateEvent record with
        | error error => exact failChat_prompt Stage.failed_ne_answered
        | ok validated =>
          cases validated with
          | none => exact .inl rfl
          | some terminal => exact chatReadTerminal_prompt rates completedOutputItems terminal
  refine hround.bind fun stage round hround => ?_
  cases round with
  | again items => rcases hround with rfl | rfl <;> trivial
  | finished answer =>
    obtain rfl : stage = .settled := hround
    exact prompt_settled _ fun _ => trivial

/-! ### WebSocket sessions -/

/-- An effect of a WebSocket session that tells of no terminal event. -/
def Effect.quiet : Effect → Bool
  | spawnFinalizer _ => false
  | effect => !effect.listens

/-- The stage of a session changes with what it receives only. -/
theorem Stage.after_quiet {effect : Effect} {reply : effect.Reply}
    (hstage : stage = .waiting ∨ stage = .answered) (hquiet : effect.quiet = true) :
    stage.after .webSocket effect reply = stage := by
  rcases hstage with rfl | rfl
  · have hafter : Stage.waiting.after .webSocket effect reply =
        Stage.waiting.hear .webSocket (effect.outcome reply) := by
      cases effect <;> first | exact absurd hquiet Bool.false_ne_true | rfl
    rw [hafter]
    cases hobserve : effect.observe reply with
    | none => simp [Effect.outcome, hobserve, Stage.hear]
    | some cause =>
      cases cause with
      | clear | interrupted | failed =>
        simp [Effect.outcome, hobserve, Cause.outcome, Stage.hear]
      | terminal terminal =>
        have hlistens := listens_of_terminal hobserve
        cases effect <;> simp [Effect.quiet, hlistens] at hquiet
  · cases effect <;> first | exact absurd hquiet Bool.false_ne_true | rfl

/-- An effect of a session and what comes after it. -/
theorem session_await {R : Stage → β → Prop} {effect : Effect} {f : effect.Reply → Code β}
    (hstage : stage = .waiting ∨ stage = .answered) (hquiet : effect.quiet = true)
    (hsettles : stage = .answered → effect.settles .webSocket)
    (hf : ∀ reply, Safe (prompt .webSocket) R (f reply) stage) :
    Safe (prompt .webSocket) R (await effect >>= f) stage := by
  refine prompt_await ?_ fun reply => ?_
  · rcases hstage with rfl | rfl
    · trivial
    · exact hsettles rfl
  · rw [Stage.after_quiet hstage hquiet]
    exact hf reply

/-- An effect of a session that has not been answered. -/
theorem session_waits {R : Stage → β → Prop} {effect : Effect} {f : effect.Reply → Code β}
    (hquiet : effect.quiet = true)
    (hf : ∀ reply, Safe (prompt .webSocket) R (f reply) .waiting) :
    Safe (prompt .webSocket) R (await effect >>= f) .waiting :=
  session_await (.inl rfl) hquiet (fun h => by cases h) hf

/-- A session that has not been answered, or has finalized its active request. -/
def Stage.Goes (stage : Stage) (result : Ending × Option InFlight) : Prop :=
  stage = .waiting ∨ stage = .answered ∧ result.2 = none

theorem reject_prompt (identity : ClientIdentity) (value error : Value) :
    Safe (prompt .webSocket) (fun stage _ => stage = .waiting) (reject identity value error)
      .waiting := by
  refine (recordRejection_prompt _ _ _ _).bind fun stage result hstage => ?_
  subst hstage
  cases result with
  | error error => exact rfl
  | ok => exact session_waits rfl fun _ => rfl

theorem failCreate_prompt (requestId : RequestId) :
    Safe (prompt .webSocket) Stage.Goes (failCreate requestId) .waiting :=
  session_waits rfl fun _ => .inl rfl

theorem dispatchCreate_prompt (requestId : RequestId) (effectiveModel : EffectiveModel)
    (payload : Object) :
    Safe (prompt .webSocket) Stage.Goes (dispatchCreate requestId effectiveModel payload)
      .waiting := by
  have hprepared : ∀ model requestKey, Safe (prompt .webSocket) (fun stage _ => stage = .waiting)
      (prepareResponsesLite payload model requestKey) .waiting := by
    intro model requestKey
    unfold prepareResponsesLite
    cases responsesLitePrewarm payload model requestKey with
    | error error => exact rfl
    | ok prepared =>
      have hprewarm : Safe (prompt .webSocket) (fun stage _ => stage = .waiting)
          (sendResponsesPrewarm prepared.2) .waiting := by
        refine session_waits rfl fun ok => ?_
        cases ok with
        | true =>
          refine ⟨trivial, fun reply _ => ?_⟩
          show Stage.waiting.after .webSocket .prewarmReply reply = .waiting
          exact Stage.after_quiet (.inl rfl) rfl
        | false => exact rfl
      refine hprewarm.bind fun stage result hstage => ?_
      subst hstage
      cases result <;> exact rfl
  refine session_waits rfl fun found => ?_
  cases liteModel found with
  | none => exact failCreate_prompt requestId
  | some model =>
    refine (hprepared model _).bind fun stage result hstage => ?_
    subst hstage
    cases result with
    | error error => exact failCreate_prompt requestId
    | ok payload =>
      refine session_waits rfl fun ok => ?_
      cases ok with
      | true => exact .inl rfl
      | false => exact failCreate_prompt requestId

theorem refuseCreate_prompt (requestId : RequestId) :
    Safe (prompt .webSocket) (fun stage _ => stage = .waiting) (refuseCreate requestId)
      .waiting := by
  refine session_waits rfl fun result => ?_
  cases result with
  | error error => exact rfl
  | ok => exact session_waits rfl fun _ => rfl

theorem handleCreate_prompt (config : Config) (identity : ClientIdentity)
    (active : Option InFlight) (frame : TextFrame) :
    Safe (prompt .webSocket) Stage.Goes (handleCreate config identity active frame) .waiting := by
  have hrejected : ∀ value error, Safe (prompt .webSocket) Stage.Goes
      (reject identity value error >>= fun ending => pure (ending, active)) .waiting :=
    fun value error => (reject_prompt identity value error).bind fun _ _ hstage => .inl hstage
  unfold handleCreate
  cases frame.event with
  | none => exact hrejected _ _
  | some value =>
    simp only
    cases prepareRequest config value with
    | error error => exact hrejected _ _
    | ok accepted =>
      refine (beginRequest_prompt _ _ accepted.candidates).bind fun stage result hstage => ?_
      subst hstage
      cases result with
      | error error => exact .inl rfl
      | ok admission =>
        cases admission with
        | weeklyQuotaExceeded => exact session_waits rfl fun _ => .inl rfl
        | admitted requestId effectiveModel =>
          cases active with
          | some request =>
            exact (refuseCreate_prompt requestId).bind fun _ _ hstage => .inl hstage
          | none => exact dispatchCreate_prompt requestId effectiveModel _

theorem handleDownstream_prompt (config : Config) (identity : ClientIdentity)
    (active : Option InFlight) (message : DownstreamMessage) :
    Safe (prompt .webSocket) Stage.Goes (handleDownstream config identity active message)
      .waiting := by
  cases message with
  | text frame => exact handleCreate_prompt config identity active frame
  | binary => exact .inl rfl
  | ping | pong | close => exact session_waits rfl fun _ => .inl rfl

theorem bookTerminal_prompt (request : InFlight) (terminal : TerminalEvent) :
    Safe (prompt .webSocket) (fun stage _ => stage = .answered) (bookTerminal request terminal)
      .answered := by
  refine session_await (.inr rfl) rfl (fun _ => ⟨rfl, finalStatus_ne_canceled _⟩) fun result => ?_
  cases result with
  | ok => exact rfl
  | error error =>
    exact session_await (.inr rfl) rfl (fun _ => ⟨rfl, fun h => by cases h⟩) fun _ => rfl

theorem handleUpstreamText_prompt (isHttpDate : String → Bool) (active : Option InFlight)
    (frame : TextFrame) :
    Safe (prompt .webSocket) Stage.Goes (handleUpstreamText isHttpDate active frame)
      (Stage.waiting.hear .webSocket frame.cause.outcome) := by
  unfold handleUpstreamText
  simp only [TextFrame.cause]
  cases frame.event.filter fun event => (eventType event).isSome with
  | none => exact .inl rfl
  | some event =>
    simp only
    cases parseTerminalPayload event with
    | error error => exact .inl rfl
    | ok parsed =>
      cases parsed with
      | none => exact session_waits rfl fun _ => .inl rfl
      | some terminal =>
        cases active with
        | none => exact .inr ⟨rfl, rfl⟩
        | some request =>
          refine (bookTerminal_prompt request terminal).bind fun stage ok hstage => ?_
          subst hstage
          cases ok with
          | false => exact .inr ⟨rfl, rfl⟩
          | true => exact session_await (.inr rfl) rfl (fun _ => rfl) fun _ => .inr ⟨rfl, rfl⟩

theorem handleEvent_prompt (config : Config) (isHttpDate : String → Bool)
    (identity : ClientIdentity) (active : Option InFlight) (event : ConnectionEvent) :
    Safe (prompt .webSocket) Stage.Goes (handleEvent config isHttpDate identity active event)
      (Stage.waiting.after .webSocket .receive event) := by
  cases event with
  | shutdown | clientGone | upstreamGone => exact .inl rfl
  | downstream message =>
    have hafter : Stage.waiting.after .webSocket .receive (.downstream message) = .waiting := by
      cases message <;> rfl
    rw [hafter]
    exact handleDownstream_prompt config identity active message
  | upstream message =>
    cases message with
    | text frame => exact handleUpstreamText_prompt isHttpDate active frame
    | binary | frame => exact .inl rfl
    | ping | pong | close => exact session_waits rfl fun _ => .inl rfl

theorem finishConnection_prompt {active : Option InFlight} {ending : ConnectionEnd}
    (hstage : stage.Goes (some ending, active)) :
    Safe (prompt .webSocket) (fun _ _ => True) (finishConnection active ending) stage := by
  have hgoes : stage = .waiting ∨ stage = .answered := hstage.imp_right And.left
  have hsend : ∀ item, Safe (prompt .webSocket) (fun _ _ => True)
      (await (.send item) >>= fun _ => pure ()) stage := fun item =>
    session_await hgoes rfl (fun _ => rfl) fun _ => trivial
  have hupstream : ∀ frame, Safe (prompt .webSocket) (fun stage' _ => stage' = stage)
      (closeUpstream frame) stage := fun frame =>
    session_await hgoes rfl (fun _ => rfl) fun _ => rfl
  have hfinalize : ∀ status, Safe (prompt .webSocket) (fun stage' _ => stage' = stage)
      (finalizeActive active status) stage := by
    intro status
    rcases hstage with rfl | ⟨rfl, hnone⟩
    · cases active with
      | none => exact rfl
      | some request => exact session_waits rfl fun _ => rfl
    · obtain rfl : active = none := hnone
      exact rfl
  cases ending with
  | shutdown | clientProtocolError | internalFailure =>
    refine (hfinalize _).bind fun _ _ hstage => ?_
    subst hstage
    refine (hupstream _).bind fun _ _ hstage => ?_
    subst hstage
    exact hsend _
  | clientDisconnect frame =>
    refine (hfinalize _).bind fun _ _ hstage => ?_
    subst hstage
    exact (hupstream _).mono fun _ _ _ => trivial
  | upstreamFailure =>
    refine (hfinalize _).bind fun _ _ hstage => ?_
    subst hstage
    exact hsend _
  | upstreamClosed frame =>
    simp only [finishConnection]
    split
    · refine (hfinalize _).bind fun _ _ hstage => ?_
      subst hstage
      exact hsend _
    · exact hsend _
  | accountingFailure =>
    have hclose : Safe (prompt .webSocket) (fun stage' _ => stage' = stage)
        (closeDownstream 1011 "Internal WebSocket accounting failure") stage :=
      session_await hgoes rfl (fun _ => rfl) fun _ => rfl
    refine hclose.bind fun _ _ hstage => ?_
    subst hstage
    exact (hupstream _).mono fun _ _ _ => trivial

theorem connection_prompt (config : Config) (isHttpDate : String → Bool)
    (identity : ClientIdentity) (active : Option InFlight) :
    Safe (prompt .webSocket) (fun _ _ => True) (connection config isHttpDate identity active)
      .waiting := by
  refine prompt_await trivial fun event => ?_
  refine (handleEvent_prompt config isHttpDate identity active event).bind fun stage result hstage => ?_
  obtain ⟨ending, active'⟩ := result
  cases ending with
  | some ending => exact finishConnection_prompt hstage
  | none =>
    rcases hstage with rfl | ⟨rfl, hnone⟩
    · trivial
    · obtain rfl : active' = none := hnone
      exact ⟨identity, rfl⟩

/-! ### All code -/

/-- **Every loop acts on an outcome at once.** -/
theorem loop_prompt (config : Config) (isHttpDate : String → Bool) {loop : Loop} {v : View}
    (hloop : v.AtLoop path loop) :
    Safe (prompt path) (fun _ _ => True) (loop.code config isHttpDate) .waiting := by
  cases loop with
  | forward rates =>
    obtain ⟨rfl, -⟩ := hloop
    exact forward_prompt isHttpDate rates
  | chatStream rates converter =>
    obtain ⟨rfl, -⟩ := hloop
    exact chatStream_prompt rates converter
  | chatRead rates completedOutputItems =>
    obtain ⟨rfl, -⟩ := hloop
    exact chatRead_prompt rates completedOutputItems
  | connection identity active =>
    obtain ⟨rfl, -⟩ := hloop
    exact connection_prompt config isHttpDate identity active

end CodexApi.Delivery
