import CodexApi.Delivery.HandlersRespect

/-!
# The Chat handler respects the contract

`POST /v1/chat/completions` up to its two loops (`chatCompletions_respects`), the streaming loop
(`chatStream_respects`) and the one that collects a single answer (`chatRead_respects`).
-/

namespace CodexApi.Delivery

open Program (Safe bind_op perform safe_pure)

variable {v : View} {α β : Type} {row : Admitted} {started : Option Nat} {rates : ModelRates}
  {cause : Cause}

/-! ### The handler -/

/-- What `prepareChat` leaves: a row whose `PendingRequest` has just been made. -/
theorem prepareChat_respects (config : Config) (identity : ClientIdentity) (body : Option Value) :
    Safe (contract .chatCompletions)
      (View.Returns .chatCompletions fun v (prepared : ConvertedRequest × Object × ModelRates) =>
        ∃ row, v = { View.guarding row none .clear with dispatching := true } ∧
          row.model.rates = prepared.2.2)
      (prepareChat config identity body) .start := by
  unfold prepareChat
  cases body with
  | none => exact rejectRequest_respects _ _ _ _ (.inl rfl)
  | some parsed =>
    simp only
    cases hrequest : chatRequest config parsed with
    | error error =>
      exact rejectRequest_respects _ _ _ _ (chatRequest_failsWith config parsed error hrequest)
    | ok accepted =>
      obtain ⟨accepted, converted⟩ := accepted
      refine (admitRequest_respects identity accepted.candidates .chatCompletions).bind
        fun v result hresult => ?_
      cases result with
      | error error => exact hresult
      | ok admitted =>
        obtain rfl : v = _ := hresult
        exact newPending_respects (by decide) ⟨⟨admitted.1, admitted.2⟩, rfl, rfl⟩

theorem sendUpstream_respects (body : Object) :
    Safe (contract .chatCompletions)
      (View.Returns .chatCompletions fun v (_ : Unit) => v = .guarding row none .clear)
      (sendUpstream body) { View.guarding row none .clear with dispatching := true } := by
  refine respects_await ⟨by decide, trivial⟩ (fun _ _ => rfl) (fun _ => rfl)
    fun selected hselected => ?_
  have hfailed : Safe (contract .chatCompletions)
      (View.Returns .chatCompletions fun v (_ : Unit) => v = .guarding row none .clear)
      (finishWith .upstreamError (some 502) (.gateway "Upstream request failed"))
      (.guarding row none (.failed .other)) :=
    finishWith_respects (by decide) (by decide)
      (justified_upstreamError (fun _ h => by cases h) (by decide)) fun _ => .inr ⟨rfl, rfl⟩
  cases selected with
  | shutdown =>
    exact finishWith_respects (by decide) (by decide) (justified_canceled trivial (by simp))
      fun h => absurd h (by decide)
  | closed => cases hselected
  | done success =>
    cases success with
    | none => exact hfailed
    | some success =>
      cases success with
      | false => exact hfailed
      | true => exact rfl

/-- **`POST /v1/chat/completions` respects the contract.** -/
theorem chatCompletions_respects (config : Config) (identity : ClientIdentity)
    (body : Option Value) :
    (chatCompletions config identity body).Respects .chatCompletions .start := by
  refine (prepareChat_respects config identity body).bind fun v result hresult => ?_
  cases result with
  | error error => exact answerWith_respects hresult.1 hresult.2
  | ok prepared =>
    obtain ⟨converted, upstreamRequest, rates⟩ := prepared
    obtain ⟨row, rfl, hrates⟩ := hresult
    refine (sendUpstream_respects upstreamRequest).bind fun v result hresult => ?_
    cases result with
    | error error => exact answerWith_respects hresult.1 hresult.2
    | ok =>
      obtain rfl : v = _ := hresult
      simp only
      split
      · refine respects_idle rfl (fun _ => rfl) ⟨by decide, by decide, row, none, rfl⟩
          fun _ _ => ?_
        refine respects_idle rfl (fun _ => rfl) trivial fun _ _ => ?_
        refine respects_idle rfl (fun _ => rfl) trivial fun _ _ => ?_
        exact ⟨rfl, by decide, row, some 200, rfl, hrates, streamStatus_inRange⟩
      · exact ⟨rfl, by decide, row, none, rfl, hrates, by simp⟩

/-! ### Closing the row -/

theorem finish_closed {status : FinalStatus} {httpStatus : Option Nat}
    (hstatus : status ≠ .internalError)
    (hjustified : Justified .chatCompletions cause row.model.rates ⟨status, httpStatus, none⟩) :
    Safe (contract .chatCompletions) (fun v _ => v.Closed) (finish status httpStatus none)
      (.guarding row started cause) := by
  refine (finish_respects (View.guards_guarding (by decide)) hstatus hjustified).mono
    fun v result hresult => ?_
  cases result with
  | error =>
    obtain ⟨-, rfl⟩ := hresult
    exact ⟨rfl, rfl, fun _ _ h => by cases h⟩
  | ok =>
    obtain rfl : v = _ := hresult
    exact ⟨rfl, rfl, fun _ _ h => by cases h⟩

/-- What `finish_terminal` leaves after a terminal event: the only row is closed, and its closure is
told. -/
structure View.ClosedBy (row : Admitted) (terminal : TerminalEvent) (first second : Attempt)
    (v : View) (ok : Bool) : Prop extends View.Closed v where
  ids : v.ids = [row.id]
  cause : v.cause = .terminal terminal
  booked : ok = true → v.spoiled = false ∧ v.closure = some (.committed row first)
  retried : ok = false → v.closure = some (.retried row second)

theorem finishTerminal_closedBy {terminal : TerminalEvent} {status : FinalStatus}
    {httpStatus fallback : Nat} (hstatus : status ≠ .internalError)
    (hfirst : Justified .chatCompletions (.terminal terminal) row.model.rates
      ⟨status, some httpStatus, terminalUsage terminal row.model.rates⟩)
    (hfallback : ∀ status ∈ some fallback, 100 ≤ status ∧ status ≤ 599) :
    Safe (contract .chatCompletions)
      (View.ClosedBy row terminal ⟨status, some httpStatus, terminalUsage terminal row.model.rates⟩
        ⟨.upstreamError, some fallback, none⟩)
      (finishTerminal status httpStatus fallback (terminalUsage terminal row.model.rates))
      (.guarding row started (.terminal terminal)) := by
  refine (finishTerminal_respects (View.guards_guarding (by decide)) hstatus hfirst
    (justified_upstreamError (fun _ h => by cases h) hfallback)).mono fun v ok hok => ?_
  cases ok with
  | true =>
    obtain rfl : v = _ := hok
    exact ⟨⟨rfl, rfl, fun _ _ h => by cases h⟩, rfl, rfl, fun _ => ⟨rfl, rfl⟩, fun h => by cases h⟩
  | false =>
    obtain rfl : v = _ := hok
    exact ⟨⟨rfl, rfl, fun _ _ h => by cases h⟩, rfl, rfl, fun h => (by cases h), fun _ => rfl⟩

theorem View.ClosedBy.covers {terminal : TerminalEvent} {status : FinalStatus} {httpStatus : Nat}
    {second : Attempt} {ok : Bool}
    (hv : v.ClosedBy row terminal ⟨status, some httpStatus, terminalUsage terminal row.model.rates⟩
      second ok) (hok : ok = true) (hstatus : status = terminal.kind.finalStatus) : v.Covers terminal :=
  ⟨(hv.booked hok).1, hv.cause, row, _, (hv.booked hok).2, hstatus, rfl⟩

/-- A converted terminal event has the status and the usage of the event. -/
theorem finalStatus_of_convertible {kind : TerminalKind} {status : TerminalStatus}
    (h : convertibleStatus kind = .ok status) :
    status.finalStatus = kind.finalStatus ∧ (kind = .completed ∨ kind = .incomplete) := by
  cases kind <;> cases h
  · exact ⟨rfl, .inl rfl⟩
  · exact ⟨rfl, .inr rfl⟩

/-! ### The stream -/

/-- What a round of `forward_chat_stream` leaves. -/
def View.Streamed (row : Admitted) (started : Option Nat) (v : View) :
    Round ChatStreamConverter Unit → Prop
  | .again _ => v = .guarding row started .clear
  | .finished () => v.Closed

theorem failChatStream_respects {status : FinalStatus} (hstatus : status ≠ .internalError)
    (hjustified : Justified .chatCompletions cause row.model.rates ⟨status, some 200, none⟩) :
    Safe (contract .chatCompletions) (View.Streamed row started) (failChatStream status)
      (.guarding row started cause) :=
  (finish_closed hstatus hjustified).bind fun _ _ hv => hv

/-- The chunks that a terminal event ends a stream with. -/
theorem sendChunks_respects {terminal : TerminalEvent} (hv : v.Closed) (hcovers : v.Covers terminal)
    (chunks : List Value) :
    Safe (contract .chatCompletions) (fun v _ => v.Closed) (sendChunks terminal chunks) v := by
  have hsends : ∀ (v : View) (item : Item), v.Covers terminal → item.terminal = some terminal →
      v.Sends item := by
    intro v item hcovers hitem terminal' hterminal _
    rw [hitem] at hterminal
    cases hterminal
    exact hcovers
  induction chunks generalizing v with
  | nil =>
    exact respects_idle hv.notDispatching (fun _ => hv.held) (hsends v _ hcovers rfl)
      fun _ _ => ⟨hv.held, hv.notDispatching, hv.closed⟩
  | cons chunk chunks ih =>
    refine respects_idle hv.notDispatching (fun _ => hv.held) (hsends v _ hcovers rfl)
      fun ok _ => ?_
    cases ok with
    | true => exact ih ⟨hv.held, hv.notDispatching, hv.closed⟩ hcovers
    | false => exact ⟨hv.held, hv.notDispatching, hv.closed⟩

theorem chatStreamTerminal_respects (converter : ChatStreamConverter) (terminal : TerminalEvent) :
    Safe (contract .chatCompletions) (View.Streamed row started)
      (chatStreamTerminal row.model.rates converter terminal)
      (.guarding row started (.terminal terminal)) := by
  unfold chatStreamTerminal
  cases herror : terminal.upstreamError with
  | some error =>
    refine (finishTerminal_closedBy (by decide) (justified_refused streamStatus_inRange)
      streamStatus_inRange).bind fun v ok hv => ?_
    exact respects_idle hv.notDispatching (fun _ => hv.held) (fun terminal h => by cases h)
      fun _ _ => ⟨hv.held, hv.notDispatching, hv.closed⟩
  | none =>
    simp only
    cases hconverted : converter.convertTerminal terminal with
    | error error =>
      exact (finishTerminal_closedBy (by decide) (justified_refused streamStatus_inRange)
        streamStatus_inRange).bind fun v ok hv => hv.toClosed
    | ok converted =>
      obtain ⟨status, response, metadata, usage, finishReason, hstatus, -, -, husage, -, rfl⟩ :=
        convertTerminal_eq_ok.mp hconverted
      obtain ⟨hfinal, -⟩ := finalStatus_of_convertible hstatus
      have hbillable : some (billableUsage usage row.model.rates) =
          terminalUsage terminal row.model.rates := by
        rw [terminalUsage, husage, Option.map_some]
      simp only
      rw [hfinal, hbillable]
      refine (finishTerminal_closedBy (finalStatus_ne_internalError _)
        (justified_terminal streamStatus_inRange) streamStatus_inRange).bind fun v ok hv => ?_
      cases ok with
      | true =>
        exact (sendChunks_respects hv.toClosed (hv.covers rfl rfl) _).bind fun v _ hv => hv
      | false => exact hv.toClosed

theorem chatStreamEvent_respects (converter : ChatStreamConverter) (data : Option Value) :
    Safe (contract .chatCompletions) (View.Streamed row started) (chatStreamEvent converter data)
      (.guarding row started .clear) := by
  unfold chatStreamEvent
  cases data with
  | none => exact rfl
  | some value =>
    simp only
    cases hconverted : converter.convertEvent value with
    | error error =>
      exact failChatStream_respects (by decide)
        (justified_upstreamError (fun _ h => by cases h) streamStatus_inRange)
    | ok converted =>
      obtain ⟨converter', chunk⟩ := converted
      cases chunk with
      | none => exact rfl
      | some chunk =>
        refine respects_idle rfl (fun _ => rfl) (fun terminal h => by cases h) fun ok _ => ?_
        cases ok with
        | true => exact rfl
        | false =>
          exact failChatStream_respects (by decide)
            (justified_canceled trivial streamStatus_inRange)

theorem chatStreamRound_respects (converter : ChatStreamConverter) :
    Safe (contract .chatCompletions) (View.Streamed row started)
      (chatStreamRound row.model.rates converter) (.guarding row started .clear) := by
  have hfailed : Safe (contract .chatCompletions) (View.Streamed row started)
      (failChatStream .upstreamError) (.guarding row started (.failed .other)) :=
    failChatStream_respects (by decide)
      (justified_upstreamError (fun _ h => by cases h) streamStatus_inRange)
  refine respects_await ⟨by decide, rfl, row, started, rfl⟩ (fun _ _ => rfl) (fun _ => rfl)
    fun selected _ => ?_
  cases selected with
  | shutdown | closed =>
    exact failChatStream_respects (by decide) (justified_canceled trivial streamStatus_inRange)
  | done read =>
    cases read with
    | eof => exact hfailed
    | broken => exact hfailed
    | record record =>
      have hcause : ∀ cause, SseRead.cause (.record record) = cause →
          (View.guarding row started .clear).after (.select true .nextRecord)
            (.done (.record record)) = .guarding row started cause := by
        rintro cause rfl
        rfl
      simp only
      cases hvalid : validateEvent record with
      | error error =>
        rw [hcause (.failed .other) (by rw [SseRead.cause, hvalid])]
        exact hfailed
      | ok terminal =>
        cases terminal with
        | none =>
          rw [hcause .clear (by rw [SseRead.cause, hvalid])]
          exact chatStreamEvent_respects converter record.data
        | some terminal =>
          rw [hcause (.terminal terminal) (by rw [SseRead.cause, hvalid])]
          exact chatStreamTerminal_respects converter terminal

/-- **The Chat stream respects the contract.** -/
theorem chatStream_respects {converter : ChatStreamConverter}
    (hv : v.AtLoop .chatCompletions (.chatStream rates converter)) :
    (chatStream rates converter).Respects .chatCompletions v := by
  obtain ⟨-, -, row, started, rfl, rfl, hstarted⟩ := hv
  refine (chatStreamRound_respects converter).bind fun v round hround => ?_
  cases round with
  | again converter' =>
    obtain rfl : v = _ := hround
    exact ⟨rfl, by decide, row, started, rfl, rfl, hstarted⟩
  | finished =>
    have hdroppable : v.Droppable .chatCompletions := View.Closed.droppable hround
    exact respects_last hdroppable.dropped (fun _ _ => hdroppable.held)
      (by simp [hdroppable.notDispatching]) fun _ _ => hdroppable.ended

/-! ### The single answer -/

/-- What a round of `read_chat_terminal` leaves. -/
def View.Read (row : Admitted) (started : Option Nat) (v : View) :
    Round (List Value) Answer → Prop
  | .again _ => v = .guarding row started .clear
  | .finished answer => v.Droppable .chatCompletions ∧ v.Answers answer

/-- A gateway error agrees with a row that is closed as an upstream error, by either attempt. -/
theorem View.ClosedBy.answered {terminal : TerminalEvent} {usage : Option BillableUsage}
    {status : FinalStatus} {httpStatus : Nat} {ok : Bool} {error : ApiError}
    (hv : v.ClosedBy row terminal ⟨status, some httpStatus, usage⟩ ⟨.upstreamError, some 502, none⟩
      ok)
    (hok : ok = true → status = .upstreamError ∧ httpStatus = 502) (herror : error.status = 502) :
    v.Answered error := by
  intro _
  rw [herror]
  cases ok with
  | true =>
    obtain ⟨rfl, rfl⟩ := hok rfl
    exact .inr (.inr ⟨row.id, _, hv.ids, (hv.booked rfl).2, rfl⟩)
  | false => exact .inr (.inr ⟨row.id, _, hv.ids, hv.retried rfl, rfl⟩)

theorem gatewayStatus_inRange : ∀ status ∈ some 502, 100 ≤ status ∧ status ≤ 599 := by
  rintro status ⟨⟩
  decide

theorem refuseTerminal_respects {terminal : TerminalEvent} {error : ApiError}
    (herror : error.status = 502) :
    Safe (contract .chatCompletions) (View.Read row started)
      (refuseTerminal row.model.rates terminal error)
      (.guarding row started (.terminal terminal)) :=
  (finishTerminal_closedBy (by decide) (justified_refused gatewayStatus_inRange)
    gatewayStatus_inRange).bind fun _ _ hv =>
      ⟨hv.droppable, hv.answered (fun _ => ⟨rfl, rfl⟩) herror⟩

theorem chatReadTerminal_respects (completedOutputItems : List Value) (terminal : TerminalEvent) :
    Safe (contract .chatCompletions) (View.Read row started)
      (chatReadTerminal row.model.rates completedOutputItems terminal)
      (.guarding row started (.terminal terminal)) := by
  unfold chatReadTerminal
  cases herror : terminal.upstreamError with
  | some error => exact refuseTerminal_respects rfl
  | none =>
    simp only
    cases hconverted : convertTerminalEvent (terminal.withOutputItems completedOutputItems) with
    | error error => exact refuseTerminal_respects rfl
    | ok completion =>
      obtain ⟨status, response, metadata, usage, output, converted, finishReason, hstatus, -, -, -,
        -, -, -, -, -, husage, -, -, -, rfl⟩ := convertTerminalEvent_eq_ok.mp hconverted
      rw [TerminalEvent.kind_withOutputItems] at hstatus
      rw [TerminalEvent.usage_withOutputItems] at husage
      obtain ⟨hfinal, hkind⟩ := finalStatus_of_convertible hstatus
      have hbillable : some (billableUsage usage row.model.rates) =
          terminalUsage terminal row.model.rates := by
        rw [terminalUsage, husage, Option.map_some]
      simp only
      rw [hfinal, hbillable]
      refine (finishTerminal_closedBy (finalStatus_ne_internalError _)
        (justified_terminal streamStatus_inRange) gatewayStatus_inRange).bind fun v ok hv => ?_
      cases ok with
      | true =>
        refine ⟨hv.droppable, ?_, hv.covers rfl rfl⟩
        rcases hkind with hkind | hkind <;> simp [TerminalEvent.succeeds, hkind]
      | false => exact ⟨hv.droppable, hv.answered (fun h => by cases h) rfl⟩

theorem failChat_respects {status : FinalStatus} {httpStatus : Option Nat} {error : ApiError}
    (hstatus : status ≠ .internalError)
    (hjustified : Justified .chatCompletions cause row.model.rates ⟨status, httpStatus, none⟩)
    (hshows : Attempt.Shows ⟨status, httpStatus, none⟩ cause error) :
    Safe (contract .chatCompletions) (View.Read row started) (failChat status httpStatus error)
      (.guarding row started cause) := by
  refine (finish_respects (View.guards_guarding (by decide)) hstatus hjustified).bind
    fun v result hresult => ?_
  obtain ⟨hdroppable, hanswered⟩ := hresult.ended hshows
  cases result with
  | error internal =>
    obtain ⟨rfl, rfl⟩ := hresult
    exact ⟨hdroppable, View.answered_of_not_mem (by decide)⟩
  | ok => exact ⟨hdroppable, hanswered⟩

theorem chatReadRound_respects (completedOutputItems : List Value) :
    Safe (contract .chatCompletions) (View.Read row started)
      (chatReadRound row.model.rates completedOutputItems) (.guarding row started .clear) := by
  have hfailed : Safe (contract .chatCompletions) (View.Read row started)
      (failChat .upstreamError (some 502)
        (.gateway "Upstream response ended without a terminal"))
      (.guarding row started (.failed .other)) :=
    failChat_respects (by decide)
      (justified_upstreamError (fun _ h => by cases h) gatewayStatus_inRange)
      fun _ => .inr ⟨rfl, rfl⟩
  refine respects_await ⟨by decide, rfl, row, started, rfl⟩ (fun _ _ => rfl) (fun _ => rfl)
    fun selected _ => ?_
  cases selected with
  | shutdown | closed =>
    exact failChat_respects (by decide) (justified_canceled trivial (by simp))
      fun h => absurd h (by decide)
  | done read =>
    cases read with
    | eof => exact hfailed
    | broken => exact hfailed
    | record record =>
      have hcause : ∀ cause, SseRead.cause (.record record) = cause →
          (View.guarding row started .clear).after (.select false .nextRecord)
            (.done (.record record)) = .guarding row started cause := by
        rintro cause rfl
        rfl
      simp only
      cases hvalid : validateEvent record with
      | error error =>
        rw [hcause (.failed .other) (by rw [SseRead.cause, hvalid])]
        exact hfailed
      | ok terminal =>
        cases terminal with
        | none =>
          rw [hcause .clear (by rw [SseRead.cause, hvalid])]
          exact rfl
        | some terminal =>
          rw [hcause (.terminal terminal) (by rw [SseRead.cause, hvalid])]
          exact chatReadTerminal_respects completedOutputItems terminal

/-- **The single Chat answer respects the contract.** -/
theorem chatRead_respects {completedOutputItems : List Value}
    (hv : v.AtLoop .chatCompletions (.chatRead rates completedOutputItems)) :
    (chatRead rates completedOutputItems).Respects .chatCompletions v := by
  obtain ⟨-, -, row, started, rfl, rfl, hstarted⟩ := hv
  refine (chatReadRound_respects completedOutputItems).bind fun v round hround => ?_
  cases round with
  | again completedOutputItems' =>
    obtain rfl : v = _ := hround
    exact ⟨rfl, by decide, row, started, rfl, rfl, hstarted⟩
  | finished answer => exact answerWith_respects hround.1 hround.2

end CodexApi.Delivery
