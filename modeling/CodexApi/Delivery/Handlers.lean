import CodexApi.Chat.Agreement
import CodexApi.Delivery.Effects
import CodexApi.Relay.Requests

/-!
# The HTTP handlers

`POST /v1/responses` and `POST /v1/chat/completions` as code: admission, the pending request with its
finalizing tasks, the hand-over of a turn to a session, what the session does with it, and the two
ways a Chat answer is read from the upstream.

What leaves a handler through `?` is an `Except` here. The end of a scope that owns the pending
request is an explicit `dropPending`. A turn goes on in the session that receives it, so `runJob`
follows `handOver`; the handler only passes on what the session answers. The snapshot that a session
keeps is left out: a turn may find the session in any state.
-/

namespace CodexApi.Delivery

/-! ### The store -/

/-- `begin_request`. -/
def beginRequest (context : RequestContext) (quota : QuotaLimits) (candidates : ModelCandidates) :
    Code (Except StoreError Admission) := do
  let now ← await .now
  match ← await (.plan now context quota candidates) with
  | .error error => return .error error
  | .ok insertion =>
    match ← await (.insert insertion) with
    | .error error => return .error error
    | .ok requestId => return .ok (insertion.admission requestId)

/-- `record_rejection`. -/
def recordRejection (context : RequestContext) (model : String) (reasoningEffort : Option String)
    (httpStatus : Option Nat) : Code (Except StoreError Unit) := do
  let now ← await .now
  match rejectionRow now context model reasoningEffort httpStatus with
  | .error error => return .error error
  | .ok row =>
    match ← await (.insert ⟨row, none⟩) with
    | .error error => return .error error
    | .ok _ => return .ok ()

/-- `admit_request`. -/
def admitRequest (identity : ClientIdentity) (candidates : ModelCandidates)
    (apiProtocol : ApiProtocol) : Code (Except ApiError (RequestId × EffectiveModel)) := do
  match ← beginRequest ⟨identity.id, apiProtocol, .httpSse⟩ identity.quota candidates with
  | .error _ => return .error .internal
  | .ok .weeklyQuotaExceeded => return .error .quotaExceeded
  | .ok (.admitted requestId effectiveModel) => return .ok (requestId, effectiveModel)

/-- `reject_request` and the answer after it. -/
def rejectRequest (identity : ClientIdentity) (apiProtocol : ApiProtocol) (model : String)
    (reasoningEffort : Option String) (error : ApiError) {α : Type} : Code (Except ApiError α) := do
  match ← recordRejection ⟨identity.id, apiProtocol, .httpSse⟩ model reasoningEffort (some 400) with
  | .error _ => return .error .internal
  | .ok () => return .error error

/-! ### The pending request -/

/-- `finish`. -/
def finish (status : FinalStatus) (httpStatus : Option Nat) (usage : Option BillableUsage) :
    Code (Except ApiError Unit) := do
  await (.spawnFinalizer [⟨status, httpStatus, usage⟩])
  return if ← await .join then .ok () else .error .internal

/-- `finish`, and the answer after it. -/
def finishWith (status : FinalStatus) (httpStatus : Option Nat) (error : ApiError) {α : Type} :
    Code (Except ApiError α) := do
  match ← finish status httpStatus none with
  | .error internal => return .error internal
  | .ok () => return .error error

/-- `finish_terminal`. -/
def finishTerminal (status : FinalStatus) (httpStatus fallbackHttpStatus : Nat)
    (usage : Option BillableUsage) : Code Bool := do
  await (.spawnFinalizer [⟨status, some httpStatus, usage⟩,
    ⟨.upstreamError, some fallbackHttpStatus, none⟩])
  await .join

/-- The end of a handler: the pending request is dropped if it is still there, and the client gets
its answer. -/
def answerWith (answer : Answer) : Code Unit := do
  await .dropPending
  await (.answer answer)

/-! ### Responses: the handler -/

section

variable (config : Config)

/-- `responses` up to the session: what the session is asked. -/
def prepareTurn (identity : ClientIdentity) (headers : HeaderMap) (body : Option Value) :
    Code (Except ApiError (Turn × ModelRates)) := do
  let some parsed := body
    | rejectRequest identity .responses "" none
        (.invalid "request" "request body must be valid JSON")
  let reject (error : ApiError) : Code (Except ApiError (Turn × ModelRates)) :=
    rejectRequest identity .responses (requestedModel parsed) (reasoningEffortOf parsed) error
  match responsesRequest config parsed with
  | .error error => reject error
  | .ok accepted =>
    match SessionKey.fromHeaders identity.id headers with
    | .error error => reject error
    | .ok key =>
      match ← admitRequest identity accepted.candidates .responses with
      | .error error => return .error error
      | .ok (requestId, effectiveModel) =>
        await (.newPending requestId)
        let found ← await (.model effectiveModel.model)
        match liteModel found with
        | none =>
          return .error (.gateway (if found.isNone then "Upstream models request failed"
            else "Upstream model does not support Responses Lite"))
        | some model =>
          match ← await (.callSession key) with
          | .busy => finishWith .rejected (some ApiError.sessionBusy.status) .sessionBusy
          | .closed => finishWith .canceled (some 503) .shutdown
          | .queued =>
            return .ok (⟨applyEffectiveRequest accepted.body effectiveModel, model, headers⟩,
              effectiveModel.rates)

/-! ### Responses: the session -/

/-- `send_responses_prewarm`. -/
def sendResponsesPrewarm (prewarm : Object) : Code (Except UpstreamWebSocketError String) := do
  if ← await (.sendCreate false prewarm) then await .prewarmReply else return .error .transport

/-- The last send of `prepare`. -/
def sendGeneration (plan : Plan) (previousId : String) (input : List Value) :
    Code (Except ApiError Unit) := do
  let body := (plan.body.insert "previous_response_id" (.string previousId)).insert "input"
    (.array input)
  return if ← await (.sendCreate true body) then .ok ()
    else .error (.gateway "Failed to send the upstream WebSocket request")

/-- `prepare` once a socket is there. -/
def sendTurn (session : Session) (plan : Plan) : Code (Except ApiError Unit) := do
  match session.incremental plan with
  | some snapshot =>
    sendGeneration plan snapshot.responseId (plan.input.drop snapshot.input.length)
  | none =>
    match ← sendResponsesPrewarm (plan.prewarm.erase "previous_response_id") with
    | .error _ =>
      return .error (.gateway "Failed to prepare the upstream Responses session")
    | .ok responseId => sendGeneration plan responseId plan.input

/-- `prepare`. -/
def prepare (session : Session) (turn : Turn) : Code (Except ApiError Unit) := do
  match session.plan turn with
  | .error error => return .error error
  | .ok plan =>
    if session.connectionReused plan then sendTurn session plan
    else if ← await (.connect plan.headers) then
      sendTurn { session with
        upstream := true, handshakeHeaders := plan.headers, upstreamResponseId := none } plan
    else return .error (.gateway "Failed to connect to the upstream WebSocket")

/-- How a turn ends for the client. -/
inductive SessionEnd
  | error (error : ApiError)
  | terminal (item : Item)
  | canceled

/-- The end of `respond`, and what the session does after it. -/
def endTurn (sessionEnd : SessionEnd) : Code Unit := do
  await .dropPending
  match sessionEnd with
  | .error error => await (.answer (.error error))
  | .terminal item => await (.deliver item)
  | .canceled => return

/-- A turn that could not be prepared. -/
def failTurn (error : ApiError) : Code Unit := do
  let status ←
    if error.status = 400 then pure FinalStatus.rejected
    else do
      let cancelled ← await .isShutdown
      pure (if cancelled then FinalStatus.canceled else FinalStatus.upstreamError)
  let _ ← finish status (some error.status) none
  endTurn (.error error)

/-- `respond` up to the stream. -/
def respond (session : Session) (turn : Turn) (rates : ModelRates) : Code Unit := do
  match ← race true (prepare session turn) with
  | .shutdown => failTurn .shutdown
  | .closed => endTurn .canceled
  | .done (.error error) => failTurn error
  | .done (.ok ()) => do
    await (.responseStarted 200)
    if ← await .replyStream then
      await (.answer .stream)
      .jump (.forward rates)
    else endTurn .canceled

/-- A turn from the queue of its session on. -/
def runJob (turn : Turn) (rates : ModelRates) : Code Unit := do
  match ← await .takeJob with
  | none => answerWith (.error .shutdown)
  | some session => respond session turn rates

/-- `responses`. -/
def responses (identity : ClientIdentity) (headers : HeaderMap) (body : Option Value) :
    Code Unit := do
  match ← prepareTurn config identity headers body with
  | .error error => answerWith (.error error)
  | .ok (turn, rates) => runJob turn rates

/-! ### Responses: the stream -/

/-- What a round of a loop leads to. -/
inductive Round (σ α : Type)
  | again (state : σ)
  | finished (result : α)

/-- The end of a stream that fails before its terminal event. -/
def failStream (status : FinalStatus) {σ α : Type} : Code (Round σ (Option α)) := do
  let _ ← finish status (some 200) none
  return .finished none

/-- The usage of a terminal event at the rates of a request. -/
def terminalUsage (terminal : TerminalEvent) (rates : ModelRates) : Option BillableUsage :=
  terminal.usage.map (billableUsage · rates)

variable (isHttpDate : String → Bool)

/-- The text that relays a frame: the frame itself, or a rewritten capacity failure. -/
def relayText (text : String) (terminal : Option TerminalEvent) : Text :=
  match terminal.bind (·.retryableCapacityPayload isHttpDate) with
  | some payload => .printed payload
  | none => .raw text

/-- The server-sent event of a frame. -/
def relayEvent (text eventName : String) (terminal : Option TerminalEvent) : Item :=
  let rewritten := (terminal.bind (·.retryableCapacityPayload isHttpDate)).isSome
  .event (if rewritten then "response.failed" else eventName) (relayText isHttpDate text terminal)
    terminal

/-- A text frame in `forward_websocket_responses_stream`. -/
def forwardText (rates : ModelRates) (frame : TextFrame) : Code (Round Unit (Option Item)) := do
  match frame.event.bind fun event => (eventType event).map (event, ·) with
  | none => failStream .upstreamError
  | some (event, eventName) =>
    match parseTerminalPayload event with
    | .error _ => failStream .upstreamError
    | .ok none =>
      if ← await (.send (relayEvent isHttpDate frame.text eventName none)) then return .again ()
      else failStream .canceled
    | .ok (some terminal) =>
      if ← finishTerminal terminal.kind.finalStatus 200 200 (terminalUsage terminal rates) then
        return .finished (some (relayEvent isHttpDate frame.text eventName (some terminal)))
      else return .finished none

/-- A message in `forward_websocket_responses_stream`. -/
def forwardMessage (rates : ModelRates) : UpstreamMessage → Code (Round Unit (Option Item))
  | .text frame => forwardText isHttpDate rates frame
  | .ping payload => do
    if ← await (.sendPong payload) then return .again () else failStream .upstreamError
  | .pong _ => return .again ()
  | .close _ | .binary | .frame => failStream .upstreamError

/-- A round of `forward_websocket_responses_stream`. -/
def forwardRound (rates : ModelRates) : Code (Round Unit (Option Item)) := do
  match ← await (.select true .next) with
  | .done (.message message) => forwardMessage isHttpDate rates message
  | .shutdown | .closed | .done .broken | .done .ended => failStream .canceled

/-- The stream of `respond`, and what comes after it. -/
def forward (rates : ModelRates) : Code Unit := do
  match ← interruptible true (forwardRound isHttpDate rates) with
  | .done (.again ()) => .jump (.forward rates)
  | .done (.finished (some item)) =>
    match ← await (.select false .reserve) with
    | .done true => endTurn (.terminal item)
    | .shutdown | .closed | .done false => endTurn .canceled
  | .shutdown | .closed | .done (.finished none) => endTurn .canceled

/-! ### Chat -/

/-- `chat_completions` up to the exchange with the upstream. -/
def prepareChat (identity : ClientIdentity) (body : Option Value) :
    Code (Except ApiError (ConvertedRequest × Object × ModelRates)) := do
  let some parsed := body
    | rejectRequest identity .chatCompletions "" none
        (.invalid "request" "request body must be valid JSON")
  match chatRequest config parsed with
  | .error error =>
    rejectRequest identity .chatCompletions (requestedModel parsed)
      (requestedString parsed "reasoning_effort") error
  | .ok (accepted, converted) =>
    match ← admitRequest identity accepted.candidates .chatCompletions with
    | .error error => return .error error
    | .ok (requestId, effectiveModel) =>
      await (.newPending requestId)
      return .ok (converted, applyEffectiveRequest accepted.body effectiveModel,
        effectiveModel.rates)

/-- `send_upstream` and the check of the status. -/
def sendUpstream (body : Object) : Code (Except ApiError Unit) := do
  match ← await (.select false (.post body)) with
  | .shutdown | .closed => finishWith .canceled none .shutdown
  | .done none | .done (some false) =>
    finishWith .upstreamError (some 502) (.gateway "Upstream request failed")
  | .done (some true) => return .ok ()

/-- `chat_completions`. -/
def chatCompletions (identity : ClientIdentity) (body : Option Value) : Code Unit := do
  match ← prepareChat config identity body with
  | .error error => answerWith (.error error)
  | .ok (converted, upstreamRequest, rates) =>
    match ← sendUpstream upstreamRequest with
    | .error error => answerWith (.error error)
    | .ok () =>
      if converted.stream then
        await (.responseStarted 200)
        await .detach
        await (.answer .stream)
        .jump (.chatStream rates (.new converted.includeUsage))
      else .jump (.chatRead rates [])

/-! ### Chat: the stream -/

/-- The end of a Chat stream. -/
def endChatStream : Code (Round ChatStreamConverter Unit) := return .finished ()

/-- A Chat stream that fails. -/
def failChatStream (status : FinalStatus) : Code (Round ChatStreamConverter Unit) := do
  let _ ← finish status (some 200) none
  endChatStream

/-- The chunks that end a stream, as long as the client takes them, and `[DONE]`. -/
def sendChunks (terminal : TerminalEvent) : List Value → Code Unit
  | [] => do
    let _ ← await (.send (.done terminal))
  | chunk :: chunks => do
    if ← await (.send (.chunk chunk (some terminal))) then sendChunks terminal chunks

/-- A terminal event in `forward_chat_stream`. -/
def chatStreamTerminal (rates : ModelRates) (converter : ChatStreamConverter)
    (terminal : TerminalEvent) : Code (Round ChatStreamConverter Unit) := do
  match terminal.upstreamError with
  | some error =>
    let _ ← finishTerminal .upstreamError 200 200 (terminalUsage terminal rates)
    let _ ← await (.send (.error (ApiError.upstream error).body))
    endChatStream
  | none =>
    match converter.convertTerminal terminal with
    | .error _ =>
      let _ ← finishTerminal .upstreamError 200 200 (terminalUsage terminal rates)
      endChatStream
    | .ok converted =>
      if ← finishTerminal converted.status.finalStatus 200 200
          (some (billableUsage converted.usage rates)) then
        sendChunks terminal converted.chunks
      endChatStream

/-- Any other record in `forward_chat_stream`. -/
def chatStreamEvent (converter : ChatStreamConverter) (data : Option Value) :
    Code (Round ChatStreamConverter Unit) := do
  match data with
  | none => return .again converter
  | some value =>
    match converter.convertEvent value with
    | .error _ => failChatStream .upstreamError
    | .ok (converter, none) => return .again converter
    | .ok (converter, some chunk) =>
      if ← await (.send (.chunk chunk none)) then return .again converter
      else failChatStream .canceled

/-- A round of `forward_chat_stream`. -/
def chatStreamRound (rates : ModelRates) (converter : ChatStreamConverter) :
    Code (Round ChatStreamConverter Unit) := do
  match ← await (.select true .nextRecord) with
  | .shutdown | .closed => failChatStream .canceled
  | .done .eof | .done .broken => failChatStream .upstreamError
  | .done (.record record) =>
    match validateEvent record with
    | .error _ => failChatStream .upstreamError
    | .ok (some terminal) => chatStreamTerminal rates converter terminal
    | .ok none => chatStreamEvent converter record.data

/-- `forward_chat_stream`. -/
def chatStream (rates : ModelRates) (converter : ChatStreamConverter) : Code Unit := do
  match ← chatStreamRound rates converter with
  | .again converter => .jump (.chatStream rates converter)
  | .finished () => await .dropPending

/-! ### Chat: the single answer -/

/-- A terminal event that `read_chat_terminal` does not accept. -/
def refuseTerminal (rates : ModelRates) (terminal : TerminalEvent) (error : ApiError) :
    Code (Round (List Value) Answer) := do
  let _ ← finishTerminal .upstreamError 502 502 (terminalUsage terminal rates)
  return .finished (.error error)

/-- A terminal event in `read_chat_terminal`, and the answer to it. -/
def chatReadTerminal (rates : ModelRates) (completedOutputItems : List Value)
    (terminal : TerminalEvent) : Code (Round (List Value) Answer) := do
  match terminal.upstreamError with
  | some error => refuseTerminal rates terminal (.upstream error)
  | none =>
    match convertTerminalEvent (terminal.withOutputItems completedOutputItems) with
    | .error _ =>
      refuseTerminal rates terminal
        (.gateway "Upstream terminal response could not be converted")
    | .ok converted =>
      if ← finishTerminal converted.status.finalStatus 200 502
          (some (billableUsage converted.usage rates)) then
        return .finished (.completion terminal converted.chatCompletion)
      else
        return .finished
          (.error (.gateway "Upstream terminal response could not be accounted"))

/-- An error answer of `chat_completions` after its pending request is finished. -/
def failChat (status : FinalStatus) (httpStatus : Option Nat) (error : ApiError) :
    Code (Round (List Value) Answer) := do
  match ← finish status httpStatus none with
  | .error internal => return .finished (.error internal)
  | .ok () => return .finished (.error error)

/-- A round of `read_chat_terminal`. -/
def chatReadRound (rates : ModelRates) (completedOutputItems : List Value) :
    Code (Round (List Value) Answer) := do
  match ← await (.select false .nextRecord) with
  | .shutdown | .closed => failChat .canceled none .shutdown
  | .done .eof | .done .broken =>
    failChat .upstreamError (some 502) (.gateway "Upstream response ended without a terminal")
  | .done (.record record) =>
    match validateEvent record with
    | .error _ =>
      failChat .upstreamError (some 502) (.gateway "Upstream response ended without a terminal")
    | .ok none =>
      return .again (completedOutputItems ++ (completedOutputItem record).toList)
    | .ok (some terminal) => chatReadTerminal rates completedOutputItems terminal

/-- `read_chat_terminal`, and the end of `chat_completions`. -/
def chatRead (rates : ModelRates) (completedOutputItems : List Value) : Code Unit := do
  match ← chatReadRound rates completedOutputItems with
  | .again completedOutputItems => .jump (.chatRead rates completedOutputItems)
  | .finished answer => answerWith answer

end

end CodexApi.Delivery
