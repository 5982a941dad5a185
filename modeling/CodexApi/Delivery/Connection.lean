import CodexApi.Delivery.Handlers

/-!
# The WebSocket sessions

`WsSession` as code: a round of `run` takes one event and handles it to its end. The `active` slot is
passed along; `handleDownstream` and `handleUpstream` return it with the end of the connection, if
the event ends it.
-/

namespace CodexApi.Delivery

/-- `ConnectionEnd`. -/
inductive ConnectionEnd
  | shutdown
  | clientDisconnect (frame : Option CloseFrame)
  | clientProtocolError
  | upstreamFailure
  | upstreamClosed (frame : Option CloseFrame)
  | internalFailure
  | accountingFailure

/-- Whether the connection ends after an event. -/
abbrev Ending := Option ConnectionEnd

/-! ### Sending -/

/-- A message to the client; the connection ends if the client is gone. -/
def sendDownstream (item : Item) : Code Ending := do
  return if ← await (.send item) then none else some (.clientDisconnect none)

/-- A message to the upstream; the connection ends if the upstream is gone. -/
def relayUpstream (message : UpstreamMessage) : Code Ending := do
  return if ← await (.sendUpstream message) then none else some .upstreamFailure

/-- `send_error`. -/
def sendError (error : Value) : Code Ending := sendDownstream (.error error)

/-- `reject`. -/
def reject (identity : ClientIdentity) (value error : Value) : Code Ending := do
  match ← recordRejection ⟨identity.id, .responses, .webSocket⟩
      (((value.get "model").bind Value.asStr).getD "")
      (((value.get "reasoning").bind (·.get "effort")).bind Value.asStr) none with
  | .error _ => return some .internalFailure
  | .ok () => sendError error

/-! ### A `response.create` -/

/-- The upstream fails a request before its response is relayed. -/
def failCreate (requestId : RequestId) : Code (Ending × Option InFlight) := do
  let _ ← await (.finalize requestId ⟨.upstreamError, none, none⟩)
  return (some .upstreamFailure, none)

/-- `prepare_responses_lite` for a model that supports it: the payload, if the prewarm has
succeeded. -/
def prepareResponsesLite (payload : Object) (model : Value) (requestKey : String) :
    Code (Except UpstreamWebSocketError Object) := do
  match responsesLitePrewarm payload model requestKey with
  | .error error => return .error error
  | .ok (payload, prewarm) =>
    match ← sendResponsesPrewarm prewarm with
    | .error error => return .error error
    | .ok responseId => return .ok (payload.insert "previous_response_id" (.string responseId))

/-- `handle_create` from the model lookup on: the request becomes the active one. -/
def dispatchCreate (requestId : RequestId) (effectiveModel : EffectiveModel) (payload : Object) :
    Code (Ending × Option InFlight) := do
  match liteModel (← await (.model effectiveModel.model)) with
  | none => failCreate requestId
  | some model =>
    match ← prepareResponsesLite payload model s!"codex-api-{requestId}" with
    | .error _ => failCreate requestId
    | .ok payload =>
      if ← await (.sendCreate true payload) then
        return (none, some ⟨requestId, effectiveModel.rates⟩)
      else failCreate requestId

/-- An admitted request while another one is active. -/
def refuseCreate (requestId : RequestId) : Code Ending := do
  match ← await (.finalize requestId ⟨.rejected, none, none⟩) with
  | .error _ => return some .internalFailure
  | .ok () => sendError (websocketError "response_in_progress" none
      "A response is already in progress on this connection")

variable (config : Config) (isHttpDate : String → Bool)

/-- `handle_create`. -/
def handleCreate (identity : ClientIdentity) (active : Option InFlight) (frame : TextFrame) :
    Code (Ending × Option InFlight) := do
  match frame.event with
  | none =>
    return (← reject identity .null (websocketError "invalid_request_error" none
      "response.create must be valid JSON"), active)
  | some value =>
    match prepareRequest config value with
    | .error error =>
      return (← reject identity value (websocketError "invalid_request_error" (some error.param)
        error.message), active)
    | .ok accepted =>
      match ← beginRequest ⟨identity.id, .responses, .webSocket⟩ identity.quota
          accepted.candidates with
      | .error _ => return (some .internalFailure, active)
      | .ok .weeklyQuotaExceeded =>
        return (← sendError (websocketError "weekly_quota_exceeded" none
          "The configured weekly quota has been exceeded"), active)
      | .ok (.admitted requestId effectiveModel) =>
        match active with
        | some _ => return (← refuseCreate requestId, active)
        | none =>
          dispatchCreate requestId effectiveModel
            (applyEffectiveRequest accepted.body effectiveModel)

/-! ### Events -/

/-- `handle_downstream`. -/
def handleDownstream (identity : ClientIdentity) (active : Option InFlight) :
    DownstreamMessage → Code (Ending × Option InFlight)
  | .text frame => handleCreate config identity active frame
  | .binary => return (some .clientProtocolError, active)
  | .ping payload => return (← relayUpstream (.ping payload), active)
  | .pong payload => return (← relayUpstream (.pong payload), active)
  | .close frame => do
    await .flush
    return (some (.clientDisconnect frame), active)

/-- The active request is finalized by a terminal event; whether that could be booked. -/
def bookTerminal (active : InFlight) (terminal : TerminalEvent) : Code Bool := do
  match ← await (.finalize active.requestId ⟨terminal.kind.finalStatus, none,
      terminalUsage terminal active.rates⟩) with
  | .ok () => return true
  | .error _ =>
    let _ ← await (.finalize active.requestId ⟨.upstreamError, none, none⟩)
    return false

/-- `handle_upstream_text`. -/
def handleUpstreamText (active : Option InFlight) (frame : TextFrame) :
    Code (Ending × Option InFlight) := do
  match frame.event.filter fun event => (eventType event).isSome with
  | none => return (some .upstreamFailure, active)
  | some event =>
    match parseTerminalPayload event with
    | .error _ => return (some .upstreamFailure, active)
    | .ok none =>
      return (← sendDownstream (.frame (relayText isHttpDate frame.text none) none), active)
    | .ok (some terminal) =>
      match active with
      | none => return (some .upstreamFailure, none)
      | some active =>
        if ← bookTerminal active terminal then
          return (← sendDownstream (.frame (relayText isHttpDate frame.text (some terminal))
            (some terminal)), none)
        else return (some .accountingFailure, none)

/-- `handle_upstream`. -/
def handleUpstream (active : Option InFlight) :
    UpstreamMessage → Code (Ending × Option InFlight)
  | .text frame => handleUpstreamText isHttpDate active frame
  | .binary | .frame => return (some .upstreamFailure, active)
  | .ping payload => return (← sendDownstream (.ping payload), active)
  | .pong payload => return (← sendDownstream (.pong payload), active)
  | .close frame => do
    await .flush
    return (some (.upstreamClosed frame), active)

/-- The event of one round of `run`. -/
def handleEvent (identity : ClientIdentity) (active : Option InFlight) :
    ConnectionEvent → Code (Ending × Option InFlight)
  | .shutdown => return (some .shutdown, active)
  | .clientGone => return (some (.clientDisconnect none), active)
  | .downstream message => handleDownstream config identity active message
  | .upstreamGone => return (some .upstreamFailure, active)
  | .upstream message => handleUpstream isHttpDate active message

/-! ### The end of a connection -/

/-- `finalize_active`. -/
def finalizeActive (active : Option InFlight) (status : FinalStatus) : Code Unit := do
  match active with
  | none => return
  | some active =>
    let _ ← await (.finalize active.requestId ⟨status, none, none⟩)

/-- `close_downstream`. -/
def closeDownstream (code : Nat) (reason : String) : Code Unit := do
  let _ ← await (.send (.close (some ⟨code, reason⟩)))

/-- A close frame to the upstream. -/
def closeUpstream (frame : Option CloseFrame) : Code Unit := do
  let _ ← await (.sendUpstream (.close frame))

/-- The code of a normal close frame; `Away` is 1001. -/
def CloseFrame.normal (frame : CloseFrame) : Bool := frame.code = 1000 || frame.code = 1001

/-- `finish` of a connection. -/
def finishConnection (active : Option InFlight) : ConnectionEnd → Code Unit
  | .shutdown => do
    finalizeActive active .canceled
    closeUpstream (some ⟨1001, "Server is shutting down"⟩)
    closeDownstream 1001 "Server is shutting down"
  | .clientDisconnect frame => do
    finalizeActive active .canceled
    closeUpstream frame
  | .clientProtocolError => do
    finalizeActive active .canceled
    closeUpstream (some ⟨1003, "Binary application messages are unsupported"⟩)
    closeDownstream 1003 "Binary application messages are unsupported"
  | .upstreamFailure => do
    finalizeActive active .upstreamError
    closeDownstream 1011 "Upstream WebSocket failure"
  | .upstreamClosed frame => do
    if active.isSome || frame.any fun frame => !frame.normal then
      finalizeActive active .upstreamError
      closeDownstream 1011 "Upstream WebSocket failure"
    else
      let _ ← await (.send (.close frame))
  | .internalFailure => do
    finalizeActive active .internalError
    closeUpstream none
    closeDownstream 1011 "Internal WebSocket failure"
  | .accountingFailure => do
    closeDownstream 1011 "Internal WebSocket accounting failure"
    closeUpstream none

/-- A round of `run`, and what comes after it. -/
def connection (identity : ClientIdentity) (active : Option InFlight) : Code Unit := do
  let (ending, active) ← handleEvent config isHttpDate identity active (← await .receive)
  match ending with
  | none => .jump (.connection identity active)
  | some ending => finishConnection active ending

/-- The body of a loop. -/
def Loop.code : Loop → Code Unit
  | .forward rates => Delivery.forward isHttpDate rates
  | .chatStream rates converter => Delivery.chatStream rates converter
  | .chatRead rates completedOutputItems => Delivery.chatRead rates completedOutputItems
  | .connection identity active => Delivery.connection config isHttpDate identity active

end CodexApi.Delivery
