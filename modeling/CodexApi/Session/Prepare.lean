import CodexApi.Error
import CodexApi.Upstream.Headers
import CodexApi.Upstream.Prewarm

/-!
# Preparing a turn of a session

A keyed session keeps one upstream socket and the `Snapshot` of its last completed turn.
`Session.prepare` turns a request into the frames for that socket. Its first part, `Session.plan`,
computes: the full input of the turn, the headers, the body and the prewarm. The rest talks to
the upstream: it connects unless the socket and its handshake headers can be kept, and then
sends either the new items alone or a prewarm and the full input.

`Session.respond` is the part of a turn that the session state depends on. What the upstream and
the client do is a parameter of it, including where they interrupt the turn.
-/

namespace CodexApi

/-- The last completed turn: its response id, its history including the output, and the
parameters and prewarm input it ran with. -/
structure Snapshot where
  responseId : String
  input : List Value
  parameters : Value
deriving DecidableEq

/-- The state of a session. Of the upstream socket only its presence matters here. -/
structure Session where
  keyed : Bool
  requestKey : String
  upstream : Bool
  handshakeHeaders : UpstreamHeaders
  upstreamResponseId : Option String
  snapshot : Option Snapshot
  bytes : Nat
deriving DecidableEq

/-- A session as its first turn finds it. -/
def Session.new (keyed : Bool) (requestKey : String) : Session where
  keyed
  requestKey
  upstream := false
  handshakeHeaders := .empty
  upstreamResponseId := none
  snapshot := none
  bytes := 0

/-- A request for a session. Its body is an object. -/
structure Turn where
  body : Object
  model : Value
  headers : HeaderMap
deriving DecidableEq

/-! ### Planning -/

/-- The `previous_response_id` of a body. -/
def previousResponseId (body : Object) : Except ApiError (Option String) :=
  match body.get "previous_response_id" with
  | none | some .null => .ok none
  | some (.string id) =>
    if id ≠ "" then .ok (some id)
    else .error (.invalid "previous_response_id"
      "previous_response_id must be a nonempty string or null")
  | some _ => .error (.invalid "previous_response_id"
      "previous_response_id must be a nonempty string or null")

/-- The `input` items of a body. -/
def inputItems (body : Object) : Except ApiError (List Value) :=
  match body.get "input" with
  | none => .ok []
  | some (.array input) => .ok input
  | some _ => .error (.invalid "input" "input must be a string or an array")

/-- The full input of a turn: the history of the response it continues, then its own items. -/
def Session.fullInput (session : Session) (previousId : Option String) (input : List Value) :
    Except ApiError (List Value) :=
  match previousId with
  | none => .ok input
  | some previousId =>
    if !session.keyed then
      .error (.invalid "previous_response_id"
        "Provide thread_id or session_id and resend the full history to start a session")
    else
      match session.snapshot.filter (·.responseId = previousId) with
      | none => .error (.invalid "previous_response_id"
          "The response is not the latest cached response in this session; resend the full history without previous_response_id")
      | some snapshot => .ok (snapshot.input ++ input)

/-- The headers that become client metadata. -/
def metadataHeaderNames : List String :=
  ["session_id", "thread_id", "x-codex-turn-state", "x-codex-turn-metadata", "x-codex-window-id",
    "x-codex-parent-thread-id", "x-openai-subagent", "x-openai-memgen-request",
    "x-client-request-id"]

/-- One round of the loop over `metadataHeaderNames`: the value moves to the metadata, and only
the session and thread ids stay headers. -/
def moveHeader (name : String) (state : UpstreamHeaders × Value) :
    Except ApiError (UpstreamHeaders × Value) :=
  let (headers, metadata) := state
  match headers.get name with
  | none => .ok (headers, metadata)
  | some value =>
    match value.fromUtf8 with
    | none => .error (.invalid name "request metadata must be text")
    | some value =>
      let metadata := metadata.setField name (.string value)
      if name = "session_id" ∨ name = "thread_id" then .ok (headers, metadata)
      else .ok (headers.erase name, metadata)

/-- The loop over `metadataHeaderNames`. -/
def moveHeaders : List String → UpstreamHeaders × Value →
    Except ApiError (UpstreamHeaders × Value)
  | [], state => .ok state
  | name :: names, state => (moveHeader name state).bind (moveHeaders names)

/-- The `client_metadata` of a body, which must be an object. -/
def clientMetadata (body : Object) : Except ApiError Value :=
  let metadata := (body.get "client_metadata").getD (json [])
  if metadata.isObject then .ok metadata
  else .error (.invalid "client_metadata" "client_metadata must be an object")

/-- What `prepare` has computed when it turns to the upstream. -/
structure Plan where
  input : List Value
  headers : UpstreamHeaders
  body : Object
  prewarm : Object
  parameters : Value
deriving DecidableEq

/-- The body and the headers after the metadata headers have moved. -/
def routeMetadata (headers : HeaderMap) (body : Object) :
    Except ApiError (UpstreamHeaders × Object) := do
  let metadata ← clientMetadata body
  let (headers, metadata) ← moveHeaders metadataHeaderNames
    (codexRequestHeaders headers body, metadata)
  return (headers, body.insert "client_metadata" metadata)

/-- The parameters that a continued context must agree with. -/
def planParameters (body prewarm : Object) : Value :=
  .array [Object.toValue ((body.erase "input").erase "client_metadata"),
    (prewarm.get "input").getD .null]

/-- `prepare` up to its first await. -/
def Session.plan (session : Session) (turn : Turn) : Except ApiError Plan := do
  let previousId ← previousResponseId turn.body
  let input ← inputItems turn.body
  let input ← session.fullInput previousId input
  let body := turn.body.erase "previous_response_id"
  let (headers, body) ← routeMetadata turn.headers body
  let (body, prewarm) ← (responsesLitePrewarm body turn.model session.requestKey).mapError
    fun _ => .gateway "Failed to prepare the upstream Responses session"
  return { input, headers, body, prewarm, parameters := planParameters body prewarm }

/-- A turn that cannot be planned is refused with 400, or with 502 if its prewarm cannot be made. -/
theorem Session.plan_failsWith (session : Session) (turn : Turn) :
    FailsWith (fun error => error.status = 400 ∨ error.status = 502) (session.plan turn) := by
  have moved (name : String) (state : UpstreamHeaders × Value) :
      FailsWith (fun error => error.status = 400 ∨ error.status = 502) (moveHeader name state) := by
    simp only [moveHeader]
    split
    · exact .ok _
    · split
      · exact .error (.inl rfl)
      · split <;> exact .ok _
  have allMoved (names : List String) (state : UpstreamHeaders × Value) :
      FailsWith (fun error => error.status = 400 ∨ error.status = 502)
        (moveHeaders names state) := by
    induction names generalizing state with
    | nil => exact .ok state
    | cons name names ih => exact FailsWith.bind (moved name state) ih
  refine FailsWith.bind ?_ fun previousId => FailsWith.bind ?_ fun input =>
    FailsWith.bind ?_ fun input => FailsWith.bind (FailsWith.bind ?_ fun metadata =>
      FailsWith.bind (allMoved _ _) fun _ => .ok _) fun _ => FailsWith.bind ?_ fun _ => .ok _
  · unfold previousResponseId
    split
    · exact .ok none
    · exact .ok none
    · split
      · exact .ok _
      · exact .error (.inl rfl)
    · exact .error (.inl rfl)
  · unfold inputItems
    split
    · exact .ok []
    · exact .ok _
    · exact .error (.inl rfl)
  · unfold fullInput
    split
    · exact .ok input
    · split
      · exact .error (.inl rfl)
      · split
        · exact .error (.inl rfl)
        · exact .ok _
  · simp only [clientMetadata]
    split
    · exact .ok _
    · exact .error (.inl rfl)
  · cases responsesLitePrewarm _ turn.model session.requestKey with
    | error error => exact .error (.inr rfl)
    | ok prepared => exact .ok prepared

/-! ### Talking to the upstream -/

/-- What the upstream answers to `prepare`; a reply that has not come is `none`. -/
structure PrepareReplies where
  /-- Whether a new socket could be connected. -/
  connect : Option Bool
  /-- Whether the prewarm could be sent. -/
  prewarmSent : Option Bool
  /-- What the socket yields after the prewarm. -/
  prewarmEvents : List UpstreamEvent
  /-- Whether the generating request could be sent. -/
  generationSent : Option Bool

/-- How far `prepare` got, and what it sent on the way. -/
structure Prepared where
  session : Session
  /-- Whether a new socket was connected. -/
  opened : Bool
  /-- The prewarm sent. -/
  prewarm : Option Object
  /-- The response id the prewarm got. -/
  warmed : Option String
  /-- The generating request sent. -/
  generation : Option Object
  /-- The result; `none` while an await is pending. -/
  result : Option (Except ApiError (List Value × Value))

/-- The snapshot that the upstream's context can be continued from. -/
def Session.incremental (session : Session) (plan : Plan) : Option Snapshot :=
  session.snapshot.filter fun snapshot =>
    session.upstreamResponseId = some snapshot.responseId ∧
      snapshot.parameters = plan.parameters ∧ snapshot.input.isPrefixOf plan.input

/-- The last send of `prepare`. -/
def Session.sendGeneration (session : Session) (opened : Bool) (prewarm : Option Object)
    (warmed : Option String) (plan : Plan) (previousId : String) (input : List Value)
    (sent : Option Bool) : Prepared where
  session
  opened
  prewarm
  warmed
  generation := some
    ((plan.body.insert "previous_response_id" (.string previousId)).insert "input" (.array input))
  result := match sent with
    | none => none
    | some true => some (.ok (plan.input, plan.parameters))
    | some false => some (.error (.gateway "Failed to send the upstream WebSocket request"))

/-- `prepare` once a socket is there. -/
def Session.sendTurn (session : Session) (opened : Bool) (plan : Plan) (replies : PrepareReplies) :
    Prepared :=
  match session.incremental plan with
  | some snapshot =>
    session.sendGeneration opened none none plan snapshot.responseId
      (plan.input.drop snapshot.input.length) replies.generationSent
  | none =>
    -- A fresh prewarm starts a new context even on a healthy socket.
    let prewarm := plan.prewarm.erase "previous_response_id"
    let session := { session with upstreamResponseId := none }
    match sendResponsesPrewarm replies.prewarmSent replies.prewarmEvents with
    | none => ⟨session, opened, some prewarm, none, none, none⟩
    | some (.error _) =>
      ⟨session, opened, some prewarm, none, none,
        some (.error (.gateway "Failed to prepare the upstream Responses session"))⟩
    | some (.ok responseId) =>
      session.sendGeneration opened (some prewarm) (some responseId) plan responseId plan.input
        replies.generationSent

/-- Whether the socket of the session can serve a plan. -/
def Session.connectionReused (session : Session) (plan : Plan) : Bool :=
  session.upstream && decide (session.handshakeHeaders = plan.headers)

/-- `prepare` after the plan. -/
def Session.carryOut (session : Session) (plan : Plan) (replies : PrepareReplies) : Prepared :=
  if session.connectionReused plan then session.sendTurn false plan replies
  else
    match replies.connect with
    | none => ⟨session, false, none, none, none, none⟩
    | some false =>
      ⟨session, false, none, none, none,
        some (.error (.gateway "Failed to connect to the upstream WebSocket"))⟩
    | some true =>
      { session with
        upstream := true
        handshakeHeaders := plan.headers
        upstreamResponseId := none }.sendTurn true plan replies

/-- `prepare`. -/
def Session.prepare (session : Session) (turn : Turn) (replies : PrepareReplies) : Prepared :=
  match session.plan turn with
  | .error error => ⟨session, false, none, none, none, some (.error error)⟩
  | .ok plan => session.carryOut plan replies

/-! ### What `prepare` leaves alone -/

/-- Two states of a session with the same history. -/
structure SameHistory (session session' : Session) : Prop where
  /-- It is the session of the same key. -/
  keyed : session'.keyed = session.keyed
  /-- The last completed turn is the same. -/
  snapshot : session'.snapshot = session.snapshot
  /-- So is its recorded size. -/
  bytes : session'.bytes = session.bytes

theorem SameHistory.refl (session : Session) : SameHistory session session := ⟨rfl, rfl, rfl⟩

theorem SameHistory.trans {s t u : Session} (h : SameHistory s t) (h' : SameHistory t u) :
    SameHistory s u :=
  ⟨h'.keyed.trans h.keyed, h'.snapshot.trans h.snapshot, h'.bytes.trans h.bytes⟩

/-- However far it gets, `prepare` keeps the history. -/
theorem sameHistory_prepare (session : Session) (turn : Turn) (replies : PrepareReplies) :
    SameHistory session (session.prepare turn replies).session := by
  have hsend : ∀ (session : Session) opened (plan : Plan),
      SameHistory session (session.sendTurn opened plan replies).session := by
    intro session opened plan
    unfold Session.sendTurn
    split
    · exact .refl session
    · simp only
      split <;> exact ⟨rfl, rfl, rfl⟩
  unfold Session.prepare
  split
  · exact .refl session
  · next plan _ =>
    unfold Session.carryOut
    split
    · exact hsend session false plan
    · split
      · exact .refl session
      · exact .refl session
      · have hconnected := hsend { session with
          upstream := true, handshakeHeaders := plan.headers, upstreamResponseId := none } true plan
        exact ⟨hconnected.keyed, hconnected.snapshot, hconnected.bytes⟩

/-! ### The rest of a turn -/

/-- The kind and the payload of the terminal event that ended a stream. -/
structure StreamEnd where
  completed : Bool
  payload : Value

/-- What happens to a turn besides the replies to `prepare`. -/
structure TurnEvents where
  /-- The replies to `prepare`, unless the turn is interrupted before it starts. -/
  prepare : Option PrepareReplies
  /-- Whether an interruption of `prepare` is the shutdown, not the client's leaving. -/
  shutdown : Bool
  /-- Whether the client took the reply. -/
  replied : Bool
  /-- The terminal event, if the stream was not interrupted before one. -/
  stream : Option StreamEnd
  /-- Whether the client still had room for it. -/
  permit : Bool

/-- How a turn ends for the caller. -/
inductive TurnEnd
  | error (error : ApiError)
  | terminal (payload : Value)
  | canceled

/-- A session whose socket is dropped. -/
def Session.disconnect (session : Session) : Session := { session with upstream := false }

/-- The session after a terminal event that could be delivered. -/
def Session.finishTurn (session : Session) (snapshotBytes : Snapshot → Nat) (input : List Value)
    (parameters : Value) (terminal : StreamEnd) : Session :=
  let responseId := ((terminal.payload.pointer ["response", "id"]).bind Value.asStr).filter (· ≠ "")
  let output := (terminal.payload.pointer ["response", "output"]).bind Value.asArray
  match session.keyed && terminal.completed, responseId, output with
  | true, some responseId, some output =>
    let snapshot : Snapshot := ⟨responseId, input ++ output, parameters⟩
    { session with
      bytes := snapshotBytes snapshot
      upstreamResponseId := some responseId
      snapshot := some snapshot }
  | _, _, _ => session.disconnect

/-- `respond`, with the part of `prepare` it ran. -/
def Session.respond (session : Session) (snapshotBytes : Snapshot → Nat) (turn : Turn)
    (events : TurnEvents) : Session × TurnEnd :=
  let prepared := events.prepare.map (session.prepare turn)
  let session := (prepared.map (·.session)).getD session
  match prepared.bind (·.result) with
  | none =>
    -- The biased select takes the shutdown first, and then the client's leaving.
    (session.disconnect, if events.shutdown then .error .shutdown else .canceled)
  | some (.error error) =>
    (if error.status = 400 then session else session.disconnect, .error error)
  | some (.ok (input, parameters)) =>
    if !events.replied then (session.disconnect, .canceled)
    else
      match events.stream with
      | none => (session.disconnect, .canceled)
      | some terminal =>
        if !events.permit then (session.disconnect, .canceled)
        else (session.finishTurn snapshotBytes input parameters terminal, .terminal terminal.payload)

/-- What the socket yields between two turns: a ping is answered, rate limits are ignored, and
anything else drops the socket. -/
def Session.idleMessage (session : Session) : UpstreamEvent → Session
  | .ping (some true) | .pong => session
  | .text (some event) =>
    if event.index "type" = .string "rate_limits.updated" then session else session.disconnect
  | _ => session.disconnect

end CodexApi
