import CodexApi.Lib.Program
import CodexApi.Session.Cache
import CodexApi.Session.Prepare
import CodexApi.Chat.Response

/-!
# The effects of text operations

A text operation is a `Code`: a program whose effects are the calls that the source awaits, and the
few calls without an await that other tasks can observe (`PendingRequest`, the shutdown token,
channels). `Effect.Reply` is what a call returns. An interruptible wait, `tokio::select!` over the
shutdown and the client's leaving, is a `select` around another effect; `race` puts one around
every wait of a program.

`Effect.observe` classifies what a reply tells about an operation: that it was interrupted, that the
upstream failed, or that a terminal event has come.
-/

namespace CodexApi.Delivery

/-! ### Messages -/

/-- A text frame, with the JSON value it parses to. -/
structure TextFrame where
  text : String
  event : Option Value
deriving DecidableEq

/-- A close frame. -/
structure CloseFrame where
  code : Nat
  reason : String
deriving DecidableEq

/-- A message of the upstream socket. -/
inductive UpstreamMessage
  | text (frame : TextFrame)
  | ping (payload : List UInt8)
  | pong (payload : List UInt8)
  | close (frame : Option CloseFrame)
  | binary
  | frame

/-- What the upstream socket yields. -/
inductive UpstreamNext
  | message (message : UpstreamMessage)
  | broken
  | ended

/-- A message of a client WebSocket. -/
inductive DownstreamMessage
  | text (frame : TextFrame)
  | binary
  | ping (payload : List UInt8)
  | pong (payload : List UInt8)
  | close (frame : Option CloseFrame)

/-- `ConnectionEvent`. -/
inductive ConnectionEvent
  | shutdown
  | clientGone
  | downstream (message : DownstreamMessage)
  | upstreamGone
  | upstream (message : UpstreamMessage)

/-- What an upstream SSE stream yields. -/
inductive SseRead
  | record (record : SseRecord)
  | eof
  | broken

/-- A text for the client: one that came from the upstream, or a printed value. -/
inductive Text
  | raw (text : String)
  | printed (value : Value)
deriving DecidableEq

/-- What is sent to a client: a server-sent event or a frame that relays an upstream event, a part
of a Chat stream, an error, or a control frame. What ends a response carries the terminal event it
was made from. -/
inductive Item
  | event (name : String) (text : Text) (terminal : Option TerminalEvent)
  | frame (text : Text) (terminal : Option TerminalEvent)
  | chunk (value : Value) (terminal : Option TerminalEvent)
  | done (terminal : TerminalEvent)
  | error (body : Value)
  | ping (payload : List UInt8)
  | pong (payload : List UInt8)
  | close (frame : Option CloseFrame)
deriving DecidableEq

/-- The terminal event an item was made from. -/
def Item.terminal : Item → Option TerminalEvent
  | event _ _ terminal | frame _ terminal | chunk _ terminal => terminal
  | done terminal => some terminal
  | error _ | ping _ | pong _ | close _ => none

/-- The HTTP answer of a handler. -/
inductive Answer
  | error (error : ApiError)
  | stream
  | completion (terminal : TerminalEvent) (body : Value)
deriving DecidableEq

/-- What `stream` finds when it hands a turn to a session. -/
inductive SessionCall
  | busy
  | queued
  | closed
deriving DecidableEq

/-- The result of a `tokio::select!` whose other branches are the shutdown and the client's
leaving. -/
inductive Selected (α : Type)
  | shutdown
  | closed
  | done (value : α)
deriving DecidableEq

/-- The arguments of one `finalize_request`. -/
structure Attempt where
  status : FinalStatus
  httpStatus : Option Nat
  usage : Option BillableUsage
deriving DecidableEq

/-! ### Effects -/

/-- What a text operation does to the world, or asks it. -/
inductive Effect
  /-- `clock.now`. -/
  | now
  /-- The read of `begin_request`, with the row it plans from the spend. -/
  | plan (now : OffsetDateTime) (context : RequestContext) (quota : QuotaLimits)
      (candidates : ModelCandidates)
  /-- The `INSERT` of `begin_request` or `record_rejection`. -/
  | insert (insertion : Insertion)
  /-- `finalize_request`, awaited by a WebSocket session. -/
  | finalize (id : RequestId) (attempt : Attempt)
  /-- `PendingRequest::new`. -/
  | newPending (id : RequestId)
  /-- `response_started`. -/
  | responseStarted (httpStatus : Nat)
  /-- `take_open` and the spawned task of `finish` or `finish_terminal`, with its attempts. -/
  | spawnFinalizer (attempts : List Attempt)
  /-- The handle of that task: whether the first attempt succeeded. -/
  | join
  /-- The `PendingRequest` goes out of scope. -/
  | dropPending
  /-- `shutdown.is_cancelled`. -/
  | isShutdown
  /-- `upstream_http.model`. -/
  | model (slug : String)
  /-- `stream` up to the hand-over. -/
  | callSession (key : Option SessionKey)
  /-- The queued turn is received by its session, or dropped with it. -/
  | takeJob
  /-- `connect_upstream_websocket`. -/
  | connect (headers : UpstreamHeaders)
  /-- A `response.create` is sent upstream; `generates` tells a generation from a prewarm. -/
  | sendCreate (generates : Bool) (frame : Object)
  /-- The loop of `send_responses_prewarm` that waits for the response id. -/
  | prewarmReply
  /-- `upstream.next` of a session. -/
  | next
  | sendPong (payload : List UInt8)
  /-- The receiver of the stream is sent to the handler. -/
  | replyStream
  /-- `reserve_owned`. -/
  | reserve
  /-- `upstream_http.send`: whether the response was a success. -/
  | post (body : Object)
  /-- `reader.next`, before the record is validated. -/
  | nextRecord
  /-- `forward_chat_stream` becomes a task. -/
  | detach
  /-- The `select!` of `WsSession::run`. -/
  | receive
  /-- Any other message to the upstream socket of a WebSocket session. -/
  | sendUpstream (message : UpstreamMessage)
  /-- `flush` of one of the sockets, whose result is ignored. -/
  | flush
  /-- `sender.send` or `downstream.send`. -/
  | send (item : Item)
  /-- `permit.send`. -/
  | deliver (item : Item)
  /-- The handler answers. -/
  | answer (answer : Answer)
  /-- A future that is ready when it is first polled. -/
  | ready
  /-- A `select!` with `biased`, over the shutdown, the client's leaving if `closable`, and an
  effect. -/
  | select (closable : Bool) (effect : Effect)

namespace Effect

/-- What a call returns. -/
@[reducible]
def Reply : Effect → Type
  | now => OffsetDateTime
  | plan _ _ _ _ => Except StoreError Insertion
  | insert _ => Except StoreError RequestId
  | finalize _ _ => Except StoreError Unit
  | join | isShutdown | connect _ | sendCreate _ _ | sendPong _ | replyStream | reserve
  | sendUpstream _ | send _ => Bool
  | model _ => Option (Option Value)
  | callSession _ => SessionCall
  | takeJob => Option Session
  | prewarmReply => Except UpstreamWebSocketError String
  | next => UpstreamNext
  | post _ => Option Bool
  | nextRecord => SseRead
  | receive => ConnectionEvent
  | newPending _ | responseStarted _ | spawnFinalizer _ | dropPending | detach | flush | deliver _
  | answer _ | ready => Unit
  | select _ effect => Selected effect.Reply

/-- Whether the source awaits here. A future can only be dropped where it waits. -/
def awaits : Effect → Bool
  | now | newPending _ | responseStarted _ | spawnFinalizer _ | dropPending | isShutdown
  | replyStream | detach | deliver _ | answer _ => false
  | _ => true

end Effect

/-! ### Code -/

/-- `InFlight`: the request whose response a WebSocket session relays. -/
structure InFlight where
  requestId : RequestId
  rates : ModelRates
deriving DecidableEq

/-- `ClientIdentity`. -/
structure ClientIdentity where
  id : String
  quota : QuotaLimits
deriving DecidableEq

/-- The loops, with what they carry from one round to the next. -/
inductive Loop
  /-- `forward_websocket_responses_stream`. -/
  | forward (rates : ModelRates)
  /-- `forward_chat_stream`. -/
  | chatStream (rates : ModelRates) (converter : ChatStreamConverter)
  /-- `read_chat_terminal`. -/
  | chatRead (rates : ModelRates) (completedOutputItems : List Value)
  /-- `WsSession::run`. -/
  | connection (identity : ClientIdentity) (active : Option InFlight)

/-- The code of a text operation, or a part of it. -/
abbrev Code (α : Type) := Program Effect Effect.Reply Loop α

/-- One effect. -/
def await (effect : Effect) : Code effect.Reply := Program.perform effect

/-- A program of which every wait is a `select!`. -/
def interruptible (closable : Bool) {α : Type} : Code α → Code (Selected α)
  | .pure value => .pure (.done value)
  | .jump loop => .jump loop
  | .op effect next =>
    if effect.awaits then
      .op (.select closable effect) fun
        | .shutdown => .pure .shutdown
        | .closed => .pure .closed
        | .done reply => interruptible closable (next reply)
    else .op effect fun reply => interruptible closable (next reply)

/-- A `select!` whose last branch is a program. -/
def race (closable : Bool) {α : Type} (program : Code α) : Code (Selected α) := do
  match ← await (.select closable .ready) with
  | .shutdown => return .shutdown
  | .closed => return .closed
  | .done () => interruptible closable program

/-! ### What a reply tells -/

/-- Why an operation ends before its response does. -/
inductive Interruption
  | shutdown
  | clientGone
  /-- A client WebSocket sent a close frame. -/
  | clientClosed
  /-- A client WebSocket sent a binary message. -/
  | clientBinary
deriving DecidableEq

/-- How the upstream fails an operation. -/
inductive Failure
  /-- The model lookup fails, or finds a model that does not support Responses Lite. -/
  | lookup
  /-- The stream of a session ends or breaks without a terminal event. -/
  | streamLost
  /-- The shutdown is seen while another failure is being classified. -/
  | overtaken
  | other
deriving DecidableEq

/-- The state of an operation, as far as it has been told. -/
inductive Cause
  | clear
  | interrupted (interruption : Interruption)
  | failed (failure : Failure)
  | terminal (event : TerminalEvent)
deriving DecidableEq

/-- Whether a model lookup found a model that supports Responses Lite. -/
def liteModel : Option (Option Value) → Option Value
  | some (some model) =>
    if (model.get "use_responses_lite").bind Value.asBool = some true then some model else none
  | _ => none

/-- What an upstream text frame tells. -/
def TextFrame.cause (frame : TextFrame) : Cause :=
  match frame.event.filter fun event => (eventType event).isSome with
  | none => .failed .other
  | some event =>
    match parseTerminalPayload event with
    | .error _ => .failed .other
    | .ok none => .clear
    | .ok (some terminal) => .terminal terminal

/-- What a record of an upstream SSE stream tells. -/
def SseRead.cause : SseRead → Cause
  | .record received =>
    match validateEvent received with
    | .error _ => .failed .other
    | .ok none => .clear
    | .ok (some terminal) => .terminal terminal
  | .eof | .broken => .failed .other

/-- What a message of the upstream socket tells. -/
def UpstreamMessage.cause : UpstreamMessage → Cause
  | .text received => received.cause
  | .ping _ | .pong _ => .clear
  | .close _ | .binary | .frame => .failed .other

/-- What the next event of a client WebSocket tells. -/
def ConnectionEvent.cause : ConnectionEvent → Cause
  | shutdown => .interrupted .shutdown
  | clientGone => .interrupted .clientGone
  | downstream (.close _) => .interrupted .clientClosed
  | downstream .binary => .interrupted .clientBinary
  | downstream _ => .clear
  | upstreamGone => .failed .other
  | upstream message => message.cause

/-- A call to the upstream that may fail. -/
def Cause.ofUpstream (ok : Bool) : Option Cause := if ok then none else some (.failed .other)

/-- A call to the client that fails when it is gone. -/
def Cause.ofClient (ok : Bool) : Option Cause :=
  if ok then none else some (.interrupted .clientGone)

/-- What a reply tells about the operation, if anything. -/
def Effect.observe : (effect : Effect) → effect.Reply → Option Cause
  | isShutdown, seen => if seen then some (.interrupted .shutdown) else none
  | model _, reply => if (liteModel reply).isSome then none else some (.failed .lookup)
  | callSession _, .closed => some (.interrupted .shutdown)
  | takeJob, none => some (.interrupted .shutdown)
  | connect _, ok | sendCreate _ _, ok | sendPong _, ok | sendUpstream _, ok => Cause.ofUpstream ok
  | prewarmReply, .error _ => some (.failed .other)
  | next, .message message => some message.cause
  | next, .broken | next, .ended => some (.failed .streamLost)
  | post _, success => Cause.ofUpstream (success = some true)
  | nextRecord, read => some read.cause
  | receive, event => some event.cause
  | replyStream, ok | reserve, ok | send _, ok => Cause.ofClient ok
  | select _ _, .shutdown => some (.interrupted .shutdown)
  | select _ _, .closed => some (.interrupted .clientGone)
  | select _ effect, .done reply => effect.observe reply
  | _, _ => none

end CodexApi.Delivery
