import CodexApi.Delivery.Connection
import CodexApi.Lib.Transition

/-!
# The system

All text operations of a process over one ledger, as a transition system. A `Part` is one operation
of a handler, with the session or the task it goes on in, or one WebSocket session. A step answers the
effect that a part waits for, lets the database execute an `INSERT` or a finalizing task make an
attempt, or is one of the environment: a client leaves, the shutdown is signalled.

A client that leaves drops the future of its handler where it waits; tasks and WebSocket sessions
run on. An `INSERT` that has been issued is executed even if the future that waits for it is dropped.
An actor stays between its spawn and the hand-over of a turn, so it refuses a turn only after the
shutdown.

The fields `trace`, `owners` and `finalized` are ghosts: what a part has done and been told, which
part inserted a row, and every successful `finalize_request` with what its operation had been told
when it was ordered.
-/

namespace CodexApi.Delivery

open Transition

/-! ### What an operation has been told -/

/-- An effect of a part with its reply, and how client and shutdown stood at that time. -/
structure Entry where
  effect : Effect
  reply : effect.Reply
  connected : Bool
  shutdown : Bool

/-- The last word on an operation, and how client and shutdown stood when it came. -/
structure Word where
  cause : Cause
  connected : Bool
  shutdown : Bool
deriving DecidableEq

/-- The reply is that the shutdown has been signalled. -/
def Effect.seesShutdown : (effect : Effect) → effect.Reply → Bool
  | .isShutdown, seen => seen
  | _, _ => false

/-- A failure of the upstream stays the last word, unless a shutdown overtakes it. -/
def Cause.hear (cause : Cause) (overtaken : Bool) : Option Cause → Cause
  | none => cause
  | some heard =>
    match cause with
    | .failed failure => if overtaken then .failed .overtaken else .failed failure
    | _ => heard

/-- Whether only a shutdown can still be heard. -/
def Cause.settled : Cause → Bool
  | .failed _ => true
  | _ => false

/-- A word after one more reply. -/
def Word.hear (word : Word) (entry : Entry) : Word :=
  let heard := entry.effect.observe entry.reply
  let cause := word.cause.hear (entry.effect.seesShutdown entry.reply) heard
  if heard.isSome && !word.cause.settled then ⟨cause, entry.connected, entry.shutdown⟩
  else { word with cause }

/-- The last word after a trace. -/
def wordOf (trace : List Entry) : Word := trace.foldl Word.hear ⟨.clear, true, false⟩

/-! ### Parts -/

/-- Where the code of a part runs. Only a handler is dropped when its client leaves. -/
inductive Place
  | handler
  | queued
  | task
deriving DecidableEq

/-- Who is to finalize the row of an HTTP operation: nobody yet, its `PendingRequest`, or a task with
the attempts it has left. -/
inductive Custody
  | free
  | guarded (id : RequestId) (httpStatus : Option Nat)
  | closing (id : RequestId) (attempts : List Attempt) (retry : Bool) (word : Word)
  | closed (id : RequestId) (ok : Bool)
deriving DecidableEq

/-- The `INSERT` that a part has issued. -/
inductive Inserting
  | idle
  /-- It is executed, and its code has not been told yet. -/
  | executed (id : RequestId)
  /-- Its code is gone before it is executed. -/
  | orphaned (insertion : Insertion)
  /-- Its code is gone, and it is executed. -/
  | leaked (id : RequestId)

/-- A text operation, or a WebSocket session. Its code is absent once it is dropped. -/
structure Part where
  path : ApiPath
  code : Option (Code Unit)
  place : Place
  connected : Bool
  inserting : Inserting
  custody : Custody
  storeFailed : Bool
  trace : List Entry

/-- A successful `finalize_request`. -/
structure Finalization where
  id : RequestId
  attempt : Attempt
  /-- An earlier attempt for the row has failed. -/
  retry : Bool
  word : Word
deriving DecidableEq

/-- What all parts share. -/
structure Shared where
  ledger : Ledger
  owners : List Nat
  shutdown : Bool
  finalized : List Finalization

/-- The process. -/
structure System where
  shared : Shared
  parts : List Part

/-- A process without operations. -/
def System.init : System := ⟨⟨[], [], false, []⟩, []⟩

/-- A request that has been authenticated. -/
inductive Request
  | responses (identity : ClientIdentity) (headers : HeaderMap) (body : Option Value)
  | chatCompletions (identity : ClientIdentity) (body : Option Value)
  | webSocket (identity : ClientIdentity)

/-- What answers an effect. -/
inductive Response
  | done
  | bool (value : Bool)
  | time (now : OffsetDateTime)
  /-- The store fails. -/
  | fails
  | model (found : Option (Option Value))
  | call (result : SessionCall)
  | job (session : Option Session)
  | events (events : List UpstreamEvent)
  | next (next : UpstreamNext)
  | post (success : Option Bool)
  | read (read : SseRead)
  | event (event : ConnectionEvent)
  | shutdown
  | closed
  | inner (response : Response)

/-- A step of a part. -/
inductive Move
  | reply (response : Response)
  | unfold
  | execute
  | disconnect
  /-- An attempt of the finalizing task; without a time, the store fails. -/
  | finalizer (now : Option OffsetDateTime)

/-- A step of the process. -/
inductive Action
  | start (request : Request)
  | shutdown
  | part (index : Nat) (move : Move)

/-! ### Answering effects -/

/-- Whether an effect is a `select!`. -/
def Effect.isSelect : Effect → Bool
  | .select _ _ => true
  | _ => false

/-- The entry of a failed `finalize_request` for a row. -/
def Entry.failsToFinalize (id : RequestId) : Entry → Bool
  | ⟨.finalize id' _, .error _, _, _⟩ => decide (id' = id)
  | _ => false

namespace Part

variable (sh : Shared) (part : Part)

/-- The replies that leave everything as it is, apart from `select!`. -/
def reply : (effect : Effect) → Response → Option effect.Reply
  | .now, .time now => some now
  | .join, .done =>
    match part.custody with
    | .closed _ ok => some ok
    | _ => none
  | .isShutdown, .done => some sh.shutdown
  | .model _, .model found => some found
  | .connect _, .bool ok | .sendCreate _ _, .bool ok | .sendPong _, .bool ok
  | .sendUpstream _, .bool ok => some ok
  | .prewarmReply, .events events => awaitPrewarm events
  | .next, .next next => some next
  | .post _, .post success => some success
  | .nextRecord, .read read => some read
  | .receive, .event event =>
    match event with
    | .shutdown => if sh.shutdown then some event else none
    | .clientGone => if !part.connected && !sh.shutdown then some event else none
    | _ => if !sh.shutdown then some event else none
  | .replyStream, .done => some part.connected
  | .reserve, .bool ok | .send _, .bool ok => if ok || !part.connected then some ok else none
  | .flush, .done | .deliver _, .done | .answer _, .done | .ready, .done => some ()
  | _, _ => none

/-- The future of the part is gone: its `PendingRequest` spawns the task of its `Drop`. -/
def orderDrop (word : Word) : Custody :=
  match part.custody with
  | .guarded id httpStatus => .closing id [⟨.canceled, httpStatus, none⟩] false word
  | custody => custody

/-- The store does not answer. -/
def failStore : Part := { part with storeFailed := true }

/-- What an effect does, and its reply. -/
def perform : (effect : Effect) → Response → Option (effect.Reply × Shared × Part)
  | .plan now context quota candidates, .done =>
    some (currentWeekSpendNanoUsd sh.ledger context.apiKeyId now >>=
      planInsertion now context quota candidates, sh, part)
  | .plan _ _ _ _, .fails => some (.error .database, sh, part.failStore)
  | .insert _, .done =>
    match part.inserting with
    | .executed id => some (.ok id, sh, { part with inserting := .idle })
    | _ => none
  | .insert _, .fails => some (.error .database, sh, { part.failStore with inserting := .idle })
  | .finalize id attempt, .time now =>
    match finalizeRequest now sh.ledger id attempt.status attempt.httpStatus attempt.usage with
    | .ok ledger =>
      some (.ok (), { sh with
        ledger
        finalized := sh.finalized ++
          [⟨id, attempt, part.trace.any (Entry.failsToFinalize id), wordOf part.trace⟩] }, part)
    | .error error => some (.error error, sh, part)
  | .finalize _ _, .fails => some (.error .database, sh, part.failStore)
  | .newPending id, .done => some ((), sh, { part with custody := .guarded id none })
  -- `response_started` and `take_open` panic on a request that is no longer open.
  | .responseStarted httpStatus, .done =>
    match part.custody with
    | .guarded id _ => some ((), sh, { part with custody := .guarded id (some httpStatus) })
    | _ => none
  | .spawnFinalizer attempts, .done =>
    match part.custody with
    | .guarded id _ =>
      some ((), sh, { part with custody := .closing id attempts false (wordOf part.trace) })
    | _ => none
  | .dropPending, .done => some ((), sh, { part with custody := part.orderDrop (wordOf part.trace) })
  | .callSession _, .call .queued => some (.queued, sh, { part with place := .queued })
  | .callSession _, .call .busy => some (.busy, sh, part)
  | .callSession _, .call .closed => if sh.shutdown then some (.closed, sh, part) else none
  | .takeJob, .job session =>
    if sh.shutdown = session.isNone then some (session, sh, { part with place := .task }) else none
  | .detach, .done => some ((), sh, { part with place := .task })
  | .select _ _, .shutdown => if sh.shutdown then some (.shutdown, sh, part) else none
  | .select closable _, .closed =>
    if closable && !part.connected then some (.closed, sh, part) else none
  -- The branches are polled in order; an inner `select!` may see what comes in between.
  | .select closable effect, .inner response =>
    if effect.isSelect || (!sh.shutdown && (!closable || part.connected)) then
      (perform effect response).map fun (reply, sh, part) => (.done reply, sh, part)
    else none
  | effect, response => (part.reply sh effect response).map fun reply => (reply, sh, part)

/-- The client leaves, and with it a handler. -/
def dropHandler (effect : Effect) : Part :=
  { part with
    code := none
    connected := false
    custody := part.orderDrop ⟨.interrupted .clientGone, false, sh.shutdown⟩
    inserting :=
      match effect, part.inserting with
      | .insert insertion, .idle => .orphaned insertion
      | .insert _, .executed id => .leaked id
      | _, inserting => inserting }

/-- The client leaves. A handler is dropped where it waits; between two waits it is not seen. -/
def disconnect : Option Part :=
  match part.path, part.place, part.code with
  | .webSocket, _, _ | _, .queued, _ | _, .task, _ | _, .handler, none
  | _, .handler, some (.pure _) => some { part with connected := false }
  | _, .handler, some (.op effect _) =>
    if effect.awaits then some (part.dropHandler sh effect) else none
  | _, .handler, some (.jump _) => none

/-- The database executes a row of the part. -/
def insertInto (index : Nat) (row : Row) (inserting : RequestId → Inserting) :
    Option (Shared × Part) :=
  match insertRow sh.ledger row with
  | .ok ledger =>
    some ({ sh with ledger, owners := sh.owners ++ [index] },
      { part with inserting := inserting sh.ledger.length })
  | .error _ => none

/-- The database executes the `INSERT` that the part has issued. -/
def execute (index : Nat) : Option (Shared × Part) :=
  match part.inserting, part.code with
  | .orphaned insertion, _ => part.insertInto sh index insertion.row .leaked
  | .idle, some (.op (.insert insertion) _) => part.insertInto sh index insertion.row .executed
  | _, _ => none

/-- The finalizing task makes its next attempt. -/
def finalizer (now : Option OffsetDateTime) : Option (Shared × Part) :=
  match part.custody with
  | .closing id (attempt :: attempts) retry word =>
    let result := match now with
      | some now =>
        (finalizeRequest now sh.ledger id attempt.status attempt.httpStatus attempt.usage).toOption
      | none => none
    let part := if now.isNone then part.failStore else part
    match result with
    | some ledger =>
      some ({ sh with ledger, finalized := sh.finalized ++ [⟨id, attempt, retry, word⟩] },
        { part with custody := .closed id !retry })
    | none =>
      some (sh, { part with
        custody := if attempts.isEmpty then .closed id false else .closing id attempts true word })
  | _ => none

end Part

/-! ### The process -/

section

variable (config : Config) (isHttpDate : String → Bool)

/-- A step of a part. -/
def partStep (index : Nat) (sh : Shared) (part : Part) : Move → Option (Shared × Part)
  | .reply response =>
    match part.code with
    | some (.op effect next) => do
      let (reply, sh', part') ← part.perform sh effect response
      return (sh', { part' with
        code := some (next reply)
        trace := part.trace ++ [⟨effect, reply, part.connected, sh.shutdown⟩] })
    | _ => none
  | .unfold =>
    match part.code with
    | some (.jump loop) => some (sh, { part with code := some (loop.code config isHttpDate) })
    | _ => none
  | .execute => part.execute sh index
  | .disconnect => (part.disconnect sh).map (sh, ·)
  | .finalizer now => part.finalizer sh now

/-- The part of a request. -/
def Request.part : Request → Part
  | .responses identity headers body =>
    ⟨.responses, some (Delivery.responses config identity headers body), .handler, true, .idle,
      .free, false, []⟩
  | .chatCompletions identity body =>
    ⟨.chatCompletions, some (Delivery.chatCompletions config identity body), .handler, true,
      .idle, .free, false, []⟩
  | .webSocket identity =>
    ⟨.webSocket, some (.jump (.connection identity none)), .task, true, .idle, .free, false, []⟩

/-- One step; `none` where the action is not possible. -/
def systemStep (s : System) : Action → Option System
  | .start request => some { s with parts := s.parts ++ [request.part config] }
  | .shutdown => some { s with shared := { s.shared with shutdown := true } }
  | .part index move => do
    let part ← s.parts[index]?
    let (shared, part) ← partStep config isHttpDate index s.shared part move
    return ⟨shared, s.parts.set index part⟩

/-- The interleavings of all operations. -/
abbrev SystemRun := Run (ofFun (systemStep config isHttpDate))

end

end CodexApi.Delivery
