import CodexApi.Delivery.Machine

/-!
# What a text operation must respect

The contract of the code of an operation. Its ghost state is a `View`: what the code knows of its
own rows, and the last word on the operation. The contract says that a row is always in somebody's
care, that every finalization fits the last word (`Justified`), that a successful terminal event is
only passed on once it is booked (`Covers`), that an error answer agrees with the row (`Answered`),
and that only the dispatch of a WebSocket request waits for the upstream without watching the shutdown.
-/

namespace CodexApi

/-- Whether a terminal event is a success. -/
def TerminalEvent.succeeds (terminal : TerminalEvent) : Bool :=
  terminal.kind = .completed || terminal.kind = .incomplete

/-- A row may be inserted: as started if a model is admitted, otherwise as rejected. -/
structure Insertion.Sound (insertion : Insertion) : Prop where
  checks : insertion.row.checks = true
  started : ∀ model, insertion.admitted = some model →
    insertion.row.status = .started ∧ insertion.row.model = model.model
  rejected : insertion.admitted = none → insertion.row.status = .final .rejected

namespace Delivery

open Program

/-! ### The view of the code -/

/-- An admitted row with its model. -/
structure Admitted where
  id : RequestId
  model : EffectiveModel
deriving DecidableEq

/-- The `PendingRequest` of an operation. -/
inductive Pending
  | absent
  | opened (row : Admitted) (httpStatus : Option Nat)
  | closing (row : Admitted) (attempts : List Attempt)

/-- How the last row was closed. -/
inductive Closure
  | committed (row : Admitted) (attempt : Attempt)
  /-- An earlier attempt failed; this one succeeded unless the store failed. -/
  | retried (row : Admitted) (attempt : Attempt)
  | rejection (id : RequestId) (httpStatus : Option Nat)

/-- What the code of an operation knows. -/
structure View where
  /-- The rows it has inserted. -/
  ids : List RequestId
  /-- The started rows that it has to finalize itself. -/
  held : List Admitted
  pending : Pending
  closure : Option Closure
  /-- A call of the store has failed. -/
  spoiled : Bool
  /-- The failed calls include one that cannot fail while the database works. -/
  storeFailed : Bool
  cause : Cause
  /-- An admitted request is on its way to the upstream. -/
  dispatching : Bool
  /-- A WebSocket session relays a response. -/
  relaying : Bool
  /-- The rows that it has failed to finalize. -/
  failed : List RequestId

/-- Before anything. -/
def View.start : View := ⟨[], [], .absent, none, false, false, .clear, false, false, []⟩

/-- Whether a terminal event has come. -/
def Cause.isTerminal : Cause → Bool
  | .terminal _ => true
  | _ => false

/-- The view after a reply, apart from the last word. -/
def View.book (v : View) : (effect : Effect) → effect.Reply → View
  | .plan _ _ _ _, .error _ => { v with spoiled := true }
  | .insert _, .error _ => { v with spoiled := true, storeFailed := true }
  | .insert insertion, .ok id =>
    match insertion.admitted with
    | some model =>
      { v with
        ids := v.ids ++ [id], held := v.held ++ [⟨id, model⟩], dispatching := !v.relaying }
    | none =>
      { v with ids := v.ids ++ [id], closure := some (.rejection id insertion.row.httpStatus) }
  | .finalize id attempt, .ok () =>
    { v with
      held := v.held.filter (·.id ≠ id)
      closure := (v.held.find? (·.id = id)).map (.committed · attempt)
      dispatching := false }
  | .finalize id attempt, .error _ =>
    { v with
      spoiled := true
      storeFailed := v.storeFailed || attempt.usage.isNone
      dispatching := false
      failed := v.failed ++ [id] }
  | .newPending id, () =>
    match v.held.find? (·.id = id) with
    | some row => { v with held := v.held.filter (·.id ≠ id), pending := .opened row none }
    | none => v
  | .responseStarted httpStatus, () =>
    match v.pending with
    | .opened row _ => { v with pending := .opened row (some httpStatus) }
    | _ => v
  | .spawnFinalizer attempts, () =>
    match v.pending with
    | .opened row _ => { v with pending := .closing row attempts }
    | _ => v
  | .join, ok =>
    match v.pending with
    | .closing row (attempt :: attempts) =>
      if ok then { v with pending := .absent, closure := some (.committed row attempt) }
      else
        { v with
          pending := .absent
          closure := some (.retried row (attempts.getLastD attempt))
          spoiled := true
          storeFailed := v.storeFailed || attempts.isEmpty }
    | _ => v
  | .dropPending, () => { v with pending := .absent }
  | .model _, found =>
    match v.pending with
    | .absent => { v with dispatching := v.dispatching && (liteModel found).isSome }
    | _ => { v with dispatching := false }
  | .sendCreate generates _, ok =>
    { v with
      dispatching := v.dispatching && ok && !generates
      relaying := v.relaying || (ok && generates) }
  | .prewarmReply, .error _ => { v with dispatching := false }
  | .receive, event =>
    { v with
      relaying := v.relaying && !event.cause.isTerminal
      closure := if event.cause.isTerminal then none else v.closure }
  | .select _ effect, .done reply =>
    { v.book effect reply with dispatching := false, relaying := v.relaying }
  | .select _ _, _ => { v with dispatching := false }
  | _, _ => v

/-- The view after a reply. -/
def View.after (v : View) (effect : Effect) (reply : effect.Reply) : View :=
  { v.book effect reply with
    cause := v.cause.hear (effect.seesShutdown reply) (effect.observe reply) }

/-! ### The rules -/

/-- The failures that end a Responses operation as canceled. -/
def Failure.unrecorded : Failure → Bool
  | .lookup | .streamLost | .overtaken => true
  | .other => false

/-- The last word on an operation lets its row be canceled: client or shutdown came first, or one of
the failures that a Responses operation does not record. -/
def Cause.cancels (path : ApiPath) : Cause → Prop
  | .interrupted _ => True
  | .failed failure => path = .responses ∧ failure.unrecorded = true
  | _ => False

/-- An attempt to finalize a row fits the last word on the operation. -/
structure Justified (path : ApiPath) (cause : Cause) (rates : ModelRates) (attempt : Attempt) :
    Prop where
  httpStatus : ∀ status ∈ attempt.httpStatus, 100 ≤ status ∧ status ≤ 599
  canceled : attempt.status = .canceled → cause.cancels path
  interrupted : attempt.status ≠ .canceled → ∀ interruption, cause ≠ .interrupted interruption
  failed : attempt.status ≠ .canceled → ∀ failure, cause = .failed failure →
    attempt.status = .upstreamError
  completed : attempt.status = .completed ∨ attempt.status = .incomplete →
    ∃ terminal, cause = .terminal terminal ∧ attempt.status = terminal.kind.finalStatus
  usage : attempt.usage ≠ none →
    ∃ terminal, cause = .terminal terminal ∧ attempt.usage = terminalUsage terminal rates

/-- The attempts of a finalizing task: a single one without usage, or any one and then an upstream
error. -/
inductive Ordered : List Attempt → Prop
  | single {attempt : Attempt} (husage : attempt.usage = none) : Ordered [attempt]
  | fallback (attempt : Attempt) (httpStatus : Nat) :
    Ordered [attempt, ⟨.upstreamError, some httpStatus, none⟩]

/-- What the terminal event that came last says has been booked before anything else went wrong. -/
def View.Covers (v : View) (terminal : TerminalEvent) : Prop :=
  v.spoiled = false ∧ v.cause = .terminal terminal ∧ ∃ row attempt, v.closure = some (.committed row attempt) ∧
    attempt.status = terminal.kind.finalStatus ∧
    attempt.usage = terminalUsage terminal row.model.rates

/-- An item may be sent: if it ends a response successfully, that is booked. -/
def View.Sends (v : View) (item : Item) : Prop :=
  ∀ terminal ∈ item.terminal, terminal.succeeds = true → v.Covers terminal

/-- The row, the status and the HTTP status that a closure leaves. -/
def Closure.ends : Closure → RequestId × FinalStatus × Option Nat
  | committed row attempt | retried row attempt => (row.id, attempt.status, attempt.httpStatus)
  | rejection id httpStatus => (id, .rejected, httpStatus)

/-- The status that belongs to an HTTP error. -/
def statusOfError (httpStatus : Nat) : FinalStatus :=
  if httpStatus = 502 then .upstreamError else .rejected

/-- The last word excuses a row that does not show the error: client or shutdown came first, or the
row of a failed lookup. -/
def Cause.excuses : Cause → Bool
  | .interrupted _ | .failed .lookup | .failed .overtaken => true
  | _ => false

/-- The errors that the rows of their requests show. -/
def recordedErrors : List Nat := [400, 409, 429, 502]

/-- An error answer agrees with the only row. -/
def View.Answered (v : View) (error : ApiError) : Prop :=
  error.status ∈ recordedErrors → v.storeFailed = true ∨ v.cause.excuses = true ∨
    ∃ id closure, v.ids = [id] ∧ v.closure = some closure ∧
      closure.ends = (id, statusOfError error.status, some error.status)

/-- An answer may be given. -/
def View.Answers (v : View) : Answer → Prop
  | .error error => v.Answered error
  | .stream => True
  | .completion terminal _ => terminal.succeeds = true ∧ v.Covers terminal

/-- The response of an operation may come: its row is open. -/
def View.Listens (v : View) : Prop :=
  v.closure = none ∧ ∃ row httpStatus, v.pending = .opened row httpStatus

/-- The effects under a `select!` of an HTTP operation. -/
def View.Waits (v : View) : Effect → Prop
  | .join => ∃ row attempts, v.pending = .closing row attempts
  | .send item => v.Sends item
  | .next | .nextRecord | .select _ .next => v.Listens
  | .connect _ | .sendCreate _ _ | .prewarmReply | .sendPong _ | .post _ | .ready
  | .reserve => True
  | _ => False

/-- What an effect needs. -/
def View.Needs (path : ApiPath) (v : View) : Effect → Prop
  | .now | .plan _ _ _ _ | .isShutdown | .takeJob | .replyStream | .detach | .flush
  | .callSession _ => True
  | .insert insertion => insertion.Sound ∧
      (path ≠ .webSocket → v.ids = [] ∧ v.pending = .absent)
  | .finalize id attempt => path = .webSocket ∧ (attempt.status = .internalError → v.spoiled = true) ∧
      (id ∈ v.failed → attempt = ⟨.upstreamError, none, none⟩) ∧
      ∃ row ∈ v.held, row.id = id ∧ Justified path v.cause row.model.rates attempt
  | .newPending id => path ≠ .webSocket ∧ v.pending = .absent ∧ ∃ row, v.held = [row] ∧ row.id = id
  | .responseStarted httpStatus => 100 ≤ httpStatus ∧ httpStatus ≤ 599 ∧
      ∃ row started, v.pending = .opened row started
  | .spawnFinalizer attempts => ∃ row started, v.pending = .opened row started ∧
      Ordered attempts ∧
      ∀ attempt ∈ attempts, attempt.status ≠ .internalError ∧
        Justified path v.cause row.model.rates attempt
  | .join => ∃ row attempts, v.pending = .closing row attempts
  | .dropPending => ∀ row httpStatus, v.pending = .opened row httpStatus →
      Justified path v.cause row.model.rates ⟨.canceled, httpStatus, none⟩
  | .model _ => path ≠ .chatCompletions ∧ v.dispatching = true
  | .sendCreate _ _ | .prewarmReply => v.dispatching = true
  | .receive | .sendUpstream _ => path = .webSocket
  | .send item | .deliver item => v.Sends item
  | .answer answer => v.Answers answer
  | .select _ effect => path ≠ .webSocket ∧ v.Waits effect
  | .connect _ | .next | .sendPong _ | .post _ | .nextRecord | .ready | .reserve => False

/-- The effects of an admitted request on its way to the upstream, and those that end the way. -/
def Effect.dispatches : Effect → Bool
  | .newPending _ | .model _ | .sendCreate _ _ | .prewarmReply | .finalize _ _ | .select _ _ => true
  | _ => false

/-- A started row is only in the hands of code that cannot be dropped. -/
def View.Holds (path : ApiPath) (v : View) (effect : Effect) : Prop :=
  path ≠ .webSocket → effect.awaits = true → v.held = []

/-- An HTTP operation whose only row is in the care of its `PendingRequest`. -/
def View.guarding (row : Admitted) (httpStatus : Option Nat) (cause : Cause) : View :=
  ⟨[row.id], [], .opened row httpStatus, none, false, false, cause, false, false, []⟩

/-- The `PendingRequest` of an operation that goes on. -/
def View.Open (path : ApiPath) (v : View) (rates : ModelRates) : Prop :=
  path ≠ .webSocket ∧ ∃ row httpStatus, v = .guarding row httpStatus .clear ∧
    row.model.rates = rates ∧ ∀ status ∈ httpStatus, 100 ≤ status ∧ status ≤ 599

/-- The rows that a WebSocket session holds for its active request. -/
def HeldFor (held : List Admitted) : Option InFlight → Prop
  | none => held = []
  | some active => ∃ row, held = [row] ∧ row.id = active.requestId ∧ row.model.rates = active.rates

/-- A WebSocket session between two events. -/
structure View.Between (v : View) (active : Option InFlight) : Prop where
  pending : v.pending = .absent
  notDispatching : v.dispatching = false
  unspoiled : v.spoiled = false
  failed : v.failed = []
  clear : ∀ failure, v.cause ≠ .failed failure
  relaying : v.relaying = active.isSome
  owned : ∀ row ∈ v.held, row.id ∈ v.ids
  held : HeldFor v.held active

/-- The state at the head of a loop. -/
def View.AtLoop (path : ApiPath) (v : View) : Loop → Prop
  | .forward rates => path = .responses ∧ v.Open path rates
  | .chatStream rates _ | .chatRead rates _ => path = .chatCompletions ∧ v.Open path rates
  | .connection _ active => path = .webSocket ∧ v.Between active

/-- The state in which code may end. -/
structure View.Ended (v : View) : Prop where
  held : v.storeFailed = false → v.held = []
  notDispatching : v.dispatching = false
  pending : ∀ row httpStatus, v.pending ≠ .opened row httpStatus

/-- **The contract** of the code of an operation. -/
def contract (path : ApiPath) : Contract Effect Effect.Reply Loop View where
  pre v effect := v.Needs path effect ∧ v.Holds path effect ∧
    (v.dispatching = true → effect.dispatches = true)
  may v effect reply := match effect, reply with
    | .plan now context quota candidates, .ok insertion =>
      ∃ spent, planInsertion now context quota candidates spent = .ok insertion
    | .insert _, .ok id => id ∉ v.ids
    | .isShutdown, seen => v.cause = .interrupted .shutdown → seen = true
    | .select closable _, .closed => closable = true
    | _, _ => True
  after := View.after
  entry loop v := v.AtLoop path loop

/-- Code that respects the contract to its end. -/
abbrev Code.Respects (path : ApiPath) (code : Code Unit) (v : View) : Prop :=
  Safe (contract path) (fun v _ => v.Ended) code v

end Delivery

end CodexApi
