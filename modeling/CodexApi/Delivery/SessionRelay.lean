import CodexApi.Delivery.ConnectionRespects

/-!
# The relay of a WebSocket session

What a WebSocket session has to do next, as far as client and upstream can see it. A `Relay` is the
request in flight, whose generation has been sent upstream and not been ended by a terminal event, and
the turn of the session: the answer that it owes to the event it has received last. The contract
`relay` says what a session may do in each turn, and every round of the code respects it
(`connection_relays`).
-/

namespace CodexApi.Delivery

open Program (Safe bind_op perform safe_pure)

/-! ### Turns -/

/-- A frame of the upstream as it is passed on to the client. -/
def TextFrame.item (isHttpDate : String → Bool) (frame : TextFrame) : Item :=
  match frame.cause with
  | .terminal terminal =>
    .frame (relayText isHttpDate frame.text (some terminal)) (some terminal)
  | _ => .frame (relayText isHttpDate frame.text none) none

/-- What a session owes to the event that it has received last. -/
inductive Turn
  /-- Nothing: it waits for the next event. -/
  | idle
  /-- A `response.create` has come, and has no row yet. -/
  | requested
  /-- The request has a started row, and is not in flight. -/
  | admitted (request : InFlight)
  /-- The row of the request is rejected, and the client is to be told. -/
  | refused
  /-- The terminal event of a request is to be booked, and then passed on. -/
  | answered (request : InFlight) (frame : TextFrame) (terminal : TerminalEvent)
  /-- A frame is to be passed on. -/
  | received (frame : TextFrame)
  /-- A ping or pong is to be passed on. -/
  | control
  /-- The terminal event of a request could not be booked. -/
  | unbooked (request : InFlight) (frame : TextFrame)
  /-- The connection ends, and the frame that ends it is not passed on. -/
  | ended (last : Option TextFrame)
deriving DecidableEq

/-- The request in flight, and the turn of the session. -/
structure Relay where
  active : Option InFlight
  turn : Turn
deriving DecidableEq

/-- Before the first event. -/
def Relay.start : Relay := ⟨none, .idle⟩

/-- The frame that a turn has not passed on yet. -/
def Turn.owed : Turn → Option TextFrame
  | answered _ frame _ | received frame | unbooked _ frame => some frame
  | ended last => last
  | idle | requested | admitted _ | refused | control => none

/-- The connection ends, or ends unless a row is inserted. -/
def Turn.closing : Turn → Bool
  | ended _ | requested => true
  | _ => false

/-- A session after a terminal event: nobody is in flight any more, and one that has nobody in flight
ends. -/
def Relay.answer (r : Relay) (frame : TextFrame) (terminal : TerminalEvent) : Relay :=
  match r.active with
  | some request => ⟨none, .answered request frame terminal⟩
  | none => ⟨none, .ended (some frame)⟩

/-- A session after an event. -/
def Relay.hear (r : Relay) : ConnectionEvent → Relay
  | .downstream (.text _) => { r with turn := .requested }
  | .downstream (.ping _) | .downstream (.pong _) | .upstream (.ping _) | .upstream (.pong _) =>
    { r with turn := .control }
  | .upstream (.text frame) =>
    match frame.cause with
    | .clear => { r with turn := .received frame }
    | .terminal terminal => r.answer frame terminal
    | _ => { r with turn := .ended (some frame) }
  | _ => { r with turn := .ended none }

/-- A session after a successful or failed `finalize_request`. -/
def Relay.close (r : Relay) (ok : Bool) : Relay :=
  match r.turn with
  | .admitted _ =>
    if r.active.isSome && ok then { r with turn := .refused } else { r with turn := .ended none }
  | .answered request frame _ =>
    if ok then { r with turn := .received frame } else { r with turn := .unbooked request frame }
  | .unbooked _ frame => { r with turn := .ended (some frame) }
  | .requested => ⟨none, .ended none⟩
  | .ended last => ⟨none, .ended last⟩
  | _ => r

/-- A session after a reply. -/
def Relay.after (r : Relay) : (effect : Effect) → effect.Reply → Relay
  | .receive, event => r.hear event
  | .plan _ _ _ _, .error _ | .insert _, .error _ => { r with turn := .ended none }
  | .insert insertion, .ok id =>
    match insertion.admitted with
    | some model => { r with turn := .admitted ⟨id, model.rates⟩ }
    | none => { r with turn := .refused }
  | .finalize _ _, result => r.close result.isOk
  | .sendCreate generates _, ok =>
    match r.turn with
    | .admitted request => if generates && ok then ⟨some request, .idle⟩ else r
    | _ => r
  | .send _, ok | .sendUpstream _, ok =>
    { r with turn := if ok && !r.turn.closing then .idle else .ended r.turn.owed }
  | _, _ => r

/-! ### The contract -/

/-- What may be finalized in a turn, and how. -/
def Relay.Finalizes (r : Relay) (id : RequestId) (attempt : Attempt) : Prop :=
  match r.turn with
  | .admitted request => id = request.requestId ∧
    attempt = ⟨if r.active.isSome then .rejected else .upstreamError, none, none⟩
  | .answered request _ terminal => id = request.requestId ∧
    attempt = ⟨terminal.kind.finalStatus, none, terminalUsage terminal request.rates⟩
  | .unbooked request _ => id = request.requestId ∧ attempt = ⟨.upstreamError, none, none⟩
  | .ended _ | .requested => ∃ request, r.active = some request ∧ id = request.requestId ∧
    attempt.usage = none ∧
    (attempt.status = .canceled ∨ attempt.status = .upstreamError ∨ attempt.status = .internalError)
  | _ => False

/-- What may be sent to the client in a turn. -/
def Turn.Sends (isHttpDate : String → Bool) (item : Item) : Turn → Prop
  | refused => ∃ body, item = .error body
  | received frame => item = frame.item isHttpDate
  | control => ∃ payload, item = .ping payload ∨ item = .pong payload
  | ended _ | requested => ∃ frame, item = .close frame
  | _ => False

/-- What may be sent upstream in a turn, apart from requests. -/
def Turn.Relays (message : UpstreamMessage) : Turn → Prop
  | control => ∃ payload, message = .ping payload ∨ message = .pong payload
  | ended _ | requested => ∃ frame, message = .close frame
  | _ => False

/-- What a session may do. -/
def Relay.Allows (isHttpDate : String → Bool) (r : Relay) : Effect → Prop
  | .receive => r.turn = .idle
  | .now | .plan _ _ _ _ | .insert _ => r.turn = .requested
  | .finalize id attempt => r.Finalizes id attempt
  | .model _ | .sendCreate _ _ | .prewarmReply =>
    r.active = none ∧ ∃ request, r.turn = .admitted request
  | .send item => r.turn.Sends isHttpDate item
  | .sendUpstream message => r.turn.Relays message
  | .flush => r.turn.closing = true
  | _ => False

/-- The contract of a session: any reply may come, and a round starts when nothing is owed. -/
def relay (isHttpDate : String → Bool) :
    Program.Contract Effect Effect.Reply Loop Relay where
  pre r effect := r.Allows isHttpDate effect
  may _ _ _ := True
  after r effect reply := r.after effect reply
  entry
    | .connection _ active, r => r = ⟨active, .idle⟩
    | _, _ => False

variable {isHttpDate : String → Bool} {r : Relay} {active : Option InFlight} {effect : Effect}
  {request : InFlight}

/-- One effect of a session, whatever the reply. -/
theorem relay_await {α : Type} {f : effect.Reply → Code α} {Q : Relay → α → Prop}
    (hallows : r.Allows isHttpDate effect)
    (hf : ∀ reply, Safe (relay isHttpDate) Q (f reply) (r.after effect reply)) :
    Safe (relay isHttpDate) Q (await effect >>= f) r :=
  ⟨hallows, fun reply _ => hf reply⟩

/-! ### The end of a connection -/

/-- A connection that is to be finished. -/
structure Relay.Closing (r : Relay) (active : Option InFlight) : Prop where
  active : r.active = active
  closing : r.turn.closing = true

theorem Relay.Closing.sends {r : Relay} {active : Option InFlight} (hr : r.Closing active)
    (frame : Option CloseFrame) : r.turn.Sends isHttpDate (.close frame) := by
  obtain ⟨-, hclosing⟩ := hr
  cases hturn : r.turn with
  | ended | requested => exact ⟨frame, rfl⟩
  | _ =>
    rw [hturn] at hclosing
    cases hclosing

theorem Relay.Closing.relays {r : Relay} {active : Option InFlight} (hr : r.Closing active)
    (frame : Option CloseFrame) : r.turn.Relays (.close frame) := by
  obtain ⟨-, hclosing⟩ := hr
  cases hturn : r.turn with
  | ended | requested => exact ⟨frame, rfl⟩
  | _ =>
    rw [hturn] at hclosing
    cases hclosing

/-- Closing goes on whatever is sent. -/
theorem Relay.Closing.after_send {r : Relay} {active : Option InFlight} (hr : r.Closing active)
    (ok : Bool) :
    Relay.Closing { r with turn := if ok && !r.turn.closing then .idle else .ended r.turn.owed } active := by
  refine ⟨hr.active, ?_⟩
  rw [hr.closing]
  simp [Turn.closing]

theorem closeUpstream_relays (hr : r.Closing active) (frame : Option CloseFrame) :
    Safe (relay isHttpDate) (fun r _ => r.Closing active) (closeUpstream frame) r :=
  relay_await (hr.relays frame) fun ok => hr.after_send ok

theorem sendClose_relays (hr : r.Closing active) (frame : Option CloseFrame) :
    Safe (relay isHttpDate) (fun r _ => r.Closing active)
      (await (.send (.close frame)) >>= fun _ => pure ()) r :=
  relay_await (hr.sends frame) fun ok => hr.after_send ok

theorem finalizeActive_relays {status : FinalStatus} (hr : r.Closing active)
    (hstatus : status = .canceled ∨ status = .upstreamError ∨ status = .internalError) :
    Safe (relay isHttpDate) (fun r _ => r.Closing none) (finalizeActive active status) r := by
  obtain ⟨hactive, hclosing⟩ := hr
  cases active with
  | none => exact ⟨hactive, hclosing⟩
  | some request =>
    refine relay_await ?_ fun result => ?_
    · show r.Finalizes request.requestId ⟨status, none, none⟩
      unfold Relay.Finalizes
      cases hturn : r.turn with
      | ended | requested => exact ⟨request, hactive, rfl, rfl, hstatus⟩
      | _ =>
        rw [hturn] at hclosing
        cases hclosing
    · show (r.close result.isOk).Closing none
      unfold Relay.close
      cases hturn : r.turn with
      | ended | requested => exact ⟨rfl, rfl⟩
      | _ =>
        rw [hturn] at hclosing
        cases hclosing

theorem finishConnection_relays (hr : r.Closing active) (ending : ConnectionEnd) :
    Safe (relay isHttpDate) (fun _ _ => True) (finishConnection active ending) r := by
  cases ending with
  | shutdown | clientProtocolError =>
    refine (finalizeActive_relays hr (.inl rfl)).bind fun r _ hr => ?_
    refine (closeUpstream_relays hr _).bind fun r _ hr => ?_
    exact (sendClose_relays hr _).mono fun _ _ _ => trivial
  | clientDisconnect frame =>
    refine (finalizeActive_relays hr (.inl rfl)).bind fun r _ hr => ?_
    exact (closeUpstream_relays hr _).mono fun _ _ _ => trivial
  | upstreamFailure =>
    refine (finalizeActive_relays hr (.inr (.inl rfl))).bind fun r _ hr => ?_
    exact (sendClose_relays hr _).mono fun _ _ _ => trivial
  | upstreamClosed frame =>
    simp only [finishConnection]
    split
    · refine (finalizeActive_relays hr (.inr (.inl rfl))).bind fun r _ hr => ?_
      exact (sendClose_relays hr _).mono fun _ _ _ => trivial
    · exact (sendClose_relays hr _).mono fun _ _ _ => trivial
  | internalFailure =>
    refine (finalizeActive_relays hr (.inr (.inr rfl))).bind fun r _ hr => ?_
    refine (closeUpstream_relays hr _).bind fun r _ hr => ?_
    exact (sendClose_relays hr _).mono fun _ _ _ => trivial
  | accountingFailure =>
    refine (sendClose_relays hr _).bind fun r _ hr => ?_
    exact (closeUpstream_relays hr _).mono fun _ _ _ => trivial

/-! ### Requests -/

/-- What the handling of an event leads to. -/
def Relay.Goes (r : Relay) : Ending × Option InFlight → Prop
  | (none, active) => r = ⟨active, .idle⟩
  | (some _, active) => r.Closing active

/-- An item that a turn owes to the client. -/
theorem sendDownstream_relays {turn : Turn} {item : Item} (hopen : turn.closing = false)
    (hsends : turn.Sends isHttpDate item) :
    Safe (relay isHttpDate) (fun r ending => r.Goes (ending, active)) (sendDownstream item)
      ⟨active, turn⟩ := by
  refine relay_await hsends fun ok => ?_
  cases ok with
  | true =>
    show Relay.mk active _ = _
    simp [hopen]
  | false => exact ⟨rfl, rfl⟩

theorem relayUpstream_relays {message : UpstreamMessage} (hrelays : Turn.control.Relays message) :
    Safe (relay isHttpDate) (fun r ending => r.Goes (ending, active)) (relayUpstream message)
      ⟨active, .control⟩ := by
  refine relay_await hrelays fun ok => ?_
  cases ok with
  | true => exact rfl
  | false => exact ⟨rfl, rfl⟩

theorem sendError_relays (error : Value) :
    Safe (relay isHttpDate) (fun r ending => r.Goes (ending, active)) (sendError error)
      ⟨active, .refused⟩ :=
  sendDownstream_relays rfl ⟨error, rfl⟩

/-- What `record_rejection` or `begin_request` leaves to be done. -/
def Relay.Recorded (active : Option InFlight) (r : Relay) : Except StoreError Admission → Prop
  | .error _ => r.Closing active
  | .ok .weeklyQuotaExceeded => r = ⟨active, .refused⟩
  | .ok (.admitted requestId effectiveModel) =>
    r = ⟨active, .admitted ⟨requestId, effectiveModel.rates⟩⟩

theorem recordRejection_relays (context : RequestContext) (model : String)
    (reasoningEffort : Option String) (httpStatus : Option Nat) :
    Safe (relay isHttpDate)
      (fun r result => r.Recorded active (result.map fun _ => .weeklyQuotaExceeded))
      (recordRejection context model reasoningEffort httpStatus) ⟨active, .requested⟩ := by
  refine relay_await rfl fun now => ?_
  cases rejectionRow now context model reasoningEffort httpStatus with
  | error error => exact ⟨rfl, rfl⟩
  | ok row =>
    refine relay_await rfl fun result => ?_
    cases result with
    | error error => exact ⟨rfl, rfl⟩
    | ok id => exact rfl

theorem beginRequest_relays (context : RequestContext) (quota : QuotaLimits)
    (candidates : ModelCandidates) :
    Safe (relay isHttpDate) (Relay.Recorded active) (beginRequest context quota candidates)
      ⟨active, .requested⟩ := by
  refine relay_await rfl fun now => relay_await rfl fun planned => ?_
  cases planned with
  | error error => exact ⟨rfl, rfl⟩
  | ok insertion =>
    refine relay_await rfl fun result => ?_
    cases result with
    | error error => exact ⟨rfl, rfl⟩
    | ok id =>
      show Relay.Recorded active (Relay.after ⟨active, .requested⟩ (.insert insertion) (.ok id))
        (.ok (insertion.admission id))
      cases hadmitted : insertion.admitted <;>
        simp [Relay.after, Relay.Recorded, Insertion.admission, hadmitted]

theorem reject_relays (identity : ClientIdentity) (value error : Value) :
    Safe (relay isHttpDate) (fun r ending => r.Goes (ending, active))
      (reject identity value error) ⟨active, .requested⟩ := by
  refine (recordRejection_relays _ _ _ _).bind fun r result hrecorded => ?_
  cases result with
  | error error => exact hrecorded
  | ok =>
    obtain rfl : r = ⟨active, .refused⟩ := hrecorded
    exact sendError_relays error

theorem failCreate_relays (request : InFlight) :
    Safe (relay isHttpDate) Relay.Goes (failCreate request.requestId) ⟨none, .admitted request⟩ := by
  refine relay_await ⟨rfl, rfl⟩ fun result => ?_
  exact ⟨rfl, rfl⟩

theorem sendResponsesPrewarm_relays (prewarm : Object) :
    Safe (relay isHttpDate) (fun r _ => r = ⟨none, .admitted request⟩) (sendResponsesPrewarm prewarm)
      ⟨none, .admitted request⟩ := by
  refine relay_await ⟨rfl, request, rfl⟩ fun ok => ?_
  cases ok with
  | false => exact rfl
  | true => exact ⟨⟨rfl, request, rfl⟩, fun _ _ => rfl⟩

theorem prepareResponsesLite_relays (payload : Object) (model : Value) (requestKey : String) :
    Safe (relay isHttpDate) (fun r _ => r = ⟨none, .admitted request⟩)
      (prepareResponsesLite payload model requestKey) ⟨none, .admitted request⟩ := by
  unfold prepareResponsesLite
  cases responsesLitePrewarm payload model requestKey with
  | error error => exact rfl
  | ok prepared =>
    refine (sendResponsesPrewarm_relays prepared.2).bind fun r result hr => ?_
    subst hr
    cases result with
    | error error => exact rfl
    | ok responseId => exact rfl

theorem dispatchCreate_relays (requestId : RequestId) (effectiveModel : EffectiveModel)
    (payload : Object) :
    Safe (relay isHttpDate) Relay.Goes (dispatchCreate requestId effectiveModel payload)
      ⟨none, .admitted ⟨requestId, effectiveModel.rates⟩⟩ := by
  have hfail : Safe (relay isHttpDate) Relay.Goes (failCreate requestId)
      ⟨none, .admitted ⟨requestId, effectiveModel.rates⟩⟩ :=
    failCreate_relays ⟨requestId, effectiveModel.rates⟩
  refine relay_await ⟨rfl, _, rfl⟩ fun found => ?_
  cases liteModel found with
  | none => exact hfail
  | some model =>
    refine (prepareResponsesLite_relays payload model _).bind fun r result hr => ?_
    subst hr
    cases result with
    | error error => exact hfail
    | ok payload =>
      refine relay_await ⟨rfl, _, rfl⟩ fun ok => ?_
      cases ok with
      | true => exact rfl
      | false => exact hfail

theorem refuseCreate_relays (new : InFlight) :
    Safe (relay isHttpDate) (fun r ending => r.Goes (ending, some request))
      (refuseCreate new.requestId) ⟨some request, .admitted new⟩ := by
  refine relay_await ⟨rfl, rfl⟩ fun result => ?_
  cases result with
  | ok => exact sendError_relays _
  | error error => exact ⟨rfl, rfl⟩

theorem handleCreate_relays (config : Config) (identity : ClientIdentity) (active : Option InFlight)
    (frame : TextFrame) :
    Safe (relay isHttpDate) Relay.Goes (handleCreate config identity active frame)
      ⟨active, .requested⟩ := by
  have hrejected : ∀ value error, Safe (relay isHttpDate) Relay.Goes
      (reject identity value error >>= fun ending => pure (ending, active)) ⟨active, .requested⟩ :=
    fun value error => (reject_relays identity value error).bind fun _ _ h => h
  unfold handleCreate
  cases frame.event with
  | none => exact hrejected _ _
  | some value =>
    simp only
    cases prepareRequest config value with
    | error error => exact hrejected _ _
    | ok accepted =>
      refine (beginRequest_relays _ _ _).bind fun r result hrecorded => ?_
      cases result with
      | error error => exact hrecorded
      | ok admission =>
        cases admission with
        | weeklyQuotaExceeded =>
          obtain rfl : r = ⟨active, .refused⟩ := hrecorded
          exact (sendError_relays _).bind fun _ _ h => h
        | admitted requestId effectiveModel =>
          obtain rfl : r = ⟨active, .admitted ⟨requestId, effectiveModel.rates⟩⟩ := hrecorded
          cases active with
          | some request =>
            exact (refuseCreate_relays ⟨requestId, effectiveModel.rates⟩).bind fun _ _ h => h
          | none => exact dispatchCreate_relays requestId effectiveModel _

/-! ### Events -/

theorem handleDownstream_relays (config : Config) (identity : ClientIdentity)
    (active : Option InFlight) (message : DownstreamMessage) :
    Safe (relay isHttpDate) Relay.Goes (handleDownstream config identity active message)
      (Relay.hear ⟨active, .idle⟩ (.downstream message)) := by
  cases message with
  | text frame => exact handleCreate_relays config identity active frame
  | binary => exact ⟨rfl, rfl⟩
  | ping payload => exact (relayUpstream_relays ⟨payload, .inl rfl⟩).bind fun _ _ h => h
  | pong payload => exact (relayUpstream_relays ⟨payload, .inr rfl⟩).bind fun _ _ h => h
  | close frame => exact relay_await rfl fun _ => ⟨rfl, rfl⟩

theorem bookTerminal_relays (frame : TextFrame) (terminal : TerminalEvent) :
    Safe (relay isHttpDate)
      (fun r ok => if ok then r = ⟨none, .received frame⟩ else r = ⟨none, .ended (some frame)⟩)
      (bookTerminal request terminal) ⟨none, .answered request frame terminal⟩ := by
  refine relay_await ⟨rfl, rfl⟩ fun result => ?_
  cases result with
  | ok => exact rfl
  | error error => exact relay_await ⟨rfl, rfl⟩ fun _ => rfl

theorem handleUpstreamText_relays (active : Option InFlight) (frame : TextFrame) :
    Safe (relay isHttpDate) Relay.Goes (handleUpstreamText isHttpDate active frame)
      (Relay.hear ⟨active, .idle⟩ (.upstream (.text frame))) := by
  have hfailed : frame.cause = .failed .other →
      Relay.Goes (Relay.hear ⟨active, .idle⟩ (.upstream (.text frame)))
        (some .upstreamFailure, active) := by
    intro hcause
    simp only [Relay.hear, hcause]
    exact ⟨rfl, rfl⟩
  have hsends : (Turn.received frame).Sends isHttpDate (frame.item isHttpDate) := rfl
  unfold handleUpstreamText
  cases hevent : frame.event.filter fun event => (eventType event).isSome with
  | none => exact hfailed (by rw [TextFrame.cause, hevent])
  | some event =>
    simp only
    cases hparse : parseTerminalPayload event with
    | error error => exact hfailed (by rw [TextFrame.cause, hevent]; simp only [hparse])
    | ok parsed =>
      cases parsed with
      | none =>
        have hcause : frame.cause = .clear := by
          rw [TextFrame.cause, hevent]
          simp only [hparse]
        have hitem : frame.item isHttpDate = .frame (relayText isHttpDate frame.text none) none := by
          rw [TextFrame.item, hcause]
        simp only [Relay.hear, hcause]
        rw [← hitem]
        exact (sendDownstream_relays rfl hsends).bind fun _ _ h => h
      | some terminal =>
        have hcause : frame.cause = .terminal terminal := by
          rw [TextFrame.cause, hevent]
          simp only [hparse]
        have hitem : frame.item isHttpDate =
            .frame (relayText isHttpDate frame.text (some terminal)) (some terminal) := by
          rw [TextFrame.item, hcause]
        simp only [Relay.hear, hcause]
        rw [← hitem]
        cases active with
        | none => exact ⟨rfl, rfl⟩
        | some request =>
          refine (bookTerminal_relays frame terminal).bind fun r ok hbooked => ?_
          cases ok with
          | true =>
            obtain rfl : r = ⟨none, .received frame⟩ := hbooked
            exact (sendDownstream_relays rfl hsends).bind fun _ _ h => h
          | false =>
            obtain rfl : r = ⟨none, .ended (some frame)⟩ := hbooked
            exact ⟨rfl, rfl⟩

theorem handleEvent_relays (config : Config) (identity : ClientIdentity)
    (active : Option InFlight) (event : ConnectionEvent) :
    Safe (relay isHttpDate) Relay.Goes (handleEvent config isHttpDate identity active event)
      (Relay.hear ⟨active, .idle⟩ event) := by
  have hping : ∀ payload, Turn.control.Sends isHttpDate (.ping payload) :=
    fun payload => ⟨payload, .inl rfl⟩
  have hpong : ∀ payload, Turn.control.Sends isHttpDate (.pong payload) :=
    fun payload => ⟨payload, .inr rfl⟩
  cases event with
  | shutdown | clientGone | upstreamGone => exact ⟨rfl, rfl⟩
  | downstream message => exact handleDownstream_relays config identity active message
  | upstream message =>
    cases message with
    | text frame => exact handleUpstreamText_relays active frame
    | binary | frame => exact ⟨rfl, rfl⟩
    | ping payload => exact (sendDownstream_relays rfl (hping payload)).bind fun _ _ h => h
    | pong payload => exact (sendDownstream_relays rfl (hpong payload)).bind fun _ _ h => h
    | close frame => exact relay_await rfl fun _ => ⟨rfl, rfl⟩

/-- **A round of a WebSocket session** keeps to its turns, and owes nothing when the next one
starts. -/
theorem connection_relays (config : Config) (identity : ClientIdentity) (active : Option InFlight) :
    Safe (relay isHttpDate) (fun _ _ => True) (connection config isHttpDate identity active)
      ⟨active, .idle⟩ := by
  refine relay_await rfl fun event => ?_
  refine (handleEvent_relays config identity active event).bind fun r result hgoes => ?_
  obtain ⟨ending, active'⟩ := result
  cases ending with
  | none => exact hgoes
  | some ending => exact finishConnection_relays hgoes ending

end CodexApi.Delivery
