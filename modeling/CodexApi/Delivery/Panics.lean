import CodexApi.Delivery.LedgerClosure
import CodexApi.Panics.Turns

/-!
# Request handling does not panic

The three paths of a text request, put together from the functions with panics: from the bytes of
the body to the last event of the upstream. The clock, the ledger, the session and everything that
the upstream does are arbitrary. The `PendingRequest` of an operation is not part of these
computations: that it is only used while it is open is an invariant of all interleavings, in which a
handler may be dropped wherever it waits (`System.Sound.pendingCall`).
-/

namespace CodexApi

/-! ### The paths -/

namespace Checked

/-- What admission depends on besides the request. -/
structure Admitting where
  now : OffsetDateTime
  ledger : Ledger
  context : RequestContext
  quota : QuotaLimits

section

variable (config : Config) (isHttpDate : String → Bool) (floats : FloatText)

/-- A text that is parsed, accepted and admitted, up to the body for the upstream. -/
def receive (path : ApiPath) (admitting : Admitting) (text : List Char) :
    Except Panic (Option Value) :=
  match JsonText.fromStr floats text with
  | none => .ok none
  | some request =>
    dispatch config path admitting.now admitting.ledger admitting.context admitting.quota request

/-- `responses`, with the turn in its session. -/
def responses (admitting : Admitting) (text : List Char) (session : Session) (model : Value)
    (headers : HeaderMap) (replies : PrepareReplies) (events : List UpstreamEvent) :
    Except Panic (Option (TerminalEvent × Option Value)) := do
  match ← receive config floats .responses admitting text with
  | none => return none
  | some body => respond isHttpDate session body model headers replies events

/-- What `chat_completions` makes of the answer of the upstream: chunks or a completion. -/
inductive ChatResult
  | chunks (chunks : Option (List Value))
  | completion (completion : Option ConvertedTerminal)

/-- `chat_completions`. Which of the two answers the client has asked for is left open. -/
def chatCompletions (admitting : Admitting) (text : List Char) (stream includeUsage : Bool)
    (records : List SseRecord) : Except Panic (Option ChatResult) := do
  match ← receive config floats .chatCompletions admitting text with
  | none => return none
  | some _ =>
    if stream then
      return some (.chunks (← forwardChatStream (.new includeUsage) records))
    else return some (.completion (← readChatTerminal [] records))

/-- `handle_upstream_text`, up to what the client gets. -/
def handleUpstreamText (frame : Delivery.TextFrame) : Except Panic (Option Delivery.Text) :=
  match frame.event.filter fun event => (eventType event).isSome with
  | none => .ok none
  | some event => do
    match ← (parseTerminalPayload event).run with
    | .error _ => return none
    | .ok none => return some (.raw frame.text)
    | .ok (some terminal) =>
      match ← retryableCapacityPayload isHttpDate terminal with
      | some payload => return some (.printed payload)
      | none => return some (.raw frame.text)

/-- `handle_create`, and the frames of the upstream around it. -/
def webSocket (admitting : Admitting) (text : List Char) (model : Value) (requestKey : String)
    (answered : Except UpstreamWebSocketError String) (frames : List Delivery.TextFrame) :
    Except Panic (Option Value × List (Option Delivery.Text)) := do
  let payload ← match ← receive config floats .webSocket admitting text with
    | none => pure none
    | some body => (prepareResponsesLite body model requestKey answered).run.map Except.toOption
  let relayed ← frames.mapM (handleUpstreamText isHttpDate)
  return (payload, relayed)

variable {config}

/-- A received body is an object. -/
theorem receive_eq (hconfig : config.validate = .ok ()) (path : ApiPath) (admitting : Admitting)
    (text : List Char) : ∃ body : Option Object,
      receive config floats path admitting text = .ok (body.map Object.toValue) := by
  unfold receive
  split
  · exact ⟨none, rfl⟩
  · next request hrequest =>
    exact ⟨_, dispatch_eq hconfig path _ _ _ _ (JsonText.keyed_fromStr hrequest)⟩

/-- What the client gets for a frame is the frame or its rewritten form. -/
theorem handleUpstreamText_eq (frame : Delivery.TextFrame) :
    ∃ text, handleUpstreamText isHttpDate frame = .ok text ∧
      ∀ relayed ∈ text, ∃ terminal, relayed = Delivery.relayText isHttpDate frame.text terminal := by
  unfold handleUpstreamText
  split
  · exact ⟨none, rfl, fun _ h => by cases h⟩
  · next event _ =>
    rw [parseTerminalPayload_returns event, ok_bind]
    cases CodexApi.parseTerminalPayload event with
    | error error => exact ⟨none, rfl, fun _ h => by cases h⟩
    | ok terminal =>
      cases terminal with
      | none => exact ⟨some (.raw frame.text), rfl, fun _ h => ⟨none, by cases h; rfl⟩⟩
      | some terminal =>
        refine ⟨some (Delivery.relayText isHttpDate frame.text (some terminal)), ?_,
          fun _ h => ⟨some terminal, by cases h; rfl⟩⟩
        simp only [retryableCapacityPayload_eq, ok_bind, Delivery.relayText, Option.bind_some]
        cases terminal.retryableCapacityPayload isHttpDate <;> rfl

theorem mapM_handleUpstreamText (frames : List Delivery.TextFrame) :
    ∃ relayed, frames.mapM (handleUpstreamText isHttpDate) = .ok relayed := by
  induction frames with
  | nil => exact ⟨[], rfl⟩
  | cons frame frames ih =>
    obtain ⟨text, htext, -⟩ := handleUpstreamText_eq isHttpDate frame
    obtain ⟨relayed, hrelayed⟩ := ih
    refine ⟨text :: relayed, ?_⟩
    rw [List.mapM_cons, htext, ok_bind, hrelayed]
    rfl

theorem responses_ok (hconfig : config.validate = .ok ()) (admitting : Admitting)
    (text : List Char) (session : Session) (model : Value) (headers : HeaderMap)
    (replies : PrepareReplies) (events : List UpstreamEvent) :
    ∃ ending, responses config isHttpDate floats admitting text session model headers replies
      events = .ok ending := by
  obtain ⟨body, hbody⟩ := receive_eq floats hconfig .responses admitting text
  unfold responses
  rw [hbody, ok_bind]
  cases body with
  | none => exact ⟨none, rfl⟩
  | some body => exact respond_eq isHttpDate session body model headers replies events

theorem chatCompletions_ok (hconfig : config.validate = .ok ()) (admitting : Admitting)
    (text : List Char) (stream includeUsage : Bool) (records : List SseRecord) :
    ∃ result, chatCompletions config floats admitting text stream includeUsage records =
      .ok result := by
  obtain ⟨body, hbody⟩ := receive_eq floats hconfig .chatCompletions admitting text
  unfold chatCompletions
  rw [hbody, ok_bind]
  cases body with
  | none => exact ⟨none, rfl⟩
  | some body =>
    cases stream with
    | true =>
      simp only [Option.map_some, if_true, forwardChatStream_eq, ok_bind]
      exact ⟨_, rfl⟩
    | false =>
      simp only [Option.map_some, Bool.false_eq_true, if_false, readChatTerminal_eq, ok_bind]
      exact ⟨_, rfl⟩

theorem webSocket_ok (hconfig : config.validate = .ok ()) (admitting : Admitting)
    (text : List Char) (model : Value) (requestKey : String)
    (answered : Except UpstreamWebSocketError String) (frames : List Delivery.TextFrame) :
    ∃ result, webSocket config isHttpDate floats admitting text model requestKey answered frames =
      .ok result := by
  obtain ⟨body, hbody⟩ := receive_eq floats hconfig .webSocket admitting text
  obtain ⟨relayed, hrelayed⟩ := mapM_handleUpstreamText isHttpDate frames
  unfold webSocket
  rw [hbody, ok_bind]
  cases body with
  | none =>
    refine ⟨(none, relayed), ?_⟩
    simp only [Option.map_none, hrelayed]
    rfl
  | some body =>
    obtain ⟨result, hresult⟩ :
        ∃ result, (prepareResponsesLite body.toValue model requestKey answered).run = .ok result :=
      ⟨_, prepareResponsesLite_returns body model requestKey answered⟩
    refine ⟨(result.toOption, relayed), ?_⟩
    simp only [Option.map_some, hrelayed, hresult]
    rfl

end

end Checked

/-! ### The pending request -/

namespace Delivery

/-- `open_mut`. -/
def Custody.openMut : Custody → Except Panic RequestId
  | guarded id _ => .ok id
  | _ => .error ⟨"a finalized request is no longer open"⟩

/-- `take_open`. -/
def Custody.takeOpen : Custody → Except Panic RequestId
  | guarded id _ => .ok id
  | _ => .error ⟨"a pending request can only be finalized once"⟩

/-- What the next effect of a part does with its `PendingRequest`, if it is one that may panic. -/
def Part.pendingCall (part : Part) : Except Panic (Option RequestId) :=
  match part.code with
  | some (.op (.responseStarted _) _) => part.custody.openMut.map some
  | some (.op (.spawnFinalizer _) _) => part.custody.takeOpen.map some
  | _ => .ok none

/-- The code of a part has its request in its hands when it uses it. -/
theorem Part.Sound.pendingCall {sh : Shared} {index : Nat} {part : Part}
    (hs : part.Sound sh index) : ∃ id, part.pendingCall = .ok id := by
  have guarded (hcode : part.code.isSome = true) {row : Admitted} {started : Option Nat}
      (hpending : (viewOf part.trace).pending = .opened row started) :
      part.custody = .guarded row.id started := by
    have htracks := hs.tracks.pending hcode
    rw [PendingIn, hpending] at htracks
    exact htracks
  unfold Part.pendingCall
  split
  · next httpStatus next hcode =>
    obtain ⟨⟨⟨-, -, row, started, hpending⟩, -⟩, -⟩ := hs.respects _ hcode
    rw [guarded (by rw [hcode]; rfl) hpending]
    exact ⟨_, rfl⟩
  · next attempts next hcode =>
    obtain ⟨⟨⟨row, started, hpending, -⟩, -⟩, -⟩ := hs.respects _ hcode
    rw [guarded (by rw [hcode]; rfl) hpending]
    exact ⟨_, rfl⟩
  · exact ⟨none, rfl⟩

end Delivery

/-! ### All of it -/

/-- **No panic.** What is promised of a configuration: whatever is received, whatever the state of
the ledger and of the session is, and whatever the upstream does, the three paths come to a result;
and in every interleaving of them a `PendingRequest` is used only while it is open. -/
structure NeverPanics (config : Config) (isHttpDate : String → Bool) (floats : FloatText) :
    Prop where
  responses : ∀ admitting text session model headers replies events, ∃ ending,
    Checked.responses config isHttpDate floats admitting text session model headers replies
      events = .ok ending
  chatCompletions : ∀ admitting text stream includeUsage records, ∃ result,
    Checked.chatCompletions config floats admitting text stream includeUsage records = .ok result
  webSocket : ∀ admitting text model requestKey answered frames, ∃ result,
    Checked.webSocket config isHttpDate floats admitting text model requestKey answered frames =
      .ok result
  pending : ∀ actions s, Delivery.SystemRun config isHttpDate .init actions s →
    ∀ part ∈ s.parts, ∃ id, part.pendingCall = .ok id

/-- **Request handling does not panic** under a configuration that was validated. -/
theorem never_panics {config : Config} (hconfig : config.validate = .ok ())
    (isHttpDate : String → Bool) (floats : FloatText) :
    NeverPanics config isHttpDate floats where
  responses := Checked.responses_ok isHttpDate floats hconfig
  chatCompletions := Checked.chatCompletions_ok floats hconfig
  webSocket := Checked.webSocket_ok isHttpDate floats hconfig
  pending := by
    intro actions s hrun part hpart
    obtain ⟨index, hindex⟩ := List.getElem?_of_mem hpart
    exact ((Delivery.System.sound_of_run hrun).parts index part hindex).pendingCall

/-- The relay with one capped model does not panic. -/
theorem never_panics_low : NeverPanics lowConfig (fun _ => false) noFloats :=
  never_panics validate_lowConfig (fun _ => false) noFloats

-- A fallback without prices, which `validate` refuses, would panic.
example : Checked.modelCandidates { lowConfig with fallbackModel := some "absent" } "gpt" none =
    .error ⟨"configured fallback model must have prices"⟩ := by decide

end CodexApi
