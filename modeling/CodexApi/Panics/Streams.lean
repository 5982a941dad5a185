import CodexApi.Chat.Billing
import CodexApi.Panics.Requests
import CodexApi.Session.Reconstruction

/-!
# Reading upstream events, with the panics

What is done with the events of the upstream, as the source writes it: with the unreachable
branches of `parse_usage` and `read_chat_terminal` and with the assignments by index, which panic on
a value that is no object. The type of an event, the checks of its response and the reads before a
write say that none of this happens, whatever the upstream sends; so the functions agree with those
without panics.
-/

namespace CodexApi

/-- `unreachable!`. -/
def unreachable (message : String) {α : Type} : Except Panic α :=
  .error ⟨"internal error: entered unreachable code: " ++ message⟩

namespace Checked

/-! ### Terminal events -/

/-- `parse_usage`. -/
def parseUsage (response : Value) (kind : TerminalKind) :
    Panicking ProtocolError (Option Usage) := do
  match (response.get "usage").filter (!·.isNull) with
  | none =>
    match kind with
    | .failed => return none
    | .completed | .incomplete =>
      throw (.invalidTerminalField kind.eventName "response.usage" "an object")
    | .error => evaluate (unreachable "error events do not contain response usage")
  | some usage =>
    let usage ← call (usageOfValue usage kind)
    return some usage

/-- `parse_terminal_payload`. -/
def parseTerminalPayload (payload : Value) : Panicking ProtocolError (Option TerminalEvent) := do
  match ((payload.get "type").bind Value.asStr).bind TerminalKind.fromName with
  | none => return none
  | some kind =>
    if kind = .error then return some ⟨kind, payload, none⟩
    let response ← call (okOr ((payload.get "response").filter (·.isObject))
      (.invalidTerminalField kind.eventName "response" "an object"))
    let expectedStatus ← evaluate (expect kind.responseStatus
      "only response terminal kinds reach status validation")
    let status ← call (okOr ((response.get "status").bind Value.asStr)
      (.invalidTerminalField kind.eventName "response.status" "a string"))
    call (failIf (status ≠ expectedStatus)
      (.terminalStatusMismatch kind.eventName status expectedStatus))
    let usage ← parseUsage response kind
    return some ⟨kind, payload, usage⟩

/-- Only the events that have a response have a usage. -/
theorem parseUsage_returns {response : Value} {kind : TerminalKind} (h : kind ≠ .error) :
    Returns (parseUsage response kind) (CodexApi.parseUsage response kind) := by
  unfold parseUsage CodexApi.parseUsage
  cases (response.get "usage").filter (!·.isNull) with
  | none =>
    cases kind with
    | completed => exact .throw _
    | incomplete => exact .throw _
    | failed => exact .pure none
    | error => exact absurd rfl h
  | some usage =>
    cases hvalue : usageOfValue usage kind with
    | error error => simp only [hvalue]; rfl
    | ok value => simp only [hvalue]; rfl

/-- Every kind but `error` has a status. -/
theorem responseStatus_of_ne {kind : TerminalKind} (h : kind ≠ .error) :
    ∃ status, kind.responseStatus = some status := by
  cases kind with
  | completed => exact ⟨_, rfl⟩
  | incomplete => exact ⟨_, rfl⟩
  | failed => exact ⟨_, rfl⟩
  | error => exact absurd rfl h

/-- **Parsing an event does not panic.** -/
theorem parseTerminalPayload_returns (payload : Value) :
    Returns (parseTerminalPayload payload) (CodexApi.parseTerminalPayload payload) := by
  unfold parseTerminalPayload CodexApi.parseTerminalPayload
  cases ((payload.get "type").bind Value.asStr).bind TerminalKind.fromName with
  | none => exact .pure none
  | some kind =>
    by_cases hkind : kind = .error
    · subst hkind
      exact .pure _
    · obtain ⟨expectedStatus, hstatus⟩ := responseStatus_of_ne hkind
      simp only [hkind, if_false, hstatus]
      cases hresponse : (payload.get "response").filter (·.isObject) with
      | none => rfl
      | some response =>
        refine .bind_ok (.call _) (.bind_ok (.evaluate rfl) ?_)
        cases hread : (response.get "status").bind Value.asStr with
        | none =>
          simp only [hread]
          rfl
        | some status =>
          simp only [hread]
          refine .bind_ok (.call _) ?_
          by_cases hsame : status = expectedStatus
          · simp only [hsame, ne_eq, not_true_eq_false, if_false, failIf]
            exact .bind_ok (.call _)
              (.bind (parseUsage_returns hkind) fun usage _ => .pure _)
          · simp only [ne_eq, hsame, not_false_eq_true, if_true, failIf]
            rfl

/-- `validate_event`. -/
def validateEvent (record : SseRecord) : Panicking ProtocolError (Option TerminalEvent) := do
  let eventKind := TerminalKind.fromName record.event
  match record.data with
  | none =>
    if eventKind.isNone then return none else throw (.invalidTerminalJson record.event)
  | some payload =>
    let terminal ← parseTerminalPayload payload
    match eventKind, terminal with
    | none, terminal => return terminal
    | some eventKind, some terminal =>
      if eventKind ≠ terminal.kind then
        throw (.terminalTypeMismatch eventKind.eventName terminal.kind.eventName)
      return some terminal
    | some eventKind, none =>
      throw (.invalidTerminalField eventKind.eventName "type" eventKind.eventName)

/-- **Validating a record does not panic.** -/
theorem validateEvent_returns (record : SseRecord) :
    Returns (validateEvent record) (CodexApi.validateEvent record) := by
  unfold validateEvent CodexApi.validateEvent
  cases hdata : record.data with
  | none =>
    simp only
    split
    · exact .pure none
    · exact .throw _
  | some payload =>
    refine .bind (parseTerminalPayload_returns payload) fun terminal _ => ?_
    cases TerminalKind.fromName record.event with
    | none => exact .pure terminal
    | some eventKind =>
      cases terminal with
      | none => exact .throw _
      | some terminal =>
        simp only
        split
        · rfl
        · rfl

/-! ### Capacity failures -/

variable (isHttpDate : String → Bool)

/-- `retryable_capacity_payload`. -/
def retryableCapacityPayload (terminal : TerminalEvent) : Except Panic (Option Value) := do
  match terminal.upstreamError with
  | none => return none
  | some error =>
    if (error.index "code").asStr ≠ some "server_is_overloaded" ∧
        (error.index "code").asStr ≠ some "slow_down" then
      return none
    let advice := retryAfter isHttpDate [error.index "headers", terminal.payload.index "headers"]
    let headers := ((error.index "headers").asObject.getD []).filter (!isRetryAfter ·.1)
    let error ← error.assign (.object (Assoc.insert "Retry-After" advice headers)) ["headers"]
    if terminal.kind = .error then
      match terminal.payload.asObject with
      | none => return none
      | some _ =>
        let payload := terminal.payload.removeField "error"
        let payload ← payload.assign (.string "response.failed") ["type"]
        let payload ← payload.assign (json [("status", .string "failed"), ("error", error)])
          ["response"]
        return some payload
    else
      let payload ← terminal.payload.assign error ["response", "error"]
      return some payload

/-- An error that was found is an object, and so are the values around it. -/
theorem objects_of_upstreamError {terminal : TerminalEvent} {error : Value}
    (h : terminal.upstreamError = some error) :
    error.isObject = true ∧ terminal.payload.isObject = true ∧
      (terminal.kind ≠ .error →
        ∃ response, terminal.payload.get "response" = some response ∧ response.isObject = true) := by
  unfold TerminalEvent.upstreamError at h
  obtain ⟨hfound, hobject⟩ := Option.filter_eq_some_iff.mp h
  refine ⟨hobject, ?_⟩
  cases hkind : terminal.kind with
  | completed =>
    rw [hkind] at hfound
    cases hfound
  | incomplete =>
    rw [hkind] at hfound
    cases hfound
  | error =>
    rw [hkind] at hfound
    exact ⟨Value.isObject_of_get hfound, fun hne => absurd rfl hne⟩
  | failed =>
    rw [hkind] at hfound
    obtain ⟨response, hresponse, hinner⟩ := Option.bind_eq_some_iff.mp hfound
    obtain ⟨error', herror, -⟩ := Option.bind_eq_some_iff.mp hinner
    exact ⟨Value.isObject_of_get hresponse,
      fun _ => ⟨response, hresponse, Value.isObject_of_get herror⟩⟩

/-- **Rewriting a capacity failure does not panic.** -/
theorem retryableCapacityPayload_eq (terminal : TerminalEvent) :
    retryableCapacityPayload isHttpDate terminal =
      .ok (terminal.retryableCapacityPayload isHttpDate) := by
  unfold retryableCapacityPayload TerminalEvent.retryableCapacityPayload
  cases herror : terminal.upstreamError with
  | none => rfl
  | some error =>
    obtain ⟨hobject, hpayload, hresponse⟩ := objects_of_upstreamError herror
    simp only [Value.assign_field hobject]
    split
    · rfl
    · by_cases hkind : terminal.kind = .error
      · obtain ⟨fields, hfields⟩ := Option.isSome_iff_exists.mp hpayload
        simp only [hkind, if_true, hfields, ok_bind]
        rw [Value.assign_field (by simp [hpayload]), ok_bind,
          Value.assign_field (by simp [hpayload]), ok_bind]
        rfl
      · obtain ⟨response, hread, hinner⟩ := hresponse hkind
        simp only [hkind, if_false, ok_bind]
        rw [Value.assign_inner hread hinner, Value.index_of_get hread, ok_bind]
        rfl

/-! ### A single Chat answer -/

/-- The output of a terminal event in `read_chat_terminal`. -/
def withOutputItems (terminal : TerminalEvent) (items : List Value) : Except Panic TerminalEvent :=
  if terminal.payload.pointer ["response", "output"] = some (.array []) ∧ items ≠ [] then
    (terminal.payload.assign (.array items) ["response", "output"]).map
      fun payload => { terminal with payload }
  else .ok terminal

/-- An output can be written where one was read. -/
theorem withOutputItems_eq (terminal : TerminalEvent) (items : List Value) :
    withOutputItems terminal items = .ok (terminal.withOutputItems items) := by
  unfold withOutputItems TerminalEvent.withOutputItems
  split
  · next hread =>
    obtain ⟨response, hresponse, hinner⟩ := Option.bind_eq_some_iff.mp hread.1
    obtain ⟨output, houtput, -⟩ := Option.bind_eq_some_iff.mp hinner
    rw [Value.assign_inner hresponse (Value.isObject_of_get houtput),
      Value.index_of_get hresponse]
    rfl
  · rfl

/-- Whatever is wrong with a terminal event is the upstream's fault. -/
abbrev FaultsUpstream {α : Type} (x : Except ChatError α) : Prop :=
  FailsWith (·.kind = .upstreamProtocol) x

theorem upstreamString_faults (object : Value) (field context : String) :
    FaultsUpstream (upstreamString object field context) := by
  unfold upstreamString
  split
  · exact .ok _
  · exact .error rfl

theorem upstreamInteger_faults (object : Value) (field context : String) :
    FaultsUpstream (upstreamInteger object field context) := by
  unfold upstreamInteger
  split
  · exact .ok _
  · exact .error rfl

theorem incompleteFinishReason_faults (response : Value) :
    FaultsUpstream (incompleteFinishReason response) := by
  refine FailsWith.bind (.okOr rfl) fun details => ?_
  refine FailsWith.bind (upstreamString_faults _ _ _) fun reason => ?_
  split_ifs
  · exact .ok _
  · exact .ok _
  · exact .error rfl

theorem convertOutputPart_faults (itemIndex contentIndex : Nat) (part : Value)
    (converted : ConvertedOutput) :
    FaultsUpstream (convertOutputPart itemIndex contentIndex part converted) := by
  refine FailsWith.bind (.failIf rfl) fun _ => ?_
  refine FailsWith.bind (upstreamString_faults _ _ _) fun kind => ?_
  split_ifs
  · exact FailsWith.bind (upstreamString_faults _ _ _) fun _ => .ok _
  · exact FailsWith.bind (upstreamString_faults _ _ _) fun _ => .ok _
  · exact .error rfl

theorem convertOutputParts_faults (itemIndex : Nat) (parts : List Value) :
    ∀ contentIndex converted,
      FaultsUpstream (convertOutputParts itemIndex contentIndex parts converted) := by
  induction parts with
  | nil => exact fun _ _ => .ok _
  | cons part parts ih =>
    exact fun contentIndex converted =>
      FailsWith.bind (convertOutputPart_faults itemIndex contentIndex part converted)
        fun converted => ih _ converted

theorem convertOutputItem_faults (index : Nat) (item : Value) (converted : ConvertedOutput) :
    FaultsUpstream (convertOutputItem index item converted) := by
  refine FailsWith.bind (.failIf rfl) fun _ => ?_
  refine FailsWith.bind (upstreamString_faults _ _ _) fun kind => ?_
  split_ifs
  · exact .ok _
  · exact FailsWith.bind (upstreamString_faults _ _ _) fun _ => FailsWith.bind (.failIf rfl)
      fun _ => FailsWith.bind (.okOr rfl) fun content => convertOutputParts_faults index content 0 _
  · exact FailsWith.bind (upstreamString_faults _ _ _) fun _ =>
      FailsWith.bind (upstreamString_faults _ _ _) fun _ =>
        FailsWith.bind (upstreamString_faults _ _ _) fun _ => .ok _
  · exact .error rfl

theorem convertOutputItems_faults (items : List Value) :
    ∀ index converted, FaultsUpstream (convertOutputItems index items converted) := by
  induction items with
  | nil => exact fun _ _ => .ok _
  | cons item items ih =>
    exact fun index converted =>
      FailsWith.bind (convertOutputItem_faults index item converted) fun converted => ih _ converted

/-- **A terminal conversion cannot be a request error.** -/
theorem convertTerminalEvent_faults (terminal : TerminalEvent) :
    FaultsUpstream (convertTerminalEvent terminal) := by
  refine FailsWith.bind ?_ fun status => ?_
  · cases terminal.kind with
    | completed => exact .ok _
    | incomplete => exact .ok _
    | failed => exact .error rfl
    | error => exact .error rfl
  refine FailsWith.bind (.failIf rfl) fun _ => FailsWith.bind (.okOr rfl) fun response => ?_
  refine FailsWith.bind (upstreamString_faults _ _ _) fun object => ?_
  refine FailsWith.bind (.failIf rfl) fun _ => ?_
  refine FailsWith.bind (upstreamString_faults _ _ _) fun id => ?_
  refine FailsWith.bind (.failIf rfl) fun _ => ?_
  refine FailsWith.bind (upstreamString_faults _ _ _) fun model => ?_
  refine FailsWith.bind (.failIf rfl) fun _ => ?_
  refine FailsWith.bind (upstreamInteger_faults _ _ _) fun created => ?_
  refine FailsWith.bind (.okOr rfl) fun usage => FailsWith.bind (.okOr rfl) fun output => ?_
  refine FailsWith.bind (convertOutputItems_faults output 0 _) fun converted => ?_
  refine FailsWith.bind ?_ fun finishReason => .ok _
  cases status with
  | completed => exact .ok _
  | incomplete => exact incompleteFinishReason_faults response

/-- The conversion in `read_chat_terminal`. -/
def convertTerminal (terminal : TerminalEvent) : Except Panic (Option ConvertedTerminal) :=
  match convertTerminalEvent terminal with
  | .ok converted => .ok (some converted)
  | .error error =>
    if error.kind = .upstreamProtocol then .ok none
    else unreachable "terminal conversion cannot be a request error"

theorem convertTerminal_eq (terminal : TerminalEvent) :
    convertTerminal terminal = .ok (convertTerminalEvent terminal).toOption := by
  unfold convertTerminal
  cases hconvert : convertTerminalEvent terminal with
  | ok converted => rfl
  | error error =>
    simp only [convertTerminalEvent_faults terminal error hconvert, if_true]
    rfl

/-- `read_chat_terminal`, with the items completed so far. -/
def readChatTerminal (items : List Value) : List SseRecord →
    Except Panic (Option ConvertedTerminal)
  | [] => .ok none
  | record :: records => do
    match ← (validateEvent record).run with
    | .error _ => return none
    | .ok terminal =>
      if terminal.isNone then
        readChatTerminal (items ++ (completedOutputItem record).toList) records
      else
        let terminal ← expect terminal "checked above"
        if terminal.upstreamError.isSome then return none
        let terminal ← withOutputItems terminal items
        convertTerminal terminal

/-- **Reading a Chat answer does not panic.** -/
theorem readChatTerminal_eq (items : List Value) (records : List SseRecord) :
    readChatTerminal items records = .ok (CodexApi.readChatTerminal items records) := by
  induction records generalizing items with
  | nil => rfl
  | cons record records ih =>
    rw [readChatTerminal, CodexApi.readChatTerminal, validateEvent_returns record, ok_bind]
    cases CodexApi.validateEvent record with
    | error error => rfl
    | ok terminal =>
      cases terminal with
      | none => exact ih _
      | some terminal =>
        simp only [Option.isNone_some, Bool.false_eq_true, if_false, expect, ok_bind]
        split
        · rfl
        · rw [withOutputItems_eq, ok_bind, convertTerminal_eq]

/-- The chunks of `forward_chat_stream`. -/
def forwardChatStream (converter : ChatStreamConverter) : List SseRecord →
    Except Panic (Option (List Value))
  | [] => .ok none
  | record :: records => do
    match ← (validateEvent record).run with
    | .error _ => return none
    | .ok (some terminal) =>
      if terminal.upstreamError.isSome then return none
      else return (converter.convertTerminal terminal).toOption.map ConvertedStreamTerminal.chunks
    | .ok none =>
      match record.data with
      | none => forwardChatStream converter records
      | some value =>
        match converter.convertEvent value with
        | .error _ => return none
        | .ok (converter, chunk) =>
          let chunks ← forwardChatStream converter records
          return chunks.map (chunk.toList ++ ·)

/-- **Streaming a Chat answer does not panic.** -/
theorem forwardChatStream_eq (converter : ChatStreamConverter) (records : List SseRecord) :
    forwardChatStream converter records = .ok (CodexApi.forwardChatStream converter records) := by
  induction records generalizing converter with
  | nil => rfl
  | cons record records ih =>
    rw [forwardChatStream, CodexApi.forwardChatStream, validateEvent_returns record, ok_bind]
    cases CodexApi.validateEvent record with
    | error error => rfl
    | ok terminal =>
      cases terminal with
      | some terminal =>
        simp only
        split
        · rfl
        · rfl
      | none =>
        cases record.data with
        | none => exact ih converter
        | some value =>
          simp only
          cases converter.convertEvent value with
          | error error => rfl
          | ok result =>
            obtain ⟨converter, chunk⟩ := result
            simp only [ih, ok_bind]
            rfl

/-! ### Frames -/

/-- The output of a terminal event in `forward_websocket_responses_stream`. -/
def withSnapshotItems (terminal : TerminalEvent) (items : List Value) :
    Except Panic TerminalEvent :=
  let output := terminal.payload.pointer ["response", "output"]
  if terminal.kind = .completed ∧ items ≠ [] ∧
      (output = none ∨ output = some .null ∨ output = some (.array [])) then
    (terminal.payload.assign (.array items) ["response", "output"]).map
      fun payload => { terminal with payload }
  else .ok terminal

/-- A completed event has a response, with or without an output. -/
theorem withSnapshotItems_eq {payload : Value} {terminal : TerminalEvent}
    (h : CodexApi.parseTerminalPayload payload = .ok (some terminal)) (items : List Value) :
    withSnapshotItems terminal items = .ok (terminal.withSnapshotItems items) := by
  unfold withSnapshotItems TerminalEvent.withSnapshotItems
  simp only
  split
  · next hread =>
    have hcarries := carries_of_parse h
    obtain ⟨response, hresponse, hobject⟩ :
        ∃ response, terminal.payload.get "response" = some response ∧
          response.isObject = true := by
      obtain ⟨response, hget, hobject, -⟩ := hcarries.response "completed" (by rw [hread.1]; rfl)
      exact ⟨response, hget, hobject⟩
    rw [Value.assign_inner hresponse hobject, Value.index_of_get hresponse]
    rfl
  · rfl

/-- `forward_websocket_responses_stream`, with the items completed so far: the terminal event it
returns, and what the client gets in its place if it is a capacity failure. -/
def forwardWebSocketStream (items : List Value) : List UpstreamEvent →
    Except Panic (Option (TerminalEvent × Option Value))
  | [] => .ok none
  | .text frame :: rest =>
    match frame.bind fun event => (eventType event).map (event, ·) with
    | none => .ok none
    | some (event, eventName) => do
      let items := items ++ (completedObjectItem event eventName).toList
      match ← (parseTerminalPayload event).run with
      | .error _ => return none
      | .ok none => forwardWebSocketStream items rest
      | .ok (some terminal) =>
        let rewritten ← retryableCapacityPayload isHttpDate terminal
        let terminal ← withSnapshotItems terminal items
        return some (terminal, rewritten)
  | .ping (some true) :: rest => forwardWebSocketStream items rest
  | .pong :: rest => forwardWebSocketStream items rest
  | _ :: _ => .ok none

/-- Only completed events get an output, and they are no capacity failures. -/
theorem retryableCapacityPayload_withSnapshotItems (terminal : TerminalEvent) (items : List Value) :
    (terminal.withSnapshotItems items).retryableCapacityPayload isHttpDate =
      terminal.retryableCapacityPayload isHttpDate := by
  unfold TerminalEvent.withSnapshotItems
  simp only
  split
  · next hcompleted =>
    simp [TerminalEvent.retryableCapacityPayload, TerminalEvent.upstreamError, hcompleted.1]
  · rfl

/-- **Relaying the frames of a turn does not panic.** -/
theorem forwardWebSocketStream_eq (items : List Value) (events : List UpstreamEvent) :
    forwardWebSocketStream isHttpDate items events =
      .ok ((CodexApi.forwardWebSocketStream items events).map fun terminal =>
        (terminal, terminal.retryableCapacityPayload isHttpDate)) := by
  induction events generalizing items with
  | nil => rfl
  | cons event rest ih =>
    cases event with
    | text frame =>
      rw [forwardWebSocketStream, CodexApi.forwardWebSocketStream]
      cases frame.bind fun event => (eventType event).map (event, ·) with
      | none => rfl
      | some named =>
        obtain ⟨event, eventName⟩ := named
        simp only
        rw [parseTerminalPayload_returns event, ok_bind]
        cases hparse : CodexApi.parseTerminalPayload event with
        | error error => rfl
        | ok terminal =>
          cases terminal with
          | none => exact ih _
          | some terminal =>
            simp only [retryableCapacityPayload_eq, withSnapshotItems_eq hparse, ok_bind,
              Option.map_some, retryableCapacityPayload_withSnapshotItems]
            rfl
    | ping pong =>
      cases pong with
      | none => rfl
      | some sent =>
        cases sent with
        | false => rfl
        | true => exact ih items
    | pong => exact ih items
    | _ => rfl

end Checked

end CodexApi
