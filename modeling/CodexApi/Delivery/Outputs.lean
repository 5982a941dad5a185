import CodexApi.Delivery.Handlers

/-!
# What the client of an HTTP operation is to get

The answer of an HTTP operation as a function of what its upstream says: a Responses stream relays
each frame, a Chat stream converts each record, and a single Chat answer is made of the terminal event
and the items completed before. `Mode` is what has to be remembered between two messages. For Chat,
these are the conversions of whole streams, `forwardChatStream` and `readChatTerminal`, taken apart
into steps (`endsWith_of_done`, `completion_of_mem`).
-/

namespace CodexApi.Delivery

/-- What the upstream of an HTTP operation says. -/
inductive Said
  | frame (frame : TextFrame)
  | record (record : SseRecord)

/-- What the client of an HTTP operation gets, errors of the process itself apart. -/
inductive Output
  | item (item : Item)
  | completion (terminal : TerminalEvent) (body : Value)
deriving DecidableEq

/-- How an answer goes on. -/
inductive Mode
  /-- The frames of a session are relayed. -/
  | responses
  /-- The records of a stream are converted. -/
  | chatStream (converter : ChatStreamConverter)
  /-- The items of a single answer are collected. -/
  | chatCompletion (completedOutputItems : List Value)
  /-- A terminal event has come, or something that cannot be passed on. -/
  | closed
deriving DecidableEq

/-! ### One message -/

/-- A frame, as an event with its type. -/
def TextFrame.typed (frame : TextFrame) : Option (Value × String) :=
  frame.event.bind fun event => (eventType event).map (event, ·)

/-- What a frame makes of a Responses stream. -/
def TextFrame.step (isHttpDate : String → Bool) (frame : TextFrame) : Mode × List Output :=
  match frame.typed with
  | none => (.closed, [])
  | some (event, eventName) =>
    match parseTerminalPayload event with
    | .error _ => (.closed, [])
    | .ok none => (.responses, [.item (relayEvent isHttpDate frame.text eventName none)])
    | .ok (some terminal) =>
      (.closed, [.item (relayEvent isHttpDate frame.text eventName (some terminal))])

/-- What ends a Chat stream. -/
def terminalOutputs (converter : ChatStreamConverter) (terminal : TerminalEvent) : List Output :=
  match terminal.upstreamError with
  | some error => [.item (.error (ApiError.upstream error).body)]
  | none =>
    match converter.convertTerminal terminal with
    | .error _ => []
    | .ok converted =>
      converted.chunks.map (fun chunk => .item (.chunk chunk (some terminal))) ++
        [.item (.done terminal)]

/-- What an event that is not terminal makes of a Chat stream. -/
def eventStep (converter : ChatStreamConverter) (data : Option Value) : Mode × List Output :=
  match data with
  | none => (.chatStream converter, [])
  | some value =>
    match converter.convertEvent value with
    | .error _ => (.closed, [])
    | .ok (converter, none) => (.chatStream converter, [])
    | .ok (converter, some chunk) => (.chatStream converter, [.item (.chunk chunk none)])

/-- What a record makes of a Chat stream. -/
def streamStep (converter : ChatStreamConverter) (record : SseRecord) : Mode × List Output :=
  match validateEvent record with
  | .error _ => (.closed, [])
  | .ok (some terminal) => (.closed, terminalOutputs converter terminal)
  | .ok none => eventStep converter record.data

/-- The single answer to a terminal event, if it is one. -/
def completionOutputs (completedOutputItems : List Value) (terminal : TerminalEvent) :
    List Output :=
  match terminal.upstreamError with
  | some _ => []
  | none =>
    match convertTerminalEvent (terminal.withOutputItems completedOutputItems) with
    | .error _ => []
    | .ok converted => [.completion terminal converted.chatCompletion]

/-- What a record makes of a single answer. -/
def completionStep (completedOutputItems : List Value) (record : SseRecord) : Mode × List Output :=
  match validateEvent record with
  | .error _ => (.closed, [])
  | .ok (some terminal) => (.closed, completionOutputs completedOutputItems terminal)
  | .ok none =>
    (.chatCompletion (completedOutputItems ++ (completedOutputItem record).toList), [])

/-- What a message makes of an answer. -/
def Mode.step (isHttpDate : String → Bool) : Mode → Said → Mode × List Output
  | responses, .frame frame => frame.step isHttpDate
  | chatStream converter, .record record => streamStep converter record
  | chatCompletion completedOutputItems, .record record =>
    completionStep completedOutputItems record
  | _, _ => (closed, [])

/-! ### Requests -/

/-- How a Chat request is answered. -/
def modeOf (converted : ConvertedRequest) : Mode :=
  if converted.stream then .chatStream (.new converted.includeUsage) else .chatCompletion []

/-- How a Chat body is answered, if it is. -/
def chatMode (config : Config) (body : Option Value) : Mode :=
  match body with
  | none => .chatCompletion []
  | some parsed =>
    match chatRequest config parsed with
    | .error _ => .chatCompletion []
    | .ok (_, converted) => modeOf converted

/-! ### All messages -/

variable {isHttpDate : String → Bool} {saids : List Said}

/-- The mode after some messages. -/
def Mode.after (isHttpDate : String → Bool) (mode : Mode) (saids : List Said) : Mode :=
  saids.foldl (fun mode said => (mode.step isHttpDate said).1) mode

/-- What the client gets for some messages. -/
def Mode.outputs (isHttpDate : String → Bool) : Mode → List Said → List Output
  | _, [] => []
  | mode, said :: saids =>
    (mode.step isHttpDate said).2 ++ Mode.outputs isHttpDate (mode.step isHttpDate said).1 saids

theorem Mode.after_append (mode : Mode) (saids later : List Said) :
    mode.after isHttpDate (saids ++ later) =
      (mode.after isHttpDate saids).after isHttpDate later :=
  List.foldl_append

/-- More messages. -/
theorem Mode.outputs_append (mode : Mode) (saids later : List Said) :
    mode.outputs isHttpDate (saids ++ later) =
      mode.outputs isHttpDate saids ++ (mode.after isHttpDate saids).outputs isHttpDate later := by
  induction saids generalizing mode with
  | nil => rfl
  | cons said saids ih =>
    rw [List.cons_append, Mode.outputs, ih, Mode.outputs, List.append_assoc]
    rfl

/-- An answer that is closed gets nothing more. -/
@[simp]
theorem Mode.outputs_closed : Mode.closed.outputs isHttpDate saids = [] := by
  induction saids with
  | nil => rfl
  | cons said saids ih =>
    rw [Mode.outputs]
    exact ih

/-- A Chat answer takes no frames. -/
theorem Mode.outputs_frame {mode : Mode} {frame : TextFrame} (hmode : mode ≠ .responses) :
    mode.outputs isHttpDate (.frame frame :: saids) = [] := by
  cases mode with
  | responses => exact absurd rfl hmode
  | chatStream | chatCompletion | closed => exact Mode.outputs_closed

/-! ### Chat streams and single answers -/

/-- The chunk that an output is. -/
def Output.chunk? : Output → Option Value
  | item (.chunk chunk _) => some chunk
  | _ => none

/-- The output is `[DONE]`. -/
def Output.isDone : Output → Bool
  | item (.done _) => true
  | _ => false

/-- The records that have been said. -/
def Said.record? : Said → Option SseRecord
  | record received => some received
  | frame _ => none

/-- The outputs of a stream that gets to `[DONE]`: some chunks, and `[DONE]` after them. -/
def EndsWith (chunks : List Value) (outputs : List Output) : Prop :=
  ∃ earlier terminal, outputs = earlier ++ [.item (.done terminal)] ∧
    earlier.any Output.isDone = false ∧ earlier.filterMap Output.chunk? = chunks

/-- A terminal event that is answered with `[DONE]`. -/
theorem endsWith_of_terminal {converter : ChatStreamConverter} {terminal : TerminalEvent}
    (h : (terminalOutputs converter terminal).any Output.isDone = true) :
    terminal.upstreamError.isSome = false ∧ ∃ converted,
      converter.convertTerminal terminal = .ok converted ∧
        EndsWith converted.chunks (terminalOutputs converter terminal) := by
  unfold terminalOutputs at h ⊢
  cases hupstream : terminal.upstreamError with
  | some error =>
    rw [hupstream] at h
    cases h
  | none =>
    rw [hupstream] at h
    cases hconverted : converter.convertTerminal terminal with
    | error error =>
      simp only [hconverted] at h
      cases h
    | ok converted =>
      refine ⟨rfl, converted, rfl, _, terminal, rfl, ?_, ?_⟩
      · simp [Output.isDone]
      · simp [List.filterMap_map, Function.comp_def, Output.chunk?]

theorem EndsWith.cons {chunks : List Value} {outputs : List Output} {chunk : Value}
    {terminal : Option TerminalEvent} (h : EndsWith chunks outputs) :
    EndsWith (chunk :: chunks) (.item (.chunk chunk terminal) :: outputs) := by
  obtain ⟨earlier, last, rfl, hnot, rfl⟩ := h
  exact ⟨_ :: earlier, last, rfl, by simpa [Output.isDone] using hnot, rfl⟩

/-- What has got to `[DONE]` has got to the end. -/
theorem EndsWith.eq_of_append {chunks : List Value} {passed missing : List Output}
    (h : EndsWith chunks (passed ++ missing)) (hdone : passed.any Output.isDone = true) :
    missing = [] ∧ passed.filterMap Output.chunk? = chunks := by
  obtain ⟨earlier, terminal, heq, hnot, rfl⟩ := h
  rcases List.eq_nil_or_concat missing with rfl | ⟨missing, last, rfl⟩
  · rw [List.append_nil] at heq
    exact ⟨rfl, by simp [heq, Output.chunk?]⟩
  · -- `[DONE]` is the last output, so it is not among what has been passed on.
    rw [List.concat_eq_append, ← List.append_assoc] at heq
    rw [← (List.append_inj' heq rfl).1, List.any_append, hdone] at hnot
    cases hnot

/-- **A stream that gets to `[DONE]`** is the conversion of its records. -/
theorem endsWith_of_done {converter : ChatStreamConverter}
    (h : ((Mode.chatStream converter).outputs isHttpDate saids).any Output.isDone = true) :
    ∃ chunks, forwardChatStream converter (saids.filterMap Said.record?) = some chunks ∧
      EndsWith chunks ((Mode.chatStream converter).outputs isHttpDate saids) := by
  induction saids generalizing converter with
  | nil => cases h
  | cons said saids ih =>
    cases said with
    | frame frame =>
      rw [Mode.outputs_frame fun h => by cases h] at h
      cases h
    | record record =>
      have hrecord : (Said.record record :: saids).filterMap Said.record? =
          record :: saids.filterMap Said.record? := rfl
      simp only [hrecord, Mode.outputs, Mode.step, streamStep, forwardChatStream] at h ⊢
      cases hvalid : validateEvent record with
      | error error => simp [hvalid] at h
      | ok parsed =>
        cases parsed with
        | some terminal =>
          simp only [hvalid, Mode.outputs_closed, List.append_nil] at h ⊢
          obtain ⟨hupstream, converted, hconverted, hends⟩ := endsWith_of_terminal h
          exact ⟨converted.chunks, by rw [hupstream, hconverted]; rfl, hends⟩
        | none =>
          simp only [hvalid] at h ⊢
          cases hdata : record.data with
          | none =>
            simp only [hdata, eventStep, List.nil_append] at h ⊢
            exact ih h
          | some value =>
            simp only [hdata, eventStep] at h ⊢
            cases hconverted : converter.convertEvent value with
            | error error => simp [hconverted] at h
            | ok converted =>
              obtain ⟨converter', chunk⟩ := converted
              cases chunk with
              | none =>
                simp only [hconverted, List.nil_append] at h ⊢
                obtain ⟨chunks, hchunks, hends⟩ := ih h
                exact ⟨chunks, by rw [hchunks]; rfl, hends⟩
              | some chunk =>
                simp only [hconverted, List.cons_append, List.nil_append, List.any_cons,
                  Output.isDone, Bool.false_or] at h ⊢
                obtain ⟨chunks, hchunks, hends⟩ := ih h
                exact ⟨chunk :: chunks, by rw [hchunks]; rfl, hends.cons⟩

/-- **A single answer** is the conversion of its records. -/
theorem completion_of_mem {items : List Value} {terminal : TerminalEvent} {body : Value}
    (h : .completion terminal body ∈ (Mode.chatCompletion items).outputs isHttpDate saids) :
    ∃ converted, readChatTerminal items (saids.filterMap Said.record?) = some converted ∧
      converted.chatCompletion = body := by
  induction saids generalizing items with
  | nil => cases h
  | cons said saids ih =>
    cases said with
    | frame frame =>
      rw [Mode.outputs_frame fun h => by cases h] at h
      cases h
    | record record =>
      have hrecord : (Said.record record :: saids).filterMap Said.record? =
          record :: saids.filterMap Said.record? := rfl
      simp only [hrecord, Mode.outputs, Mode.step, completionStep, readChatTerminal] at h ⊢
      cases hvalid : validateEvent record with
      | error error => simp [hvalid] at h
      | ok parsed =>
        cases parsed with
        | none =>
          simp only [hvalid, List.nil_append] at h ⊢
          exact ih h
        | some terminal' =>
          simp only [hvalid, Mode.outputs_closed, List.append_nil, completionOutputs] at h ⊢
          cases hupstream : terminal'.upstreamError with
          | some error => simp [hupstream] at h
          | none =>
            simp only [hupstream] at h ⊢
            cases hconverted : convertTerminalEvent (terminal'.withOutputItems items) with
            | error error => simp [hconverted] at h
            | ok converted =>
              simp only [hconverted, List.mem_singleton, Output.completion.injEq] at h
              exact ⟨converted, rfl, h.2.symm⟩

end CodexApi.Delivery
