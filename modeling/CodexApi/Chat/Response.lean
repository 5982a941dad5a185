import CodexApi.Upstream.Terminal

/-!
# Chat Completions answers

The half of the Chat conversion that goes back to the client: `ChatStreamConverter` turns the
events of a Responses stream into chunks, `convertTerminalEvent` turns a terminal event into one
completion.
-/

namespace CodexApi

/-- Who is to blame for a failed conversion. -/
inductive ChatErrorKind
  | invalidRequest
  | upstreamProtocol
deriving DecidableEq

/-- A failed conversion. -/
structure ChatError where
  kind : ChatErrorKind
  param : Option String
  message : String
deriving DecidableEq

/-- `ChatError::upstream`. -/
def ChatError.upstream (message : String) : ChatError := ⟨.upstreamProtocol, none, message⟩

/-- `TerminalStatus`. -/
inductive TerminalStatus
  | completed
  | incomplete
deriving DecidableEq

/-- The status the ledger gets. -/
def TerminalStatus.finalStatus : TerminalStatus → FinalStatus
  | completed => .completed
  | incomplete => .incomplete

/-- A number as JSON. -/
def jsonInt (n : Int) : Value :=
  .number (if 0 ≤ n then .posInt (UInt64.ofNat n.toNat) else .negInt (-n - 1).toNat)

/-- An optional string as JSON. -/
def jsonOption (s : Option String) : Value := (s.map Value.string).getD .null

/-! ### Fields of the upstream -/

/-- `upstream_string`. -/
def upstreamString (object : Value) (field context : String) : Except ChatError String :=
  match (object.get field).bind Value.asStr with
  | some value => .ok value
  | none => .error (.upstream s!"{context}.{field} must be a string")

/-- `upstream_integer`. -/
def upstreamInteger (object : Value) (field context : String) : Except ChatError Int :=
  match (object.get field).bind Value.asI64 with
  | some value => .ok value
  | none => .error (.upstream s!"{context}.{field} must be an integer")

/-- `incomplete_finish_reason`. -/
def incompleteFinishReason (response : Value) : Except ChatError String := do
  let details ← okOr ((response.get "incomplete_details").filter (·.isObject))
    (.upstream "incomplete response is missing incomplete_details")
  let reason ← upstreamString details "reason" "incomplete response details"
  if reason = "max_output_tokens" then return "length"
  else if reason = "content_filter" then return "content_filter"
  else throw (.upstream s!"unsupported incomplete response reason {reason}")

/-- The finish reason of a stream. -/
def streamFinishReason (status : TerminalStatus) (response : Value) : Except ChatError String :=
  match status with
  | .completed => .ok "stop"
  | .incomplete => incompleteFinishReason response

/-- `chat_usage`. -/
def chatUsage (usage : Usage) : Value :=
  json [("prompt_tokens", .number (.posInt usage.inputTokens)),
    ("prompt_tokens_details", json [("cached_tokens", .number (.posInt usage.cachedInputTokens))]),
    ("completion_tokens", .number (.posInt usage.outputTokens)),
    ("completion_tokens_details",
      json [("reasoning_tokens", .number (.posInt usage.reasoningTokens))]),
    ("total_tokens", .number (.posInt usage.totalTokens))]

/-- The status of a terminal event that can be converted. -/
def convertibleStatus (kind : TerminalKind) : Except ChatError TerminalStatus :=
  match kind with
  | .completed => .ok .completed
  | .incomplete => .ok .incomplete
  | kind => .error (.upstream ("upstream emitted " ++ kind.eventName ++ " instead of a completion"))

/-! ### Streams -/

/-- The metadata of a stream. -/
structure ChatMetadata where
  id : String
  created : Int
  model : String
deriving DecidableEq

/-- A chunk built from its parts. -/
def chunkJson (metadata : ChatMetadata) (delta : Value) (finishReason : Option String) : Value :=
  json [("id", .string metadata.id), ("object", .string "chat.completion.chunk"),
    ("created", jsonInt metadata.created), ("model", .string metadata.model),
    ("choices", .array [json [("index", jsonInt 0), ("delta", delta), ("logprobs", .null),
      ("finish_reason", jsonOption finishReason)]])]

/-- A usage chunk built from its parts. -/
def usageChunkJson (metadata : ChatMetadata) (usage : Usage) : Value :=
  json [("id", .string metadata.id), ("object", .string "chat.completion.chunk"),
    ("created", jsonInt metadata.created), ("model", .string metadata.model),
    ("choices", .array []), ("usage", chatUsage usage)]

/-- The type of an event. -/
def eventType (event : Value) : Option String := (event.get "type").bind Value.asStr

/-- `ChatStreamConverter`. -/
structure ChatStreamConverter where
  metadata : Option ChatMetadata
  includeUsage : Bool
deriving DecidableEq

/-- `ConvertedStreamTerminal`. -/
structure ConvertedStreamTerminal where
  chunks : List Value
  usage : Usage
  status : TerminalStatus

namespace ChatStreamConverter

/-- `new`. -/
def new (includeUsage : Bool) : ChatStreamConverter := ⟨none, includeUsage⟩

/-- `capture_metadata`. -/
def captureMetadata (converter : ChatStreamConverter) (response : Value) :
    Except ChatError ChatStreamConverter := do
  let id ← upstreamString response "id" "response"
  let created ← upstreamInteger response "created_at" "response"
  let model ← upstreamString response "model" "response"
  return { converter with metadata := some ⟨id, created, model⟩ }

/-- `metadata`. -/
def getMetadata (converter : ChatStreamConverter) : Except ChatError ChatMetadata :=
  match converter.metadata with
  | some metadata => .ok metadata
  | none => .error (.upstream "upstream emitted Chat content before response metadata")

/-- `chunk`. -/
def chunk (converter : ChatStreamConverter) (delta : Value) (finishReason : Option String) :
    Except ChatError Value := do
  let metadata ← converter.getMetadata
  return chunkJson metadata delta finishReason

/-- `usage_chunk`. -/
def usageChunk (converter : ChatStreamConverter) (usage : Usage) : Except ChatError Value := do
  let metadata ← converter.getMetadata
  return usageChunkJson metadata usage

/-- The usage chunk, if the client asked for it. -/
def usageChunks (converter : ChatStreamConverter) (usage : Usage) :
    Except ChatError (List Value) :=
  if converter.includeUsage then (converter.usageChunk usage).map ([·]) else .ok []

/-- `convert_event`. -/
def convertEvent (converter : ChatStreamConverter) (event : Value) :
    Except ChatError (ChatStreamConverter × Option Value) := do
  let kind := eventType event
  if kind = some "response.created" then
    let response ← okOr ((event.get "response").filter (·.isObject))
      (.upstream "response.created is missing response")
    let converter ← converter.captureMetadata response
    let chunk ← converter.chunk (json [("role", .string "assistant"), ("content", .string "")]) none
    return (converter, some chunk)
  else if kind = some "response.output_text.delta" then
    let delta ← okOr ((event.get "delta").bind Value.asStr)
      (.upstream "response.output_text.delta.delta must be a string")
    let chunk ← converter.chunk (json [("content", .string delta)]) none
    return (converter, some chunk)
  else return (converter, none)

/-- `convert_terminal`. -/
def convertTerminal (converter : ChatStreamConverter) (terminal : TerminalEvent) :
    Except ChatError ConvertedStreamTerminal := do
  let status ← convertibleStatus terminal.kind
  let response ← okOr ((terminal.payload.get "response").filter (·.isObject))
    (.upstream "terminal event is missing its response object")
  let converter ← converter.captureMetadata response
  let usage ← okOr terminal.usage (.upstream "terminal response is missing usage")
  let finishReason ← streamFinishReason status response
  let finish ← converter.chunk (json []) (some finishReason)
  let usageChunks ← converter.usageChunks usage
  return { chunks := finish :: usageChunks, usage, status }

end ChatStreamConverter

/-! ### Single completions -/

/-- `ConvertedTerminal`. -/
structure ConvertedTerminal where
  chatCompletion : Value
  usage : Usage
  status : TerminalStatus
deriving DecidableEq

/-- `ConvertedOutput`. -/
structure ConvertedOutput where
  text : Option String
  refusal : Option String
  toolCalls : List Value
deriving DecidableEq

/-- `get_or_insert_with(String::new).push_str`. -/
def pushStr (s : Option String) (suffix : String) : Option String := some (s.getD "" ++ suffix)

/-- One content part in `convert_output_message`. -/
def convertOutputPart (itemIndex contentIndex : Nat) (part : Value) (converted : ConvertedOutput) :
    Except ChatError ConvertedOutput := do
  failIf (part.isObject = false)
    (.upstream s!"response output[{itemIndex}].content[{contentIndex}] must be an object")
  let kind ← upstreamString part "type" "message content part"
  if kind = "output_text" then
    let text ← upstreamString part "text" "output_text content part"
    return { converted with text := pushStr converted.text text }
  else if kind = "refusal" then
    let refusal ← upstreamString part "refusal" "refusal content part"
    return { converted with refusal := pushStr converted.refusal refusal }
  else throw (.upstream s!"unsupported Responses message content type {kind}")

/-- The loop of `convert_output_message`. -/
def convertOutputParts (itemIndex : Nat) : Nat → List Value → ConvertedOutput →
    Except ChatError ConvertedOutput
  | _, [], converted => .ok converted
  | contentIndex, part :: parts, converted => do
    let converted ← convertOutputPart itemIndex contentIndex part converted
    convertOutputParts itemIndex (contentIndex + 1) parts converted

/-- `convert_output_message`. -/
def convertOutputMessage (item : Value) (itemIndex : Nat) (converted : ConvertedOutput) :
    Except ChatError ConvertedOutput := do
  let role ← upstreamString item "role" "message output item"
  failIf (role ≠ "assistant") (.upstream "Responses message output role must be assistant")
  let content ← okOr ((item.get "content").bind Value.asArray)
    (.upstream "Responses message content must be an array")
  convertOutputParts itemIndex 0 content converted

/-- One item in `convert_output`. -/
def convertOutputItem (index : Nat) (item : Value) (converted : ConvertedOutput) :
    Except ChatError ConvertedOutput := do
  failIf (item.isObject = false) (.upstream s!"response output item {index} must be an object")
  let kind ← upstreamString item "type" "response output item"
  if kind = "reasoning" then return converted
  else if kind = "message" then convertOutputMessage item index converted
  else if kind = "function_call" then
    let callId ← upstreamString item "call_id" "function call output item"
    let name ← upstreamString item "name" "function call output item"
    let arguments ← upstreamString item "arguments" "function call output item"
    let toolCall := json [("id", .string callId), ("type", .string "function"),
      ("function", json [("name", .string name), ("arguments", .string arguments)])]
    return { converted with toolCalls := converted.toolCalls ++ [toolCall] }
  else throw (.upstream s!"unsupported Responses output item type {kind}")

/-- The loop of `convert_output`. -/
def convertOutputItems : Nat → List Value → ConvertedOutput → Except ChatError ConvertedOutput
  | _, [], converted => .ok converted
  | index, item :: items, converted => do
    let converted ← convertOutputItem index item converted
    convertOutputItems (index + 1) items converted

/-- `convert_output`. -/
def convertOutput (output : List Value) : Except ChatError ConvertedOutput :=
  convertOutputItems 0 output ⟨none, none, []⟩

/-- The message of a completion. -/
def chatMessage (converted : ConvertedOutput) : Object :=
  let message : Object := OrdMap.ofList [("role", .string "assistant"),
    ("content", jsonOption converted.text), ("refusal", jsonOption converted.refusal)]
  if converted.toolCalls.isEmpty then message
  else message.insert "tool_calls" (.array converted.toolCalls)

/-- The first choice of a chunk or a completion. -/
def firstChoice (value : Value) : Option Value :=
  ((value.get "choices").bind Value.asArray).bind List.head?

/-- The completion built from its parts. -/
def completionJson (metadata : ChatMetadata) (converted : ConvertedOutput) (finishReason : String)
    (usage : Usage) : Value :=
  json [("id", .string metadata.id), ("object", .string "chat.completion"),
    ("created", jsonInt metadata.created), ("model", .string metadata.model),
    ("choices", .array [json [("index", jsonInt 0), ("message", (chatMessage converted).toValue),
      ("logprobs", .null), ("finish_reason", .string finishReason)]]),
    ("usage", chatUsage usage)]

/-- The finish reason of a completion. -/
def completionFinishReason (status : TerminalStatus) (response : Value)
    (converted : ConvertedOutput) : Except ChatError String :=
  match status with
  | .completed => .ok (if converted.toolCalls.isEmpty then "stop" else "tool_calls")
  | .incomplete => incompleteFinishReason response

/-- `convert_terminal_event`. -/
def convertTerminalEvent (terminal : TerminalEvent) : Except ChatError ConvertedTerminal := do
  let status ← convertibleStatus terminal.kind
  failIf (terminal.payload.isObject = false)
    (.upstream "terminal Responses event must be an object")
  let response ← okOr ((terminal.payload.get "response").filter (·.isObject))
    (.upstream "terminal event is missing its response object")
  let object ← upstreamString response "object" "terminal response"
  failIf (object ≠ "response") (.upstream "terminal response has an invalid object type")
  let id ← upstreamString response "id" "terminal response"
  failIf (id = "") (.upstream "terminal response id must not be empty")
  let model ← upstreamString response "model" "terminal response"
  failIf (model = "") (.upstream "terminal response model must not be empty")
  let created ← upstreamInteger response "created_at" "terminal response"
  let usage ← okOr terminal.usage (.upstream "terminal response is missing usage")
  let output ← okOr ((response.get "output").bind Value.asArray)
    (.upstream "terminal response output must be an array")
  let converted ← convertOutput output
  let finishReason ← completionFinishReason status response converted
  return {
    chatCompletion := completionJson ⟨id, created, model⟩ converted finishReason usage
    usage
    status }

/-! ### What is built -/

/-- The fields of a completion's message. -/
theorem get_chatMessage (converted : ConvertedOutput) (field : String) :
    (chatMessage converted).get field =
      if field = "role" then some (.string "assistant")
      else if field = "content" then some (jsonOption converted.text)
      else if field = "refusal" then some (jsonOption converted.refusal)
      else if field = "tool_calls" ∧ converted.toolCalls ≠ [] then
        some (.array converted.toolCalls)
      else none := by
  unfold chatMessage
  by_cases hcalls : converted.toolCalls = []
  · simp only [hcalls, List.isEmpty_nil, OrdMap.ofList, List.foldl_cons, List.foldl_nil]
    simp only [if_true, OrdMap.get_insert, OrdMap.get_empty]
    grind
  · simp only [List.isEmpty_iff, hcalls, OrdMap.ofList, List.foldl_cons, List.foldl_nil]
    simp only [if_false, OrdMap.get_insert, OrdMap.get_empty]
    grind

/-- The choice of a completion. -/
theorem firstChoice_completionJson (metadata : ChatMetadata) (converted : ConvertedOutput)
    (finishReason : String) (usage : Usage) :
    firstChoice (completionJson metadata converted finishReason usage) =
      some (json [("index", jsonInt 0), ("message", (chatMessage converted).toValue),
        ("logprobs", .null), ("finish_reason", .string finishReason)]) := by
  simp [firstChoice, completionJson, get_json, OrdMap.ofList, Value.asArray]

/-- The choice of a chunk. -/
theorem firstChoice_chunkJson (metadata : ChatMetadata) (delta : Value)
    (finishReason : Option String) :
    firstChoice (chunkJson metadata delta finishReason) =
      some (json [("index", jsonInt 0), ("delta", delta), ("logprobs", .null),
        ("finish_reason", jsonOption finishReason)]) := by
  simp [firstChoice, chunkJson, get_json, OrdMap.ofList, Value.asArray]

@[simp]
theorem asStr_jsonOption (s : Option String) : (jsonOption s).asStr = s := by
  cases s <;> rfl

/-! ### What is converted -/

theorem upstreamString_eq_ok {object : Value} {field context s : String} :
    upstreamString object field context = .ok s ↔ object.get field = some (.string s) := by
  unfold upstreamString
  cases hfield : object.get field with
  | none => simp
  | some value =>
    cases value <;> simp [Value.asStr]

theorem upstreamInteger_eq_ok {object : Value} {field context : String} {n : Int} :
    upstreamInteger object field context = .ok n ↔
      (object.get field).bind Value.asI64 = some n := by
  unfold upstreamInteger
  cases (object.get field).bind Value.asI64 <;> simp

/-- **What `convertTerminalEvent` converts**, and what it makes of it. -/
theorem convertTerminalEvent_eq_ok {terminal : TerminalEvent} {completion : ConvertedTerminal} :
    convertTerminalEvent terminal = .ok completion ↔
      ∃ status response metadata usage output converted finishReason,
        convertibleStatus terminal.kind = .ok status ∧
        terminal.payload.get "response" = some response ∧ response.isObject = true ∧
        response.get "object" = some (.string "response") ∧
        response.get "id" = some (.string metadata.id) ∧ metadata.id ≠ "" ∧
        response.get "model" = some (.string metadata.model) ∧ metadata.model ≠ "" ∧
        (response.get "created_at").bind Value.asI64 = some metadata.created ∧
        terminal.usage = some usage ∧ response.get "output" = some (.array output) ∧
        convertOutput output = .ok converted ∧
        completionFinishReason status response converted = .ok finishReason ∧
        completion = ⟨completionJson metadata converted finishReason usage, usage, status⟩ := by
  simp only [convertTerminalEvent, bind_eq_ok, failIf_eq_ok, okOr_eq_ok, upstreamString_eq_ok,
    upstreamInteger_eq_ok, Option.filter_eq_some_iff, Option.bind_eq_some_iff,
    Value.asArray_eq_some_iff, Bool.not_eq_false, not_not]
  constructor
  · rintro ⟨status, hstatus, -, -, response, ⟨hresponse, hobject⟩, object, hkind, -, rfl, id, hid,
      -, hid', model, hmodel, -, hmodel', created, hcreated, usage, husage, output, houtput,
      converted, hconvert, finishReason, hfinish, h⟩
    obtain ⟨_, houtput, rfl⟩ := houtput
    cases h
    exact ⟨status, response, ⟨id, created, model⟩, usage, output, converted, finishReason, hstatus,
      hresponse, hobject, hkind, hid, hid', hmodel, hmodel', hcreated, husage, houtput, hconvert,
      hfinish, rfl⟩
  · rintro ⟨status, response, ⟨id, created, model⟩, usage, output, converted, finishReason,
      hstatus, hresponse, hobject, hkind, hid, hid', hmodel, hmodel', hcreated, husage, houtput,
      hconvert, hfinish, rfl⟩
    have hpayload : terminal.payload.isObject = true := by
      cases hvalue : terminal.payload <;> simp_all [Value.get, Value.isObject, Value.asObject]
    exact ⟨status, hstatus, (), hpayload, response, ⟨hresponse, hobject⟩, _, hkind, (), by simp, id,
      hid, (), hid', model, hmodel, (), hmodel', created, hcreated, usage, husage, output,
      ⟨_, houtput, rfl⟩, converted, hconvert, finishReason, hfinish, rfl⟩

end CodexApi
