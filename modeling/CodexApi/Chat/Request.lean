import CodexApi.Chat.Response
import CodexApi.Config

/-!
# Chat Completions requests

The half of the Chat conversion that goes to the upstream: `convertRequest` checks a request field
by field and builds the Responses request for it. A field is taken out of its object when it is
read, so that what is left at the end is unsupported; every error names the field it is about.
-/

namespace CodexApi

/-- `ChatError::invalid`. -/
def ChatError.invalid (param message : String) : ChatError :=
  ⟨.invalidRequest, some param, message⟩

/-- `ConvertedRequest`. -/
structure ConvertedRequest where
  upstreamRequest : Object
  model : String
  reasoningEffort : Option String
  stream : Bool
  includeUsage : Bool
deriving DecidableEq

/-! ### Fields of the client -/

/-- `as_object().cloned()`. -/
def Value.toObject (value : Value) : Option Object := value.asObject.map OrdMap.ofList

/-- `into_request_object`. -/
def intoRequestObject (value : Value) (param : String) : Except ChatError Object :=
  match value.toObject with
  | some object => .ok object
  | none => .error (.invalid param s!"{param} must be a JSON object")

/-- `take_request_string`: the string and what is left of the object. -/
def takeRequestString (object : Object) (field param : String) :
    Except ChatError (String × Object) :=
  match (object.get field).bind Value.asStr with
  | some value => .ok (value, object.erase field)
  | none => .error (.invalid param s!"{param} must be a string")

/-- `request_bool`. -/
def requestBool (value : Value) (param : String) : Except ChatError Bool :=
  match value.asBool with
  | some value => .ok value
  | none => .error (.invalid param s!"{param} must be a boolean")

/-- `reject_unknown_request_fields`. -/
def rejectUnknownRequestFields (object : Object) (context : String) : Except ChatError Unit :=
  match object.entries with
  | [] => .ok ()
  | (field, _) :: _ =>
    let param := if context = "request" then field else s!"{context}.{field}"
    .error (.invalid param s!"unsupported field {param}")

/-- `as_object().cloned()` of a message, a tool call or a tool. -/
def requireObject (value : Value) (context : String) : Except ChatError Object :=
  match value.toObject with
  | some object => .ok object
  | none => .error (.invalid context s!"{context} must be an object")

/-- `Option::map` with a fallible function, then `transpose`. -/
def convertField {α : Type} (value : Option Value) (convert : Value → Except ChatError α) :
    Except ChatError (Option α) :=
  match value with
  | none => .ok none
  | some value => (convert value).map some

/-! ### Text -/

/-- One part of a text content. -/
def parseTextPart (part : Value) (context : String) : Except ChatError String := do
  let part ← intoRequestObject part context
  let (kind, part) ← takeRequestString part "type" s!"{context}.type"
  failIf (kind ≠ "text")
    (.invalid s!"{context}.type" s!"unsupported content type {kind}")
  let (text, part) ← takeRequestString part "text" s!"{context}.text"
  rejectUnknownRequestFields part context
  return text

/-- The parts of a text content, from the part `index` on. -/
def parseTextPartsFrom (param : String) : Nat → List Value → Except ChatError (List String)
  | _, [] => .ok []
  | index, part :: parts => do
    let text ← parseTextPart part s!"{param}[{index}]"
    let texts ← parseTextPartsFrom param (index + 1) parts
    return text :: texts

/-- `parse_text_parts`. -/
def parseTextParts (value : Value) (param : String) : Except ChatError (List String) :=
  match value with
  | .string text => .ok [text]
  | .array [] => .error (.invalid param s!"{param} must contain at least one text part")
  | .array parts => parseTextPartsFrom param 0 parts
  | _ => .error (.invalid param s!"{param} must be a string or an array of text parts")

/-- A text part of a Responses message. -/
def responsesTextPart (responsesType text : String) : Value :=
  json [("type", .string responsesType), ("text", .string text)]

/-- `convert_text_content`. -/
def convertTextContent (value : Value) (param responsesType : String) :
    Except ChatError (List Value) :=
  (parseTextParts value param).map (·.map (responsesTextPart responsesType))

/-- A message item of a Responses input. -/
def responsesMessage (role : String) (parts : List Value) : Value :=
  json [("type", .string "message"), ("role", .string role), ("content", .array parts)]

/-! ### Messages -/

/-- A function call item of a Responses input. -/
def functionCallItem (callId name arguments : String) : Value :=
  json [("type", .string "function_call"), ("call_id", .string callId), ("name", .string name),
    ("arguments", .string arguments)]

/-- `convert_assistant_tool_call`. -/
def convertAssistantToolCall (value : Value) (context : String) : Except ChatError Value := do
  let call ← requireObject value context
  let (id, call) ← takeRequestString call "id" s!"{context}.id"
  let (callType, call) ← takeRequestString call "type" s!"{context}.type"
  failIf (callType ≠ "function")
    (.invalid s!"{context}.type" "only function tool calls are supported")
  let functionValue ← okOr (call.get "function")
    (.invalid s!"{context}.function" s!"{context}.function is required")
  rejectUnknownRequestFields (call.erase "function") context
  let function ← intoRequestObject functionValue s!"{context}.function"
  let (name, function) ← takeRequestString function "name" s!"{context}.function.name"
  let (arguments, function) ←
    takeRequestString function "arguments" s!"{context}.function.arguments"
  rejectUnknownRequestFields function s!"{context}.function"
  return functionCallItem id name arguments

/-- The tool calls of a message, from the call `index` on. -/
def convertAssistantToolCalls (context : String) :
    Nat → List Value → Except ChatError (List Value)
  | _, [] => .ok []
  | index, call :: calls => do
    let item ← convertAssistantToolCall call s!"{context}.tool_calls[{index}]"
    let items ← convertAssistantToolCalls context (index + 1) calls
    return item :: items

/-- The items for the content of an assistant message. -/
def assistantContentItems (content : Option Value) (context : String) :
    Except ChatError (List Value) :=
  match content.filter (!·.isNull) with
  | none => .ok []
  | some content =>
    (convertTextContent content s!"{context}.content" "output_text").map
      fun parts => [responsesMessage "assistant" parts]

/-- The items for the tool calls of an assistant message. -/
def assistantToolItems (toolCalls : Option Value) (context : String) :
    Except ChatError (List Value) :=
  match toolCalls.filter (!·.isNull) with
  | none => .ok []
  | some toolCalls =>
    match toolCalls.asArray with
    | none => .error
        (.invalid s!"{context}.tool_calls" s!"{context}.tool_calls must be an array")
    | some [] => .error
        (.invalid s!"{context}.tool_calls" s!"{context}.tool_calls must not be empty")
    | some calls => convertAssistantToolCalls context 0 calls

/-- `convert_assistant_message`: the items it adds. -/
def convertAssistantMessage (message : Object) (context : String) :
    Except ChatError (List Value) := do
  let content := message.get "content"
  let toolCalls := message.get "tool_calls"
  rejectUnknownRequestFields ((message.erase "content").erase "tool_calls") context
  let contentItems ← assistantContentItems content context
  let toolItems ← assistantToolItems toolCalls context
  failIf (contentItems ++ toolItems = [])
    (.invalid s!"{context}.content"
      "assistant message must contain text or function tool calls")
  return contentItems ++ toolItems

/-- `convert_tool_message`: the item it adds. -/
def convertToolMessage (message : Object) (context : String) : Except ChatError Value := do
  let (callId, message) ← takeRequestString message "tool_call_id" s!"{context}.tool_call_id"
  let content ← okOr (message.get "content")
    (.invalid s!"{context}.content" s!"{context}.content is required")
  rejectUnknownRequestFields (message.erase "content") context
  let output ← parseTextParts content s!"{context}.content"
  return json [("type", .string "function_call_output"), ("call_id", .string callId),
    ("output", .string (String.join output))]

/-- The required content of a message without other fields. -/
def takeContent (message : Object) (context : String) : Except ChatError Value := do
  let content ← okOr (message.get "content")
    (.invalid s!"{context}.content" s!"{context}.content is required")
  rejectUnknownRequestFields (message.erase "content") context
  return content

/-- One message in `convert_messages`: the system texts and the input items it adds. -/
def convertMessage (value : Value) (context : String) :
    Except ChatError (List String × List Value) := do
  let message ← requireObject value context
  let (role, message) ← takeRequestString message "role" s!"{context}.role"
  if role = "system" then
    let content ← takeContent message context
    let texts ← parseTextParts content s!"{context}.content"
    return (["\n".intercalate texts], [])
  else if role = "developer" ∨ role = "user" then
    let content ← takeContent message context
    let parts ← convertTextContent content s!"{context}.content" "input_text"
    return ([], [responsesMessage role parts])
  else if role = "assistant" then
    let items ← convertAssistantMessage message context
    return ([], items)
  else if role = "tool" then
    let item ← convertToolMessage message context
    return ([], [item])
  else if role = "function" then
    throw (.invalid s!"{context}.role" "legacy function-role messages are not supported")
  else throw (.invalid s!"{context}.role" s!"unsupported message role {role}")

/-- The loop of `convert_messages`, from the message `index` on. -/
def convertMessagesFrom : Nat → List Value → Except ChatError (List String × List Value)
  | _, [] => .ok ([], [])
  | index, value :: values => do
    let (systemMessages, input) ← convertMessage value s!"messages[{index}]"
    let (systemMessages', input') ← convertMessagesFrom (index + 1) values
    return (systemMessages ++ systemMessages', input ++ input')

/-- `convert_messages`: the instructions and the input. -/
def convertMessages (value : Value) : Except ChatError (Option String × List Value) := do
  let messages ← okOr value.asArray (.invalid "messages" "messages must be an array")
  failIf messages.isEmpty
    (.invalid "messages" "messages must contain at least one message")
  let (systemMessages, input) ← convertMessagesFrom 0 messages
  let instructions :=
    if systemMessages.isEmpty then none else some ("\n".intercalate systemMessages)
  return (instructions, input)

/-! ### Tools -/

/-- The `parameters` of a function tool. -/
def toolParameters (function : Object) (context : String) : Except ChatError Value :=
  match function.get "parameters" with
  | none | some .null => .ok .null
  | some (.object fields) => .ok (.object fields)
  | some _ => .error
      (.invalid s!"{context}.parameters" s!"{context}.parameters must be an object or null")

/-- The `description` of a function tool. -/
def toolDescription (function : Object) (context : String) : Except ChatError (Option String) :=
  convertField (function.get "description") fun value =>
    match value.asStr with
    | some description => .ok description
    | none => .error (.invalid s!"{context}.description" s!"{context}.description must be a string")

/-- The `strict` of a function tool. -/
def toolStrict (function : Object) (context : String) : Except ChatError Bool :=
  match function.get "strict" with
  | none | some .null => .ok false
  | some value => requestBool value s!"{context}.strict"

/-- `convert_tool`. -/
def convertTool (value : Value) (context : String) : Except ChatError Value := do
  let tool ← requireObject value context
  let (toolType, tool) ← takeRequestString tool "type" s!"{context}.type"
  failIf (toolType ≠ "function")
    (.invalid s!"{context}.type" "only function tools are supported")
  let functionValue ← okOr (tool.get "function")
    (.invalid s!"{context}.function" s!"{context}.function is required")
  rejectUnknownRequestFields (tool.erase "function") context
  let functionContext := s!"{context}.function"
  let function ← intoRequestObject functionValue functionContext
  let (name, function) ← takeRequestString function "name" s!"{functionContext}.name"
  let parameters ← toolParameters function functionContext
  let description ← toolDescription function functionContext
  let strict ← toolStrict function functionContext
  rejectUnknownRequestFields
    (((function.erase "parameters").erase "description").erase "strict") functionContext
  let converted : Object := OrdMap.ofList [("type", .string "function"), ("name", .string name),
    ("parameters", parameters), ("strict", .bool strict)]
  return match description with
    | some description => Object.toValue (converted.insert "description" (.string description))
    | none => Object.toValue converted

/-- The tools, from the tool `index` on. -/
def convertToolsFrom : Nat → List Value → Except ChatError (List Value)
  | _, [] => .ok []
  | index, tool :: tools => do
    let converted ← convertTool tool s!"tools[{index}]"
    let rest ← convertToolsFrom (index + 1) tools
    return converted :: rest

/-- `convert_tools`. -/
def convertTools (value : Value) : Except ChatError Value :=
  match value.asArray with
  | none => .error (.invalid "tools" "tools must be an array")
  | some tools => (convertToolsFrom 0 tools).map .array

/-- `convert_tool_choice`. -/
def convertToolChoice (value : Value) : Except ChatError Value :=
  match value with
  | .string choice =>
    if choice = "none" ∨ choice = "auto" ∨ choice = "required" then .ok (.string choice)
    else .error (.invalid "tool_choice"
      "tool_choice must be none, auto, required, or a named function")
  | .object fields => do
    let choice : Object := OrdMap.ofList fields
    let (choiceType, choice) ← takeRequestString choice "type" "tool_choice.type"
    failIf (choiceType ≠ "function")
      (.invalid "tool_choice.type" "only named function tool_choice objects are supported")
    let functionValue ← okOr (choice.get "function")
      (.invalid "tool_choice.function" "tool_choice.function is required")
    rejectUnknownRequestFields (choice.erase "function") "tool_choice"
    let function ← intoRequestObject functionValue "tool_choice.function"
    let (name, function) ← takeRequestString function "name" "tool_choice.function.name"
    rejectUnknownRequestFields function "tool_choice.function"
    return json [("type", .string "function"), ("name", .string name)]
  | _ => .error (.invalid "tool_choice"
      "tool_choice must be a string or named function object")

/-! ### Other fields -/

/-- The `stream` of a request. -/
def convertStream (value : Option Value) : Except ChatError Bool :=
  match value with
  | none | some .null | some (.bool false) => .ok false
  | some (.bool true) => .ok true
  | some _ => .error (.invalid "stream" "stream must be a boolean or null")

/-- `convert_stream_options`. -/
def convertStreamOptions (value : Value) (stream : Bool) : Except ChatError Bool := do
  failIf (!stream)
    (.invalid "stream_options" "stream_options requires stream to be true")
  let options ← intoRequestObject value "stream_options"
  let includeUsage ← convertField (options.get "include_usage")
    fun value => requestBool value "stream_options.include_usage"
  rejectUnknownRequestFields (options.erase "include_usage") "stream_options"
  return includeUsage.getD false

/-- The check of `n`. -/
def checkN (value : Option Value) : Except ChatError Unit :=
  match value with
  | none | some .null => .ok ()
  | some value => failIf (value.asU64 ≠ some 1) (.invalid "n" "n must be one or null")

/-- `validate_ignored_completion_limit`. -/
def validateIgnoredCompletionLimit (value : Value) (field : String) : Except ChatError Unit :=
  if value.isNull || value.asU64.any (0 < ·) then .ok ()
  else .error (.invalid field s!"{field} must be a positive integer or null")

/-- `convert_reasoning_effort`. -/
def convertReasoningEffort (value : Value) : Except ChatError (Option String) :=
  match value with
  | .null => .ok none
  | .string effort =>
    if effort ∈ reasoningEfforts then .ok (some effort)
    else .error (.invalid "reasoning_effort" "unsupported reasoning_effort")
  | _ => .error (.invalid "reasoning_effort" "reasoning_effort must be a string or null")

/-- `convert_response_format`. -/
def convertResponseFormat (value : Value) : Except ChatError (Option Value) :=
  if value.isNull then .ok none
  else do
    let responseFormat ← intoRequestObject value "response_format"
    let (formatType, responseFormat) ←
      takeRequestString responseFormat "type" "response_format.type"
    if formatType = "text" ∨ formatType = "json_object" then
      rejectUnknownRequestFields responseFormat "response_format"
      return some (json [("format", json [("type", .string formatType)])])
    else if formatType = "json_schema" then
      let schema ← okOr (responseFormat.get "json_schema")
        (.invalid "response_format.json_schema" "response_format.json_schema is required")
      rejectUnknownRequestFields (responseFormat.erase "json_schema") "response_format"
      let schema ← intoRequestObject schema "response_format.json_schema"
      return some (json [("format", Object.toValue (schema.insert "type" (.string "json_schema")))])
    else throw (.invalid "response_format.type" "unsupported response_format.type")

/-! ### The request -/

/-- Sets a field if there is a value for it. -/
def insertSome (object : Object) (field : String) (value : Option Value) : Object :=
  match value with
  | some value => object.insert field value
  | none => object

/-- The fields `convert_request` reads, which it takes out of the request. -/
def chatRequestFields : List String :=
  ["model", "messages", "stream", "stream_options", "n", "tools", "tool_choice",
    "parallel_tool_calls", "reasoning_effort", "max_completion_tokens", "max_tokens",
    "response_format"]

/-- `convert_request`. -/
def convertRequest (request : Value) : Except ChatError ConvertedRequest := do
  let request ← intoRequestObject request "request"
  let (model, _) ← takeRequestString request "model" "model"
  failIf (model = "") (.invalid "model" "model must not be empty")
  let messages ← okOr (request.get "messages") (.invalid "messages" "messages is required")
  let stream ← convertStream (request.get "stream")
  let includeUsage ← convertField (request.get "stream_options") (convertStreamOptions · stream)
  checkN (request.get "n")
  let tools ← convertField (request.get "tools") convertTools
  failIf (stream && tools.isSome)
    (.invalid "tools" "tools are not supported with streaming Chat Completions")
  let toolChoice ← convertField (request.get "tool_choice") convertToolChoice
  let parallelToolCalls ← convertField (request.get "parallel_tool_calls")
    (requestBool · "parallel_tool_calls")
  let reasoningEffort ← convertField (request.get "reasoning_effort") convertReasoningEffort
  let reasoningEffort := reasoningEffort.bind id
  let _ ← convertField (request.get "max_completion_tokens")
    (validateIgnoredCompletionLimit · "max_completion_tokens")
  let _ ← convertField (request.get "max_tokens") (validateIgnoredCompletionLimit · "max_tokens")
  let text ← convertField (request.get "response_format") convertResponseFormat
  rejectUnknownRequestFields (chatRequestFields.foldl OrdMap.erase request) "request"
  let (instructions, input) ← convertMessages messages
  let upstream : Object := OrdMap.ofList [("model", .string model), ("input", .array input),
    ("stream", .bool true), ("store", .bool false)]
  let upstream := insertSome upstream "instructions" (instructions.map .string)
  let upstream := insertSome upstream "tools" tools
  let upstream := insertSome upstream "tool_choice" toolChoice
  let upstream := insertSome upstream "parallel_tool_calls" (parallelToolCalls.map .bool)
  let upstream := insertSome upstream "reasoning"
    (reasoningEffort.map fun effort => json [("effort", .string effort)])
  let upstream := insertSome upstream "text" (text.bind id)
  return {
    upstreamRequest := upstream
    model
    reasoningEffort
    stream
    includeUsage := includeUsage.getD false }

/-! ### What is accepted -/

theorem toObject_toValue (object : Object) : (Object.toValue object).toObject = some object := by
  simp [Value.toObject, Object.toValue, Value.asObject, OrdMap.ofList_entries]

theorem intoRequestObject_toValue (object : Object) (param : String) :
    intoRequestObject object.toValue param = .ok object := by
  rw [intoRequestObject, toObject_toValue]

theorem requireObject_toValue (object : Object) (context : String) :
    requireObject object.toValue context = .ok object := by
  rw [requireObject, toObject_toValue]

theorem takeRequestString_of_get {object : Object} {field s : String} (param : String)
    (h : object.get field = some (.string s)) :
    takeRequestString object field param = .ok (s, object.erase field) := by
  simp [takeRequestString, h, Value.asStr]

theorem takeRequestString_eq_ok {object : Object} {field param : String}
    {taken : String × Object} (h : takeRequestString object field param = .ok taken) :
    object.get field = some (.string taken.1) := by
  unfold takeRequestString at h
  split at h
  · rename_i value hvalue
    cases h
    obtain ⟨found, hfound, hstring⟩ := Option.bind_eq_some_iff.mp hvalue
    rw [hfound, Value.asStr_eq_some_iff.mp hstring]
  · cases h

/-- **Nothing is ignored.** The check passes exactly when no field is left. -/
theorem rejectUnknownRequestFields_eq_ok {object : Object} {context : String} {u : Unit} :
    rejectUnknownRequestFields object context = .ok u ↔ ∀ field, object.get field = none := by
  unfold rejectUnknownRequestFields
  split
  · rename_i hnil
    simp [OrdMap.get, hnil]
  · rename_i field value rest hcons
    refine iff_of_false (by simp) fun h => ?_
    have hfield := h field
    simp [OrdMap.get, hcons, Assoc.get] at hfield

theorem rejectUnknownRequestFields_of_get {object : Object} (context : String)
    (h : ∀ field, object.get field = none) : rejectUnknownRequestFields object context = .ok () :=
  rejectUnknownRequestFields_eq_ok.mpr h

theorem get_insertSome {object : Object} {field field' : String} {value : Option Value} :
    (insertSome object field value).get field' =
      if field' = field then value.or (object.get field') else object.get field' := by
  cases value with
  | none => simp [insertSome]
  | some value => simp [insertSome, OrdMap.get_insert]

/-- The effort of an accepted request is the string it has. -/
theorem convertReasoningEffort_eq_ok {value : Value} {effort : Option String}
    (h : convertReasoningEffort value = .ok effort) :
    (value = .null ∧ effort = none) ∨
      ∃ level ∈ reasoningEfforts, value = .string level ∧ effort = some level := by
  unfold convertReasoningEffort at h
  split at h
  · cases h
    exact .inl ⟨rfl, rfl⟩
  · rename_i level
    split_ifs at h with hlevel
    cases h
    exact .inr ⟨level, hlevel, rfl, rfl⟩
  · cases h

theorem convertField_eq_ok {α : Type} {value : Option Value}
    {convert : Value → Except ChatError α} {converted : Option α}
    (h : convertField value convert = .ok converted) :
    (value = none ∧ converted = none) ∨
      ∃ found result, value = some found ∧ convert found = .ok result ∧ converted = some result := by
  unfold convertField at h
  split at h
  · cases h
    exact .inl ⟨rfl, rfl⟩
  · rename_i found
    cases hresult : convert found with
    | error error =>
      rw [hresult] at h
      cases h
    | ok result =>
      rw [hresult] at h
      cases h
      exact .inr ⟨found, result, rfl, hresult, rfl⟩

/-- **An accepted request.** Its model and its effort are what its fields say, its messages are
converted, and the Responses request carries all three. -/
theorem convertRequest_eq_ok {request : Object} {accepted : ConvertedRequest}
    (h : convertRequest request.toValue = .ok accepted) :
    request.get "model" = some (.string accepted.model) ∧ accepted.model ≠ "" ∧
      ((request.get "reasoning_effort").bind Value.asStr) = accepted.reasoningEffort ∧
      (∃ messages instructions input, request.get "messages" = some messages ∧
        convertMessages messages = .ok (instructions, input) ∧
        accepted.upstreamRequest.get "input" = some (.array input)) ∧
      accepted.upstreamRequest.get "model" = some (.string accepted.model) ∧
      accepted.upstreamRequest.get "reasoning" =
        accepted.reasoningEffort.map fun effort => json [("effort", .string effort)] := by
  simp only [convertRequest, intoRequestObject_toValue, ok_bind, bind_eq_ok, failIf_eq_ok,
    okOr_eq_ok] at h
  obtain ⟨⟨model, rest⟩, hmodel, -, hempty, messages, hmessages, stream, -, includeUsage, -, -, -,
    tools, -, -, -, toolChoice, -, parallel, -, effort, heffort, -, -, -, -, text, -, -, -,
    ⟨instructions, input⟩, hinput, h⟩ := h
  cases h
  have heffort' : ((request.get "reasoning_effort").bind Value.asStr) = effort.bind id := by
    rcases convertField_eq_ok heffort with ⟨hnone, rfl⟩ | ⟨value, result, hsome, hvalue, rfl⟩
    · simp [hnone]
    · rw [hsome]
      rcases convertReasoningEffort_eq_ok hvalue with ⟨rfl, rfl⟩ | ⟨level, -, rfl, rfl⟩
      · rfl
      · rfl
  refine ⟨takeRequestString_eq_ok hmodel, hempty, heffort', ⟨messages, instructions, input,
    hmessages, hinput, ?_⟩, ?_, ?_⟩
  · simp [get_insertSome, OrdMap.ofList]
  · simp [get_insertSome, OrdMap.ofList]
  · simp [get_insertSome, OrdMap.ofList]

end CodexApi
