import CodexApi.Chat.Request

/-!
# Sending an assistant message back

A client continues a chat by sending the assistant message of a completion back among its messages.
The two halves of the conversion agree on everything but one key: `convertTerminalEvent` always
writes `refusal`, which `convertAssistantMessage` does not know. So no message is accepted as
returned (`roundTrip_never`). Without that key every message with text or tool calls is, and becomes
the text and the function calls it was made of (`convertMessage_of_erase_refusal`).
-/

namespace CodexApi

/-! ### The message of a completion -/

/-- The message of the first choice of a completion. -/
def firstMessage (completion : Value) : Option Value :=
  (firstChoice completion).bind (·.get "message")

/-- A tool call: its id, and the name and the arguments of the function. -/
structure FunctionCall where
  callId : String
  name : String
  arguments : String

/-- A tool call in a message. -/
def FunctionCall.toolCall (call : FunctionCall) : Value :=
  json [("id", .string call.callId), ("type", .string "function"),
    ("function", json [("name", .string call.name), ("arguments", .string call.arguments)])]

/-- A tool call in a Responses input. -/
def FunctionCall.item (call : FunctionCall) : Value :=
  functionCallItem call.callId call.name call.arguments

/-- The input items for a text and tool calls. -/
def assistantItems (text : Option String) (calls : List FunctionCall) : List Value :=
  (text.map fun text => responsesMessage "assistant" [responsesTextPart "output_text" text]).toList ++
    calls.map FunctionCall.item

/-- A message with this text and these tool calls. -/
def MessageOf (message : Value) (text : Option String) (calls : List FunctionCall) : Prop :=
  message.index "content" = jsonOption text ∧
    message.get "tool_calls" =
      if calls.isEmpty then none else some (.array (calls.map FunctionCall.toolCall))

/-- The message comes back: a request that ends with it is accepted, and its input ends with the
items of the message. -/
def ComesBack (message : Value) (request : Object) : Prop :=
  ∀ text calls, MessageOf message text calls → (text.isSome = true ∨ calls ≠ []) →
    ∃ accepted earlier, convertRequest request.toValue = .ok accepted ∧
      accepted.upstreamRequest.get "input" = some (.array (earlier ++ assistantItems text calls))

theorem firstMessage_completionJson (metadata : ChatMetadata) (converted : ConvertedOutput)
    (finishReason : String) (usage : Usage) :
    firstMessage (completionJson metadata converted finishReason usage) =
      some (chatMessage converted).toValue := by
  simp [firstMessage, firstChoice_completionJson, get_json, OrdMap.ofList]

theorem toolCalls_convertOutputParts {parts : List Value} {itemIndex : Nat} :
    ∀ {contentIndex : Nat} {converted result : ConvertedOutput},
      convertOutputParts itemIndex contentIndex parts converted = .ok result →
        result.toolCalls = converted.toolCalls := by
  induction parts with
  | nil =>
    intro contentIndex converted result h
    cases h
    rfl
  | cons part parts ih =>
    intro contentIndex converted result h
    simp only [convertOutputParts, bind_eq_ok] at h
    obtain ⟨next, hpart, hrest⟩ := h
    rw [ih hrest]
    simp only [convertOutputPart, bind_eq_ok] at hpart
    obtain ⟨-, -, kind, -, hpart⟩ := hpart
    split_ifs at hpart
    · obtain ⟨text, -, hpart⟩ := bind_eq_ok.mp hpart
      cases hpart
      rfl
    · obtain ⟨refusal, -, hpart⟩ := bind_eq_ok.mp hpart
      cases hpart
      rfl

/-- An item adds at most one tool call. -/
theorem toolCalls_convertOutputItem {item : Value} {index : Nat}
    {converted result : ConvertedOutput} (h : convertOutputItem index item converted = .ok result)
    (hcalls : ∃ calls : List FunctionCall, converted.toolCalls = calls.map FunctionCall.toolCall) :
    ∃ calls : List FunctionCall, result.toolCalls = calls.map FunctionCall.toolCall := by
  obtain ⟨calls, hcalls⟩ := hcalls
  simp only [convertOutputItem, bind_eq_ok] at h
  obtain ⟨-, -, kind, -, h⟩ := h
  split_ifs at h
  · cases h
    exact ⟨calls, hcalls⟩
  · simp only [convertOutputMessage, bind_eq_ok] at h
    obtain ⟨role, -, -, -, content, -, hparts⟩ := h
    exact ⟨calls, (toolCalls_convertOutputParts hparts).trans hcalls⟩
  · simp only [bind_eq_ok] at h
    obtain ⟨callId, -, name, -, arguments, -, h⟩ := h
    cases h
    refine ⟨calls ++ [⟨callId, name, arguments⟩], ?_⟩
    simp [hcalls, FunctionCall.toolCall]

/-- The tool calls of converted items are tool calls. -/
theorem toolCalls_convertOutputItems {items : List Value} :
    ∀ {index : Nat} {converted result : ConvertedOutput},
      convertOutputItems index items converted = .ok result →
        (∃ calls : List FunctionCall, converted.toolCalls = calls.map FunctionCall.toolCall) →
          ∃ calls : List FunctionCall, result.toolCalls = calls.map FunctionCall.toolCall := by
  induction items with
  | nil =>
    intro index converted result h hcalls
    cases h
    exact hcalls
  | cons item items ih =>
    intro index converted result h hcalls
    simp only [convertOutputItems, bind_eq_ok] at h
    obtain ⟨next, hitem, hrest⟩ := h
    exact ih hrest (toolCalls_convertOutputItem hitem hcalls)

/-- The tool calls of a completion are tool calls. -/
theorem toolCalls_convertOutput {output : List Value} {converted : ConvertedOutput}
    (h : convertOutput output = .ok converted) :
    ∃ calls : List FunctionCall, converted.toolCalls = calls.map FunctionCall.toolCall :=
  toolCalls_convertOutputItems h ⟨[], rfl⟩

/-- A completion's message carries the text and the tool calls it was made of. -/
theorem messageOf_chatMessage {converted : ConvertedOutput} {calls : List FunctionCall}
    (h : converted.toolCalls = calls.map FunctionCall.toolCall) :
    MessageOf (chatMessage converted).toValue converted.text calls := by
  constructor
  · simp [Value.index, get_chatMessage]
  · cases calls <;> simp [get_chatMessage, h]

/-! ### No message comes back -/

/-- An assistant message with a refusal key is rejected. -/
theorem convertMessage_of_refusal (message : Object) {refusal : Value} (context : String)
    (hrole : message.get "role" = some (.string "assistant"))
    (hrefusal : message.get "refusal" = some refusal) :
    ∃ error, convertMessage message.toValue context = .error error := by
  have hleft : (((message.erase "role").erase "content").erase "tool_calls").get "refusal" =
      some refusal := by
    simp [hrefusal]
  have hassistant : ∃ error,
      convertAssistantMessage (message.erase "role") context = .error error := by
    unfold convertAssistantMessage
    cases hreject : rejectUnknownRequestFields
        (((message.erase "role").erase "content").erase "tool_calls") context with
    | error error => exact ⟨error, by simp only [error_bind]⟩
    | ok _ =>
      rw [rejectUnknownRequestFields_eq_ok.mp hreject "refusal"] at hleft
      cases hleft
  obtain ⟨error, hassistant⟩ := hassistant
  refine ⟨error, ?_⟩
  simp only [convertMessage, requireObject_toValue, ok_bind, takeRequestString_of_get _ hrole,
    hassistant]
  rfl

theorem convertMessage_of_convertMessagesFrom {values : List Value} :
    ∀ {index : Nat} {converted : List String × List Value},
      convertMessagesFrom index values = .ok converted →
        ∀ value ∈ values, ∃ context result, convertMessage value context = .ok result := by
  induction values with
  | nil => simp
  | cons first values ih =>
    intro index converted h value hmem
    simp only [convertMessagesFrom, bind_eq_ok] at h
    obtain ⟨result, hfirst, rest, hrest, -⟩ := h
    rcases List.mem_cons.mp hmem with rfl | hmem
    · exact ⟨_, result, hfirst⟩
    · exact ih hrest value hmem

/-- Every message of an accepted request is accepted. -/
theorem convertMessage_of_convertRequest {request : Object} {messages : List Value}
    {accepted : ConvertedRequest} (hmessages : request.get "messages" = some (.array messages))
    (h : convertRequest request.toValue = .ok accepted) {message : Value}
    (hmem : message ∈ messages) :
    ∃ context result, convertMessage message context = .ok result := by
  obtain ⟨-, -, -, ⟨messages', instructions, input, hmessages', hinput, -⟩, -⟩ :=
    convertRequest_eq_ok h
  have hsame : messages' = .array messages := by
    rw [hmessages'] at hmessages
    exact Option.some.inj hmessages
  rw [hsame] at hinput
  simp only [convertMessages, Value.asArray, okOr, ok_bind, bind_eq_ok, failIf_eq_ok] at hinput
  obtain ⟨-, -, converted, hconvert, -⟩ := hinput
  exact convertMessage_of_convertMessagesFrom hconvert message hmem

/-- **No message comes back.** Whatever terminal event was converted into a message with text or
tool calls, and whatever request ends with that message, the request is not accepted. -/
theorem roundTrip_never {terminal : TerminalEvent} {completion : ConvertedTerminal}
    {message : Value} {text : Option String} {calls : List FunctionCall} {request : Object}
    (earlier : List Value) (hconvert : convertTerminalEvent terminal = .ok completion)
    (hmessage : firstMessage completion.chatCompletion = some message)
    (hof : MessageOf message text calls) (hanswer : text.isSome = true ∨ calls ≠ [])
    (hrequest : request.get "messages" = some (.array (earlier ++ [message]))) :
    ¬ ComesBack message request := by
  intro hcomesBack
  obtain ⟨accepted, -, haccepted, -⟩ := hcomesBack text calls hof hanswer
  obtain ⟨status, response, metadata, usage, output, converted, finishReason, -, -, -, -, -, -, -,
    -, -, -, -, -, -, rfl⟩ := convertTerminalEvent_eq_ok.mp hconvert
  rw [firstMessage_completionJson] at hmessage
  obtain ⟨context, result, hresult⟩ := convertMessage_of_convertRequest hrequest haccepted
    (List.mem_append_right _ (List.mem_singleton_self message))
  cases hmessage
  obtain ⟨error, herror⟩ := convertMessage_of_refusal (chatMessage converted) context
    (by simp [get_chatMessage]) (by simp [get_chatMessage]; rfl)
  rw [herror] at hresult
  cases hresult

/-- The terminal event of a turn that answers `Hi`. -/
def greetingPayload : Value :=
  json [("type", .string "response.completed"), ("response", json [("status", .string "completed"),
    ("object", .string "response"), ("id", .string "resp"), ("model", .string "gpt"),
    ("created_at", jsonInt 7), ("usage", json [("input_tokens", jsonInt 1),
      ("output_tokens", jsonInt 1), ("total_tokens", jsonInt 2)]),
    ("output", .array [json [("type", .string "message"), ("role", .string "assistant"),
      ("content", .array [json [("type", .string "output_text"), ("text", .string "Hi")]])]])])]

/-- That event, validated. -/
def greetingTerminal : TerminalEvent := ⟨.completed, greetingPayload, some ⟨1, 0, 1, 0, 2⟩⟩

/-- The message of that turn. -/
def greetingMessage : Value :=
  json [("role", .string "assistant"), ("content", .string "Hi"), ("refusal", .null)]

/-- The completion of that turn. -/
def greetingCompletion : ConvertedTerminal :=
  ⟨completionJson ⟨"resp", 7, "gpt"⟩ ⟨some "Hi", none, []⟩ "stop" ⟨1, 0, 1, 0, 2⟩,
    ⟨1, 0, 1, 0, 2⟩, .completed⟩

/-- The request that sends the message back. -/
def greetingRequest : Object :=
  OrdMap.ofList [("model", .string "gpt"), ("messages", .array [greetingMessage])]

private theorem convertTerminalEvent_greeting :
    convertTerminalEvent greetingTerminal = .ok greetingCompletion := by
  decide

private theorem messageOf_greeting : MessageOf greetingMessage (some "Hi") [] := by
  constructor <;> decide

/-- **A plain answer does not come back.** -/
theorem greeting_rejected :
    parseTerminalPayload greetingPayload = .ok (some greetingTerminal) ∧
      convertTerminalEvent greetingTerminal = .ok greetingCompletion ∧
      firstMessage greetingCompletion.chatCompletion = some greetingMessage ∧
      MessageOf greetingMessage (some "Hi") [] ∧
      convertRequest greetingRequest.toValue =
        .error (.invalid "messages[0].refusal" "unsupported field messages[0].refusal") ∧
      ¬ ComesBack greetingMessage greetingRequest := by
  have hrejected : convertRequest greetingRequest.toValue =
      .error (.invalid "messages[0].refusal" "unsupported field messages[0].refusal") := by
    decide
  refine ⟨by decide, convertTerminalEvent_greeting, by decide, messageOf_greeting, hrejected, ?_⟩
  intro hcomesBack
  obtain ⟨accepted, -, haccepted, -⟩ := hcomesBack (some "Hi") [] messageOf_greeting (.inl rfl)
  rw [hrejected] at haccepted
  cases haccepted

/-- `roundTrip_never` on a request that sends a plain answer back. -/
theorem roundTrip_never_greeting : ¬ ComesBack greetingMessage greetingRequest :=
  roundTrip_never [] convertTerminalEvent_greeting (by decide) messageOf_greeting (.inl rfl)
    (by decide)

/-! ### Without the refusal every message does -/

/-- A tool call of a completion is accepted as a tool call of a message. -/
theorem convertAssistantToolCall_toolCall (call : FunctionCall) (context : String) :
    convertAssistantToolCall call.toolCall context = .ok call.item := by
  simp only [convertAssistantToolCall, FunctionCall.toolCall, json, requireObject_toValue, ok_bind]
  simp only [takeRequestString, OrdMap.ofList, List.foldl_cons, List.foldl_nil]
  simp [Value.asStr, failIf, okOr, intoRequestObject_toValue]
  -- What is left of the call and of its function are empty objects.
  rw [rejectUnknownRequestFields_of_get, ok_bind, rejectUnknownRequestFields_of_get]
  · rfl
  · intro field
    simp only [OrdMap.get_erase, OrdMap.get_insert, OrdMap.get_empty]
    grind
  · intro field
    simp only [OrdMap.get_erase, OrdMap.get_insert, OrdMap.get_empty]
    grind

theorem convertAssistantToolCalls_map (calls : List FunctionCall) (context : String) :
    ∀ index, convertAssistantToolCalls context index (calls.map FunctionCall.toolCall) =
      .ok (calls.map FunctionCall.item) := by
  induction calls with
  | nil => simp [convertAssistantToolCalls]
  | cons call calls ih =>
    intro index
    simp only [List.map_cons, convertAssistantToolCalls, convertAssistantToolCall_toolCall,
      ok_bind, ih]
    rfl

/-- **Without its refusal every message comes back** as the text and the function calls it was
made of. -/
theorem convertMessage_of_erase_refusal {converted : ConvertedOutput} {calls : List FunctionCall}
    (hcalls : converted.toolCalls = calls.map FunctionCall.toolCall)
    (hanswer : converted.text.isSome = true ∨ calls ≠ []) (context : String) :
    convertMessage (Object.toValue ((chatMessage converted).erase "refusal")) context =
      .ok ([], assistantItems converted.text calls) := by
  have hrole : ((chatMessage converted).erase "refusal").get "role" =
      some (.string "assistant") := by
    simp [get_chatMessage]
  have hcontentItems : assistantContentItems
      ((((chatMessage converted).erase "refusal").erase "role").get "content") context =
        .ok (converted.text.map fun text =>
          responsesMessage "assistant" [responsesTextPart "output_text" text]).toList := by
    have hget : (((chatMessage converted).erase "refusal").erase "role").get "content" =
        some (jsonOption converted.text) := by
      simp [get_chatMessage]
    rw [hget]
    cases converted.text <;> rfl
  have htoolItems : assistantToolItems
      ((((chatMessage converted).erase "refusal").erase "role").get "tool_calls") context =
        .ok (calls.map FunctionCall.item) := by
    cases calls with
    | nil => simp [get_chatMessage, hcalls, assistantToolItems]
    | cons call calls =>
      have hget : (((chatMessage converted).erase "refusal").erase "role").get "tool_calls" =
          some (.array ((call :: calls).map FunctionCall.toolCall)) := by
        simp [get_chatMessage, hcalls]
      rw [hget]
      exact convertAssistantToolCalls_map (call :: calls) context 0
  have hnothingLeft : ∀ field, (((((chatMessage converted).erase "refusal").erase "role").erase
      "content").erase "tool_calls").get field = none := by
    intro field
    simp only [OrdMap.get_erase, get_chatMessage]
    grind
  have hitems : assistantItems converted.text calls ≠ [] := by
    rcases hanswer with hsome | hne
    · obtain ⟨text, htext⟩ := Option.isSome_iff_exists.mp hsome
      simp [assistantItems, htext]
    · simp [assistantItems, hne]
  have hassistant : convertAssistantMessage
      (((chatMessage converted).erase "refusal").erase "role") context =
        .ok (assistantItems converted.text calls) := by
    simp only [convertAssistantMessage, hcontentItems, htoolItems,
      rejectUnknownRequestFields_of_get _ hnothingLeft, ok_bind]
    rw [assistantItems] at hitems
    rw [failIf, if_neg hitems]
    rfl
  simp only [convertMessage, requireObject_toValue, ok_bind, takeRequestString_of_get _ hrole,
    hassistant]
  rfl

end CodexApi
