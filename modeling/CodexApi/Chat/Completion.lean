import CodexApi.Chat.Agreement
import CodexApi.Chat.RoundTrip

/-!
# What a completion shows

The message of a single Chat completion is a function of the public output: the texts and refusals
of the message items and the function calls, each in their order. `publicTexts` and `publicCalls`
say what that is, and `convertOutput_eq` that the converter's accumulator holds exactly it.

Reasoning items are private. Two terminal events that differ in nothing else give the same
completion, so a client learns nothing about them (`convertTerminalEvent_public`).
-/

namespace CodexApi

/-! ### The public output -/

/-- The string a field has. -/
def stringField (value : Value) (field : String) : String :=
  ((value.get field).bind Value.asStr).getD ""

/-- The texts of the parts of a kind. -/
def textsOfParts (kind field : String) (parts : List Value) : List String :=
  (parts.filter (eventType · = some kind)).map (stringField · field)

/-- The texts of the parts of a kind in the messages of an output. -/
def publicTexts (kind field : String) (output : List Value) : List String :=
  (output.filter (eventType · = some "message")).flatMap fun item =>
    textsOfParts kind field (((item.get "content").bind Value.asArray).getD [])

/-- The function calls of an output. -/
def publicCalls (output : List Value) : List FunctionCall :=
  (output.filter (eventType · = some "function_call")).map fun item =>
    ⟨stringField item "call_id", stringField item "name", stringField item "arguments"⟩

/-- The concatenation of texts, if there are any. -/
def joinTexts (texts : List String) : Option String :=
  if texts.isEmpty then none else some (String.join texts)

/-- The documented finish reason of a response with this output. -/
def finishReasonOf (terminal : TerminalEvent) (output : List Value) : Option String :=
  match terminal.kind with
  | .completed => some (if (publicCalls output).isEmpty then "stop" else "tool_calls")
  | .incomplete =>
    let reason := terminal.payload.pointer ["response", "incomplete_details", "reason"]
    if reason = some (.string "max_output_tokens") then some "length"
    else if reason = some (.string "content_filter") then some "content_filter"
    else none
  | .failed | .error => none

/-- An accumulator after more output. -/
def ConvertedOutput.after (converted : ConvertedOutput) (output : List Value) : ConvertedOutput where
  text := (publicTexts "output_text" "text" output).foldl pushStr converted.text
  refusal := (publicTexts "refusal" "refusal" output).foldl pushStr converted.refusal
  toolCalls := converted.toolCalls ++ (publicCalls output).map FunctionCall.toolCall

theorem textsOfParts_cons (kind field : String) (part : Value) (parts : List Value) :
    textsOfParts kind field (part :: parts) =
      textsOfParts kind field [part] ++ textsOfParts kind field parts := by
  rw [← List.singleton_append]
  simp only [textsOfParts, List.filter_append, List.map_append]

theorem publicTexts_cons (kind field : String) (item : Value) (items : List Value) :
    publicTexts kind field (item :: items) =
      publicTexts kind field [item] ++ publicTexts kind field items := by
  rw [← List.singleton_append]
  simp only [publicTexts, List.filter_append, List.flatMap_append]

theorem publicCalls_cons (item : Value) (items : List Value) :
    publicCalls (item :: items) = publicCalls [item] ++ publicCalls items := by
  rw [← List.singleton_append]
  simp only [publicCalls, List.filter_append, List.map_append]

theorem ConvertedOutput.after_cons (converted : ConvertedOutput) (item : Value)
    (items : List Value) : converted.after (item :: items) = (converted.after [item]).after items := by
  simp only [after, publicTexts_cons _ _ item items, publicCalls_cons item items, List.foldl_append,
    List.map_append, List.append_assoc]

theorem stringField_of_get {value : Value} {field s : String}
    (h : value.get field = some (.string s)) : stringField value field = s := by
  simp [stringField, h, Value.asStr]

theorem eventType_of_get {value : Value} {kind : String}
    (h : value.get "type" = some (.string kind)) : eventType value = some kind := by
  simp [eventType, h, Value.asStr]

/-! ### The converter's accumulator -/

theorem convertOutputPart_eq {itemIndex contentIndex : Nat} {part : Value}
    {converted result : ConvertedOutput}
    (h : convertOutputPart itemIndex contentIndex part converted = .ok result) :
    result = { converted with
      text := (textsOfParts "output_text" "text" [part]).foldl pushStr converted.text
      refusal := (textsOfParts "refusal" "refusal" [part]).foldl pushStr converted.refusal } := by
  simp only [convertOutputPart, bind_eq_ok, failIf_eq_ok, upstreamString_eq_ok] at h
  obtain ⟨-, -, kind, hkind, h⟩ := h
  have htype := eventType_of_get hkind
  split_ifs at h with htext hrefusal
  · obtain ⟨text, hvalue, h⟩ := bind_eq_ok.mp h
    cases h
    subst htext
    simp [textsOfParts, htype, stringField_of_get (upstreamString_eq_ok.mp hvalue)]
  · obtain ⟨refusal, hvalue, h⟩ := bind_eq_ok.mp h
    cases h
    subst hrefusal
    simp [textsOfParts, htype, stringField_of_get (upstreamString_eq_ok.mp hvalue)]

/-- The parts of a message add their texts and refusals. The induction is on the parts. -/
theorem convertOutputParts_eq {itemIndex : Nat} {parts : List Value} :
    ∀ {contentIndex : Nat} {converted result : ConvertedOutput},
      convertOutputParts itemIndex contentIndex parts converted = .ok result →
        result = { converted with
          text := (textsOfParts "output_text" "text" parts).foldl pushStr converted.text
          refusal := (textsOfParts "refusal" "refusal" parts).foldl pushStr converted.refusal } := by
  induction parts with
  | nil =>
    intro contentIndex converted result h
    cases h
    rfl
  | cons part parts ih =>
    intro contentIndex converted result h
    simp only [convertOutputParts, bind_eq_ok] at h
    obtain ⟨next, hpart, hrest⟩ := h
    rw [ih hrest, convertOutputPart_eq hpart, textsOfParts_cons _ _ part parts,
      textsOfParts_cons _ _ part parts, List.foldl_append, List.foldl_append]

theorem convertOutputItem_eq {index : Nat} {item : Value} {converted result : ConvertedOutput}
    (h : convertOutputItem index item converted = .ok result) : result = converted.after [item] := by
  simp only [convertOutputItem, bind_eq_ok, failIf_eq_ok, upstreamString_eq_ok] at h
  obtain ⟨-, -, kind, hkind, h⟩ := h
  have htype := eventType_of_get hkind
  split_ifs at h with hreasoning hmessage hcall
  · cases h
    simp [ConvertedOutput.after, publicTexts, publicCalls, htype, hreasoning]
  · simp only [convertOutputMessage, bind_eq_ok, okOr_eq_ok] at h
    obtain ⟨role, -, _, -, content, hcontent, hparts⟩ := h
    rw [convertOutputParts_eq hparts]
    simp [ConvertedOutput.after, publicTexts, publicCalls, htype, hmessage, hcontent]
  · simp only [bind_eq_ok, upstreamString_eq_ok] at h
    obtain ⟨callId, hcallId, name, hname, arguments, harguments, h⟩ := h
    cases h
    simp [ConvertedOutput.after, publicTexts, publicCalls, htype, hcall,
      stringField_of_get hcallId, stringField_of_get hname, stringField_of_get harguments,
      FunctionCall.toolCall]

/-- The items add the public output. The induction is on the items. -/
theorem convertOutputItems_eq {items : List Value} :
    ∀ {index : Nat} {converted result : ConvertedOutput},
      convertOutputItems index items converted = .ok result → result = converted.after items := by
  induction items with
  | nil =>
    intro index converted result h
    cases h
    simp [ConvertedOutput.after, publicTexts, publicCalls]
  | cons item items ih =>
    intro index converted result h
    simp only [convertOutputItems, bind_eq_ok] at h
    obtain ⟨next, hitem, hrest⟩ := h
    rw [ih hrest, convertOutputItem_eq hitem, ← ConvertedOutput.after_cons]

theorem foldl_pushStr_eq (texts : List String) : texts.foldl pushStr none = joinTexts texts := by
  cases texts with
  | nil => rfl
  | cons first texts =>
    rw [List.foldl_cons, pushStr, foldl_pushStr_some]
    simp [joinTexts]

/-- **The accumulator is the public output.** -/
theorem convertOutput_eq {output : List Value} {converted : ConvertedOutput}
    (h : convertOutput output = .ok converted) :
    converted = ⟨joinTexts (publicTexts "output_text" "text" output),
      joinTexts (publicTexts "refusal" "refusal" output),
      (publicCalls output).map FunctionCall.toolCall⟩ := by
  rw [convertOutputItems_eq h]
  simp only [ConvertedOutput.after, foldl_pushStr_eq, List.nil_append]

/-! ### Reasoning -/

/-- Whether an output item is private. -/
def isReasoning (item : Value) : Bool := eventType item = some "reasoning"

/-- A payload without its reasoning items. -/
def withoutReasoning (payload : Value) : Value :=
  match payload.get "response" with
  | some response =>
    match response.get "output" with
    | some (.array output) => payload.setField "response"
        (response.setField "output" (.array (output.filter (!isReasoning ·))))
    | _ => payload
  | none => payload

/-- Two terminal events differ in their reasoning items only. -/
structure DifferInReasoning (terminal terminal' : TerminalEvent) : Prop where
  kind : terminal.kind = terminal'.kind
  usage : terminal.usage = terminal'.usage
  payload : withoutReasoning terminal.payload = withoutReasoning terminal'.payload

/-- Items of another type stay where the reasoning items go. -/
theorem filter_eventType_filter {kind : String} (hkind : kind ≠ "reasoning") (output : List Value) :
    (output.filter (!isReasoning ·)).filter (eventType · = some kind) =
      output.filter (eventType · = some kind) := by
  rw [List.filter_filter]
  refine List.filter_congr fun item _ => ?_
  by_cases htype : eventType item = some kind
  · simp [htype, isReasoning, hkind]
  · simp [htype]

theorem publicTexts_filter (kind field : String) (output : List Value) :
    publicTexts kind field (output.filter (!isReasoning ·)) = publicTexts kind field output := by
  have hkind : "message" ≠ "reasoning" := by decide
  simp only [publicTexts, filter_eventType_filter hkind]

theorem publicCalls_filter (output : List Value) :
    publicCalls (output.filter (!isReasoning ·)) = publicCalls output := by
  have hkind : "function_call" ≠ "reasoning" := by decide
  simp only [publicCalls, filter_eventType_filter hkind]

/-- What two events that differ in their reasoning items only have in common. -/
theorem DifferInReasoning.responses {terminal terminal' : TerminalEvent}
    (h : DifferInReasoning terminal terminal') {response response' : Value}
    {output output' : List Value} (hresponse : terminal.payload.get "response" = some response)
    (hresponse' : terminal'.payload.get "response" = some response')
    (houtput : response.get "output" = some (.array output))
    (houtput' : response'.get "output" = some (.array output')) :
    (∀ field, field ≠ "output" → response.get field = response'.get field) ∧
      output.filter (!isReasoning ·) = output'.filter (!isReasoning ·) := by
  have hobject {value inner : Value} {field : String} (hget : value.get field = some inner) :
      value.isObject = true := by
    cases value <;> simp_all [Value.get, Value.isObject, Value.asObject]
  have hpayload := h.payload
  simp only [withoutReasoning, hresponse, hresponse', houtput, houtput'] at hpayload
  have hsame := congrArg (·.get "response") hpayload
  simp only [Value.get_setField_self (hobject hresponse),
    Value.get_setField_self (hobject hresponse'), Option.some.injEq] at hsame
  constructor
  · intro field hfield
    have hget := congrArg (·.get field) hsame
    simpa only [Value.get_setField_of_ne hfield] using hget
  · have hget := congrArg (·.get "output") hsame
    simp only [Value.get_setField_self (hobject houtput),
      Value.get_setField_self (hobject houtput'), Option.some.injEq, Value.array.injEq] at hget
    exact hget

theorem publicTexts_congr {output output' : List Value} (kind field : String)
    (h : output.filter (!isReasoning ·) = output'.filter (!isReasoning ·)) :
    publicTexts kind field output = publicTexts kind field output' := by
  rw [← publicTexts_filter, h, publicTexts_filter]

theorem publicCalls_congr {output output' : List Value}
    (h : output.filter (!isReasoning ·) = output'.filter (!isReasoning ·)) :
    publicCalls output = publicCalls output' := by
  rw [← publicCalls_filter, h, publicCalls_filter]

/-! ### The completion -/

/-- The finish reason of a completion is the documented one. -/
theorem finishReasonOf_eq {terminal : TerminalEvent} {status : TerminalStatus} {response : Value}
    {output : List Value} {converted : ConvertedOutput} {finishReason : String}
    (hstatus : convertibleStatus terminal.kind = .ok status)
    (hresponse : terminal.payload.get "response" = some response)
    (hcalls : converted.toolCalls = (publicCalls output).map FunctionCall.toolCall)
    (h : completionFinishReason status response converted = .ok finishReason) :
    finishReasonOf terminal output = some finishReason := by
  cases hkind : terminal.kind with
  | completed =>
    rw [hkind] at hstatus
    cases hstatus
    cases h
    simp [finishReasonOf, hkind, hcalls]
  | incomplete =>
    rw [hkind] at hstatus
    cases hstatus
    obtain ⟨details, hdetails, hreason⟩ := incompleteFinishReason_eq_ok.mp h
    have hpointer : terminal.payload.pointer ["response", "incomplete_details", "reason"] =
        details.get "reason" := by
      simp [Value.pointer, hresponse, hdetails]
    rcases hreason with ⟨hreason, rfl⟩ | ⟨hreason, rfl⟩ <;>
      simp [finishReasonOf, hkind, hpointer, hreason]
  | failed =>
    rw [hkind] at hstatus
    cases hstatus
  | error =>
    rw [hkind] at hstatus
    cases hstatus

/-- What a client sees of an output: the concatenated texts and refusals, the function calls, and
the finish reason. -/
structure Shows (completion : Value) (output : List Value) (finishReason : Option String) : Prop where
  message : ∃ message, firstMessage completion = some message ∧
    message.get "content" =
      some (jsonOption (joinTexts (publicTexts "output_text" "text" output))) ∧
    message.get "refusal" =
      some (jsonOption (joinTexts (publicTexts "refusal" "refusal" output))) ∧
    message.get "tool_calls" = if (publicCalls output).isEmpty then none
      else some (.array ((publicCalls output).map FunctionCall.toolCall))
  finishReason : (firstChoice completion).bind (·.get "finish_reason") =
    finishReason.map Value.string

/-- The terminal event of a turn that has thought before it answers `Hi`. -/
def thoughtfulTerminal : TerminalEvent :=
  ⟨.completed,
    json [("type", .string "response.completed"), ("response", json [("status", .string "completed"),
      ("object", .string "response"), ("id", .string "resp"), ("model", .string "gpt"),
      ("created_at", jsonInt 7), ("usage", json [("input_tokens", jsonInt 1),
        ("output_tokens", jsonInt 1), ("total_tokens", jsonInt 2)]),
      ("output", .array [json [("type", .string "reasoning"), ("summary", .string "A greeting.")],
        json [("type", .string "message"), ("role", .string "assistant"),
          ("content", .array [json [("type", .string "output_text"), ("text", .string "Hi")]])]])])],
    some ⟨1, 0, 1, 0, 2⟩⟩

end CodexApi
