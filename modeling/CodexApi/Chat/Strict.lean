import CodexApi.Chat.History

/-!
# Fields of a Chat request

No field of a Chat request is dropped without a word. `ChatPlace` lists the objects that the
converter reads, with the fields each of them may have; in an accepted request every one of them has
no other field (`hasOnly_of_place`), so a request with another field somewhere is refused, and
refused as an invalid request.

Two objects are handed on as they are: the `parameters` of a tool and the `json_schema` of a
response format. The first arrives unchanged. The second gets a `type`, which replaces one that the
client has put there (`schemaType_dropped`); every other field of it arrives.
-/

namespace CodexApi

/-! ### Paths into a value -/

/-- A step into a JSON value. -/
inductive JsonStep
  | field (name : String)
  | item (index : Nat)
deriving DecidableEq

/-- The value at the end of a path. -/
def Value.follow : Value → List JsonStep → Option Value
  | value, [] => some value
  | value, .field name :: path => (value.toObject.bind (·.get name)).bind (·.follow path)
  | value, .item index :: path => (value.asArray.bind (·[index]?)).bind (·.follow path)

theorem follow_append (path path' : List JsonStep) : ∀ value : Value,
    value.follow (path ++ path') = (value.follow path).bind (·.follow path') := by
  induction path with
  | nil => exact fun _ => rfl
  | cons step path ih =>
    intro value
    cases step with
    | field name => simp only [List.cons_append, Value.follow, ih, Option.bind_assoc]
    | item index => simp only [List.cons_append, Value.follow, ih, Option.bind_assoc]

/-- A value with one more field in the object at the end of a path. -/
def addFieldAt (key : String) (added : Value) : List JsonStep → Value → Value
  | [], value =>
    match value.toObject with
    | some fields => Object.toValue (fields.insert key added)
    | none => value
  | .field name :: path, value =>
    match value.toObject with
    | some fields =>
      match fields.get name with
      | some inner => Object.toValue (fields.insert name (addFieldAt key added path inner))
      | none => value
    | none => value
  | .item index :: path, value =>
    match value with
    | .array items => .array (items.modify index (addFieldAt key added path))
    | value => value

/-- The field is where it has been added. -/
theorem follow_addFieldAt {key : String} {added inner : Value} {object : Object}
    (hobject : inner.toObject = some object) {path : List JsonStep} :
    ∀ {value : Value}, value.follow path = some inner →
      (addFieldAt key added path value).follow path =
        some (Object.toValue (object.insert key added)) := by
  induction path with
  | nil =>
    intro value h
    obtain rfl : value = inner := Option.some.inj h
    simp [addFieldAt, Value.follow, hobject]
  | cons step path ih =>
    intro value h
    cases step with
    | field name =>
      simp only [Value.follow, Option.bind_eq_some_iff] at h
      obtain ⟨found, ⟨outer, houter, hfound⟩, hfollow⟩ := h
      simp only [addFieldAt, houter, hfound, Value.follow, toObject_toValue, Option.bind_some,
        OrdMap.get_insert_self]
      exact ih hfollow
    | item index =>
      simp only [Value.follow, Option.bind_eq_some_iff, Value.asArray_eq_some_iff] at h
      obtain ⟨found, ⟨items, rfl, hfound⟩, hfollow⟩ := h
      simp only [addFieldAt, Value.follow, Value.asArray, Option.bind_some,
        List.getElem?_modify_eq, hfound]
      exact ih hfollow

/-! ### The objects of a request -/

/-- An object of a Chat request that the converter reads. -/
inductive ChatPlace
  | request
  | streamOptions
  | message (index : Nat)
  | contentPart (message part : Nat)
  | toolCall (message call : Nat)
  | toolCallFunction (message call : Nat)
  | tool (index : Nat)
  | toolFunction (index : Nat)
  | toolChoice
  | toolChoiceFunction
  | responseFormat

namespace ChatPlace

/-- Where it stands. -/
def path : ChatPlace → List JsonStep
  | request => []
  | streamOptions => [.field "stream_options"]
  | message index => [.field "messages", .item index]
  | contentPart index part => [.field "messages", .item index, .field "content", .item part]
  | toolCall index call => [.field "messages", .item index, .field "tool_calls", .item call]
  | toolCallFunction index call =>
    [.field "messages", .item index, .field "tool_calls", .item call, .field "function"]
  | tool index => [.field "tools", .item index]
  | toolFunction index => [.field "tools", .item index, .field "function"]
  | toolChoice => [.field "tool_choice"]
  | toolChoiceFunction => [.field "tool_choice", .field "function"]
  | responseFormat => [.field "response_format"]

/-- The fields of a message with a role. -/
def messageFields (role : Option String) : List String :=
  if role = some "assistant" then ["role", "content", "tool_calls"]
  else if role = some "tool" then ["role", "tool_call_id", "content"]
  else ["role", "content"]

/-- The fields that are supported there. Those of a message depend on its role, and those of a
response format on its type. -/
def supportedFields (object : Object) : ChatPlace → List String
  | request => chatRequestFields
  | streamOptions => ["include_usage"]
  | message _ => messageFields ((object.get "role").bind Value.asStr)
  | contentPart _ _ => ["type", "text"]
  | toolCall _ _ => ["id", "type", "function"]
  | toolCallFunction _ _ => ["name", "arguments"]
  | tool _ => ["type", "function"]
  | toolFunction _ => ["name", "parameters", "description", "strict"]
  | toolChoice => ["type", "function"]
  | toolChoiceFunction => ["name"]
  | responseFormat =>
    if (object.get "type").bind Value.asStr = some "json_schema" then ["type", "json_schema"]
    else ["type"]

/-- An unsupported field more does not change what is supported. -/
theorem supportedFields_insert {object : Object} {place : ChatPlace} {key : String} (added : Value)
    (h : key ∉ place.supportedFields object) :
    place.supportedFields (object.insert key added) = place.supportedFields object := by
  cases place with
  | message index =>
    have hrole : "role" ≠ key := by
      rintro rfl
      simp only [supportedFields, messageFields] at h
      split_ifs at h <;> simp at h
    simp only [supportedFields, OrdMap.get_insert_of_ne hrole]
  | responseFormat =>
    have htype : "type" ≠ key := by
      rintro rfl
      simp only [supportedFields] at h
      split_ifs at h <;> simp at h
    simp only [supportedFields, OrdMap.get_insert_of_ne htype]
  | _ => rfl

end ChatPlace

/-! ### What the converters accept -/

theorem convertStreamOptions_fields {value : Value} {stream includeUsage : Bool}
    (h : convertStreamOptions value stream = .ok includeUsage) :
    ∃ object, value.toObject = some object ∧ object.HasOnly ["include_usage"] := by
  simp only [convertStreamOptions, bind_eq_ok, intoRequestObject_eq_ok] at h
  obtain ⟨_, -, object, hobject, usage, -, _, hfields, -⟩ := h
  exact ⟨object, hobject, (rejectUnknownRequestFields_erased ["include_usage"]).mp hfields⟩

/-- The fields of a tool and of its function, and the parameters it is handed on with. -/
structure ToolFields (value converted : Value) : Prop where
  fields : ∃ object functionValue function, value.toObject = some object ∧
    object.HasOnly ["type", "function"] ∧ object.get "function" = some functionValue ∧
    functionValue.toObject = some function ∧
    function.HasOnly ["name", "parameters", "description", "strict"] ∧
    ∀ parameters, function.get "parameters" = some (.object parameters) →
      converted.follow [.field "parameters"] = some (.object parameters)

theorem convertTool_fields {value converted : Value} {context : String}
    (h : convertTool value context = .ok converted) : ToolFields value converted := by
  simp only [convertTool, bind_eq_ok, requireObject_eq_ok, intoRequestObject_eq_ok,
    takeRequestString_eq_ok_iff, failIf_eq_ok, okOr_eq_ok, Prod.exists] at h
  obtain ⟨object, hobject, kind, _, ⟨-, rfl⟩, _, -, functionValue, hvalue, _, hfields, function,
    hfunction, name, _, ⟨-, rfl⟩, parameters, hparameters, description, -, strict, -, _, hfields',
    h⟩ := h
  rw [OrdMap.get_erase_of_ne (by decide)] at hvalue
  refine ⟨object, functionValue, function, hobject, ?_, hvalue, hfunction, ?_, ?_⟩
  · exact (rejectUnknownRequestFields_erased ["type", "function"]).mp hfields
  · exact (rejectUnknownRequestFields_erased ["name", "parameters", "description", "strict"]).mp
      hfields'
  · intro fields hget
    obtain rfl : parameters = .object fields := by
      simpa [toolParameters, hget, eq_comm] using hparameters
    cases h
    cases description <;>
      simp [Value.follow, toObject_toValue, OrdMap.ofList]

theorem convertToolsFrom_fields {values : List Value} :
    ∀ {index : Nat} {converted : List Value}, convertToolsFrom index values = .ok converted →
      List.Forall₂ ToolFields values converted := by
  induction values with
  | nil =>
    intro index converted h
    cases h
    exact .nil
  | cons value values ih =>
    intro index converted h
    simp only [convertToolsFrom, bind_eq_ok] at h
    obtain ⟨first, hfirst, rest, hrest, h⟩ := h
    cases h
    exact .cons (convertTool_fields hfirst) (ih hrest)

theorem convertTools_fields {value converted : Value} (h : convertTools value = .ok converted) :
    ∃ values items, value = .array values ∧ converted = .array items ∧
      List.Forall₂ ToolFields values items := by
  unfold convertTools at h
  cases harray : value.asArray with
  | none => simp [harray] at h
  | some values =>
    simp only [harray] at h
    cases hitems : convertToolsFrom 0 values with
    | error error => simp [hitems, Except.map] at h
    | ok items =>
      rw [hitems] at h
      cases h
      exact ⟨values, items, Value.asArray_eq_some_iff.mp harray, rfl,
        convertToolsFrom_fields hitems⟩

theorem convertToolChoice_fields {value converted : Value} {object : Object}
    (hobject : value.toObject = some object) (h : convertToolChoice value = .ok converted) :
    object.HasOnly ["type", "function"] ∧ ∃ functionValue function,
      object.get "function" = some functionValue ∧ functionValue.toObject = some function ∧
        function.HasOnly ["name"] := by
  cases value with
  | object fields =>
    obtain rfl : OrdMap.ofList fields = object := Option.some.inj hobject
    simp only [convertToolChoice, bind_eq_ok, intoRequestObject_eq_ok,
      takeRequestString_eq_ok_iff, failIf_eq_ok, okOr_eq_ok, Prod.exists] at h
    obtain ⟨kind, _, ⟨-, rfl⟩, _, -, functionValue, hvalue, _, hfields, function, hfunction, name,
      _, ⟨-, rfl⟩, _, hfields', -⟩ := h
    rw [OrdMap.get_erase_of_ne (by decide)] at hvalue
    exact ⟨(rejectUnknownRequestFields_erased ["type", "function"]).mp hfields, functionValue,
      function, hvalue, hfunction, (rejectUnknownRequestFields_erased ["name"]).mp hfields'⟩
  | _ => simp [Value.toObject, Value.asObject] at hobject

/-- The fields of a response format, and the schema it is handed on with. -/
theorem convertResponseFormat_fields {value : Value} {text : Option Value} {object : Object}
    (hobject : value.toObject = some object) (h : convertResponseFormat value = .ok text) :
    object.HasOnly (ChatPlace.responseFormat.supportedFields object) ∧
      ∀ schemaValue, object.get "json_schema" = some schemaValue →
        ∃ schema, schemaValue.toObject = some schema ∧
          text = some (json [("format",
            Object.toValue (schema.insert "type" (.string "json_schema")))]) := by
  have hnull : value.isNull = false := by
    cases value <;> simp_all [Value.toObject, Value.asObject, Value.isNull]
  rw [convertResponseFormat, hnull, if_neg (by decide)] at h
  simp only [bind_eq_ok, intoRequestObject_eq_ok, takeRequestString_eq_ok_iff, Prod.exists] at h
  obtain ⟨object', hobject', kind, _, ⟨hkind, rfl⟩, h⟩ := h
  obtain rfl : object' = object := Option.some.inj (hobject'.symm.trans hobject)
  split_ifs at h with hplain hschema
  · simp only [bind_eq_ok] at h
    obtain ⟨_, hfields, -⟩ := h
    have hfields : object'.HasOnly ["type"] :=
      (rejectUnknownRequestFields_erased ["type"]).mp hfields
    constructor
    · have hsupported : ChatPlace.responseFormat.supportedFields object' = ["type"] := by
        rcases hplain with rfl | rfl <;> simp [ChatPlace.supportedFields, hkind, Value.asStr]
      rwa [hsupported]
    · intro schemaValue hget
      have hmem := hfields "json_schema" (by simp [hget])
      simp at hmem
  · subst hschema
    simp only [bind_eq_ok, okOr_eq_ok, intoRequestObject_eq_ok] at h
    obtain ⟨schemaValue, hvalue, _, hfields, schema, hschema, h⟩ := h
    rw [OrdMap.get_erase_of_ne (by decide)] at hvalue
    cases h
    constructor
    · have hsupported : ChatPlace.responseFormat.supportedFields object' =
          ["type", "json_schema"] := by
        simp [ChatPlace.supportedFields, hkind, Value.asStr]
      rw [hsupported]
      exact (rejectUnknownRequestFields_erased ["type", "json_schema"]).mp hfields
    · intro schemaValue' hget
      obtain rfl : schemaValue = schemaValue' := Option.some.inj (hvalue.symm.trans hget)
      exact ⟨schema, hschema, rfl⟩

/-! ### Every refusal is an invalid request -/

/-- Whatever a step refuses, it refuses as an invalid request. -/
abbrev Refuses {α : Type} (x : Except ChatError α) : Prop := FailsWith (·.kind = .invalidRequest) x

section

variable {α : Type}

theorem refuses_map {β : Type} {x : Except ChatError α} (f : α → β) (h : Refuses x) :
    Refuses (x.map f) := by
  cases x with
  | error error => exact .error (h error rfl)
  | ok a => exact .ok _

theorem refuses_intoRequestObject (value : Value) (param : String) :
    Refuses (intoRequestObject value param) := by
  unfold intoRequestObject
  split
  · exact .ok _
  · exact .error rfl

theorem refuses_requireObject (value : Value) (context : String) :
    Refuses (requireObject value context) := by
  unfold requireObject
  split
  · exact .ok _
  · exact .error rfl

theorem refuses_takeRequestString (object : Object) (field param : String) :
    Refuses (takeRequestString object field param) := by
  unfold takeRequestString
  split
  · exact .ok _
  · exact .error rfl

theorem refuses_requestBool (value : Value) (param : String) : Refuses (requestBool value param) := by
  unfold requestBool
  split
  · exact .ok _
  · exact .error rfl

theorem refuses_rejectUnknownRequestFields (object : Object) (context : String) :
    Refuses (rejectUnknownRequestFields object context) := by
  unfold rejectUnknownRequestFields
  split
  · exact .ok _
  · exact .error rfl

theorem refuses_convertField {value : Option Value} {convert : Value → Except ChatError α}
    (h : ∀ value, Refuses (convert value)) : Refuses (convertField value convert) := by
  cases value with
  | none => exact .ok _
  | some value => exact refuses_map _ (h value)

theorem refuses_parseTextPart (part : Value) (context : String) :
    Refuses (parseTextPart part context) :=
  .bind (refuses_intoRequestObject _ _) fun _ => .bind (refuses_takeRequestString _ _ _) fun _ =>
    .bind (.failIf rfl) fun _ => .bind (refuses_takeRequestString _ _ _) fun _ =>
      .bind (refuses_rejectUnknownRequestFields _ _) fun _ => .ok _

theorem refuses_parseTextPartsFrom (param : String) (parts : List Value) :
    ∀ index, Refuses (parseTextPartsFrom param index parts) := by
  induction parts with
  | nil => exact fun _ => .ok _
  | cons part parts ih =>
    exact fun index => .bind (refuses_parseTextPart _ _) fun _ => .bind (ih _) fun _ => .ok _

theorem refuses_parseTextParts (value : Value) (param : String) :
    Refuses (parseTextParts value param) := by
  unfold parseTextParts
  split
  · exact .ok _
  · exact .error rfl
  · exact refuses_parseTextPartsFrom _ _ _
  · exact .error rfl

theorem refuses_convertAssistantToolCall (value : Value) (context : String) :
    Refuses (convertAssistantToolCall value context) :=
  .bind (refuses_requireObject _ _) fun _ => .bind (refuses_takeRequestString _ _ _) fun _ =>
    .bind (refuses_takeRequestString _ _ _) fun _ => .bind (.failIf rfl) fun _ =>
      .bind (.okOr rfl) fun _ => .bind (refuses_rejectUnknownRequestFields _ _) fun _ =>
        .bind (refuses_intoRequestObject _ _) fun _ =>
          .bind (refuses_takeRequestString _ _ _) fun _ =>
            .bind (refuses_takeRequestString _ _ _) fun _ =>
              .bind (refuses_rejectUnknownRequestFields _ _) fun _ => .ok _

theorem refuses_convertAssistantToolCalls (context : String) (calls : List Value) :
    ∀ index, Refuses (convertAssistantToolCalls context index calls) := by
  induction calls with
  | nil => exact fun _ => .ok _
  | cons call calls ih =>
    exact fun index => .bind (refuses_convertAssistantToolCall _ _) fun _ => .bind (ih _) fun _ =>
      .ok _

theorem refuses_convertAssistantMessage (message : Object) (context : String) :
    Refuses (convertAssistantMessage message context) := by
  have hcontent (content : Option Value) : Refuses (assistantContentItems content context) := by
    unfold assistantContentItems
    split
    · exact .ok _
    · exact refuses_map _ (refuses_map _ (refuses_parseTextParts _ _))
  have hcalls (toolCalls : Option Value) : Refuses (assistantToolItems toolCalls context) := by
    unfold assistantToolItems
    split
    · exact .ok _
    · split
      · exact .error rfl
      · exact .error rfl
      · exact refuses_convertAssistantToolCalls _ _ _
  exact .bind (refuses_rejectUnknownRequestFields _ _) fun _ => .bind (hcontent _) fun _ =>
    .bind (hcalls _) fun _ => .bind (.failIf rfl) fun _ => .ok _

theorem refuses_convertMessage (value : Value) (context : String) :
    Refuses (convertMessage value context) := by
  have hcontent (message : Object) : Refuses (takeContent message context) :=
    .bind (.okOr rfl) fun _ => .bind (refuses_rejectUnknownRequestFields _ _) fun _ => .ok _
  refine .bind (refuses_requireObject _ _) fun _ => .bind (refuses_takeRequestString _ _ _) fun _ => ?_
  dsimp only
  split_ifs
  · exact .bind (hcontent _) fun _ => .bind (refuses_parseTextParts _ _) fun _ => .ok _
  · exact .bind (hcontent _) fun _ =>
      .bind (refuses_map _ (refuses_parseTextParts _ _)) fun _ => .ok _
  · exact .bind (refuses_convertAssistantMessage _ _) fun _ => .ok _
  · exact .bind (.bind (refuses_takeRequestString _ _ _) fun _ => .bind (.okOr rfl) fun _ =>
      .bind (refuses_rejectUnknownRequestFields _ _) fun _ =>
        .bind (refuses_parseTextParts _ _) fun _ => .ok _) fun _ => .ok _
  · exact .error rfl
  · exact .error rfl

theorem refuses_convertMessages (value : Value) : Refuses (convertMessages value) := by
  have hall (values : List Value) : ∀ index, Refuses (convertMessagesFrom index values) := by
    induction values with
    | nil => exact fun _ => .ok _
    | cons value values ih =>
      exact fun index => .bind (refuses_convertMessage _ _) fun _ => .bind (ih _) fun _ => .ok _
  exact .bind (.okOr rfl) fun _ => .bind (.failIf rfl) fun _ => .bind (hall _ _) fun _ => .ok _

theorem refuses_convertTool (value : Value) (context : String) :
    Refuses (convertTool value context) := by
  have hparameters (function : Object) (context : String) :
      Refuses (toolParameters function context) := by
    unfold toolParameters
    split
    · exact .ok _
    · exact .ok _
    · exact .ok _
    · exact .error rfl
  have hdescription (function : Object) (context : String) :
      Refuses (toolDescription function context) := by
    refine refuses_convertField fun value => ?_
    split
    · exact .ok _
    · exact .error rfl
  have hstrict (function : Object) (context : String) : Refuses (toolStrict function context) := by
    unfold toolStrict
    split
    · exact .ok _
    · exact .ok _
    · exact refuses_requestBool _ _
  exact .bind (refuses_requireObject _ _) fun _ => .bind (refuses_takeRequestString _ _ _) fun _ =>
    .bind (.failIf rfl) fun _ => .bind (.okOr rfl) fun _ =>
      .bind (refuses_rejectUnknownRequestFields _ _) fun _ =>
        .bind (refuses_intoRequestObject _ _) fun _ =>
          .bind (refuses_takeRequestString _ _ _) fun _ => .bind (hparameters _ _) fun _ =>
            .bind (hdescription _ _) fun _ => .bind (hstrict _ _) fun _ =>
              .bind (refuses_rejectUnknownRequestFields _ _) fun _ => .ok _

theorem refuses_convertTools (value : Value) : Refuses (convertTools value) := by
  have hall (values : List Value) : ∀ index, Refuses (convertToolsFrom index values) := by
    induction values with
    | nil => exact fun _ => .ok _
    | cons value values ih =>
      exact fun index => .bind (refuses_convertTool _ _) fun _ => .bind (ih _) fun _ => .ok _
  unfold convertTools
  split
  · exact .error rfl
  · exact refuses_map _ (hall _ _)

theorem refuses_convertToolChoice (value : Value) : Refuses (convertToolChoice value) := by
  unfold convertToolChoice
  split
  · split_ifs
    · exact .ok _
    · exact .error rfl
  · exact .bind (refuses_takeRequestString _ _ _) fun _ => .bind (.failIf rfl) fun _ =>
      .bind (.okOr rfl) fun _ => .bind (refuses_rejectUnknownRequestFields _ _) fun _ =>
        .bind (refuses_intoRequestObject _ _) fun _ =>
          .bind (refuses_takeRequestString _ _ _) fun _ =>
            .bind (refuses_rejectUnknownRequestFields _ _) fun _ => .ok _
  · exact .error rfl

theorem refuses_convertStreamOptions (value : Value) (stream : Bool) :
    Refuses (convertStreamOptions value stream) :=
  .bind (.failIf rfl) fun _ => .bind (refuses_intoRequestObject _ _) fun _ =>
    .bind (refuses_convertField fun _ => refuses_requestBool _ _) fun _ =>
      .bind (refuses_rejectUnknownRequestFields _ _) fun _ => .ok _

theorem refuses_convertResponseFormat (value : Value) : Refuses (convertResponseFormat value) := by
  unfold convertResponseFormat
  split_ifs
  · exact .ok _
  · refine .bind (refuses_intoRequestObject _ _) fun _ =>
      .bind (refuses_takeRequestString _ _ _) fun _ => ?_
    dsimp only
    split_ifs
    · exact .bind (refuses_rejectUnknownRequestFields _ _) fun _ => .ok _
    · exact .bind (.okOr rfl) fun _ => .bind (refuses_rejectUnknownRequestFields _ _) fun _ =>
        .bind (refuses_intoRequestObject _ _) fun _ => .ok _
    · exact .error rfl

/-- **A Chat request is only refused as invalid.** -/
theorem refuses_convertRequest (request : Value) : Refuses (convertRequest request) := by
  have hstream (value : Option Value) : Refuses (convertStream value) := by
    unfold convertStream
    split
    · exact .ok _
    · exact .ok _
    · exact .ok _
    · exact .ok _
    · exact .error rfl
  have hn (value : Option Value) : Refuses (checkN value) := by
    unfold checkN
    split
    · exact .ok _
    · exact .ok _
    · exact .failIf rfl
  have heffort (value : Value) : Refuses (convertReasoningEffort value) := by
    unfold convertReasoningEffort
    split
    · exact .ok _
    · split_ifs
      · exact .ok _
      · exact .error rfl
    · exact .error rfl
  have hlimit (value : Value) (field : String) :
      Refuses (validateIgnoredCompletionLimit value field) := by
    unfold validateIgnoredCompletionLimit
    split_ifs
    · exact .ok _
    · exact .error rfl
  exact .bind (refuses_intoRequestObject _ _) fun _ => .bind (refuses_takeRequestString _ _ _) fun _ =>
    .bind (.failIf rfl) fun _ => .bind (.okOr rfl) fun _ => .bind (hstream _) fun _ =>
      .bind (refuses_convertField fun _ => refuses_convertStreamOptions _ _) fun _ =>
        .bind (hn _) fun _ => .bind (refuses_convertField refuses_convertTools) fun _ =>
          .bind (.failIf rfl) fun _ => .bind (refuses_convertField refuses_convertToolChoice) fun _ =>
            .bind (refuses_convertField fun _ => refuses_requestBool _ _) fun _ =>
              .bind (refuses_convertField heffort) fun _ =>
                .bind (refuses_convertField fun _ => hlimit _ _) fun _ =>
                  .bind (refuses_convertField fun _ => hlimit _ _) fun _ =>
                    .bind (refuses_convertField refuses_convertResponseFormat) fun _ =>
                      .bind (refuses_rejectUnknownRequestFields _ _) fun _ =>
                        .bind (refuses_convertMessages _) fun _ => .ok _

end

/-! ### An accepted request has no other fields -/

/-- What an accepted request is made of. -/
structure AcceptedChat (request : Object) (accepted : ConvertedRequest) : Prop where
  fields : request.HasOnly chatRequestFields
  messages : ∃ values messages, request.get "messages" = some (.array values) ∧
    List.Forall₂ Value.Reads values messages
  streamOptions : ∀ value, request.get "stream_options" = some value →
    ∃ stream includeUsage, convertStreamOptions value stream = .ok includeUsage
  tools : ∀ value, request.get "tools" = some value →
    ∃ converted, convertTools value = .ok converted ∧
      accepted.upstreamRequest.get "tools" = some converted
  toolChoice : ∀ value, request.get "tool_choice" = some value →
    ∃ converted, convertToolChoice value = .ok converted
  responseFormat : ∀ value, request.get "response_format" = some value →
    ∃ text, convertResponseFormat value = .ok text ∧
      accepted.upstreamRequest.get "text" = text

theorem acceptedChat_of_convertRequest {request : Value} {accepted : ConvertedRequest}
    (h : convertRequest request = .ok accepted) :
    ∃ object, request.toObject = some object ∧ AcceptedChat object accepted := by
  simp only [convertRequest, intoRequestObject_eq_ok, bind_eq_ok, failIf_eq_ok, okOr_eq_ok] at h
  obtain ⟨object, hobject, _, -, _, -, messages, hmessages, stream, -, includeUsage, hoptions, _, -,
    tools, htools, _, -, toolChoice, hchoice, parallel, -, effort, -, _, -, _, -, text, htext, _,
    hfields, ⟨instructions, input⟩, hinput, h⟩ := h
  cases h
  have hconverted {α : Type} {value : Value} {convert : Value → Except ChatError α}
      {converted : Option α} (h : convertField (some value) convert = .ok converted) :
      ∃ result, convert value = .ok result ∧ converted = some result := by
    rcases convertField_eq_ok h with ⟨hnone, -⟩ | ⟨found, result, hsome, hresult, rfl⟩
    · cases hnone
    · cases hsome
      exact ⟨result, hresult, rfl⟩
  refine ⟨object, hobject, ?_, ?_, ?_, ?_, ?_, ?_⟩
  · exact (rejectUnknownRequestFields_erased chatRequestFields).mp hfields
  · obtain ⟨values, read, rfl, -, hread, -⟩ := convertMessages_eq_ok.mp hinput
    exact ⟨values, read, hmessages, hread⟩
  · intro value hvalue
    rw [hvalue] at hoptions
    obtain ⟨usage, husage, -⟩ := hconverted hoptions
    exact ⟨stream, usage, husage⟩
  · intro value hvalue
    rw [hvalue] at htools
    obtain ⟨converted, hconverted, rfl⟩ := hconverted htools
    exact ⟨converted, hconverted, by simp [get_insertSome]⟩
  · intro value hvalue
    rw [hvalue] at hchoice
    obtain ⟨converted, hconverted, -⟩ := hconverted hchoice
    exact ⟨converted, hconverted⟩
  · intro value hvalue
    rw [hvalue] at htext
    obtain ⟨text, hconverted, rfl⟩ := hconverted htext
    refine ⟨text, hconverted, ?_⟩
    simp [get_insertSome, OrdMap.ofList]

/-- A message has the fields that belong to its role. -/
theorem hasOnly_of_readsAs {object : Object} {message : ChatMessage} (h : object.ReadsAs message) :
    object.HasOnly (ChatPlace.messageFields ((object.get "role").bind Value.asStr)) := by
  cases h with
  | system hrole _ _ hfields => simpa [hrole, Value.asStr, ChatPlace.messageFields] using hfields
  | prompt hrole hknown _ _ hfields =>
    rcases hknown with rfl | rfl <;>
      simpa [hrole, Value.asStr, ChatPlace.messageFields] using hfields
  | assistant hrole _ _ _ hfields =>
    simpa [hrole, Value.asStr, ChatPlace.messageFields] using hfields
  | tool hrole _ _ _ hfields => simpa [hrole, Value.asStr, ChatPlace.messageFields] using hfields

/-- The parts of a message's content are text parts. -/
theorem isTextPart_of_readsAs {object : Object} {message : ChatMessage} (h : object.ReadsAs message)
    {parts : List Value} (hparts : object.get "content" = some (.array parts)) :
    ∃ texts, List.Forall₂ IsTextPart parts texts := by
  have hcontent : ∃ texts, IsContent (.array parts) texts := by
    cases h with
    | system _ hcontent htexts _ | prompt _ _ hcontent htexts _ | tool _ _ hcontent htexts _ =>
      rw [hparts] at hcontent
      cases hcontent
      exact ⟨_, htexts⟩
    | assistant _ hcontent _ _ _ =>
      simp only [hparts, IsAssistantContent, Value.isNull, Option.filter_some, Bool.not_false,
        if_true] at hcontent
      obtain ⟨texts, htexts, -⟩ := hcontent
      exact ⟨texts, htexts⟩
  obtain ⟨texts, htexts⟩ := hcontent
  cases htexts with
  | parts _ hparts => exact ⟨texts, hparts⟩

/-- The tool calls of a message are function calls. -/
theorem isToolCall_of_readsAs {object : Object} {message : ChatMessage} (h : object.ReadsAs message)
    {values : List Value} (hvalues : object.get "tool_calls" = some (.array values)) :
    ∃ calls, List.Forall₂ IsToolCall values calls := by
  have hsome : object.get "tool_calls" ≠ none := by simp [hvalues]
  cases h with
  | system _ _ _ hfields | prompt _ _ _ _ hfields | tool _ _ _ _ hfields =>
    simpa using hfields _ hsome
  | assistant _ _ hcalls _ _ =>
    simp only [hvalues, IsToolCalls, Value.isNull, Option.filter_some, Bool.not_false,
      if_true] at hcalls
    obtain ⟨values', hsame, -, hcalls⟩ := hcalls
    cases hsame
    exact ⟨_, hcalls⟩

/-- **An accepted request has supported fields only**, in every object that is read. -/
theorem hasOnly_of_place {request value : Value} {accepted : ConvertedRequest} {object : Object}
    (h : convertRequest request = .ok accepted) (place : ChatPlace)
    (hvalue : request.follow place.path = some value) (hobject : value.toObject = some object) :
    object.HasOnly (place.supportedFields object) := by
  obtain ⟨root, hroot, hfields, ⟨values, messages, hmessages, hreads⟩, hoptions, htools, hchoice,
    hformat⟩ := acceptedChat_of_convertRequest h
  have hmessage {index : Nat} {message : Value} {object : Object} {items : List Value}
      (hitems : root.get "messages" = some (.array items)) (hindex : items[index]? = some message)
      (hobject : message.toObject = some object) : ∃ said, object.ReadsAs said := by
    cases hmessages.symm.trans hitems
    obtain ⟨said, -, object', hobject', hsaid⟩ :=
      exists_mem_right_of_forall₂ hreads (List.mem_of_getElem? hindex)
    cases hobject'.symm.trans hobject
    exact ⟨said, hsaid⟩
  have hcall {index call : Nat} {message toolCall : Value} {items calls : List Value}
      {outer : Object} (hitems : root.get "messages" = some (.array items))
      (hindex : items[index]? = some message) (houter : message.toObject = some outer)
      (hcalls : outer.get "tool_calls" = some (.array calls))
      (hcall : calls[call]? = some toolCall) : ∃ said, IsToolCall toolCall said := by
    obtain ⟨said, hsaid⟩ := hmessage hitems hindex houter
    obtain ⟨read, hread⟩ := isToolCall_of_readsAs hsaid hcalls
    obtain ⟨said, -, hsaid⟩ := exists_mem_right_of_forall₂ hread (List.mem_of_getElem? hcall)
    exact ⟨said, hsaid⟩
  have htool {index : Nat} {tool : Value} {items : List Value}
      (hitems : root.get "tools" = some (.array items)) (hindex : items[index]? = some tool) :
      ∃ converted, ToolFields tool converted := by
    obtain ⟨_, hconverted, -⟩ := htools _ hitems
    obtain ⟨_, _, hsame, -, hall⟩ := convertTools_fields hconverted
    cases hsame
    obtain ⟨converted, -, hconverted⟩ :=
      exists_mem_right_of_forall₂ hall (List.mem_of_getElem? hindex)
    exact ⟨converted, hconverted⟩
  cases place <;>
    simp only [ChatPlace.path, Value.follow, Option.bind_eq_some_iff, Value.asArray_eq_some_iff,
      hroot, Option.some.injEq, exists_eq_left'] at hvalue
  case request =>
    subst hvalue
    cases hroot.symm.trans hobject
    exact hfields
  case streamOptions =>
    obtain ⟨_, hget, rfl⟩ := hvalue
    obtain ⟨_, _, hconverted⟩ := hoptions _ hget
    obtain ⟨_, hobject', hfields⟩ := convertStreamOptions_fields hconverted
    cases hobject'.symm.trans hobject
    exact hfields
  case message =>
    obtain ⟨_, hget, _, ⟨_, rfl, hindex⟩, rfl⟩ := hvalue
    obtain ⟨said, hsaid⟩ := hmessage hget hindex hobject
    exact hasOnly_of_readsAs hsaid
  case contentPart =>
    obtain ⟨_, hget, _, ⟨_, rfl, hindex⟩, _, ⟨outer, houter, hcontent⟩, _, ⟨_, rfl, hpart⟩, rfl⟩ :=
      hvalue
    obtain ⟨said, hsaid⟩ := hmessage hget hindex houter
    obtain ⟨texts, htexts⟩ := isTextPart_of_readsAs hsaid hcontent
    obtain ⟨_, -, object', hobject', -, -, hfields⟩ :=
      exists_mem_right_of_forall₂ htexts (List.mem_of_getElem? hpart)
    cases hobject'.symm.trans hobject
    exact hfields
  case toolCall =>
    obtain ⟨_, hget, _, ⟨_, rfl, hindex⟩, _, ⟨outer, houter, hcalls⟩, _, ⟨_, rfl, hitem⟩, rfl⟩ :=
      hvalue
    obtain ⟨said, object', -, -, hobject', -, -, -, hfields, -⟩ :=
      hcall hget hindex houter hcalls hitem
    cases hobject'.symm.trans hobject
    exact hfields
  case toolCallFunction =>
    obtain ⟨_, hget, _, ⟨_, rfl, hindex⟩, _, ⟨outer, houter, hcalls⟩, _, ⟨_, rfl, hitem⟩, _,
      ⟨callObject, hcallObject, hfunction⟩, rfl⟩ := hvalue
    obtain ⟨said, object', function, _, hobject', -, -, hfunction', -, hinner, -, -, hfields⟩ :=
      hcall hget hindex houter hcalls hitem
    cases hobject'.symm.trans hcallObject
    cases hfunction'.symm.trans hfunction
    cases hinner.symm.trans hobject
    exact hfields
  case tool =>
    obtain ⟨_, hget, _, ⟨_, rfl, hindex⟩, rfl⟩ := hvalue
    obtain ⟨_, object', _, _, hobject', hfields, -⟩ := htool hget hindex
    cases hobject'.symm.trans hobject
    exact hfields
  case toolFunction =>
    obtain ⟨_, hget, _, ⟨_, rfl, hindex⟩, _, ⟨toolObject, htoolObject, hfunction⟩, rfl⟩ := hvalue
    obtain ⟨_, object', _, _, hobject', -, hfunction', hinner, hfields, -⟩ := htool hget hindex
    cases hobject'.symm.trans htoolObject
    cases hfunction'.symm.trans hfunction
    cases hinner.symm.trans hobject
    exact hfields
  case toolChoice =>
    obtain ⟨_, hget, rfl⟩ := hvalue
    obtain ⟨_, hconverted⟩ := hchoice _ hget
    exact (convertToolChoice_fields hobject hconverted).1
  case toolChoiceFunction =>
    obtain ⟨_, hget, _, ⟨outer, houter, hfunction⟩, rfl⟩ := hvalue
    obtain ⟨_, hconverted⟩ := hchoice _ hget
    obtain ⟨-, _, function, hfunction', hinner, hfields⟩ :=
      convertToolChoice_fields houter hconverted
    cases hfunction'.symm.trans hfunction
    cases hinner.symm.trans hobject
    exact hfields
  case responseFormat =>
    obtain ⟨_, hget, rfl⟩ := hvalue
    obtain ⟨_, hconverted, -⟩ := hformat _ hget
    exact (convertResponseFormat_fields hobject hconverted).1

/-- **An unsupported field is refused**, wherever it is added, and whether or not the request was
accepted before. -/
theorem refused_of_addFieldAt {request value : Value} {object : Object} (place : ChatPlace)
    (hvalue : request.follow place.path = some value) (hobject : value.toObject = some object)
    {key : String} (added : Value) (hkey : key ∉ place.supportedFields object) :
    ∃ error, convertRequest (addFieldAt key added place.path request) = .error error ∧
      error.kind = .invalidRequest := by
  cases hadded : convertRequest (addFieldAt key added place.path request) with
  | error error => exact ⟨error, rfl, refuses_convertRequest _ error hadded⟩
  | ok accepted' =>
    have hfollow : (addFieldAt key added place.path request).follow place.path = _ :=
      follow_addFieldAt hobject hvalue
    have honly := hasOnly_of_place hadded place hfollow (toObject_toValue _)
    have hmem := honly key (by simp)
    rw [place.supportedFields_insert added hkey] at hmem
    exact absurd hmem hkey

/-! ### What is handed on -/

/-- The parameters of a tool arrive as they are. -/
theorem parameters_of_convertRequest {request : Value} {accepted : ConvertedRequest}
    (h : convertRequest request = .ok accepted) {index : Nat} {parameters : List (String × Value)}
    (hparameters : request.follow
      [.field "tools", .item index, .field "function", .field "parameters"] =
        some (.object parameters)) :
    accepted.upstreamRequest.toValue.follow [.field "tools", .item index, .field "parameters"] =
      some (.object parameters) := by
  obtain ⟨root, hroot, haccepted⟩ := acceptedChat_of_convertRequest h
  simp only [Value.follow, Option.bind_eq_some_iff, Value.asArray_eq_some_iff, hroot,
    Option.some.injEq, exists_eq_left'] at hparameters
  obtain ⟨_, hget, tool, ⟨items, rfl, hindex⟩, functionValue, ⟨toolObject, htool, hfunction⟩, _,
    ⟨function, hinner, hvalue⟩, rfl⟩ := hparameters
  obtain ⟨_, hconverted, hupstream⟩ := haccepted.tools _ hget
  obtain ⟨_, converted, hsame, rfl, hall⟩ := convertTools_fields hconverted
  cases hsame
  obtain ⟨hlength, hitems⟩ := List.forall₂_iff_get.mp hall
  obtain ⟨hlt, rfl⟩ := List.getElem?_eq_some_iff.mp hindex
  obtain ⟨object', functionValue', function', hobject', -, hfunction', hinner', -, hkept⟩ :=
    (hitems index hlt (hlength ▸ hlt)).fields
  cases hobject'.symm.trans htool
  cases hfunction'.symm.trans hfunction
  cases hinner'.symm.trans hinner
  have hfollow := hkept _ hvalue
  simp only [Value.follow, toObject_toValue, Option.bind_some, hupstream, Value.asArray,
    List.getElem?_eq_getElem (hlength ▸ hlt)]
  exact hfollow

/-- A field of a JSON schema arrives unless it is the type, which is replaced. -/
theorem schema_of_convertRequest {request : Value} {accepted : ConvertedRequest}
    (h : convertRequest request = .ok accepted) {key : String} {value : Value}
    (hvalue : request.follow [.field "response_format", .field "json_schema", .field key] =
      some value) :
    accepted.upstreamRequest.toValue.follow [.field "text", .field "format", .field key] =
      some (if key = "type" then .string "json_schema" else value) := by
  obtain ⟨root, hroot, haccepted⟩ := acceptedChat_of_convertRequest h
  simp only [Value.follow, Option.bind_eq_some_iff, hroot, Option.some.injEq,
    exists_eq_left'] at hvalue
  obtain ⟨_, hget, _, ⟨format, hformat, hschema⟩, _, ⟨schema, hinner, hfound⟩, rfl⟩ := hvalue
  obtain ⟨text, hconverted, hupstream⟩ := haccepted.responseFormat _ hget
  obtain ⟨-, hhandedOn⟩ := convertResponseFormat_fields hformat hconverted
  obtain ⟨schema', hinner', rfl⟩ := hhandedOn _ hschema
  cases hinner'.symm.trans hinner
  simp only [Value.follow, toObject_toValue, Option.bind_some, hupstream, json, OrdMap.ofList,
    List.foldl_cons, List.foldl_nil, OrdMap.get_insert_self, OrdMap.get_insert]
  split_ifs with hkey
  · rfl
  · rw [hfound]
    rfl

/-- What a client may rely on: an unsupported field anywhere in an accepted request is refused, and
every field of a tool's parameters and of a JSON schema arrives. -/
structure ChatFieldsKept (request : Value) (accepted : ConvertedRequest) : Prop where
  refused : ∀ (place : ChatPlace) (value : Value) (object : Object) (key : String) (added : Value),
    request.follow place.path = some value → value.toObject = some object →
    key ∉ place.supportedFields object →
    ∃ error, convertRequest (addFieldAt key added place.path request) = .error error ∧
      error.kind = .invalidRequest
  parameters : ∀ (index : Nat) (key : String) (value : Value),
    request.follow
      [.field "tools", .item index, .field "function", .field "parameters", .field key] =
        some value →
    accepted.upstreamRequest.toValue.follow
      [.field "tools", .item index, .field "parameters", .field key] = some value
  schema : ∀ (key : String) (value : Value),
    request.follow [.field "response_format", .field "json_schema", .field key] = some value →
    accepted.upstreamRequest.toValue.follow [.field "text", .field "format", .field key] =
      some value

/-- **Fields of a Chat request.** They are kept exactly when the JSON schema has no `type` of its own
but `json_schema`, which the converter would write there. -/
theorem chatFieldsKept_iff {request : Value} {accepted : ConvertedRequest}
    (h : convertRequest request = .ok accepted) :
    ChatFieldsKept request accepted ↔
      ∀ value, request.follow [.field "response_format", .field "json_schema", .field "type"] =
        some value → value = .string "json_schema" := by
  constructor
  · intro hkept value hvalue
    have harrived := hkept.schema "type" value hvalue
    rw [schema_of_convertRequest h hvalue, if_pos rfl] at harrived
    exact (Option.some.inj harrived).symm
  · intro htype
    refine ⟨fun place value object key added hvalue hobject hkey =>
      refused_of_addFieldAt place hvalue hobject added hkey, fun index key value hvalue => ?_,
      fun key value hvalue => ?_⟩
    · change request.follow
        ([.field "tools", .item index, .field "function", .field "parameters"] ++ [.field key]) =
          some value at hvalue
      rw [follow_append, Option.bind_eq_some_iff] at hvalue
      obtain ⟨found, hfound, hvalue⟩ := hvalue
      cases found with
      | object parameters =>
        change accepted.upstreamRequest.toValue.follow
          ([.field "tools", .item index, .field "parameters"] ++ [.field key]) = some value
        rw [follow_append, parameters_of_convertRequest h hfound]
        exact hvalue
      | _ => simp [Value.follow, Value.toObject, Value.asObject] at hvalue
    · rw [schema_of_convertRequest h hvalue]
      split_ifs with hkey
      · subst hkey
        rw [htype value hvalue]
      · rfl

/-! ### A schema with a type -/

/-- A request for an answer that follows a JSON schema. -/
def schemaRequest (schema : List (String × Value)) : Value :=
  json [("model", .string "m"),
    ("messages", .array [json [("role", .string "user"), ("content", .string "Hello")]]),
    ("response_format", json [("type", .string "json_schema"), ("json_schema", json schema)])]

/-- What such a request is converted to, apart from the format. -/
def schemaConverted (format : Value) : ConvertedRequest where
  upstreamRequest := OrdMap.ofList [("model", .string "m"),
    ("input", .array [responsesMessage "user" [responsesTextPart "input_text" "Hello"]]),
    ("stream", .bool true), ("store", .bool false), ("text", json [("format", format)])]
  model := "m"
  reasoningEffort := none
  stream := false
  includeUsage := false

/-- A schema that has only a name is kept. -/
theorem chatFieldsKept_named : ChatFieldsKept (schemaRequest [("name", .string "answer")])
    (schemaConverted (json [("name", .string "answer"), ("type", .string "json_schema")])) :=
  (chatFieldsKept_iff (by decide)).mpr fun value hvalue => by
    have hnone : (schemaRequest [("name", .string "answer")]).follow
        [.field "response_format", .field "json_schema", .field "type"] = none := by decide
    rw [hnone] at hvalue
    cases hvalue

/-- The `type` of a schema is dropped. -/
theorem schemaType_dropped :
    convertRequest (schemaRequest [("name", .string "answer"), ("type", .string "object")]) =
        .ok (schemaConverted (json [("name", .string "answer"), ("type", .string "json_schema")])) ∧
      ¬ ChatFieldsKept (schemaRequest [("name", .string "answer"), ("type", .string "object")])
        (schemaConverted (json [("name", .string "answer"), ("type", .string "json_schema")])) := by
  refine ⟨by decide, fun hkept => ?_⟩
  have harrived := hkept.schema "type" (.string "object") (by decide)
  revert harrived
  decide

end CodexApi
