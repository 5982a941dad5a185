import CodexApi.Chat.RoundTrip
import Mathlib.Data.List.Forall2

/-!
# What a Chat history says

The grammar of the messages that the Chat conversion accepts, and what each of them adds to a
Responses request. `ChatMessage` is a message as its client means it; `Reads` relates it to the JSON
values that say so, with every field such a value may have. A message says the same wherever it
stands: the converter's context only names a field in an error.

The converter agrees with the grammar exactly: it accepts a value that reads as a message, and
nothing else, and adds that message's texts and items (`convertMessage_eq_ok`,
`convertMessages_eq_ok`).
-/

namespace CodexApi

/-! ### Fields -/

/-- An object has no other fields than these. -/
def Object.HasOnly (object : Object) (fields : List String) : Prop :=
  ∀ field, object.get field ≠ none → field ∈ fields

theorem get_foldl_erase (fields : List String) (object : Object) (field : String) :
    (fields.foldl OrdMap.erase object).get field =
      if field ∈ fields then none else object.get field := by
  induction fields generalizing object with
  | nil => simp
  | cons first fields ih =>
    rw [List.foldl_cons, ih, OrdMap.get_erase]
    by_cases hfirst : field = first
    · simp [hfirst]
    · simp [hfirst]

/-- The check of what is left of an object passes when it has no other fields. -/
theorem rejectUnknownRequestFields_erased {object : Object} (fields : List String)
    {context : String} {u : Unit} :
    rejectUnknownRequestFields (fields.foldl OrdMap.erase object) context = .ok u ↔
      object.HasOnly fields := by
  rw [rejectUnknownRequestFields_eq_ok]
  refine forall_congr' fun field => ?_
  rw [get_foldl_erase]
  by_cases hfield : field ∈ fields
  · simp [hfield]
  · simp [hfield]

theorem intoRequestObject_eq_ok {value : Value} {param : String} {object : Object} :
    intoRequestObject value param = .ok object ↔ value.toObject = some object := by
  unfold intoRequestObject
  cases value.toObject <;> simp

theorem requireObject_eq_ok {value : Value} {context : String} {object : Object} :
    requireObject value context = .ok object ↔ value.toObject = some object := by
  unfold requireObject
  cases value.toObject <;> simp

theorem takeRequestString_eq_ok_iff {object : Object} {field param : String}
    {taken : String × Object} :
    takeRequestString object field param = .ok taken ↔
      object.get field = some (.string taken.1) ∧ taken.2 = object.erase field := by
  obtain ⟨s, rest⟩ := taken
  constructor
  · intro h
    have hget := takeRequestString_eq_ok h
    rw [takeRequestString_of_get param hget] at h
    cases h
    exact ⟨hget, rfl⟩
  · rintro ⟨hget, hrest⟩
    rw [takeRequestString_of_get param hget, ← hrest]

/-! ### Contents -/

/-- A text part of a content. -/
def IsTextPart (part : Value) (text : String) : Prop :=
  ∃ object, part.toObject = some object ∧ object.get "type" = some (.string "text") ∧
    object.get "text" = some (.string text) ∧ object.HasOnly ["type", "text"]

/-- A content: a string, or text parts. -/
inductive IsContent : Value → List String → Prop
  | string (text : String) : IsContent (.string text) [text]
  | parts {parts : List Value} {texts : List String} (hne : parts ≠ [])
      (hparts : List.Forall₂ IsTextPart parts texts) : IsContent (.array parts) texts

theorem parseTextPart_eq_ok {part : Value} {context text : String} :
    parseTextPart part context = .ok text ↔ IsTextPart part text := by
  have hleft (object : Object) :
      (object.erase "type").erase "text" = ["type", "text"].foldl OrdMap.erase object := rfl
  simp only [parseTextPart, bind_eq_ok, intoRequestObject_eq_ok, takeRequestString_eq_ok_iff,
    failIf_eq_ok, not_not, Prod.exists]
  constructor
  · rintro ⟨object, hobject, kind, _, ⟨hkind, rfl⟩, -, rfl, text', _, ⟨htext, rfl⟩, u, hfields, h⟩
    cases h
    rw [hleft, rejectUnknownRequestFields_erased] at hfields
    rw [OrdMap.get_erase_of_ne (by decide)] at htext
    exact ⟨object, hobject, hkind, htext, hfields⟩
  · rintro ⟨object, hobject, hkind, htext, hfields⟩
    refine ⟨object, hobject, "text", _, ⟨hkind, rfl⟩, (), rfl, text, _, ⟨?_, rfl⟩, (), ?_, rfl⟩
    · rw [OrdMap.get_erase_of_ne (by decide)]
      exact htext
    · rw [hleft, rejectUnknownRequestFields_erased]
      exact hfields

theorem parseTextPartsFrom_eq_ok {param : String} {parts : List Value} :
    ∀ {index : Nat} {texts : List String},
      parseTextPartsFrom param index parts = .ok texts ↔ List.Forall₂ IsTextPart parts texts := by
  induction parts with
  | nil => simp [parseTextPartsFrom, eq_comm]
  | cons part parts ih =>
    intro index texts
    simp only [parseTextPartsFrom, bind_eq_ok, parseTextPart_eq_ok, ih,
      List.forall₂_cons_left_iff]
    constructor
    · rintro ⟨text, hpart, rest, hrest, h⟩
      cases h
      exact ⟨text, rest, hpart, hrest, rfl⟩
    · rintro ⟨text, rest, hpart, hrest, rfl⟩
      exact ⟨text, hpart, rest, hrest, rfl⟩

theorem parseTextParts_eq_ok {value : Value} {param : String} {texts : List String} :
    parseTextParts value param = .ok texts ↔ IsContent value texts := by
  unfold parseTextParts
  split
  · constructor
    · intro h
      cases h
      exact .string _
    · rintro ⟨⟩
      rfl
  · refine iff_of_false (by simp) ?_
    rintro ⟨⟩
    contradiction
  · rename_i parts hne
    rw [parseTextPartsFrom_eq_ok]
    exact ⟨fun h => .parts hne h, fun h => by cases h; assumption⟩
  · rename_i hstring _ harray
    refine iff_of_false (by simp) fun h => ?_
    cases h with
    | string text => exact hstring text rfl
    | parts _ _ => exact harray _ rfl

theorem convertTextContent_eq_ok {value : Value} {param responsesType : String}
    {parts : List Value} :
    convertTextContent value param responsesType = .ok parts ↔
      ∃ texts, IsContent value texts ∧ parts = texts.map (responsesTextPart responsesType) := by
  rw [convertTextContent]
  cases hparse : parseTextParts value param with
  | error error =>
    refine iff_of_false (by simp [Except.map]) ?_
    rintro ⟨texts, htexts, -⟩
    rw [parseTextParts_eq_ok.mpr htexts] at hparse
    cases hparse
  | ok texts =>
    have htexts := parseTextParts_eq_ok.mp hparse
    constructor
    · intro h
      cases h
      exact ⟨texts, htexts, rfl⟩
    · rintro ⟨texts', htexts', rfl⟩
      rw [parseTextParts_eq_ok.mpr htexts'] at hparse
      cases hparse
      rfl

/-! ### Tool calls -/

/-- A tool call of an assistant message. -/
def IsToolCall (value : Value) (call : FunctionCall) : Prop :=
  ∃ object function functionValue, value.toObject = some object ∧
    object.get "id" = some (.string call.callId) ∧
    object.get "type" = some (.string "function") ∧
    object.get "function" = some functionValue ∧ object.HasOnly ["id", "type", "function"] ∧
    functionValue.toObject = some function ∧
    function.get "name" = some (.string call.name) ∧
    function.get "arguments" = some (.string call.arguments) ∧
    function.HasOnly ["name", "arguments"]

theorem convertAssistantToolCall_eq_ok {value item : Value} {context : String} :
    convertAssistantToolCall value context = .ok item ↔
      ∃ call, IsToolCall value call ∧ item = call.item := by
  have hcall (object : Object) : ((object.erase "id").erase "type").erase "function" =
      ["id", "type", "function"].foldl OrdMap.erase object := rfl
  have hfunction (object : Object) : (object.erase "name").erase "arguments" =
      ["name", "arguments"].foldl OrdMap.erase object := rfl
  simp only [convertAssistantToolCall, bind_eq_ok, requireObject_eq_ok, intoRequestObject_eq_ok,
    takeRequestString_eq_ok_iff, failIf_eq_ok, okOr_eq_ok, not_not, Prod.exists]
  constructor
  · rintro ⟨object, hobject, id, _, ⟨hid, rfl⟩, kind, _, ⟨hkind, rfl⟩, -, rfl, functionValue,
      hvalue, u, hfields, function, hobject', name, _, ⟨hname, rfl⟩, arguments, _,
      ⟨harguments, rfl⟩, u', hfields', h⟩
    cases h
    rw [hcall, rejectUnknownRequestFields_erased] at hfields
    rw [hfunction, rejectUnknownRequestFields_erased] at hfields'
    refine ⟨⟨id, name, arguments⟩, ⟨object, function, functionValue, hobject, hid, ?_, ?_, hfields,
      hobject', hname, ?_, hfields'⟩, rfl⟩
    · rwa [OrdMap.get_erase_of_ne (by decide)] at hkind
    · rwa [OrdMap.get_erase_of_ne (by decide), OrdMap.get_erase_of_ne (by decide)] at hvalue
    · rwa [OrdMap.get_erase_of_ne (by decide)] at harguments
  · rintro ⟨⟨id, name, arguments⟩, ⟨object, function, functionValue, hobject, hid, hkind, hvalue,
      hfields, hobject', hname, harguments, hfields'⟩, rfl⟩
    refine ⟨object, hobject, id, _, ⟨hid, rfl⟩, "function", _, ⟨?_, rfl⟩, (), rfl, functionValue,
      ?_, (), ?_, function, hobject', name, _, ⟨hname, rfl⟩, arguments, _, ⟨?_, rfl⟩, (), ?_, rfl⟩
    · rwa [OrdMap.get_erase_of_ne (by decide)]
    · rwa [OrdMap.get_erase_of_ne (by decide), OrdMap.get_erase_of_ne (by decide)]
    · rwa [hcall, rejectUnknownRequestFields_erased]
    · rwa [OrdMap.get_erase_of_ne (by decide)]
    · rwa [hfunction, rejectUnknownRequestFields_erased]

theorem convertAssistantToolCalls_eq_ok {context : String} {values : List Value} :
    ∀ {index : Nat} {items : List Value},
      convertAssistantToolCalls context index values = .ok items ↔
        ∃ calls, List.Forall₂ IsToolCall values calls ∧ items = calls.map FunctionCall.item := by
  induction values with
  | nil => simp [convertAssistantToolCalls, eq_comm]
  | cons value values ih =>
    intro index items
    simp only [convertAssistantToolCalls, bind_eq_ok, convertAssistantToolCall_eq_ok, ih,
      List.forall₂_cons_left_iff]
    constructor
    · rintro ⟨_, ⟨call, hcall, rfl⟩, _, ⟨calls, hcalls, rfl⟩, h⟩
      cases h
      exact ⟨call :: calls, ⟨call, calls, hcall, hcalls, rfl⟩, rfl⟩
    · rintro ⟨_, ⟨call, calls, hcall, hcalls, rfl⟩, rfl⟩
      exact ⟨call.item, ⟨call, hcall, rfl⟩, _, ⟨calls, hcalls, rfl⟩, rfl⟩

/-! ### Messages -/

/-- A message of a Chat history. -/
inductive ChatMessage
  | system (texts : List String)
  /-- A message of the user or the developer. -/
  | prompt (role : String) (texts : List String)
  | assistant (texts : Option (List String)) (calls : List FunctionCall)
  | tool (callId : String) (output : List String)

namespace ChatMessage

/-- The role of a message. -/
def role : ChatMessage → String
  | system _ => "system"
  | prompt role _ => role
  | assistant _ _ => "assistant"
  | tool _ _ => "tool"

/-- What a message adds to the instructions. -/
def systemTexts : ChatMessage → List String
  | system texts => ["\n".intercalate texts]
  | prompt _ _ | assistant _ _ | tool _ _ => []

/-- What a message adds to the input. -/
def items : ChatMessage → List Value
  | system _ => []
  | prompt role texts => [responsesMessage role (texts.map (responsesTextPart "input_text"))]
  | assistant texts calls =>
    (texts.map fun texts =>
      responsesMessage "assistant" (texts.map (responsesTextPart "output_text"))).toList ++
        calls.map FunctionCall.item
  | tool callId output =>
    [json [("type", .string "function_call_output"), ("call_id", .string callId),
      ("output", .string (String.join output))]]

end ChatMessage

/-- The content of an assistant message, which may be missing or null. -/
def IsAssistantContent (found : Option Value) (texts : Option (List String)) : Prop :=
  match found.filter (!·.isNull) with
  | none => texts = none
  | some content => ∃ texts', IsContent content texts' ∧ texts = some texts'

/-- The tool calls of an assistant message, which may be missing or null, but not empty. -/
def IsToolCalls (found : Option Value) (calls : List FunctionCall) : Prop :=
  match found.filter (!·.isNull) with
  | none => calls = []
  | some value => ∃ values, value = .array values ∧ values ≠ [] ∧
      List.Forall₂ IsToolCall values calls

/-- An object says a message. -/
inductive Object.ReadsAs (object : Object) : ChatMessage → Prop
  | system {content : Value} {texts : List String}
      (hrole : object.get "role" = some (.string "system"))
      (hcontent : object.get "content" = some content) (htexts : IsContent content texts)
      (hfields : object.HasOnly ["role", "content"]) : object.ReadsAs (.system texts)
  | prompt {role : String} {content : Value} {texts : List String}
      (hrole : object.get "role" = some (.string role)) (hknown : role = "developer" ∨ role = "user")
      (hcontent : object.get "content" = some content) (htexts : IsContent content texts)
      (hfields : object.HasOnly ["role", "content"]) : object.ReadsAs (.prompt role texts)
  | assistant {texts : Option (List String)} {calls : List FunctionCall}
      (hrole : object.get "role" = some (.string "assistant"))
      (hcontent : IsAssistantContent (object.get "content") texts)
      (hcalls : IsToolCalls (object.get "tool_calls") calls) (hsome : texts ≠ none ∨ calls ≠ [])
      (hfields : object.HasOnly ["role", "content", "tool_calls"]) :
      object.ReadsAs (.assistant texts calls)
  | tool {callId : String} {content : Value} {output : List String}
      (hrole : object.get "role" = some (.string "tool"))
      (hcallId : object.get "tool_call_id" = some (.string callId))
      (hcontent : object.get "content" = some content) (houtput : IsContent content output)
      (hfields : object.HasOnly ["role", "tool_call_id", "content"]) :
      object.ReadsAs (.tool callId output)

/-- A JSON value says a message. -/
def Value.Reads (value : Value) (message : ChatMessage) : Prop :=
  ∃ object, value.toObject = some object ∧ object.ReadsAs message

/-! ### The converter follows the grammar -/

theorem assistantContentItems_eq_ok {found : Option Value} {context : String}
    {items : List Value} :
    assistantContentItems found context = .ok items ↔ ∃ texts, IsAssistantContent found texts ∧
      items = (texts.map fun texts =>
        responsesMessage "assistant" (texts.map (responsesTextPart "output_text"))).toList := by
  unfold assistantContentItems IsAssistantContent
  cases found.filter (!·.isNull) with
  | none => simp
  | some content =>
    dsimp only
    cases hconvert : convertTextContent content s!"{context}.content" "output_text" with
    | error error =>
      refine iff_of_false (by simp [Except.map]) ?_
      rintro ⟨_, ⟨texts, htexts, rfl⟩, -⟩
      rw [convertTextContent_eq_ok.mpr ⟨texts, htexts, rfl⟩] at hconvert
      cases hconvert
    | ok parts =>
      obtain ⟨texts, htexts, rfl⟩ := convertTextContent_eq_ok.mp hconvert
      constructor
      · intro h
        cases h
        exact ⟨some texts, ⟨texts, htexts, rfl⟩, rfl⟩
      · rintro ⟨_, ⟨texts', htexts', rfl⟩, rfl⟩
        rw [convertTextContent_eq_ok.mpr ⟨texts', htexts', rfl⟩] at hconvert
        rw [← Except.ok.inj hconvert]
        rfl

theorem assistantToolItems_eq_ok {found : Option Value} {context : String} {items : List Value} :
    assistantToolItems found context = .ok items ↔
      ∃ calls, IsToolCalls found calls ∧ items = calls.map FunctionCall.item := by
  unfold assistantToolItems IsToolCalls
  cases found.filter (!·.isNull) with
  | none => simp
  | some value =>
    dsimp only
    cases harray : value.asArray with
    | none =>
      refine iff_of_false (by simp) ?_
      rintro ⟨calls, ⟨values, rfl, -⟩, -⟩
      cases harray
    | some values =>
      obtain rfl := Value.asArray_eq_some_iff.mp harray
      cases values with
      | nil =>
        refine iff_of_false (by simp) ?_
        rintro ⟨calls, ⟨values, hvalues, hne, -⟩, -⟩
        cases hvalues
        exact hne rfl
      | cons value values =>
        rw [convertAssistantToolCalls_eq_ok]
        constructor
        · rintro ⟨calls, hcalls, rfl⟩
          exact ⟨calls, ⟨_, rfl, by simp, hcalls⟩, rfl⟩
        · rintro ⟨calls, ⟨_, hvalues, -, hcalls⟩, rfl⟩
          cases hvalues
          exact ⟨calls, hcalls, rfl⟩

theorem convertAssistantMessage_eq_ok {object : Object} {context : String} {items : List Value}
    (hrole : object.get "role" = some (.string "assistant")) :
    convertAssistantMessage (object.erase "role") context = .ok items ↔
      ∃ texts calls, object.ReadsAs (.assistant texts calls) ∧
        items = (ChatMessage.assistant texts calls).items := by
  have hleft : ((object.erase "role").erase "content").erase "tool_calls" =
      ["role", "content", "tool_calls"].foldl OrdMap.erase object := rfl
  simp only [convertAssistantMessage, bind_eq_ok, assistantContentItems_eq_ok,
    assistantToolItems_eq_ok, failIf_eq_ok, hleft, rejectUnknownRequestFields_erased]
  rw [OrdMap.get_erase_of_ne (by decide), OrdMap.get_erase_of_ne (by decide)]
  constructor
  · rintro ⟨-, hfields, _, ⟨texts, hcontent, rfl⟩, _, ⟨calls, hcalls, rfl⟩, -, hne, h⟩
    cases h
    refine ⟨texts, calls, .assistant hrole hcontent hcalls ?_ hfields, rfl⟩
    by_contra hnothing
    obtain ⟨htexts, hcalls⟩ := not_or.mp hnothing
    exact hne (by simp [not_not.mp htexts, not_not.mp hcalls])
  · rintro ⟨texts, calls, hreads, rfl⟩
    cases hreads with
    | assistant _ hcontent hcalls hsome hfields =>
      refine ⟨(), hfields, _, ⟨texts, hcontent, rfl⟩, _, ⟨calls, hcalls, rfl⟩, (), ?_, rfl⟩
      rcases hsome with htexts | hcalls
      · obtain ⟨texts, rfl⟩ := Option.ne_none_iff_exists'.mp htexts
        simp
      · simp [hcalls]

theorem convertToolMessage_eq_ok {object : Object} {context : String} {item : Value}
    (hrole : object.get "role" = some (.string "tool")) :
    convertToolMessage (object.erase "role") context = .ok item ↔
      ∃ callId output, object.ReadsAs (.tool callId output) ∧
        [item] = (ChatMessage.tool callId output).items := by
  have hleft : ((object.erase "role").erase "tool_call_id").erase "content" =
      ["role", "tool_call_id", "content"].foldl OrdMap.erase object := rfl
  simp only [convertToolMessage, bind_eq_ok, takeRequestString_eq_ok_iff, okOr_eq_ok,
    parseTextParts_eq_ok, Prod.exists]
  constructor
  · rintro ⟨callId, _, ⟨hcallId, rfl⟩, content, hcontent, u, hfields, output, houtput, h⟩
    cases h
    rw [hleft, rejectUnknownRequestFields_erased] at hfields
    rw [OrdMap.get_erase_of_ne (by decide)] at hcallId
    rw [OrdMap.get_erase_of_ne (by decide), OrdMap.get_erase_of_ne (by decide)] at hcontent
    exact ⟨callId, output, .tool hrole hcallId hcontent houtput hfields, rfl⟩
  · rintro ⟨callId, output, hreads, h⟩
    obtain rfl := List.singleton_inj.mp h
    cases hreads with
    | @tool _ content _ _ hcallId hcontent houtput hfields =>
      refine ⟨callId, _, ⟨?_, rfl⟩, content, ?_, (), ?_, output, houtput, rfl⟩
      · rwa [OrdMap.get_erase_of_ne (by decide)]
      · rwa [OrdMap.get_erase_of_ne (by decide), OrdMap.get_erase_of_ne (by decide)]
      · rwa [hleft, rejectUnknownRequestFields_erased]

theorem takeContent_eq_ok {object : Object} {context : String} {content : Value} :
    takeContent (object.erase "role") context = .ok content ↔
      object.get "content" = some content ∧ object.HasOnly ["role", "content"] := by
  have hleft : (object.erase "role").erase "content" =
      ["role", "content"].foldl OrdMap.erase object := rfl
  simp only [takeContent, bind_eq_ok, okOr_eq_ok, hleft, rejectUnknownRequestFields_erased]
  rw [OrdMap.get_erase_of_ne (by decide)]
  constructor
  · rintro ⟨_, hcontent, -, hfields, h⟩
    cases h
    exact ⟨hcontent, hfields⟩
  · rintro ⟨hcontent, hfields⟩
    exact ⟨content, hcontent, (), hfields, rfl⟩

theorem Object.ReadsAs.role {object : Object} {message : ChatMessage}
    (h : object.ReadsAs message) : object.get "role" = some (.string message.role) := by
  cases h <;> assumption

/-- **A message is converted exactly when it can be read**, wherever it stands, and adds what it
says. -/
theorem convertMessage_eq_ok {value : Value} {context : String}
    {converted : List String × List Value} :
    convertMessage value context = .ok converted ↔
      ∃ message, value.Reads message ∧ converted = (message.systemTexts, message.items) := by
  simp only [convertMessage, bind_eq_ok, requireObject_eq_ok, takeRequestString_eq_ok_iff,
    Prod.exists, Value.Reads]
  constructor
  · rintro ⟨object, hobject, role, _, ⟨hrole, rfl⟩, h⟩
    split_ifs at h with hsystem hprompt hassistant htool hfunction
    · subst hsystem
      simp only [bind_eq_ok, takeContent_eq_ok, parseTextParts_eq_ok] at h
      obtain ⟨content, ⟨hcontent, hfields⟩, texts, htexts, h⟩ := h
      cases h
      exact ⟨.system texts, ⟨object, hobject, .system hrole hcontent htexts hfields⟩, rfl⟩
    · simp only [bind_eq_ok, takeContent_eq_ok, convertTextContent_eq_ok] at h
      obtain ⟨content, ⟨hcontent, hfields⟩, _, ⟨texts, htexts, rfl⟩, h⟩ := h
      cases h
      exact ⟨.prompt role texts, ⟨object, hobject,
        .prompt hrole hprompt hcontent htexts hfields⟩, rfl⟩
    · subst hassistant
      simp only [bind_eq_ok, convertAssistantMessage_eq_ok hrole] at h
      obtain ⟨_, ⟨texts, calls, hreads, rfl⟩, h⟩ := h
      cases h
      exact ⟨_, ⟨object, hobject, hreads⟩, rfl⟩
    · subst htool
      simp only [bind_eq_ok, convertToolMessage_eq_ok hrole] at h
      obtain ⟨item, ⟨callId, output, hreads, hitem⟩, h⟩ := h
      cases h
      exact ⟨_, ⟨object, hobject, hreads⟩, by rw [hitem]; rfl⟩
  · rintro ⟨message, ⟨object, hobject, hreads⟩, rfl⟩
    refine ⟨object, hobject, _, _, ⟨hreads.role, rfl⟩, ?_⟩
    cases hreads with
    | system hrole hcontent htexts hfields =>
      rw [ChatMessage.role, if_pos rfl, takeContent_eq_ok.mpr ⟨hcontent, hfields⟩, ok_bind,
        parseTextParts_eq_ok.mpr htexts]
      rfl
    | @prompt role _ _ hrole hknown hcontent htexts hfields =>
      have hsystem : role ≠ "system" := by
        rcases hknown with rfl | rfl <;> decide
      rw [ChatMessage.role, if_neg hsystem, if_pos hknown, takeContent_eq_ok.mpr ⟨hcontent, hfields⟩, ok_bind,
        convertTextContent_eq_ok.mpr ⟨_, htexts, rfl⟩]
      rfl
    | assistant hrole hcontent hcalls hsome hfields =>
      rw [ChatMessage.role, if_neg (by decide), if_neg (by decide), if_pos rfl,
        (convertAssistantMessage_eq_ok hrole).mpr
          ⟨_, _, .assistant hrole hcontent hcalls hsome hfields, rfl⟩]
      rfl
    | tool hrole hcallId hcontent houtput hfields =>
      rw [ChatMessage.role, if_neg (by decide), if_neg (by decide), if_neg (by decide), if_pos rfl,
        (convertToolMessage_eq_ok hrole).mpr
          ⟨_, _, .tool hrole hcallId hcontent houtput hfields, rfl⟩]
      rfl

theorem convertMessagesFrom_eq_ok {values : List Value} :
    ∀ {index : Nat} {converted : List String × List Value},
      convertMessagesFrom index values = .ok converted ↔
        ∃ messages, List.Forall₂ Value.Reads values messages ∧
          converted = (messages.flatMap ChatMessage.systemTexts,
            messages.flatMap ChatMessage.items) := by
  induction values with
  | nil => simp [convertMessagesFrom, eq_comm]
  | cons value values ih =>
    intro index converted
    simp only [convertMessagesFrom, bind_eq_ok, convertMessage_eq_ok, ih,
      List.forall₂_cons_left_iff]
    constructor
    · rintro ⟨_, ⟨message, hmessage, rfl⟩, _, ⟨messages, hmessages, rfl⟩, h⟩
      cases h
      exact ⟨message :: messages, ⟨message, messages, hmessage, hmessages, rfl⟩, rfl⟩
    · rintro ⟨_, ⟨message, messages, hmessage, hmessages, rfl⟩, rfl⟩
      exact ⟨_, ⟨message, hmessage, rfl⟩, _, ⟨messages, hmessages, rfl⟩, rfl⟩

/-- Texts one below the other, if there are any. -/
def joinLines (texts : List String) : Option String :=
  if texts.isEmpty then none else some ("\n".intercalate texts)

/-- **A history is converted exactly when all of its messages can be read.** -/
theorem convertMessages_eq_ok {value : Value} {converted : Option String × List Value} :
    convertMessages value = .ok converted ↔
      ∃ values messages, value = .array values ∧ values ≠ [] ∧
        List.Forall₂ Value.Reads values messages ∧
        converted = (joinLines (messages.flatMap ChatMessage.systemTexts),
          messages.flatMap ChatMessage.items) := by
  simp only [convertMessages, bind_eq_ok, okOr_eq_ok, Value.asArray_eq_some_iff, failIf_eq_ok,
    convertMessagesFrom_eq_ok]
  constructor
  · rintro ⟨values, rfl, -, hne, _, ⟨messages, hmessages, rfl⟩, h⟩
    cases h
    exact ⟨values, messages, rfl, by simpa using hne, hmessages, rfl⟩
  · rintro ⟨values, messages, rfl, hne, hmessages, rfl⟩
    exact ⟨values, rfl, (), by simpa using hne, _, ⟨messages, hmessages, rfl⟩, rfl⟩

end CodexApi
