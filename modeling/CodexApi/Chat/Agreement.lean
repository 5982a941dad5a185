import CodexApi.Chat.Response

/-!
# Streamed and single answers

The same events can be turned into a stream of chunks (`forwardChatStream`) or into one completion
(`readChatTerminal`). The stream is built from the text deltas and never looks at the output of the
terminal event; the completion is built from that output alone. `chatModesAgree_iff` says for which
streams a client gets the same answer both ways: those that cannot be streamed, which fail both
ways, and those whose output is nothing but assistant text.
-/

namespace CodexApi

/-! ### The two ways -/

/-- The chunks `forward_chat_stream` has sent when it sends `[DONE]`, if it does. The client stays,
nothing shuts down, and the ledger can be written. -/
def forwardChatStream (converter : ChatStreamConverter) : List SseRecord → Option (List Value)
  | [] => none
  | record :: records =>
    match validateEvent record with
    | .error _ => none
    | .ok (some terminal) =>
      if terminal.upstreamError.isSome then none
      else (converter.convertTerminal terminal).toOption.map ConvertedStreamTerminal.chunks
    | .ok none =>
      match record.data with
      | none => forwardChatStream converter records
      | some value =>
        match converter.convertEvent value with
        | .error _ => none
        | .ok (converter, chunk) =>
          (forwardChatStream converter records).map (chunk.toList ++ ·)

/-- The item of a `response.output_item.done` event. -/
def completedOutputItem (record : SseRecord) : Option Value :=
  record.data.bind fun value =>
    if eventType value = some "response.output_item.done" then value.get "item" else none

/-- Fills an empty output with the items completed before. -/
def TerminalEvent.withOutputItems (terminal : TerminalEvent) (items : List Value) :
    TerminalEvent :=
  if terminal.payload.pointer ["response", "output"] = some (.array []) ∧ items ≠ [] then
    let response := (terminal.payload.index "response").setField "output" (.array items)
    { terminal with payload := terminal.payload.setField "response" response }
  else terminal

/-- `read_chat_terminal`, with the items completed so far, under the same conditions. -/
def readChatTerminal (items : List Value) : List SseRecord → Option ConvertedTerminal
  | [] => none
  | record :: records =>
    match validateEvent record with
    | .error _ => none
    | .ok none => readChatTerminal (items ++ (completedOutputItem record).toList) records
    | .ok (some terminal) =>
      if terminal.upstreamError.isSome then none
      else (convertTerminalEvent (terminal.withOutputItems items)).toOption

/-! ### What the client makes of them -/

/-- An answer as the client puts it together. -/
structure ChatAnswer where
  id : Option Value
  created : Option Value
  model : Option Value
  content : Option String
  refusal : Option String
  toolCalls : List Value
  finishReason : Option String
  usage : Option Value
deriving DecidableEq

/-- The answer before the first chunk. -/
def ChatAnswer.empty : ChatAnswer := ⟨none, none, none, none, none, [], none, none⟩

/-- Appends a string that may be missing. -/
def appendSome (s suffix : Option String) : Option String :=
  match suffix with
  | some suffix => pushStr s suffix
  | none => s

/-- Adds a chunk to an answer. -/
def ChatAnswer.add (answer : ChatAnswer) (chunk : Value) : ChatAnswer :=
  let choice := firstChoice chunk
  let delta := choice.bind (·.get "delta")
  { id := answer.id.or (chunk.get "id")
    created := answer.created.or (chunk.get "created")
    model := answer.model.or (chunk.get "model")
    content := appendSome answer.content ((delta.bind (·.get "content")).bind Value.asStr)
    refusal := appendSome answer.refusal ((delta.bind (·.get "refusal")).bind Value.asStr)
    toolCalls := answer.toolCalls ++
      ((delta.bind (·.get "tool_calls")).bind Value.asArray).getD []
    finishReason :=
      ((choice.bind (·.get "finish_reason")).bind Value.asStr).or answer.finishReason
    usage := (chunk.get "usage").or answer.usage }

/-- The answer in a completion, with its usage if the stream was to include it. -/
def completionAnswer (includeUsage : Bool) (completion : Value) : ChatAnswer :=
  let choice := firstChoice completion
  let message := choice.bind (·.get "message")
  { id := completion.get "id"
    created := completion.get "created"
    model := completion.get "model"
    content := (message.bind (·.get "content")).bind Value.asStr
    refusal := (message.bind (·.get "refusal")).bind Value.asStr
    toolCalls := ((message.bind (·.get "tool_calls")).bind Value.asArray).getD []
    finishReason := (choice.bind (·.get "finish_reason")).bind Value.asStr
    usage := if includeUsage then completion.get "usage" else none }

/-- **Both ways agree**: both fail, or both give the client the same answer. -/
def ChatModesAgree (includeUsage : Bool) (records : List SseRecord) : Prop :=
  (forwardChatStream (.new includeUsage) records).map (·.foldl ChatAnswer.add .empty) =
    (readChatTerminal [] records).map (completionAnswer includeUsage ·.chatCompletion)

instance (includeUsage : Bool) (records : List SseRecord) :
    Decidable (ChatModesAgree includeUsage records) :=
  inferInstanceAs (Decidable (_ = _))

/-! ### Streams whose events fit together -/

/-- The texts of the `output_text` parts. -/
def partTexts (parts : List Value) : List String :=
  (parts.filter (eventType · = some "output_text")).filterMap
    fun part => (part.get "text").bind Value.asStr

/-- The texts of the `output_text` parts of a message. -/
def messageTexts (item : Value) : List String :=
  if eventType item = some "message" then
    partTexts (((item.get "content").bind Value.asArray).getD [])
  else []

/-- The texts of the `output_text` parts of a response. -/
def outputTexts (response : Value) : List String :=
  (((response.get "output").bind Value.asArray).getD []).flatMap messageTexts

/-- The fields of the response of an event. -/
def responseField (event : Value) (field : String) : Option Value :=
  (event.get "response").bind (·.get field)

/-- The events of a type. -/
def eventsOfType (kind : String) (records : List SseRecord) : List Value :=
  (records.filterMap SseRecord.data).filter (eventType · = some kind)

/-- The events before the terminal one, and the terminal event as `read_chat_terminal` hands it
on: the first event is `response.created`, the metadata of every `response.created` are those of
the terminal event, and the text deltas are strings that make up its text. -/
structure ChatEvents (earlier : List SseRecord) (terminal : TerminalEvent) : Prop where
  starts : ∃ record created rest, earlier = record :: rest ∧ record.data = some created ∧
    eventType created = some "response.created"
  sameMetadata : ∀ event ∈ eventsOfType "response.created" earlier,
    ∀ field ∈ ["id", "created_at", "model"],
      responseField event field = responseField terminal.payload field
  sameText : ∃ texts : List String,
    (eventsOfType "response.output_text.delta" earlier).map (·.get "delta") =
      texts.map (some <| Value.string ·) ∧
    String.join texts = String.join (outputTexts (terminal.payload.index "response"))

/-! ### The exact condition -/

/-- The response of an event has these metadata. -/
structure HasMetadata (event : Value) (metadata : ChatMetadata) : Prop where
  id : responseField event "id" = some (.string metadata.id)
  created : (responseField event "created_at").bind Value.asI64 = some metadata.created
  model : responseField event "model" = some (.string metadata.model)

/-- A terminal event a stream can end with: a completion with metadata, a usage, and a known
reason if it is incomplete. -/
structure EndsStream (terminal : TerminalEvent) : Prop where
  kind : terminal.kind = .completed ∨ terminal.kind = .incomplete ∧
    ∃ details, responseField terminal.payload "incomplete_details" = some details ∧
      (details.get "reason" = some (.string "max_output_tokens") ∨
        details.get "reason" = some (.string "content_filter"))
  metadata : ∃ metadata, HasMetadata terminal.payload metadata
  usage : terminal.usage ≠ none

/-- A content part that is text. -/
def PlainPart (part : Value) : Prop :=
  part.get "type" = some (.string "output_text") ∧ ∃ text, part.get "text" = some (.string text)

/-- An output item that is reasoning, or an assistant message of text parts. -/
def PlainItem (item : Value) : Prop :=
  item.get "type" = some (.string "reasoning") ∨
    item.get "type" = some (.string "message") ∧ item.get "role" = some (.string "assistant") ∧
      ∃ parts, item.get "content" = some (.array parts) ∧ ∀ part ∈ parts, PlainPart part

/-- A response that answers with plain text. -/
structure PlainAnswer (response : Value) : Prop where
  object : response.get "object" = some (.string "response")
  id : response.get "id" ≠ some (.string "")
  model : response.get "model" ≠ some (.string "")
  output : ∃ items, response.get "output" = some (.array items) ∧ ∀ item ∈ items, PlainItem item
  text : outputTexts response ≠ []

/-! ### Events of the stream -/

theorem responseField_eq_some {event : Value} {field : String} {value : Value} :
    responseField event field = some value ↔
      ∃ response, event.get "response" = some response ∧ response.isObject = true ∧
        response.get field = some value := by
  unfold responseField
  rw [Option.bind_eq_some_iff]
  constructor
  · rintro ⟨response, hresponse, hfield⟩
    refine ⟨response, hresponse, ?_, hfield⟩
    cases response <;> simp_all [Value.get, Value.isObject, Value.asObject]
  · rintro ⟨response, hresponse, -, hfield⟩
    exact ⟨response, hresponse, hfield⟩

theorem captureMetadata_eq_ok {converter converter' : ChatStreamConverter} {event response : Value}
    (hresponse : event.get "response" = some response) :
    converter.captureMetadata response = .ok converter' ↔
      ∃ metadata, HasMetadata event metadata ∧ converter' = ⟨some metadata, converter.includeUsage⟩ := by
  simp only [ChatStreamConverter.captureMetadata, bind_eq_ok, upstreamString_eq_ok,
    upstreamInteger_eq_ok]
  constructor
  · rintro ⟨id, hid, created, hcreated, model, hmodel, h⟩
    cases h
    exact ⟨⟨id, created, model⟩, ⟨by simp [responseField, hresponse, hid], by simp [responseField, hresponse, hcreated], by simp [responseField, hresponse, hmodel]⟩, rfl⟩
  · rintro ⟨⟨id, created, model⟩, ⟨hid, hcreated, hmodel⟩, rfl⟩
    simp only [responseField, hresponse, Option.bind_some] at hid hcreated hmodel
    exact ⟨id, hid, created, hcreated, model, hmodel, rfl⟩

/-- Metadata are three fields of the response. -/
theorem hasMetadata_congr {event event' : Value} {metadata : ChatMetadata}
    (h : ∀ field ∈ ["id", "created_at", "model"],
      responseField event field = responseField event' field) :
    HasMetadata event metadata ↔ HasMetadata event' metadata := by
  have hid := h "id" (by decide)
  have hcreated := h "created_at" (by decide)
  have hmodel := h "model" (by decide)
  constructor <;> rintro ⟨hid', hcreated', hmodel'⟩
  · exact ⟨hid ▸ hid', hcreated ▸ hcreated', hmodel ▸ hmodel'⟩
  · exact ⟨hid ▸ hid', hcreated ▸ hcreated', hmodel ▸ hmodel'⟩

theorem HasMetadata.response {event : Value} {metadata : ChatMetadata}
    (h : HasMetadata event metadata) :
    ∃ response, event.get "response" = some response ∧ response.isObject = true := by
  obtain ⟨response, hresponse, hobject, -⟩ := responseField_eq_some.mp h.id
  exact ⟨response, hresponse, hobject⟩

/-- A `response.created` event is converted exactly when it has metadata. -/
theorem convertEvent_of_created (converter : ChatStreamConverter) {event : Value}
    {result : ChatStreamConverter × Option Value}
    (htype : eventType event = some "response.created") :
    converter.convertEvent event = .ok result ↔
      ∃ metadata, HasMetadata event metadata ∧
        result = (⟨some metadata, converter.includeUsage⟩, some (chunkJson metadata
          (json [("role", .string "assistant"), ("content", .string "")]) none)) := by
  simp only [ChatStreamConverter.convertEvent, htype, if_true, bind_eq_ok, okOr_eq_ok,
    Option.filter_eq_some_iff]
  constructor
  · rintro ⟨response, ⟨hresponse, -⟩, converter', hcapture, chunk, hchunk, h⟩
    obtain ⟨metadata, hmetadata, rfl⟩ := (captureMetadata_eq_ok hresponse).mp hcapture
    cases hchunk
    cases h
    exact ⟨metadata, hmetadata, rfl⟩
  · rintro ⟨metadata, hmetadata, rfl⟩
    obtain ⟨response, hresponse, hobject⟩ := hmetadata.response
    exact ⟨response, ⟨hresponse, hobject⟩, _, (captureMetadata_eq_ok hresponse).mpr ⟨metadata, hmetadata, rfl⟩, _, rfl, rfl⟩

/-- A text delta is converted once there are metadata. -/
theorem convertEvent_of_delta (metadata : ChatMetadata) (includeUsage : Bool) {event : Value}
    {text : String} (htype : eventType event = some "response.output_text.delta")
    (hdelta : event.get "delta" = some (.string text)) :
    (⟨some metadata, includeUsage⟩ : ChatStreamConverter).convertEvent event =
      .ok (⟨some metadata, includeUsage⟩,
        some (chunkJson metadata (json [("content", .string text)]) none)) := by
  simp only [ChatStreamConverter.convertEvent, htype, hdelta]
  rfl

theorem convertEvent_of_other {converter : ChatStreamConverter} {event : Value}
    (hcreated : eventType event ≠ some "response.created")
    (hdelta : eventType event ≠ some "response.output_text.delta") :
    converter.convertEvent event = .ok (converter, none) := by
  simp only [ChatStreamConverter.convertEvent, hcreated, hdelta, if_false]
  rfl

/-! ### What the chunks add up to -/

/-- The answer after some text. -/
def streamedAnswer (metadata : ChatMetadata) (text : String) (finishReason : Option String)
    (usage : Option Value) : ChatAnswer :=
  { id := some (.string metadata.id)
    created := some (jsonInt metadata.created)
    model := some (.string metadata.model)
    content := some text
    refusal := none
    toolCalls := []
    finishReason
    usage }

/-- The fields of an answer after a chunk. -/
theorem ChatAnswer.add_chunkJson (answer : ChatAnswer) (metadata : ChatMetadata) (delta : Value)
    (finishReason : Option String) :
    answer.add (chunkJson metadata delta finishReason) =
      { id := answer.id.or (some (.string metadata.id))
        created := answer.created.or (some (jsonInt metadata.created))
        model := answer.model.or (some (.string metadata.model))
        content := appendSome answer.content ((delta.get "content").bind Value.asStr)
        refusal := appendSome answer.refusal ((delta.get "refusal").bind Value.asStr)
        toolCalls := answer.toolCalls ++ ((delta.get "tool_calls").bind Value.asArray).getD []
        finishReason := finishReason.or answer.finishReason
        usage := answer.usage } := by
  simp only [ChatAnswer.add, firstChoice_chunkJson]
  simp [chunkJson, get_json, OrdMap.ofList]

/-- A chunk with the role starts an answer with an empty text. -/
theorem add_roleChunk_empty (metadata : ChatMetadata) :
    ChatAnswer.empty.add (chunkJson metadata
      (json [("role", .string "assistant"), ("content", .string "")]) none) =
        streamedAnswer metadata "" none none := by
  rw [ChatAnswer.add_chunkJson]
  simp [ChatAnswer.empty, streamedAnswer, get_json, OrdMap.ofList, appendSome, pushStr,
    Value.asStr]

/-- A second one changes nothing. -/
theorem add_roleChunk (metadata : ChatMetadata) (text : String) :
    (streamedAnswer metadata text none none).add (chunkJson metadata
      (json [("role", .string "assistant"), ("content", .string "")]) none) =
        streamedAnswer metadata text none none := by
  rw [ChatAnswer.add_chunkJson]
  simp [streamedAnswer, get_json, OrdMap.ofList, appendSome, pushStr, Value.asStr]

/-- A chunk with text appends the text. -/
theorem add_textChunk (metadata : ChatMetadata) (text delta : String) :
    (streamedAnswer metadata text none none).add
      (chunkJson metadata (json [("content", .string delta)]) none) =
        streamedAnswer metadata (text ++ delta) none none := by
  rw [ChatAnswer.add_chunkJson]
  simp [streamedAnswer, get_json, OrdMap.ofList, appendSome, pushStr, Value.asStr]

/-- The last chunk brings the finish reason. -/
theorem add_finishChunk (metadata : ChatMetadata) (text finishReason : String) :
    (streamedAnswer metadata text none none).add
      (chunkJson metadata (json []) (some finishReason)) =
        streamedAnswer metadata text (some finishReason) none := by
  rw [ChatAnswer.add_chunkJson]
  simp [streamedAnswer, get_json, OrdMap.ofList, appendSome]

/-- A usage chunk brings the usage. -/
theorem add_usageChunk (metadata : ChatMetadata) (text : String) (finishReason : Option String)
    (usage : Usage) :
    (streamedAnswer metadata text finishReason none).add (usageChunkJson metadata usage) =
      streamedAnswer metadata text finishReason (some (chatUsage usage)) := by
  have hchoice : firstChoice (usageChunkJson metadata usage) = none := by
    simp [firstChoice, usageChunkJson, get_json, OrdMap.ofList, Value.asArray]
  simp only [ChatAnswer.add, hchoice]
  simp [streamedAnswer, usageChunkJson, get_json, OrdMap.ofList, appendSome]

/-! ### The whole stream -/

private theorem eventsOfType_of_none {kind : String} {record : SseRecord}
    (records : List SseRecord) (h : record.data = none) :
    eventsOfType kind (record :: records) = eventsOfType kind records := by
  simp [eventsOfType, h]

private theorem eventsOfType_of_eq {kind : String} {record : SseRecord} {event : Value}
    (records : List SseRecord) (h : record.data = some event) (htype : eventType event = some kind) :
    eventsOfType kind (record :: records) = event :: eventsOfType kind records := by
  simp [eventsOfType, h, htype]

private theorem eventsOfType_of_ne {kind : String} {record : SseRecord} {event : Value}
    (records : List SseRecord) (h : record.data = some event) (htype : eventType event ≠ some kind) :
    eventsOfType kind (record :: records) = eventsOfType kind records := by
  simp [eventsOfType, h, htype]

/-- **Before the terminal event** the chunks add up to the text of the deltas. The induction is on
the events; the text so far is the invariant. -/
theorem foldl_forwardChatStream_append {metadata : ChatMetadata} (includeUsage : Bool)
    (rest : List SseRecord) {earlier : List SseRecord} :
    ∀ (text : String) {texts : List String},
      (∀ record ∈ earlier, validateEvent record = .ok none) →
      (∀ event ∈ eventsOfType "response.created" earlier, HasMetadata event metadata) →
      (eventsOfType "response.output_text.delta" earlier).map (·.get "delta") =
        texts.map (some <| Value.string ·) →
      (forwardChatStream ⟨some metadata, includeUsage⟩ (earlier ++ rest)).map
          (·.foldl ChatAnswer.add (streamedAnswer metadata text none none)) =
        (forwardChatStream ⟨some metadata, includeUsage⟩ rest).map
          (·.foldl ChatAnswer.add (streamedAnswer metadata (text ++ String.join texts) none none))
      := by
  induction earlier with
  | nil =>
    intro text texts _ _ htexts
    have hnil : texts = [] := by
      simpa [eventsOfType] using htexts.symm
    simp [hnil]
  | cons record earlier ih =>
    intro text texts hvalid hcreated htexts
    have hvalid' : ∀ record ∈ earlier, validateEvent record = .ok none := fun record hmem =>
      hvalid record (List.mem_cons_of_mem _ hmem)
    simp only [List.cons_append, forwardChatStream, hvalid record List.mem_cons_self]
    cases hdata : record.data with
    | none =>
      rw [eventsOfType_of_none _ hdata] at hcreated htexts
      exact ih text hvalid' hcreated htexts
    | some event =>
      by_cases hstart : eventType event = some "response.created"
      · rw [eventsOfType_of_eq _ hdata hstart] at hcreated
        rw [eventsOfType_of_ne _ hdata (by simp [hstart])] at htexts
        have hconvert := (convertEvent_of_created ⟨some metadata, includeUsage⟩
          hstart).mpr ⟨metadata, hcreated event List.mem_cons_self, rfl⟩
        have hrest := ih text hvalid'
          (fun event hmem => hcreated event (List.mem_cons_of_mem _ hmem)) htexts
        simp only [hconvert, Option.map_map, Function.comp_def, Option.toList_some,
          List.singleton_append, List.foldl_cons, add_roleChunk, hrest]
      · rw [eventsOfType_of_ne _ hdata hstart] at hcreated
        by_cases hdelta : eventType event = some "response.output_text.delta"
        · rw [eventsOfType_of_eq _ hdata hdelta] at htexts
          cases texts with
          | nil => simp at htexts
          | cons delta texts =>
            simp only [List.map_cons, List.cons.injEq] at htexts
            have hconvert := convertEvent_of_delta metadata includeUsage hdelta htexts.1
            have hrest := ih (text ++ delta) hvalid' hcreated htexts.2
            simp only [hconvert, Option.map_map, Function.comp_def, Option.toList_some,
              List.singleton_append, List.foldl_cons, add_textChunk, hrest]
            simp [String.append_assoc]
        · rw [eventsOfType_of_ne _ hdata hdelta] at htexts
          have hrest := ih text hvalid' hcreated htexts
          simpa [convertEvent_of_other hstart hdelta] using hrest

/-! ### The end of the stream -/

theorem incompleteFinishReason_eq_ok {response : Value} {finishReason : String} :
    incompleteFinishReason response = .ok finishReason ↔
      ∃ details, response.get "incomplete_details" = some details ∧
        (details.get "reason" = some (.string "max_output_tokens") ∧ finishReason = "length" ∨
          details.get "reason" = some (.string "content_filter") ∧
            finishReason = "content_filter") := by
  simp only [incompleteFinishReason, bind_eq_ok, okOr_eq_ok, upstreamString_eq_ok,
    Option.filter_eq_some_iff]
  constructor
  · rintro ⟨details, ⟨hdetails, -⟩, reason, hreason, h⟩
    refine ⟨details, hdetails, ?_⟩
    split_ifs at h with hlength hfilter
    · cases h
      exact .inl ⟨by rw [hreason, hlength], rfl⟩
    · cases h
      exact .inr ⟨by rw [hreason, hfilter], rfl⟩
  · rintro ⟨details, hdetails, hreason⟩
    have hobject : details.isObject = true := by
      cases details <;> simp_all [Value.get, Value.isObject, Value.asObject]
    rcases hreason with ⟨hreason, rfl⟩ | ⟨hreason, rfl⟩
    · exact ⟨details, ⟨hdetails, hobject⟩, _, hreason, rfl⟩
    · exact ⟨details, ⟨hdetails, hobject⟩, _, hreason, rfl⟩

/-- What both conversions of a terminal event need. -/
theorem endsStream_iff {terminal : TerminalEvent} :
    EndsStream terminal ↔
      ∃ status response metadata usage finishReason,
        convertibleStatus terminal.kind = .ok status ∧
        terminal.payload.get "response" = some response ∧ HasMetadata terminal.payload metadata ∧
        terminal.usage = some usage ∧ streamFinishReason status response = .ok finishReason := by
  constructor
  · rintro ⟨hkind, ⟨metadata, hmetadata⟩, husage⟩
    obtain ⟨usage, husage⟩ := Option.ne_none_iff_exists'.mp husage
    obtain ⟨response, hresponse, -⟩ := hmetadata.response
    rcases hkind with hkind | ⟨hkind, details, hdetails, hreason⟩
    · exact ⟨.completed, response, metadata, usage, "stop", by rw [hkind]; rfl, hresponse,
        hmetadata, husage, rfl⟩
    · rw [responseField, hresponse, Option.bind_some] at hdetails
      have hfinish : ∃ finishReason, incompleteFinishReason response = .ok finishReason := by
        rcases hreason with hreason | hreason
        · exact ⟨_, incompleteFinishReason_eq_ok.mpr ⟨details, hdetails, .inl ⟨hreason, rfl⟩⟩⟩
        · exact ⟨_, incompleteFinishReason_eq_ok.mpr ⟨details, hdetails, .inr ⟨hreason, rfl⟩⟩⟩
      obtain ⟨finishReason, hfinish⟩ := hfinish
      exact ⟨.incomplete, response, metadata, usage, finishReason, by rw [hkind]; rfl, hresponse,
        hmetadata, husage, hfinish⟩
  · rintro ⟨status, response, metadata, usage, finishReason, hstatus, hresponse, hmetadata, husage,
      hfinish⟩
    refine ⟨?_, ⟨metadata, hmetadata⟩, by simp [husage]⟩
    cases hkind : terminal.kind with
    | completed => exact .inl rfl
    | incomplete =>
      rw [hkind] at hstatus
      cases hstatus
      obtain ⟨details, hdetails, hreason⟩ := incompleteFinishReason_eq_ok.mp hfinish
      refine .inr ⟨rfl, details, by rw [responseField, hresponse]; exact hdetails, ?_⟩
      exact hreason.imp And.left And.left
    | failed =>
      rw [hkind] at hstatus
      cases hstatus
    | error =>
      rw [hkind] at hstatus
      cases hstatus

theorem convertTerminal_eq_ok {converter : ChatStreamConverter} {terminal : TerminalEvent}
    {converted : ConvertedStreamTerminal} :
    converter.convertTerminal terminal = .ok converted ↔
      ∃ status response metadata usage finishReason,
        convertibleStatus terminal.kind = .ok status ∧
        terminal.payload.get "response" = some response ∧ HasMetadata terminal.payload metadata ∧
        terminal.usage = some usage ∧ streamFinishReason status response = .ok finishReason ∧
        converted = ⟨chunkJson metadata (json []) (some finishReason) ::
          if converter.includeUsage then [usageChunkJson metadata usage] else [], usage, status⟩ := by
  simp only [ChatStreamConverter.convertTerminal, bind_eq_ok, okOr_eq_ok,
    Option.filter_eq_some_iff]
  constructor
  · rintro ⟨status, hstatus, response, ⟨hresponse, -⟩, converter', hcapture, usage, husage,
      finishReason, hfinish, finish, hchunk, chunks, hchunks, h⟩
    obtain ⟨metadata, hmetadata, rfl⟩ := (captureMetadata_eq_ok hresponse).mp hcapture
    refine ⟨status, response, metadata, usage, finishReason, hstatus, hresponse, hmetadata, husage,
      hfinish, ?_⟩
    cases hchunk
    cases h
    unfold ChatStreamConverter.usageChunks at hchunks
    split_ifs at hchunks ⊢
    · cases hchunks
      rfl
    · cases hchunks
      rfl
  · rintro ⟨status, response, metadata, usage, finishReason, hstatus, hresponse, hmetadata, husage,
      hfinish, rfl⟩
    obtain ⟨response', hresponse', hobject⟩ := hmetadata.response
    cases hresponse.symm.trans hresponse'
    refine ⟨status, hstatus, response, ⟨hresponse, hobject⟩, _,
      (captureMetadata_eq_ok hresponse).mpr ⟨metadata, hmetadata, rfl⟩, usage, husage, finishReason,
      hfinish, _, rfl, ?_⟩
    unfold ChatStreamConverter.usageChunks
    cases converter.includeUsage
    · exact ⟨_, rfl, rfl⟩
    · exact ⟨_, rfl, rfl⟩

/-! ### Plain output -/

theorem partTexts_of_plain {part : Value} {text : String}
    (hkind : part.get "type" = some (.string "output_text"))
    (htext : part.get "text" = some (.string text)) : partTexts [part] = [text] := by
  simp [partTexts, eventType, hkind, htext, Value.asStr]

/-- A part adds no refusal exactly when it is text. -/
theorem convertOutputPart_plain {itemIndex contentIndex : Nat} {part : Value}
    {converted result : ConvertedOutput} :
    (convertOutputPart itemIndex contentIndex part converted = .ok result ∧
        result.refusal = none) ↔
      converted.refusal = none ∧ PlainPart part ∧
        result = { converted with text := (partTexts [part]).foldl pushStr converted.text } := by
  simp only [convertOutputPart, bind_eq_ok, failIf_eq_ok, upstreamString_eq_ok]
  constructor
  · rintro ⟨⟨-, -, kind, hkind, h⟩, hrefusal⟩
    split_ifs at h with htext hrefused
    · obtain ⟨text, htext', h⟩ := bind_eq_ok.mp h
      cases h
      have hplain := And.intro (hkind.trans (by rw [htext])) (upstreamString_eq_ok.mp htext')
      refine ⟨hrefusal, ⟨hplain.1, text, hplain.2⟩, ?_⟩
      rw [partTexts_of_plain hplain.1 hplain.2]
      rfl
    · obtain ⟨refusal, -, h⟩ := bind_eq_ok.mp h
      cases h
      cases hrefusal
  · rintro ⟨hrefusal, ⟨hkind, text, htext⟩, rfl⟩
    have hobject : part.isObject = true := by
      cases part <;> simp_all [Value.get, Value.isObject, Value.asObject]
    refine ⟨⟨(), by simp [hobject], _, hkind, ?_⟩, hrefusal⟩
    rw [if_pos rfl, partTexts_of_plain hkind htext]
    exact bind_eq_ok.mpr ⟨text, upstreamString_eq_ok.mpr htext, rfl⟩

/-- The parts of a message add no refusal exactly when they are text, and then they add their
texts. The induction is on the parts. -/
theorem convertOutputParts_plain {itemIndex : Nat} {parts : List Value} :
    ∀ {contentIndex : Nat} {converted result : ConvertedOutput},
      (convertOutputParts itemIndex contentIndex parts converted = .ok result ∧
          result.refusal = none) ↔
        converted.refusal = none ∧ (∀ part ∈ parts, PlainPart part) ∧
          result = { converted with text := (partTexts parts).foldl pushStr converted.text } := by
  induction parts with
  | nil =>
    intro contentIndex converted result
    constructor
    · rintro ⟨h, hrefusal⟩
      cases h
      exact ⟨hrefusal, by simp, rfl⟩
    · rintro ⟨hrefusal, -, rfl⟩
      exact ⟨rfl, hrefusal⟩
  | cons part parts ih =>
    intro contentIndex converted result
    have htexts : partTexts (part :: parts) = partTexts [part] ++ partTexts parts := by
      rw [← List.singleton_append]
      simp only [partTexts, List.filter_append, List.filterMap_append]
    rw [htexts, List.foldl_append]
    simp only [convertOutputParts, bind_eq_ok, List.forall_mem_cons]
    constructor
    · rintro ⟨⟨next, hpart, hrest⟩, hrefusal⟩
      obtain ⟨hnext, hplain, rfl⟩ := ih.mp ⟨hrest, hrefusal⟩
      obtain ⟨hrefusal, hplain', rfl⟩ := convertOutputPart_plain.mp ⟨hpart, hnext⟩
      exact ⟨hrefusal, ⟨hplain', hplain⟩, rfl⟩
    · rintro ⟨hrefusal, ⟨hplain, hplain'⟩, rfl⟩
      obtain ⟨hpart, hnext⟩ := convertOutputPart_plain.mpr ⟨hrefusal, hplain, rfl⟩
      obtain ⟨hrest, hlast⟩ := ih.mpr ⟨hnext, hplain', rfl⟩
      exact ⟨⟨_, hpart, hrest⟩, hlast⟩

/-- An item adds no refusal and no tool call exactly when it is plain. -/
theorem convertOutputItem_plain {index : Nat} {item : Value}
    {converted result : ConvertedOutput} :
    (convertOutputItem index item converted = .ok result ∧ result.refusal = none ∧
        result.toolCalls = []) ↔
      converted.refusal = none ∧ converted.toolCalls = [] ∧ PlainItem item ∧
        result = { converted with text := (messageTexts item).foldl pushStr converted.text } := by
  simp only [convertOutputItem, bind_eq_ok, failIf_eq_ok, upstreamString_eq_ok]
  constructor
  · rintro ⟨⟨-, -, kind, hkind, h⟩, hrefusal, hcalls⟩
    split_ifs at h with hreasoning hmessage hcall
    · cases h
      refine ⟨hrefusal, hcalls, .inl (by rw [hkind, hreasoning]), ?_⟩
      simp [messageTexts, eventType, hkind, hreasoning, Value.asStr]
    · simp only [convertOutputMessage, bind_eq_ok, failIf_eq_ok, okOr_eq_ok, upstreamString_eq_ok,
        not_not] at h
      obtain ⟨role, hrole, -, rfl, content, hcontent, hparts⟩ := h
      obtain ⟨hrefusal, hplain, rfl⟩ := convertOutputParts_plain.mp ⟨hparts, hrefusal⟩
      obtain ⟨value, hvalue, hcontent⟩ := Option.bind_eq_some_iff.mp hcontent
      rw [Value.asArray_eq_some_iff.mp hcontent] at hvalue
      refine ⟨hrefusal, hcalls, .inr ⟨by rw [hkind, hmessage], hrole, content, hvalue, hplain⟩, ?_⟩
      simp [messageTexts, eventType, hkind, hmessage, Value.asStr, hvalue, Value.asArray]
    · simp only [bind_eq_ok] at h
      obtain ⟨callId, -, name, -, arguments, -, h⟩ := h
      cases h
      simp at hcalls
  · rintro ⟨hrefusal, hcalls, hplain, rfl⟩
    have hobject : item.isObject = true := by
      rcases hplain with hkind | ⟨hkind, -⟩ <;>
        cases item <;> simp_all [Value.get, Value.isObject, Value.asObject]
    refine ⟨?_, hrefusal, hcalls⟩
    rcases hplain with hkind | ⟨hkind, hrole, parts, hparts, hplain⟩
    · refine ⟨(), by simp [hobject], _, hkind, ?_⟩
      simp [messageTexts, eventType, hkind, Value.asStr]
      rfl
    · refine ⟨(), by simp [hobject], _, hkind, ?_⟩
      have htexts : messageTexts item = partTexts parts := by
        simp [messageTexts, eventType, hkind, Value.asStr, hparts, Value.asArray]
      have hconvert : convertOutputParts index 0 parts converted =
          .ok { converted with text := (partTexts parts).foldl pushStr converted.text } :=
        (convertOutputParts_plain.mpr ⟨hrefusal, hplain, rfl⟩).1
      simp only [convertOutputMessage]
      rw [htexts]
      simpa [bind_eq_ok, upstreamString_eq_ok, hrole, hparts, Value.asArray] using hconvert

/-- **Plain output.** Converting output items adds no refusal and no tool call exactly when every
item is plain, and then it adds their texts. The induction is on the items. -/
theorem convertOutputItems_plain {items : List Value} :
    ∀ {index : Nat} {converted result : ConvertedOutput},
      (convertOutputItems index items converted = .ok result ∧ result.refusal = none ∧
          result.toolCalls = []) ↔
        converted.refusal = none ∧ converted.toolCalls = [] ∧ (∀ item ∈ items, PlainItem item) ∧
          result =
            { converted with text := (items.flatMap messageTexts).foldl pushStr converted.text } := by
  induction items with
  | nil =>
    intro index converted result
    constructor
    · rintro ⟨h, hrefusal, hcalls⟩
      cases h
      exact ⟨hrefusal, hcalls, by simp, rfl⟩
    · rintro ⟨hrefusal, hcalls, -, rfl⟩
      exact ⟨rfl, hrefusal, hcalls⟩
  | cons item items ih =>
    intro index converted result
    rw [List.flatMap_cons, List.foldl_append]
    simp only [convertOutputItems, bind_eq_ok, List.forall_mem_cons]
    constructor
    · rintro ⟨⟨next, hitem, hrest⟩, hrefusal, hcalls⟩
      obtain ⟨hnext, hnext', hplain, rfl⟩ := ih.mp ⟨hrest, hrefusal, hcalls⟩
      obtain ⟨hrefusal, hcalls, hplain', rfl⟩ := convertOutputItem_plain.mp ⟨hitem, hnext, hnext'⟩
      exact ⟨hrefusal, hcalls, ⟨hplain', hplain⟩, rfl⟩
    · rintro ⟨hrefusal, hcalls, ⟨hplain, hplain'⟩, rfl⟩
      obtain ⟨hitem, hnext, hnext'⟩ :=
        convertOutputItem_plain.mpr ⟨hrefusal, hcalls, hplain, rfl⟩
      obtain ⟨hrest, hlast⟩ := ih.mpr ⟨hnext, hnext', hplain', rfl⟩
      exact ⟨⟨_, hitem, hrest⟩, hlast⟩

theorem foldl_pushStr_some (texts : List String) :
    ∀ text : String, texts.foldl pushStr (some text) = some (text ++ String.join texts) := by
  induction texts with
  | nil => simp
  | cons first texts ih =>
    intro text
    rw [List.foldl_cons, pushStr, Option.getD_some, ih]
    simp [String.append_assoc]

/-- Pushing texts onto nothing gives their concatenation, if there is one. -/
theorem foldl_pushStr_none {texts : List String} {text : String} (h : text = String.join texts) :
    texts.foldl pushStr none = some text ↔ texts ≠ [] := by
  cases texts with
  | nil => simp
  | cons first texts =>
    rw [List.foldl_cons, pushStr, foldl_pushStr_some]
    simp [h]

/-! ### The exact condition -/

/-- The answer of a single completion. -/
theorem completionAnswer_completionJson (includeUsage : Bool) (metadata : ChatMetadata)
    (converted : ConvertedOutput) (finishReason : String) (usage : Usage) :
    completionAnswer includeUsage (completionJson metadata converted finishReason usage) =
      { id := some (.string metadata.id)
        created := some (jsonInt metadata.created)
        model := some (.string metadata.model)
        content := converted.text
        refusal := converted.refusal
        toolCalls := converted.toolCalls
        finishReason := some finishReason
        usage := if includeUsage then some (chatUsage usage) else none } := by
  have hcalls : (((chatMessage converted).get "tool_calls").bind Value.asArray).getD [] =
      converted.toolCalls := by
    by_cases hnil : converted.toolCalls = [] <;> simp [get_chatMessage, hnil, Value.asArray]
  have hcontent : ((chatMessage converted).get "content").bind Value.asStr = converted.text := by
    simp [get_chatMessage]
  have hrefusal : ((chatMessage converted).get "refusal").bind Value.asStr = converted.refusal := by
    simp [get_chatMessage]
  simp only [completionAnswer, firstChoice_completionJson]
  simp [get_json, OrdMap.ofList, hcalls, hcontent, hrefusal, completionJson]

/-- **The single answer.** Of an event a stream can end with, the completion is the answer with
this text exactly when the response is a plain answer. -/
theorem singleAnswer_iff {terminal : TerminalEvent} {status : TerminalStatus} {response : Value}
    {metadata : ChatMetadata} {usage : Usage} {finishReason : String} (includeUsage : Bool)
    (hstatus : convertibleStatus terminal.kind = .ok status)
    (hresponse : terminal.payload.get "response" = some response)
    (hmetadata : HasMetadata terminal.payload metadata) (husage : terminal.usage = some usage)
    (hfinish : streamFinishReason status response = .ok finishReason) :
    (convertTerminalEvent terminal).toOption.map (completionAnswer includeUsage ·.chatCompletion) =
        some (streamedAnswer metadata (String.join (outputTexts response)) (some finishReason)
          (if includeUsage then some (chatUsage usage) else none)) ↔
      PlainAnswer response := by
  have hid := hmetadata.id
  have hcreated := hmetadata.created
  have hmodel := hmetadata.model
  simp only [responseField, hresponse, Option.bind_some] at hid hcreated hmodel
  rw [Option.map_eq_some_iff]
  constructor
  · rintro ⟨completion, hconvert, hanswer⟩
    have hconvert := toOption_eq_some.mp hconvert
    obtain ⟨status', response', metadata', usage', output, converted, finishReason', -, hresponse',
      hobject, hkind, hid', hidNe, hmodel', hmodelNe, -, -, houtput, hconverted, -, rfl⟩ :=
        convertTerminalEvent_eq_ok.mp hconvert
    cases hresponse.symm.trans hresponse'
    rw [completionAnswer_completionJson] at hanswer
    simp only [streamedAnswer, ChatAnswer.mk.injEq] at hanswer
    obtain ⟨-, -, -, htext, hrefusal, hcalls, -, -⟩ := hanswer
    obtain ⟨-, -, hplain, rfl⟩ := convertOutputItems_plain.mp ⟨hconverted, hrefusal, hcalls⟩
    have htexts : outputTexts response = output.flatMap messageTexts := by
      simp [outputTexts, houtput, Value.asArray]
    rw [htexts] at htext
    exact {
      object := hkind
      id := by simpa [hid'] using hidNe
      model := by simpa [hmodel'] using hmodelNe
      output := ⟨output, houtput, hplain⟩
      text := by
        rw [htexts]
        exact (foldl_pushStr_none rfl).mp htext }
  · rintro ⟨hobject, hidNe, hmodelNe, ⟨output, houtput, hplain⟩, htext⟩
    have htexts : outputTexts response = output.flatMap messageTexts := by
      simp [outputTexts, houtput, Value.asArray]
    have hconverted : convertOutput output =
        .ok ⟨some (String.join (outputTexts response)), none, []⟩ := by
      rw [← (foldl_pushStr_none rfl).mpr htext, htexts]
      exact (convertOutputItems_plain.mpr ⟨rfl, rfl, hplain, rfl⟩).1
    have hcompletion : completionFinishReason status response
        ⟨some (String.join (outputTexts response)), none, []⟩ = .ok finishReason := by
      cases status <;> exact hfinish
    obtain ⟨response', hresponse', hisObject⟩ := hmetadata.response
    cases hresponse.symm.trans hresponse'
    have hconvert := convertTerminalEvent_eq_ok.mpr ⟨status, response, metadata, usage, output, _,
      finishReason, hstatus, hresponse, hisObject, hobject, hid, by simpa [hid] using hidNe, hmodel,
      by simpa [hmodel] using hmodelNe, hcreated, husage, houtput, hconverted, hcompletion, rfl⟩
    refine ⟨_, by rw [hconvert]; rfl, ?_⟩
    rw [completionAnswer_completionJson]
    rfl

/-! ### The terminal event as it is handed on -/

namespace TerminalEvent

/-- Filling the output changes no other field of the response. -/
theorem responseField_withOutputItems {terminal : TerminalEvent} {items : List Value}
    {field : String} (hfield : field ≠ "output") :
    responseField (terminal.withOutputItems items).payload field =
      responseField terminal.payload field := by
  unfold withOutputItems
  split
  · next h =>
    obtain ⟨response, hresponse, -⟩ := Option.bind_eq_some_iff.mp h.1
    have hobject : terminal.payload.isObject = true := by
      cases hpayload : terminal.payload <;>
        simp_all [Value.get, Value.isObject, Value.asObject]
    simp [responseField, Value.get_setField_self hobject, Value.get_setField_of_ne hfield,
      Value.index, hresponse]
  · rfl

theorem kind_withOutputItems (terminal : TerminalEvent) (items : List Value) :
    (terminal.withOutputItems items).kind = terminal.kind := by
  unfold withOutputItems
  split <;> rfl

theorem usage_withOutputItems (terminal : TerminalEvent) (items : List Value) :
    (terminal.withOutputItems items).usage = terminal.usage := by
  unfold withOutputItems
  split <;> rfl

theorem hasMetadata_withOutputItems {terminal : TerminalEvent} {items : List Value}
    {metadata : ChatMetadata} :
    HasMetadata (terminal.withOutputItems items).payload metadata ↔
      HasMetadata terminal.payload metadata := by
  refine hasMetadata_congr fun field hfield => responseField_withOutputItems ?_
  rintro rfl
  revert hfield
  decide

/-- A stream can end with the event as it is handed on exactly when it can end with the event. -/
theorem endsStream_withOutputItems {terminal : TerminalEvent} {items : List Value} :
    EndsStream (terminal.withOutputItems items) ↔ EndsStream terminal := by
  constructor <;> rintro ⟨hkind, ⟨metadata, hmetadata⟩, husage⟩
  · rw [kind_withOutputItems, responseField_withOutputItems (by decide)] at hkind
    rw [usage_withOutputItems] at husage
    exact ⟨hkind, ⟨metadata, hasMetadata_withOutputItems.mp hmetadata⟩, husage⟩
  · refine ⟨?_, ⟨metadata, hasMetadata_withOutputItems.mpr hmetadata⟩, ?_⟩
    · rwa [kind_withOutputItems, responseField_withOutputItems (by decide)]
    · rwa [usage_withOutputItems]

/-- An event that can be converted reports no error. -/
theorem upstreamError_of_convertible {terminal : TerminalEvent} {status : TerminalStatus}
    (h : convertibleStatus terminal.kind = .ok status) : terminal.upstreamError = none := by
  unfold upstreamError
  cases hkind : terminal.kind <;> simp_all [convertibleStatus]

end TerminalEvent

/-- The single completion is made of the terminal event as it is handed on. -/
theorem readChatTerminal_append {last : SseRecord} (later : List SseRecord)
    {terminal : TerminalEvent} (hlast : validateEvent last = .ok (some terminal))
    {earlier : List SseRecord} :
    ∀ items, (∀ record ∈ earlier, validateEvent record = .ok none) →
      readChatTerminal items (earlier ++ last :: later) =
        (convertTerminalEvent (terminal.withOutputItems
          (items ++ earlier.filterMap completedOutputItem))).toOption := by
  induction earlier with
  | nil =>
    intro items _
    simp only [List.nil_append, List.filterMap_nil, List.append_nil, readChatTerminal, hlast]
    split
    · next herror =>
      cases hconvert : convertTerminalEvent (terminal.withOutputItems items) with
      | error error => rfl
      | ok completion =>
        obtain ⟨status, _, _, _, _, _, _, hstatus, -⟩ := convertTerminalEvent_eq_ok.mp hconvert
        rw [TerminalEvent.kind_withOutputItems] at hstatus
        simp [TerminalEvent.upstreamError_of_convertible hstatus] at herror
    · rfl
  | cons record earlier ih =>
    intro items hvalid
    have hrest := ih (items ++ (completedOutputItem record).toList)
      fun record hmem => hvalid record (List.mem_cons_of_mem _ hmem)
    simp only [List.cons_append, readChatTerminal, hvalid record List.mem_cons_self, hrest]
    cases hitem : completedOutputItem record <;> simp [hitem]

/-- The stream ends with the terminal event. -/
theorem forwardChatStream_last {converter : ChatStreamConverter} {last : SseRecord}
    (later : List SseRecord) {terminal : TerminalEvent}
    (hlast : validateEvent last = .ok (some terminal)) :
    forwardChatStream converter (last :: later) =
      (converter.convertTerminal terminal).toOption.map ConvertedStreamTerminal.chunks := by
  simp only [forwardChatStream, hlast]
  split
  · next herror =>
    cases hconvert : converter.convertTerminal terminal with
    | error error => rfl
    | ok converted =>
      obtain ⟨status, _, _, _, _, hstatus, -⟩ := convertTerminal_eq_ok.mp hconvert
      simp [TerminalEvent.upstreamError_of_convertible hstatus] at herror
  · rfl

theorem endsStream_of_convertTerminal {converter : ChatStreamConverter} {terminal : TerminalEvent}
    {converted : ConvertedStreamTerminal} (h : converter.convertTerminal terminal = .ok converted) :
    EndsStream terminal := by
  obtain ⟨status, response, metadata, usage, finishReason, hstatus, hresponse, hmetadata, husage,
    hfinish, -⟩ := convertTerminal_eq_ok.mp h
  exact endsStream_iff.mpr ⟨status, response, metadata, usage, finishReason, hstatus, hresponse,
    hmetadata, husage, hfinish⟩

theorem endsStream_of_convertTerminalEvent {terminal : TerminalEvent}
    {completion : ConvertedTerminal} (h : convertTerminalEvent terminal = .ok completion) :
    EndsStream terminal := by
  obtain ⟨status, response, metadata, usage, output, converted, finishReason, hstatus, hresponse,
    hobject, -, hid, -, hmodel, -, hcreated, husage, -, -, hfinish, -⟩ :=
      convertTerminalEvent_eq_ok.mp h
  have hmetadata : HasMetadata terminal.payload metadata := by
    constructor
    · rw [responseField, hresponse]
      exact hid
    · rw [responseField, hresponse]
      exact hcreated
    · rw [responseField, hresponse]
      exact hmodel
  have hstream : ∃ finishReason, streamFinishReason status response = .ok finishReason := by
    cases status
    · exact ⟨_, rfl⟩
    · exact ⟨finishReason, hfinish⟩
  obtain ⟨finishReason', hstream⟩ := hstream
  exact endsStream_iff.mpr ⟨status, response, metadata, usage, finishReason', hstatus, hresponse,
    hmetadata, husage, hstream⟩

/-- The finish reason depends on the incomplete details alone. -/
theorem streamFinishReason_congr {status : TerminalStatus} {event event' response response' : Value}
    (hresponse : event.get "response" = some response)
    (hresponse' : event'.get "response" = some response')
    (h : responseField event "incomplete_details" = responseField event' "incomplete_details") :
    streamFinishReason status response = streamFinishReason status response' := by
  simp only [responseField, hresponse, hresponse', Option.bind_some] at h
  cases status
  · rfl
  · simp only [streamFinishReason, incompleteFinishReason, h]

/-- A stream whose metadata are wrong fails at its first event. -/
theorem forwardChatStream_of_no_metadata {earlier rest : List SseRecord} {terminal : TerminalEvent}
    (includeUsage : Bool) (hvalid : ∀ record ∈ earlier, validateEvent record = .ok none)
    (hevents : ChatEvents earlier terminal)
    (hmetadata : ∀ metadata, ¬ HasMetadata terminal.payload metadata) :
    forwardChatStream (.new includeUsage) (earlier ++ rest) = none := by
  obtain ⟨record, created, others, rfl, hdata, hstart⟩ := hevents.starts
  have hsame := hevents.sameMetadata created (by
    rw [eventsOfType_of_eq _ hdata hstart]
    exact List.mem_cons_self)
  simp only [List.cons_append, forwardChatStream, hvalid record List.mem_cons_self, hdata]
  cases hconvert : (ChatStreamConverter.new includeUsage).convertEvent created with
  | error error => rfl
  | ok result =>
    obtain ⟨metadata, hmetadata', -⟩ := (convertEvent_of_created _ hstart).mp hconvert
    exact absurd ((hasMetadata_congr hsame).mp hmetadata') (hmetadata metadata)

/-- A stream whose metadata are right carries its text up to its terminal event. -/
theorem foldl_forwardChatStream {earlier : List SseRecord} (rest : List SseRecord)
    {terminal : TerminalEvent} {metadata : ChatMetadata} (includeUsage : Bool)
    (hvalid : ∀ record ∈ earlier, validateEvent record = .ok none)
    (hevents : ChatEvents earlier terminal) (hmetadata : HasMetadata terminal.payload metadata) :
    (forwardChatStream (.new includeUsage) (earlier ++ rest)).map (·.foldl ChatAnswer.add .empty) =
      (forwardChatStream ⟨some metadata, includeUsage⟩ rest).map
        (·.foldl ChatAnswer.add (streamedAnswer metadata
          (String.join (outputTexts (terminal.payload.index "response"))) none none)) := by
  have hcreated : ∀ event ∈ eventsOfType "response.created" earlier,
      HasMetadata event metadata := fun event hmem =>
    (hasMetadata_congr (hevents.sameMetadata event hmem)).mpr hmetadata
  obtain ⟨record, created, others, rfl, hdata, hstart⟩ := hevents.starts
  obtain ⟨texts, htexts, htext⟩ := hevents.sameText
  rw [eventsOfType_of_eq _ hdata hstart] at hcreated
  rw [eventsOfType_of_ne _ hdata (by simp [hstart])] at htexts
  have hconvert := (convertEvent_of_created (.new includeUsage) hstart).mpr
    ⟨metadata, hcreated created List.mem_cons_self, rfl⟩
  have hrun := foldl_forwardChatStream_append includeUsage rest ""
    (fun record hmem => hvalid record (List.mem_cons_of_mem _ hmem))
    (fun event hmem => hcreated event (List.mem_cons_of_mem _ hmem)) htexts
  rw [htext, String.empty_append] at hrun
  rw [← hrun]
  simp only [List.cons_append, forwardChatStream, hvalid record List.mem_cons_self, hdata,
    hconvert, Option.map_map, Function.comp_def, Option.toList_some, List.foldl_cons,
    add_roleChunk_empty]
  rfl

/-- **When streamed and single answers agree.** Of events that fit together, whatever follows the
terminal event, both ways agree exactly when the terminal event cannot end a stream or its response
is a plain answer. -/
theorem chatModesAgree_iff {earlier later : List SseRecord} {last : SseRecord}
    {terminal handedOn : TerminalEvent} {includeUsage : Bool}
    (hvalid : ∀ record ∈ earlier, validateEvent record = .ok none)
    (hlast : validateEvent last = .ok (some terminal))
    (hhandedOn : handedOn = terminal.withOutputItems (earlier.filterMap completedOutputItem))
    (hevents : ChatEvents earlier handedOn) :
    ChatModesAgree includeUsage (earlier ++ last :: later) ↔
      ¬ EndsStream handedOn ∨ PlainAnswer (handedOn.payload.index "response") := by
  have hsingle := readChatTerminal_append later hlast [] hvalid
  rw [List.nil_append, ← hhandedOn] at hsingle
  rw [ChatModesAgree, hsingle]
  by_cases hends : EndsStream handedOn
  · obtain ⟨status, response, metadata, usage, finishReason, hstatus, hresponse, hmetadata, husage,
      hfinish⟩ := endsStream_iff.mp hends
    rw [foldl_forwardChatStream _ includeUsage hvalid hevents hmetadata,
      forwardChatStream_last later hlast]
    -- What the stream reads of the terminal event is what was handed on.
    have hmetadata' : HasMetadata terminal.payload metadata :=
      TerminalEvent.hasMetadata_withOutputItems.mp (hhandedOn ▸ hmetadata)
    obtain ⟨response', hresponse', -⟩ := hmetadata'.response
    have hkind : terminal.kind = handedOn.kind := by
      rw [hhandedOn, TerminalEvent.kind_withOutputItems]
    have husage' : terminal.usage = some usage := by
      rw [← husage, hhandedOn, TerminalEvent.usage_withOutputItems]
    have hfinish' : streamFinishReason status response' = .ok finishReason := by
      rw [← hfinish]
      refine streamFinishReason_congr hresponse' hresponse ?_
      rw [hhandedOn, TerminalEvent.responseField_withOutputItems (by decide)]
    have hconvert : ChatStreamConverter.convertTerminal ⟨some metadata, includeUsage⟩ terminal =
        .ok ⟨chunkJson metadata (json []) (some finishReason) ::
          if includeUsage then [usageChunkJson metadata usage] else [], usage, status⟩ :=
      convertTerminal_eq_ok.mpr ⟨status, response', metadata, usage, finishReason,
        by rw [hkind, hstatus], hresponse', hmetadata', husage', hfinish', rfl⟩
    have hanswer (text : String) : List.foldl ChatAnswer.add (streamedAnswer metadata text none none)
        (chunkJson metadata (json []) (some finishReason) ::
          if includeUsage then [usageChunkJson metadata usage] else []) =
        streamedAnswer metadata text (some finishReason)
          (if includeUsage then some (chatUsage usage) else none) := by
      cases includeUsage <;> simp [add_finishChunk, add_usageChunk]
    have hindex : handedOn.payload.index "response" = response := by
      simp [Value.index, hresponse]
    rw [hconvert, hindex, ← singleAnswer_iff includeUsage hstatus hresponse hmetadata husage hfinish]
    simp only [Except.toOption, Option.map_some, hanswer, hends, not_true_eq_false, false_or]
    exact eq_comm
  · -- Neither way gets past the terminal event.
    have hsingle : (convertTerminalEvent handedOn).toOption = none := by
      cases hconvert : convertTerminalEvent handedOn with
      | error error => rfl
      | ok completion => exact absurd (endsStream_of_convertTerminalEvent hconvert) hends
    have hconvert (converter : ChatStreamConverter) :
        (converter.convertTerminal terminal).toOption = none := by
      cases hconvert : converter.convertTerminal terminal with
      | error error => rfl
      | ok converted =>
        refine absurd ?_ hends
        rw [hhandedOn, TerminalEvent.endsStream_withOutputItems]
        exact endsStream_of_convertTerminal hconvert
    have hstream : (forwardChatStream (.new includeUsage) (earlier ++ last :: later)).map
        (·.foldl ChatAnswer.add .empty) = none := by
      by_cases hmetadata : ∃ metadata, HasMetadata handedOn.payload metadata
      · obtain ⟨metadata, hmetadata⟩ := hmetadata
        rw [foldl_forwardChatStream _ includeUsage hvalid hevents hmetadata,
          forwardChatStream_last later hlast, hconvert]
        rfl
      · rw [forwardChatStream_of_no_metadata includeUsage hvalid hevents (not_exists.mp hmetadata)]
        rfl
    rw [hstream, hsingle]
    simp [hends]

/-- Without a terminal event both ways fail. -/
theorem chatModesAgree_of_no_terminal {includeUsage : Bool} {records : List SseRecord}
    (h : ∀ record ∈ records, ∀ terminal, validateEvent record ≠ .ok (some terminal)) :
    ChatModesAgree includeUsage records := by
  have hsingle : ∀ items, readChatTerminal items records = none := by
    induction records with
    | nil => exact fun _ => rfl
    | cons record records ih =>
      intro items
      have hrest := ih fun record hmem => h record (List.mem_cons_of_mem _ hmem)
      unfold readChatTerminal
      split
      · rfl
      · exact hrest _
      · next terminal hterminal => exact absurd hterminal (h record List.mem_cons_self terminal)
  have hstream : ∀ converter, forwardChatStream converter records = none := by
    clear hsingle
    induction records with
    | nil => exact fun _ => rfl
    | cons record records ih =>
      intro converter
      have hrest := ih fun record hmem => h record (List.mem_cons_of_mem _ hmem)
      unfold forwardChatStream
      split
      · rfl
      · next terminal hterminal => exact absurd hterminal (h record List.mem_cons_self terminal)
      · split
        · exact hrest _
        · split
          · rfl
          · simp [hrest]
  rw [ChatModesAgree, hsingle, hstream]
  rfl

/-! ### A refusal -/

/-- A `response.created` event. -/
def createdRecord : SseRecord :=
  ⟨"response.created", some (json [("type", .string "response.created"), ("response",
    json [("id", .string "resp"), ("created_at", jsonInt 7), ("model", .string "gpt")])])⟩

/-- The payload of a `response.completed` event whose output is a message with one part. -/
def completedPayload (part : Value) : Value :=
  json [("type", .string "response.completed"), ("response", json [("status", .string "completed"),
    ("object", .string "response"), ("id", .string "resp"), ("model", .string "gpt"),
    ("created_at", jsonInt 7), ("usage", json [("input_tokens", jsonInt 1),
      ("output_tokens", jsonInt 1), ("total_tokens", jsonInt 2)]),
    ("output", .array [json [("type", .string "message"), ("role", .string "assistant"),
      ("content", .array [part])]])])]

/-- A `response.completed` event whose output is a message with one part. -/
def completedRecord (part : Value) : SseRecord :=
  ⟨"response.completed", some (completedPayload part)⟩

/-- That event, validated. -/
def completedTerminal (part : Value) : TerminalEvent :=
  ⟨.completed, completedPayload part, some ⟨1, 0, 1, 0, 2⟩⟩

/-- A text delta. -/
def deltaRecord (text : String) : SseRecord :=
  ⟨"response.output_text.delta", some (json [("type", .string "response.output_text.delta"),
    ("delta", .string text)])⟩

/-- A text part. -/
def textPart : Value := json [("type", .string "output_text"), ("text", .string "Hi")]

/-- A refusal part. -/
def refusalPart : Value := json [("type", .string "refusal"), ("refusal", .string "No")]

private theorem validateEvent_text :
    validateEvent (completedRecord textPart) = .ok (some (completedTerminal textPart)) := by
  decide

private theorem plainAnswer_text :
    PlainAnswer ((completedTerminal textPart).payload.index "response") where
  object := by decide
  id := by decide
  model := by decide
  output := by
    refine ⟨_, rfl, ?_⟩
    intro item hitem
    rw [List.mem_singleton.mp hitem]
    refine .inr ⟨by decide, by decide, _, rfl, ?_⟩
    intro part hpart
    rw [List.mem_singleton.mp hpart]
    exact ⟨by decide, "Hi", by decide⟩
  text := by decide

/-- A streamed text is the text of the completion. -/
theorem chatModesAgree_iff_text :
    ChatModesAgree true ([createdRecord, deltaRecord "Hi"] ++ completedRecord textPart :: []) :=
  (chatModesAgree_iff (by decide) validateEvent_text rfl
    ⟨⟨_, _, _, rfl, rfl, by decide⟩, by decide, ["Hi"], by decide, by decide⟩).mpr
      (.inr plainAnswer_text)

/-- **A refusal is lost on a stream**, which ends as if the answer were an empty text. -/
theorem chatModes_disagree_on_refusal :
    ChatEvents [createdRecord] (completedTerminal refusalPart) ∧
      validateEvent (completedRecord refusalPart) = .ok (some (completedTerminal refusalPart)) ∧
      ¬ ChatModesAgree true [createdRecord, completedRecord refusalPart] := by
  refine ⟨⟨⟨_, _, _, rfl, rfl, by decide⟩, by decide, [], by decide, by decide⟩, by decide, ?_⟩
  decide

end CodexApi
