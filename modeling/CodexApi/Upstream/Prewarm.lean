import CodexApi.Json
import CodexApi.Lib.Except

/-!
# Responses Lite prewarms

A Responses Lite context starts with a prewarm: a request that generates nothing and whose input
holds the tools and the instructions. `responsesLitePrewarm` splits a request into the body that
generates and the prewarm; `sendResponsesPrewarm` sends a prewarm and waits for its response id.

What the socket answers is given as data. A reply that has not come is `none`, so an interrupted
wait is a function value too.
-/

namespace CodexApi

/-- The errors of the upstream WebSocket that requests distinguish. -/
inductive UpstreamWebSocketError
  | request
  | transport
deriving DecidableEq

/-! ### Building the prewarm -/

/-- `RESPONSES_LITE_METADATA_KEY`. -/
def responsesLiteMetadataKey : String := "ws_request_header_x_openai_internal_codex_responses_lite"

/-- `developer_message`. -/
def developerMessage (text : String) : Value :=
  json [("type", .string "message"), ("role", .string "developer"),
    ("content", .array [json [("type", .string "input_text"), ("text", .string text)]])]

/-- `route_marker_tools`. -/
def routeMarkerTools : List Value :=
  ["functions", "utility", "helpers"].map fun name =>
    json [("type", .string "namespace"), ("name", .string name), ("description", .string ""),
      ("tools", .array [json [("type", .string "function"), ("name", .string "noop"),
        ("description", .string "No operation."), ("strict", .bool false),
        ("parameters", json [("type", .string "object"), ("properties", json []),
          ("additionalProperties", .bool false)])]])]

/-- Whether an input item brings tools of its own. -/
def isInlineTools (item : Value) : Bool :=
  decide (item.index "type" = .string "additional_tools") &&
    (item.index "tools").asArray.any (!·.isEmpty)

/-- Whether an input holds an item with inline tools. -/
def hasInlineTools (input : Option Value) : Bool :=
  (input.bind Value.asArray).any (·.any isInlineTools)

/-- The tools of a request, if there are any. -/
def requestTools (object : Object) : Option (List Value) :=
  ((object.get "tools").bind Value.asArray).filter (!·.isEmpty)

/-- The `reasoning` of a request: what it was, over all turns. -/
def normalizedReasoning (object : Object) : Value :=
  ((object.get "reasoning").getD (json [("effort", .string "medium")])).setField "context"
    (.string "all_turns")

/-- The `client_metadata` of a request: what it was, marked, with default ids. -/
def normalizedMetadata (object : Object) (requestKey : String) : Value :=
  let metadata := (object.get "client_metadata").getD (json [])
  let metadata := metadata.setField responsesLiteMetadataKey (.string "true")
  let metadata :=
    if (metadata.get "session_id").isNone then
      metadata.setField "session_id" (.string requestKey)
    else metadata
  if (metadata.get "thread_id").isNone then metadata.setField "thread_id" (.string requestKey)
  else metadata

/-- `normalize_responses_lite_fields`. -/
def normalizeResponsesLiteFields (object : Object) (requestKey : String) (disableTools : Bool) :
    Object :=
  let object := object.insert "parallel_tool_calls" (.bool false)
  let object := object.insert "type" (.string "response.create")
  let object := object.insert "store" (.bool false)
  let object := object.insert "stream" (.bool true)
  let object := if disableTools then object.insert "tool_choice" (.string "none") else object
  let object := object.insertIfNew "include" (.array [.string "reasoning.encrypted_content"])
  let object := object.insertIfNew "prompt_cache_key" (.string requestKey)
  let object := object.insertIfNew "text" (json [("verbosity", .string "low")])
  let object := object.insert "reasoning" (normalizedReasoning object)
  object.insert "client_metadata" (normalizedMetadata object requestKey)

/-- The input of a prewarm: tools, base instructions, instructions of the client. -/
def prewarmInput (tools : List Value) (baseInstructions : String)
    (clientInstructions : Option String) : List Value :=
  [json [("type", .string "additional_tools"), ("role", .string "developer"),
      ("tools", .array tools)], developerMessage baseInstructions] ++
    ((clientInstructions.filter (· ≠ "")).map developerMessage).toList

/-- `responses_lite_prewarm`: the body it leaves and the prewarm. -/
def responsesLitePrewarm (object : Object) (model : Value) (requestKey : String) :
    Except UpstreamWebSocketError (Object × Object) := do
  let tools := requestTools object
  let object := object.erase "tools"
  let disableTools := tools.isNone && !hasInlineTools (object.get "input")
  let tools := tools.getD routeMarkerTools
  let clientInstructions := (object.get "instructions").bind Value.asStr
  let object := object.erase "instructions"
  let some baseInstructions := (model.get "base_instructions").bind Value.asStr
    | throw .request
  let object := normalizeResponsesLiteFields object requestKey disableTools
  let prewarm := object.insert "input"
    (.array (prewarmInput tools baseInstructions clientInstructions))
  let prewarm := prewarm.insert "generate" (.bool false)
  let prewarm := prewarm.insert "tool_choice" (.string "auto")
  return (object, prewarm)

/-! ### Sending the prewarm -/

/-- What the upstream socket yields next. A text is given as the JSON it parses to; a ping
comes with the outcome of sending the pong, if that has completed. -/
inductive UpstreamEvent
  | text (event : Option Value)
  | ping (pong : Option Bool)
  | pong
  | close
  | binary
  | frame
  | transportError
  | eof

/-- The loop of `send_responses_prewarm`; `none` while it waits. -/
def awaitPrewarm : List UpstreamEvent → Option (Except UpstreamWebSocketError String)
  | [] => none
  | .text none :: _ => some (.error .request)
  | .text (some event) :: rest =>
    let kind := (event.get "type").bind Value.asStr
    if kind = some "response.completed" then
      match (event.pointer ["response", "id"]).bind Value.asStr with
      | some id => some (.ok id)
      | none => some (.error .request)
    else if kind = some "error" ∨ kind = some "response.failed" ∨
        kind = some "response.incomplete" then
      some (.error .request)
    else awaitPrewarm rest
  | .ping none :: _ => none
  | .ping (some true) :: rest => awaitPrewarm rest
  | .ping (some false) :: _ => some (.error .transport)
  | .pong :: rest => awaitPrewarm rest
  | .close :: _ | .eof :: _ => some (.error .request)
  | .binary :: _ | .frame :: _ => some (.error .request)
  | .transportError :: _ => some (.error .transport)

/-- `send_responses_prewarm`; `none` while it waits. -/
def sendResponsesPrewarm (sent : Option Bool) (events : List UpstreamEvent) :
    Option (Except UpstreamWebSocketError String) :=
  match sent with
  | none => none
  | some false => some (.error .transport)
  | some true => awaitPrewarm events

/-! ### What a prewarm is -/

section

variable {object body prewarm : Object} {model : Value} {requestKey : String}

/-- The result of `responses_lite_prewarm`, which needs the base instructions of the model. -/
theorem responsesLitePrewarm_eq_ok :
    responsesLitePrewarm object model requestKey = .ok (body, prewarm) ↔
      ∃ baseInstructions, (model.get "base_instructions").bind Value.asStr = some baseInstructions ∧
        body = normalizeResponsesLiteFields ((object.erase "tools").erase "instructions") requestKey
          ((requestTools object).isNone && !hasInlineTools (object.get "input")) ∧
        prewarm = ((body.insert "input" (.array (prewarmInput
            ((requestTools object).getD routeMarkerTools) baseInstructions
            ((object.get "instructions").bind Value.asStr)))).insert "generate" (.bool false)).insert
          "tool_choice" (.string "auto") := by
  have hinput : (object.erase "tools").get "input" = object.get "input" :=
    OrdMap.get_erase_of_ne (by decide)
  have hinstructions : (object.erase "tools").get "instructions" = object.get "instructions" :=
    OrdMap.get_erase_of_ne (by decide)
  cases hbase : (model.get "base_instructions").bind Value.asStr with
  | none => simp [responsesLitePrewarm, hbase, throw, throwThe, MonadExceptOf.throw]
  | some baseInstructions =>
    simp only [responsesLitePrewarm, hbase, hinput, hinstructions]
    constructor
    · rintro ⟨⟩
      exact ⟨_, rfl, rfl, rfl⟩
    · rintro ⟨_, ⟨⟩, rfl, rfl⟩
      rfl

/-! ### Normalization touches its own fields only -/

/-- The fields that normalization reads or writes, apart from `tool_choice`. -/
def normalizedFields : List String :=
  ["parallel_tool_calls", "type", "store", "stream", "include", "prompt_cache_key", "text",
    "reasoning", "client_metadata"]

theorem normalizedReasoning_insert {field : String} {value : Value} (h : field ≠ "reasoning") :
    normalizedReasoning (object.insert field value) = normalizedReasoning object := by
  rw [normalizedReasoning, OrdMap.get_insert_of_ne h.symm, normalizedReasoning]

theorem normalizedMetadata_insert {field : String} {value : Value}
    (h : field ≠ "client_metadata") :
    normalizedMetadata (object.insert field value) requestKey =
      normalizedMetadata object requestKey := by
  rw [normalizedMetadata, OrdMap.get_insert_of_ne h.symm, normalizedMetadata]

/-- Setting any other field commutes with normalization that keeps the tools. -/
theorem normalize_insert_of_enabled {field : String} {value : Value}
    (hfield : ∀ name ∈ normalizedFields, field ≠ name) :
    normalizeResponsesLiteFields (object.insert field value) requestKey false =
      (normalizeResponsesLiteFields object requestKey false).insert field value := by
  simp only [normalizedFields, List.forall_mem_cons] at hfield
  obtain ⟨h₁, h₂, h₃, h₄, h₅, h₆, h₇, h₈, h₉, -⟩ := hfield
  simp only [normalizeResponsesLiteFields, Bool.false_eq_true, if_false]
  rw [OrdMap.insert_comm h₁, OrdMap.insert_comm h₂, OrdMap.insert_comm h₃, OrdMap.insert_comm h₄,
    OrdMap.insertIfNew_insert_comm h₅, OrdMap.insertIfNew_insert_comm h₆,
    OrdMap.insertIfNew_insert_comm h₇, normalizedReasoning_insert h₈, OrdMap.insert_comm h₈,
    normalizedMetadata_insert h₉, OrdMap.insert_comm h₉]

/-- Disabling the tools sets `tool_choice` and nothing else. -/
theorem normalize_disabled :
    normalizeResponsesLiteFields object requestKey true =
      (normalizeResponsesLiteFields object requestKey false).insert "tool_choice"
        (.string "none") := by
  simp only [normalizeResponsesLiteFields, if_true, Bool.false_eq_true, if_false]
  rw [OrdMap.insertIfNew_insert_comm (k := "tool_choice") (by decide),
    OrdMap.insertIfNew_insert_comm (k := "tool_choice") (by decide),
    OrdMap.insertIfNew_insert_comm (k := "tool_choice") (by decide),
    normalizedReasoning_insert (by decide), OrdMap.insert_comm (k := "tool_choice") (by decide),
    normalizedMetadata_insert (by decide), OrdMap.insert_comm (k := "tool_choice") (by decide)]

/-- Setting any other field commutes with normalization. -/
theorem normalize_insert {field : String} {value : Value} {disableTools : Bool}
    (hfield : ∀ name ∈ "tool_choice" :: normalizedFields, field ≠ name) :
    normalizeResponsesLiteFields (object.insert field value) requestKey disableTools =
      (normalizeResponsesLiteFields object requestKey disableTools).insert field value := by
  obtain ⟨hchoice, hfield⟩ := List.forall_mem_cons.mp hfield
  cases disableTools with
  | false => exact normalize_insert_of_enabled hfield
  | true =>
    rw [normalize_disabled, normalize_disabled, normalize_insert_of_enabled hfield,
      OrdMap.insert_comm hchoice]

/-- Normalization that keeps the tools keeps `tool_choice`. -/
theorem toolChoice_of_normalize :
    (normalizeResponsesLiteFields object requestKey false).get "tool_choice" =
      object.get "tool_choice" := by
  simp only [normalizeResponsesLiteFields, Bool.false_eq_true, if_false]
  rw [OrdMap.get_insert_of_ne (by decide), OrdMap.get_insert_of_ne (by decide),
    OrdMap.get_insertIfNew, if_neg (by decide), OrdMap.get_insertIfNew, if_neg (by decide),
    OrdMap.get_insertIfNew, if_neg (by decide), OrdMap.get_insert_of_ne (by decide),
    OrdMap.get_insert_of_ne (by decide), OrdMap.get_insert_of_ne (by decide),
    OrdMap.get_insert_of_ne (by decide)]

end

end CodexApi
