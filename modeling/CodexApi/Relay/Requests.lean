import CodexApi.Chat.Request
import CodexApi.Error

/-!
# Accepting requests

What each of the three paths does with a request before it asks for admission: it finds the
candidates for the model and checks the body. Both answers to `POST` requests come from
`responsesRequest` and `chatRequest`; a message on a client WebSocket goes through `prepareRequest`.
The model and the effort that a rejection is recorded under are read before anything is checked.
-/

namespace CodexApi

/-- The ways a text request can come in. -/
inductive ApiPath
  | responses
  | chatCompletions
  | webSocket
deriving DecidableEq

/-- `requested_string`. -/
def requestedString (value : Value) (field : String) : Option String :=
  (value.get field).bind Value.asStr

/-- The model a request names. -/
def requestedModel (request : Value) : String := (requestedString request "model").getD ""

/-- The reasoning effort a Responses request names. -/
def reasoningEffortOf (request : Value) : Option String :=
  (request.pointer ["reasoning", "effort"]).bind Value.asStr

/-- A request that can be admitted: its candidates and the body for the upstream. -/
structure AcceptedRequest where
  candidates : ModelCandidates
  body : Object
deriving DecidableEq

/-! ### Responses -/

/-- A text input as a list of one message. -/
def textInput (input : String) : Value :=
  .array [json [("type", .string "message"), ("role", .string "user"),
    ("content", .array [json [("type", .string "input_text"), ("text", .string input)]])]]

/-- Replaces a text input by a list of one message. -/
def expandTextInput (object : Object) : Object :=
  match object.get "input" with
  | some (.string input) => object.insert "input" (textInput input)
  | _ => object

/-- The check of a field that must not be true. -/
def checkUnset (object : Object) (field notSupported mustBe : String) : Except ApiError Unit :=
  match object.get field with
  | none | some .null | some (.bool false) => .ok ()
  | some (.bool true) => .error (.invalid field notSupported)
  | some _ => .error (.invalid field mustBe)

/-- `normalize_responses_request`. -/
def normalizeResponsesRequest (value : Value) : Except ApiError Object := do
  let object ← okOr value.toObject (.invalid "request" "request must be a JSON object")
  failIf (object.get "stream" ≠ some (.bool true))
    (.invalid "stream" "stream must be explicitly true")
  checkUnset object "store" "stored responses are not supported"
    "store must be a boolean or null"
  checkUnset object "background" "background responses are not supported"
    "background must be a boolean or null"
  failIf (object.contains "max_output_tokens" = true) (.invalid "max_output_tokens"
    "max_output_tokens is not supported by the ChatGPT Codex upstream")
  return (expandTextInput object).insert "store" (.bool false)

/-- `responses` up to the session key. -/
def responsesRequest (config : Config) (parsed : Value) : Except ApiError AcceptedRequest := do
  let candidates ← okOr
    (config.modelCandidates (requestedModel parsed) (reasoningEffortOf parsed))
    (.invalid "model" "model is not configured")
  let body ← normalizeResponsesRequest parsed
  return { candidates, body }

/-- A refused Responses request is answered with 400. -/
theorem responsesRequest_failsWith (config : Config) (parsed : Value) :
    FailsWith (·.status = 400) (responsesRequest config parsed) := by
  have checked (object : Object) (field notSupported mustBe : String) :
      FailsWith (·.status = 400) (checkUnset object field notSupported mustBe) := by
    unfold checkUnset
    split
    · exact .ok ()
    · exact .ok ()
    · exact .ok ()
    · exact .error rfl
    · exact .error rfl
  have normalized : FailsWith (·.status = 400) (normalizeResponsesRequest parsed) :=
    FailsWith.bind (.okOr rfl) fun object => FailsWith.bind (.failIf rfl) fun _ =>
      FailsWith.bind (checked _ _ _ _) fun _ => FailsWith.bind (checked _ _ _ _) fun _ =>
        FailsWith.bind (.failIf rfl) fun _ => .ok _
  exact FailsWith.bind (.okOr rfl) fun candidates => FailsWith.bind normalized fun body => .ok _

/-! ### Chat Completions -/

/-- The error a client gets for a Chat request that cannot be converted. -/
def ChatError.toApiError (error : ChatError) : ApiError :=
  .invalid (error.param.getD "request") error.message

/-- `chat_completions` up to admission: what is accepted and how it was converted. The model is
looked up twice, as the request names it and as it was converted. -/
def chatRequest (config : Config) (parsed : Value) :
    Except ApiError (AcceptedRequest × ConvertedRequest) := do
  let tentativeEffort := requestedString parsed "reasoning_effort"
  failIf ((config.modelCandidates (requestedModel parsed) tentativeEffort).isNone = true)
    (.invalid "model" "model is not configured")
  let converted ← (convertRequest parsed).mapError ChatError.toApiError
  -- The source expects candidates here; without them it would panic.
  let candidates ← okOr (config.modelCandidates converted.model converted.reasoningEffort)
    .internal
  return ({ candidates, body := converted.upstreamRequest }, converted)

/-- A refused Chat request is answered with 400. The other error stands for a panic. -/
theorem chatRequest_failsWith (config : Config) (parsed : Value) :
    FailsWith (fun error => error.status = 400 ∨ error = .internal)
      (chatRequest config parsed) := by
  have converted : FailsWith (fun error : ApiError => error.status = 400 ∨ error = .internal)
      ((convertRequest parsed).mapError ChatError.toApiError) := by
    cases convertRequest parsed with
    | error error => exact .error (.inl rfl)
    | ok converted => exact .ok converted
  exact FailsWith.bind (.failIf (.inl rfl)) fun _ => FailsWith.bind converted fun converted =>
    FailsWith.bind (.okOr (.inr rfl)) fun candidates => .ok _

/-! ### WebSocket -/

/-- `ValidationError`. -/
structure ValidationError where
  param : String
  message : String
deriving DecidableEq

/-- `prepare_request`. -/
def prepareRequest (config : Config) (value : Value) : Except ValidationError AcceptedRequest := do
  let object ← okOr value.toObject
    ⟨"type", "WebSocket messages must be response.create objects"⟩
  failIf ((object.get "type").bind Value.asStr ≠ some "response.create")
    ⟨"type", "Only response.create messages are supported"⟩
  let model ← okOr ((object.get "model").bind Value.asStr)
    ⟨"model", "response.create requires a model"⟩
  let reasoningEffort := ((object.get "reasoning").bind (·.get "effort")).bind Value.asStr
  let candidates ← okOr (config.modelCandidates model reasoningEffort)
    ⟨"model", "The requested model is not configured"⟩
  failIf ((object.get "stream").any (·.asBool ≠ some true) = true)
    ⟨"stream", "stream must be true in WebSocket mode"⟩
  failIf (object.contains "background" = true)
    ⟨"background", "background is not used in WebSocket mode"⟩
  failIf (object.contains "max_output_tokens" = true)
    ⟨"max_output_tokens", "max_output_tokens is not supported by the ChatGPT Codex upstream"⟩
  failIf ((object.get "store").any (fun store => !store.isNull && store.asBool ≠ some false) = true)
    ⟨"store", "store must be false in WebSocket mode"⟩
  return {
    candidates
    body := ((expandTextInput object).insert "store" (.bool false)).insert "stream" (.bool true) }

/-! ### All three -/

/-- The request that a path accepts. -/
def acceptRequest (config : Config) (path : ApiPath) (request : Value) : Option AcceptedRequest :=
  match path with
  | .responses => (responsesRequest config request).toOption
  | .chatCompletions => (chatRequest config request).toOption.map Prod.fst
  | .webSocket => (prepareRequest config request).toOption

/-- The reasoning effort of a request, as a JSON value. -/
def effortValue (path : ApiPath) (request : Value) : Option Value :=
  match path with
  | .responses | .webSocket => request.pointer ["reasoning", "effort"]
  | .chatCompletions => request.get "reasoning_effort"

end CodexApi
