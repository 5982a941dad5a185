import CodexApi.Credentials.Refresh
import CodexApi.Json
import CodexApi.Lib.Except
import CodexApi.Store.Ledger

/-!
# Terminal Responses events

`parseTerminalPayload` classifies a decoded event by its `type` and checks what a terminal event
must carry: the response, the status that belongs to its type, and a usage. `validateEvent` does
the same for a record of an SSE stream, whose event name must agree with the type.

`TerminalEvent.retryableCapacityPayload` rewrites a capacity failure so that clients retry it. The
parser for HTTP dates is a parameter.
-/

namespace CodexApi

/-- `TerminalKind`. -/
inductive TerminalKind
  | completed
  | incomplete
  | failed
  | error
deriving DecidableEq

namespace TerminalKind

/-- `event_name`. -/
def eventName : TerminalKind → String
  | completed => "response.completed"
  | incomplete => "response.incomplete"
  | failed => "response.failed"
  | error => "error"

/-- `from_name`. -/
def fromName (value : String) : Option TerminalKind :=
  if value = "response.completed" then some completed
  else if value = "response.incomplete" then some incomplete
  else if value = "response.failed" then some failed
  else if value = "error" then some error
  else none

/-- `response_status`. -/
def responseStatus : TerminalKind → Option String
  | completed => some "completed"
  | incomplete => some "incomplete"
  | failed => some "failed"
  | error => none

/-- The status the ledger gets for a terminal event of this kind. -/
def finalStatus : TerminalKind → FinalStatus
  | completed => .completed
  | incomplete => .incomplete
  | failed | error => .upstreamError

end TerminalKind

/-- The token counts of a terminal event. -/
structure Usage where
  inputTokens : UInt64
  cachedInputTokens : UInt64
  outputTokens : UInt64
  reasoningTokens : UInt64
  totalTokens : UInt64
deriving DecidableEq

/-- `billable_usage`. -/
def billableUsage (usage : Usage) (rates : ModelRates) : BillableUsage where
  inputTokens := usage.inputTokens
  cachedInputTokens := usage.cachedInputTokens
  outputTokens := usage.outputTokens
  rates

/-- A validated terminal event. -/
structure TerminalEvent where
  kind : TerminalKind
  payload : Value
  usage : Option Usage
deriving DecidableEq

/-- A terminal event that violates the wire contract. -/
inductive ProtocolError
  | invalidTerminalField (event field expected : String)
  | terminalStatusMismatch (event actual expected : String)
  | cachedInputExceedsInput (event : String)
  | reasoningExceedsOutput (event : String)
  | invalidTerminalJson (event : String)
  | terminalTypeMismatch (eventName payloadType : String)
deriving DecidableEq

/-! ### Parsing -/

/-- `required_u64`. -/
def requiredU64 (object : Value) (field fieldPath : String) (kind : TerminalKind) :
    Except ProtocolError UInt64 :=
  match (object.get field).bind Value.asU64 with
  | some value => .ok value
  | none => .error (.invalidTerminalField kind.eventName fieldPath "a non-negative integer")

/-- `optional_detail_u64`. -/
def optionalDetailU64 (usage : Value) (detailsField detailsPath tokenField tokenPath : String)
    (kind : TerminalKind) : Except ProtocolError UInt64 :=
  match (usage.get detailsField).filter (!·.isNull) with
  | none => .ok 0
  | some details =>
    if !details.isObject then
      .error (.invalidTerminalField kind.eventName detailsPath "an object")
    else
      match details.get tokenField with
      | none => .ok 0
      | some value =>
        match value.asU64 with
        | some value => .ok value
        | none => .error (.invalidTerminalField kind.eventName tokenPath "a non-negative integer")

/-- The usage of a `response.usage` that is present. -/
def usageOfValue (usage : Value) (kind : TerminalKind) : Except ProtocolError Usage := do
  if !usage.isObject then
    throw (.invalidTerminalField kind.eventName "response.usage" "an object or null")
  let inputTokens ← requiredU64 usage "input_tokens" "response.usage.input_tokens" kind
  let outputTokens ← requiredU64 usage "output_tokens" "response.usage.output_tokens" kind
  let totalTokens ← requiredU64 usage "total_tokens" "response.usage.total_tokens" kind
  let cachedInputTokens ← optionalDetailU64 usage "input_tokens_details"
    "response.usage.input_tokens_details" "cached_tokens"
    "response.usage.input_tokens_details.cached_tokens" kind
  let reasoningTokens ← optionalDetailU64 usage "output_tokens_details"
    "response.usage.output_tokens_details" "reasoning_tokens"
    "response.usage.output_tokens_details.reasoning_tokens" kind
  if inputTokens < cachedInputTokens then
    throw (.cachedInputExceedsInput kind.eventName)
  if outputTokens < reasoningTokens then
    throw (.reasoningExceedsOutput kind.eventName)
  return { inputTokens, cachedInputTokens, outputTokens, reasoningTokens, totalTokens }

/-- `parse_usage`; it is not called for `error` events. -/
def parseUsage (response : Value) (kind : TerminalKind) : Except ProtocolError (Option Usage) :=
  match (response.get "usage").filter (!·.isNull) with
  | none =>
    if kind = .failed then .ok none
    else .error (.invalidTerminalField kind.eventName "response.usage" "an object")
  | some usage => (usageOfValue usage kind).map some

/-- `parse_terminal_payload`. -/
def parseTerminalPayload (payload : Value) : Except ProtocolError (Option TerminalEvent) :=
  match ((payload.get "type").bind Value.asStr).bind TerminalKind.fromName with
  | none => .ok none
  | some kind =>
    match kind.responseStatus with
    | none => .ok (some ⟨kind, payload, none⟩)
    | some expectedStatus => do
      let some response := (payload.get "response").filter (·.isObject)
        | throw (.invalidTerminalField kind.eventName "response" "an object")
      let some status := (response.get "status").bind Value.asStr
        | throw (.invalidTerminalField kind.eventName "response.status" "a string")
      if status ≠ expectedStatus then
        throw (.terminalStatusMismatch kind.eventName status expectedStatus)
      let usage ← parseUsage response kind
      return some ⟨kind, payload, usage⟩

/-- A record of an SSE stream, with the JSON value its data parses to. -/
structure SseRecord where
  event : String
  data : Option Value
deriving DecidableEq

/-- `validate_event`. -/
def validateEvent (record : SseRecord) : Except ProtocolError (Option TerminalEvent) :=
  let eventKind := TerminalKind.fromName record.event
  match record.data with
  | none =>
    if eventKind.isNone then .ok none else .error (.invalidTerminalJson record.event)
  | some payload => do
    let terminal ← parseTerminalPayload payload
    match eventKind, terminal with
    | none, terminal => return terminal
    | some eventKind, some terminal =>
      if eventKind ≠ terminal.kind then
        throw (.terminalTypeMismatch eventKind.eventName terminal.kind.eventName)
      return some terminal
    | some eventKind, none =>
      throw (.invalidTerminalField eventKind.eventName "type" eventKind.eventName)

/-! ### Capacity failures -/

/-- `upstream_error`. -/
def TerminalEvent.upstreamError (terminal : TerminalEvent) : Option Value :=
  let error := match terminal.kind with
    | .error => terminal.payload.get "error"
    | .failed => terminal.payload.pointer ["response", "error"]
    | .completed | .incomplete => none
  error.filter (·.isObject)

/-- `trim`. -/
def trim (s : String) : String :=
  String.ofList (((s.toList.dropWhile isWhitespace).reverse.dropWhile isWhitespace).reverse)

/-- Whether a string is the decimal form of a `u64`, without a sign. -/
def isDecimalU64 (s : String) : Bool :=
  s ≠ "" && s.toList.all Char.isDigit &&
    decide (s.toList.foldl (fun n c => 10 * n + (c.toNat - 48)) 0 < 2 ^ 64)

section

variable (isHttpDate : String → Bool)

/-- Whether a `Retry-After` value is one a client can use. -/
def isRetryAdvice : Value → Bool
  | .string value => isDecimalU64 (trim value) || isHttpDate (trim value)
  | .number (.posInt _) => true
  | _ => false

/-- `eq_ignore_ascii_case("retry-after")`. -/
def isRetryAfter (name : String) : Bool := decide (name.map Char.toLower = "retry-after")

/-- The retry advice in two headers objects, or 30 seconds. -/
def retryAfter (headers : List Value) : Value :=
  ((((headers.filterMap Value.asObject).flatten.filter fun field =>
    isRetryAfter field.1 && isRetryAdvice isHttpDate field.2).head?).map Prod.snd).getD (.string "30")

/-- `retryable_capacity_payload`. -/
def TerminalEvent.retryableCapacityPayload (terminal : TerminalEvent) : Option Value :=
  match terminal.upstreamError with
  | none => none
  | some error =>
    if (error.index "code").asStr ≠ some "server_is_overloaded" ∧
        (error.index "code").asStr ≠ some "slow_down" then none
    else
      let advice := retryAfter isHttpDate [error.index "headers", terminal.payload.index "headers"]
      let headers := ((error.index "headers").asObject.getD []).filter (!isRetryAfter ·.1)
      let error := error.setField "headers" (.object (Assoc.insert "Retry-After" advice headers))
      if terminal.kind = .error then
        let payload := terminal.payload.removeField "error"
        let payload := payload.setField "type" (.string "response.failed")
        some (payload.setField "response" (json [("status", .string "failed"), ("error", error)]))
      else
        some (terminal.payload.setField "response"
          ((terminal.payload.index "response").setField "error" error))

end

/-! ### What a terminal event carries -/

theorem TerminalKind.fromName_eq_some {value : String} {kind : TerminalKind} :
    TerminalKind.fromName value = some kind ↔ value = kind.eventName := by
  unfold TerminalKind.fromName
  constructor
  · intro h
    split_ifs at h with h₁ h₂ h₃ h₄
    · cases h
      exact h₁
    · cases h
      exact h₂
    · cases h
      exact h₃
    · cases h
      exact h₄
  · rintro rfl
    cases kind <;> decide

/-- An accepted terminal event is the payload itself, of the kind its type names. -/
theorem terminal_of_parse {payload : Value} {terminal : TerminalEvent}
    (h : parseTerminalPayload payload = .ok (some terminal)) :
    terminal.payload = payload ∧
      payload.get "type" = some (.string terminal.kind.eventName) := by
  unfold parseTerminalPayload at h
  split at h
  · cases h
  · next kind hkind =>
    obtain ⟨name, htype, hname⟩ := Option.bind_eq_some_iff.mp hkind
    obtain ⟨value, hvalue, hstr⟩ := Option.bind_eq_some_iff.mp htype
    have htype : payload.get "type" = some (.string kind.eventName) := by
      rw [hvalue, Value.asStr_eq_some_iff.mp hstr, TerminalKind.fromName_eq_some.mp hname]
    split at h
    · cases h
      exact ⟨rfl, htype⟩
    · split at h
      · split at h
        · split_ifs at h
          · cases h
          · obtain ⟨usage, -, h⟩ := bind_eq_ok.mp h
            cases h
            exact ⟨rfl, htype⟩
        · cases h
      · cases h

/-- A payload that is no terminal event has no terminal type. -/
theorem type_of_parse_none {payload : Value} (h : parseTerminalPayload payload = .ok none)
    (kind : TerminalKind) : payload.get "type" ≠ some (.string kind.eventName) := by
  intro htype
  have hname : TerminalKind.fromName kind.eventName = some kind :=
    TerminalKind.fromName_eq_some.mpr rfl
  unfold parseTerminalPayload at h
  rw [htype] at h
  simp only [Option.bind_some, Value.asStr, hname] at h
  split at h
  · cases h
  · split at h
    · split at h
      · split_ifs at h
        · cases h
        · obtain ⟨usage, -, h⟩ := bind_eq_ok.mp h
          cases h
      · cases h
    · cases h

end CodexApi
