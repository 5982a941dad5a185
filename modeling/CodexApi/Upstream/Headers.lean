import CodexApi.Json
import CodexApi.Credentials.Refresh

/-!
# Headers passed on to the upstream

A header value is a byte string; `HeaderValue` separates the values that are UTF-8 from the
others. `codexPassthroughHeaders` keeps the first value of every header the upstream is told
about, and `codexRequestHeaders` adds the prompt cache key of the body as a session id.
-/

namespace CodexApi

/-- A header value: UTF-8 text, or bytes that are not UTF-8. -/
inductive HeaderValue
  | text (value : String)
  | opaqueBytes (bytes : List UInt8)
deriving DecidableEq

/-- `std::str::from_utf8` of the bytes. -/
def HeaderValue.fromUtf8 : HeaderValue → Option String
  | text value => some value
  | opaqueBytes _ => none

/-- `to_str`: the text, if it is visible ASCII. -/
def HeaderValue.toStr : HeaderValue → Option String
  | text value => if isHeaderValue value then some value else none
  | opaqueBytes _ => none

/-- `HeaderValue::from_str`. -/
def HeaderValue.fromStr (value : String) : Option HeaderValue :=
  if isHeaderValue value then some (.text value) else none

/-- The headers of a client request, in order, with lower-case names. -/
abbrev HeaderMap := List (String × HeaderValue)

/-- `HeaderMap::get`: the first value of a name. -/
def HeaderMap.get (headers : HeaderMap) (name : String) : Option HeaderValue :=
  headers.lookup name

/-- Headers with one value a name. -/
abbrev UpstreamHeaders := OrdMap String HeaderValue

/-- `CODEX_PASSTHROUGH_HEADERS`. -/
def codexPassthroughHeaderNames : List String :=
  ["originator", "session_id", "thread_id", "session-id", "thread-id", "x-client-request-id",
    "user-agent", "x-codex-beta-features", "x-codex-turn-state", "x-codex-turn-metadata",
    "x-codex-window-id", "x-codex-parent-thread-id", "x-codex-image-turn-id", "x-openai-subagent",
    "x-openai-memgen-request", "x-responsesapi-include-timing-metrics",
    "x-openai-internal-codex-responses-lite"]

/-- `codex_passthrough_headers`. -/
def codexPassthroughHeaders (source : HeaderMap) : UpstreamHeaders :=
  codexPassthroughHeaderNames.foldl (fun headers name =>
    match source.get name with
    | some value => headers.insert name value
    | none => headers) .empty

/-- `codex_request_headers`. -/
def codexRequestHeaders (source : HeaderMap) (body : Object) : UpstreamHeaders :=
  let headers := codexPassthroughHeaders source
  if headers.contains "session_id" || headers.contains "session-id" then headers
  else
    match ((body.get "prompt_cache_key").bind Value.asStr).filter (· ≠ "") with
    | none => headers
    | some key =>
      match HeaderValue.fromStr key with
      | some sessionId => headers.insert "session_id" sessionId
      | none => headers

/-- Of the body, only the prompt cache key matters. -/
theorem codexRequestHeaders_congr {source : HeaderMap} {body body' : Object}
    (h : body.get "prompt_cache_key" = body'.get "prompt_cache_key") :
    codexRequestHeaders source body = codexRequestHeaders source body' := by
  simp only [codexRequestHeaders, h]

end CodexApi
