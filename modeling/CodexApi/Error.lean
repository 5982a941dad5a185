import CodexApi.Config
import CodexApi.Json

/-!
# API errors

The error values the handlers answer with, with the texts a client sees, and the error events of a
client WebSocket.
-/

namespace CodexApi

/-- An error answer: HTTP status and the fields of its body. -/
structure ApiError where
  status : Nat
  errorType : String
  code : String
  param : Option String
  message : String
deriving DecidableEq

namespace ApiError

/-- `session_busy`. -/
def sessionBusy : ApiError where
  status := 409
  errorType := "invalid_request_error"
  code := "session_busy"
  param := none
  message := "This session already has a request in progress"

/-- `invalid`. -/
def invalid (param message : String) : ApiError where
  status := 400
  errorType := "invalid_request_error"
  code := "invalid_request_error"
  param := some param
  message

/-- `invalid_api_key`. -/
def invalidApiKey : ApiError where
  status := 401
  errorType := "invalid_request_error"
  code := "invalid_api_key"
  param := none
  message := "Invalid API key"

/-- `quota_exceeded`. -/
def quotaExceeded : ApiError where
  status := 429
  errorType := "invalid_request_error"
  code := "weekly_quota_exceeded"
  param := none
  message := "The configured weekly quota has been exceeded"

/-- `gateway`. -/
def gateway (message : String) : ApiError where
  status := 502
  errorType := "upstream_error"
  code := "upstream_error"
  param := none
  message

/-- `upstream`. -/
def upstream (error : Value) : ApiError where
  status := 502
  errorType := (error.index "type").asStr.getD "upstream_error"
  code := (error.index "code").asStr.getD "upstream_error"
  param := (error.index "param").asStr
  message := (error.index "message").asStr.getD "Upstream request failed"

/-- `internal`. -/
def internal : ApiError where
  status := 500
  errorType := "server_error"
  code := "internal_error"
  param := none
  message := "Internal server error"

/-- `shutdown`. -/
def shutdown : ApiError where
  status := 503
  errorType := "server_error"
  code := "server_shutting_down"
  param := none
  message := "Server is shutting down"

/-- `body`. -/
def body (error : ApiError) : Value :=
  json [("error", json [("message", .string error.message), ("type", .string error.errorType),
    ("param", (error.param.map Value.string).getD .null), ("code", .string error.code)])]

end ApiError

/-- `websocket_error`. -/
def websocketError (code : String) (param : Option String) (message : String) : Value :=
  json [("type", .string "error"), ("code", .string code),
    ("param", (param.map Value.string).getD .null), ("message", .string message)]

end CodexApi
