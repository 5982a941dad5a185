import CodexApi.Delivery.Handlers
import CodexApi.Upstream.Recognition

/-!
# How Chat reports a failure of the upstream

An `error` or `response.failed` event ends both ways of reading a Chat answer. The stream reports it
only where `upstreamError` finds an error object; the single answer always does, with a text of its own
where there is none. `failureReported_iff` says for which events a client is told what the upstream
said. The row is finalized as an upstream error in any case.
-/

namespace CodexApi

/-! ### What an event says -/

/-- Where the error of an event of some kind stands, apart from the event itself. -/
def TerminalKind.errorPath : TerminalKind → List String
  | .failed => ["response", "error"]
  | _ => ["error"]

/-- What an event carries under a field of its error: the value in its error object, or else the one
in the event itself. -/
def TerminalEvent.carried (terminal : TerminalEvent) (field : String) : Option Value :=
  ((terminal.payload.pointer (terminal.kind.errorPath ++ [field])).filter (!·.isNull)).or
    ((terminal.payload.get field).filter (!·.isNull))

/-- The fields of an error that a client is to be told. -/
def reportedFields : List String := ["code", "message"]

/-- A body shows the error of an event: it has an error object, with what the event carries. -/
structure ErrorShown (terminal : TerminalEvent) (body : Value) : Prop where
  /-- There is an error object. -/
  isError : (body.index "error").isObject = true
  /-- It has the code and the message of the event. -/
  carried : ∀ field ∈ reportedFields, ∀ value, terminal.carried field = some value →
    (body.index "error").get field = some value

/-- A field of the error object of an event is told: it is a string, or there is neither one in the
object nor one in the event itself, unless that is the text told instead. -/
def FieldTold (terminal : TerminalEvent) (error : Value) (field instead : String) : Prop :=
  match (error.get field).filter (!·.isNull) with
  | some value => ∃ s, value = .string s
  | none => ∀ value, (terminal.payload.get field).filter (!·.isNull) = some value →
      value = .string instead

/-- The event has an error object, and its code and message are told. -/
def Reportable (terminal : TerminalEvent) : Prop :=
  ∃ error, terminal.upstreamError = some error ∧
    FieldTold terminal error "code" "upstream_error" ∧
    FieldTold terminal error "message" "Upstream request failed"

/-- The fields of the body of an upstream error. -/
theorem body_upstream (error : Value) :
    ((ApiError.upstream error).body.index "error").isObject = true ∧
      ((ApiError.upstream error).body.index "error").get "code" =
        some (.string ((error.index "code").asStr.getD "upstream_error")) ∧
      ((ApiError.upstream error).body.index "error").get "message" =
        some (.string ((error.index "message").asStr.getD "Upstream request failed")) := by
  have herror : (ApiError.upstream error).body.index "error" =
      json [("message", .string ((error.index "message").asStr.getD "Upstream request failed")),
        ("type", .string ((error.index "type").asStr.getD "upstream_error")),
        ("param", ((error.index "param").asStr.map Value.string).getD .null),
        ("code", .string ((error.index "code").asStr.getD "upstream_error"))] := by
    rw [ApiError.body, Value.index, get_json]
    simp [ApiError.upstream, OrdMap.ofList]
  rw [herror]
  refine ⟨rfl, ?_, ?_⟩
  · rw [get_json]
    simp [OrdMap.ofList]
  · rw [get_json]
    simp [OrdMap.ofList]

/-- What an event with an error object carries. -/
theorem carried_of_upstreamError {terminal : TerminalEvent} {error : Value}
    (h : terminal.upstreamError = some error) (field : String) :
    terminal.carried field = ((error.get field).filter (!·.isNull)).or
      ((terminal.payload.get field).filter (!·.isNull)) := by
  unfold TerminalEvent.upstreamError at h
  obtain ⟨hget, -⟩ := Option.filter_eq_some_iff.mp h
  have hnested : terminal.payload.pointer (terminal.kind.errorPath ++ [field]) =
      error.get field := by
    cases hkind : terminal.kind with
    | error =>
      rw [hkind] at hget
      simp [TerminalKind.errorPath, Value.pointer, hget]
    | failed =>
      rw [hkind] at hget
      obtain ⟨response, hresponse, herror⟩ := Option.bind_eq_some_iff.mp hget
      obtain ⟨error', herror, hsame⟩ := Option.bind_eq_some_iff.mp herror
      cases hsame
      simp [TerminalKind.errorPath, Value.pointer, hresponse, herror]
    | completed =>
      rw [hkind] at hget
      cases hget
    | incomplete =>
      rw [hkind] at hget
      cases hget
  rw [TerminalEvent.carried, hnested]

/-- A field is told exactly when the text in the body is what the event carries. -/
theorem fieldTold_iff {terminal : TerminalEvent} {error : Value} {field instead : String}
    (h : terminal.upstreamError = some error) :
    FieldTold terminal error field instead ↔ ∀ value, terminal.carried field = some value →
      some (.string ((error.index field).asStr.getD instead)) = some value := by
  rw [carried_of_upstreamError h, FieldTold, Value.index]
  cases hfield : error.get field with
  | none => simp [Value.asStr, eq_comm]
  | some value =>
    rw [Option.filter_some]
    cases value with
    | null => simp [Value.asStr, Value.isNull, eq_comm]
    | string text => simp [Value.asStr, Value.isNull]
    | _ => simp [Value.asStr, Value.isNull]

/-- The body of an upstream error shows an event exactly when its code and message are told. -/
theorem errorShown_iff {terminal : TerminalEvent} {error : Value}
    (h : terminal.upstreamError = some error) :
    ErrorShown terminal (ApiError.upstream error).body ↔
      FieldTold terminal error "code" "upstream_error" ∧
        FieldTold terminal error "message" "Upstream request failed" := by
  obtain ⟨hobject, hcode, hmessage⟩ := body_upstream error
  rw [fieldTold_iff h, fieldTold_iff h]
  constructor
  · rintro ⟨-, hcarried⟩
    exact ⟨hcode ▸ hcarried "code" (by simp [reportedFields]),
      hmessage ▸ hcarried "message" (by simp [reportedFields])⟩
  · rintro ⟨htold, htold'⟩
    refine ⟨hobject, ?_⟩
    simp only [reportedFields, List.forall_mem_cons, hcode, hmessage]
    exact ⟨htold, htold', by simp⟩

namespace Delivery

open Program

/-! ### What a run does for the client and the ledger -/

/-- The effects of a run of code, with their replies. -/
abbrev Trace := List (Sigma Effect.Reply)

/-- The items sent to the client. -/
def sentItems (trace : Trace) : List Item :=
  trace.filterMap fun entry => match entry.1 with
    | .send item => some item
    | _ => none

/-- The answers given to the client. -/
def answers (trace : Trace) : List Answer :=
  trace.filterMap fun entry => match entry.1 with
    | .answer answer => some answer
    | _ => none

/-- The finalizing tasks ordered, by their attempts. -/
def finalizers (trace : Trace) : List (List Attempt) :=
  trace.filterMap fun entry => match entry.1 with
    | .spawnFinalizer attempts => some attempts
    | _ => none

/-- The attempts that book a failure: an upstream error with the usage of the event, and one without
if that cannot be booked. -/
def failureAttempts (terminal : TerminalEvent) (rates : ModelRates) (httpStatus : Nat) :
    List Attempt :=
  [⟨.upstreamError, some httpStatus, terminalUsage terminal rates⟩,
    ⟨.upstreamError, some httpStatus, none⟩]

/-- What the rest of a stream does once it has read the terminal event. -/
def StreamRest (rates : ModelRates) (converter : ChatStreamConverter) (record : SseRecord)
    (trace : Trace) : Prop :=
  Runs (chatStream rates converter)
    (⟨.select true .nextRecord, .done (.record record)⟩ :: trace) ()

/-- What the rest of the reading of a single answer does once it has read the terminal event. -/
def ReadRest (rates : ModelRates) (items : List Value) (record : SseRecord) (trace : Trace) : Prop :=
  Runs (chatRead rates items) (⟨.select false .nextRecord, .done (.record record)⟩ :: trace) ()

/-- **The failure is reported.** However a stream goes on, it sends one error and no more; however a
single answer goes on, it is a 502 error. Both show what the event carries, and order the row to be
booked as an upstream error with the usage of the event. -/
structure FailureReported (rates : ModelRates) (converter : ChatStreamConverter)
    (items : List Value) (record : SseRecord) (terminal : TerminalEvent) : Prop where
  /-- The stream. -/
  stream : ∀ trace, StreamRest rates converter record trace →
    ∃ body, sentItems trace = [.error body] ∧ ErrorShown terminal body ∧ answers trace = [] ∧
      finalizers trace = [failureAttempts terminal rates 200]
  /-- The single answer. -/
  read : ∀ trace, ReadRest rates items record trace →
    ∃ error : ApiError, answers trace = [.error error] ∧ error.status = 502 ∧
      ErrorShown terminal error.body ∧ sentItems trace = [] ∧
      finalizers trace = [failureAttempts terminal rates 502]

section

variable {rates : ModelRates} {converter : ChatStreamConverter} {items : List Value}
  {record : SseRecord} {terminal : TerminalEvent} {trace : Trace}

/-- The end of a round of a stream. -/
def endOfRound (rates : ModelRates) : Round ChatStreamConverter Unit → Code Unit
  | .again converter => .jump (.chatStream rates converter)
  | .finished () => await .dropPending

/-- The end of a round of the reading of a single answer. -/
def endOfRead (rates : ModelRates) : Round (List Value) Answer → Code Unit
  | .again items => .jump (.chatRead rates items)
  | .finished answer => answerWith answer

theorem streamRest_iff (hvalid : validateEvent record = .ok (some terminal)) :
    StreamRest rates converter record trace ↔
      Runs (chatStreamTerminal rates converter terminal >>= endOfRound rates) trace () := by
  unfold StreamRest chatStream chatStreamRound
  change Runs (Program.op _ _) _ _ ↔ _
  rw [runs_op_cons]
  simp only [Program.bind, hvalid]
  rfl

theorem readRest_iff (hvalid : validateEvent record = .ok (some terminal)) :
    ReadRest rates items record trace ↔
      Runs (chatReadTerminal rates items terminal >>= endOfRead rates) trace () := by
  unfold ReadRest chatRead chatReadRound
  change Runs (Program.op _ _) _ _ ↔ _
  rw [runs_op_cons]
  simp only [Program.bind, hvalid]
  rfl

/-- A stream with an error object sends it. -/
theorem streamRest_of_error (hvalid : validateEvent record = .ok (some terminal)) {error : Value}
    (herror : terminal.upstreamError = some error) :
    StreamRest rates converter record trace ↔ ∃ booked sent, trace =
      [⟨.spawnFinalizer (failureAttempts terminal rates 200), ()⟩, ⟨.join, booked⟩,
        ⟨.send (.error (ApiError.upstream error).body), sent⟩, ⟨.dropPending, ()⟩] := by
  have hrest : chatStreamTerminal rates converter terminal >>= endOfRound rates =
      .op (.spawnFinalizer (failureAttempts terminal rates 200)) fun _ => .op .join fun _ =>
        .op (.send (.error (ApiError.upstream error).body)) fun _ =>
          .op .dropPending Program.pure := by
    unfold chatStreamTerminal
    rw [herror]
    rfl
  rw [streamRest_iff hvalid, hrest]
  simp only [runs_op]
  constructor
  · rintro ⟨_, _, rfl, booked, _, rfl, sent, _, rfl, _, _, rfl, hend⟩
    cases hend
    exact ⟨booked, sent, rfl⟩
  · rintro ⟨booked, sent, rfl⟩
    exact ⟨(), _, rfl, booked, _, rfl, sent, _, rfl, (), _, rfl, .pure ()⟩

/-- A stream that is told of a failure without one is closed. -/
theorem streamRest_of_none (hvalid : validateEvent record = .ok (some terminal))
    (hkind : terminal.kind = .error ∨ terminal.kind = .failed)
    (herror : terminal.upstreamError = none) :
    StreamRest rates converter record trace ↔ ∃ booked, trace =
      [⟨.spawnFinalizer (failureAttempts terminal rates 200), ()⟩, ⟨.join, booked⟩,
        ⟨.dropPending, ()⟩] := by
  have hconvert : ∃ error, converter.convertTerminal terminal = .error error := by
    unfold ChatStreamConverter.convertTerminal
    obtain hkind | hkind := hkind
    · exact ⟨_, by rw [hkind]; rfl⟩
    · exact ⟨_, by rw [hkind]; rfl⟩
  obtain ⟨error, hconvert⟩ := hconvert
  have hrest : chatStreamTerminal rates converter terminal >>= endOfRound rates =
      .op (.spawnFinalizer (failureAttempts terminal rates 200)) fun _ => .op .join fun _ =>
        .op .dropPending Program.pure := by
    unfold chatStreamTerminal
    rw [herror, hconvert]
    rfl
  rw [streamRest_iff hvalid, hrest]
  simp only [runs_op]
  constructor
  · rintro ⟨_, _, rfl, booked, _, rfl, _, _, rfl, hend⟩
    cases hend
    exact ⟨booked, rfl⟩
  · rintro ⟨booked, rfl⟩
    exact ⟨(), _, rfl, booked, _, rfl, (), _, rfl, .pure ()⟩

/-- A single answer with an error object gives it. -/
theorem readRest_of_error (hvalid : validateEvent record = .ok (some terminal)) {error : Value}
    (herror : terminal.upstreamError = some error) :
    ReadRest rates items record trace ↔ ∃ booked, trace =
      [⟨.spawnFinalizer (failureAttempts terminal rates 502), ()⟩, ⟨.join, booked⟩,
        ⟨.dropPending, ()⟩, ⟨.answer (.error (.upstream error)), ()⟩] := by
  have hrest : chatReadTerminal rates items terminal >>= endOfRead rates =
      .op (.spawnFinalizer (failureAttempts terminal rates 502)) fun _ => .op .join fun _ =>
        .op .dropPending fun _ => .op (.answer (.error (.upstream error))) Program.pure := by
    unfold chatReadTerminal
    rw [herror]
    rfl
  rw [readRest_iff hvalid, hrest]
  simp only [runs_op]
  constructor
  · rintro ⟨_, _, rfl, booked, _, rfl, _, _, rfl, _, _, rfl, hend⟩
    cases hend
    exact ⟨booked, rfl⟩
  · rintro ⟨booked, rfl⟩
    exact ⟨(), _, rfl, booked, _, rfl, (), _, rfl, (), _, rfl, .pure ()⟩

/-- **When a failure is reported.** Whatever has been streamed or completed before, both clients
are told of an `error` or `response.failed` event what it carries exactly when it has an error object
whose code and message are told. -/
theorem failureReported_iff (hvalid : validateEvent record = .ok (some terminal))
    (hkind : terminal.kind = .error ∨ terminal.kind = .failed) :
    FailureReported rates converter items record terminal ↔ Reportable terminal := by
  cases herror : terminal.upstreamError with
  | none =>
    constructor
    · intro reported
      -- there is a run of the stream, and it sends nothing
      have hrun : StreamRest rates converter record _ :=
        (streamRest_of_none hvalid hkind herror).mpr ⟨true, rfl⟩
      obtain ⟨body, hsent, -⟩ := reported.stream _ hrun
      cases hsent
    · rintro ⟨error, hsome, -⟩
      rw [herror] at hsome
      cases hsome
  | some error =>
    have hreportable : Reportable terminal ↔ ErrorShown terminal (ApiError.upstream error).body := by
      rw [errorShown_iff herror, Reportable]
      simp [herror]
    rw [hreportable]
    constructor
    · intro reported
      have hrun : StreamRest rates converter record _ :=
        (streamRest_of_error hvalid herror).mpr ⟨true, true, rfl⟩
      obtain ⟨body, hsent, hshown, -⟩ := reported.stream _ hrun
      cases hsent
      exact hshown
    · intro hshown
      constructor
      · intro trace hrun
        obtain ⟨booked, sent, rfl⟩ := (streamRest_of_error hvalid herror).mp hrun
        exact ⟨_, rfl, hshown, rfl, rfl⟩
      · intro trace hrun
        obtain ⟨booked, rfl⟩ := (readRest_of_error hvalid herror).mp hrun
        exact ⟨_, rfl, rfl, hshown, rfl, rfl⟩

end

/-- An error record with some fields besides its type. -/
private def errorRecord (fields : List (String × Value)) : SseRecord where
  event := "error"
  data := some (json (("type", .string "error") :: fields))

/-- Its terminal event. -/
private def errorTerminal (fields : List (String × Value)) : TerminalEvent :=
  ⟨.error, json (("type", .string "error") :: fields), none⟩

/-- The rates of a model that costs nothing. -/
private def freeRates : ModelRates := ⟨.zero, .zero, .zero⟩

/-- An error object with a code and without a message. -/
private def nestedError : List (String × Value) :=
  [("error", json [("code", .string "server_error"), ("message", .null)])]

/-- A code and a message without an error object. -/
private def bareError : List (String × Value) :=
  [("code", .string "server_error"), ("message", .string "boom")]

/-- An error object is reported. -/
theorem failureReported_nested :
    FailureReported freeRates (.new false) [] (errorRecord nestedError)
      (errorTerminal nestedError) := by
  have hvalid : validateEvent (errorRecord nestedError) = .ok (some (errorTerminal nestedError)) := by
    decide
  refine (failureReported_iff hvalid (.inl rfl)).mpr ⟨_, rfl, ⟨"server_error", rfl⟩, ?_⟩
  intro value hvalue
  cases hvalue

/-- A code and a message in the event itself are not. -/
theorem failureReported_bare :
    validateEvent (errorRecord bareError) = .ok (some (errorTerminal bareError)) ∧
      ¬ FailureReported freeRates (.new false) [] (errorRecord bareError)
        (errorTerminal bareError) := by
  have hvalid : validateEvent (errorRecord bareError) = .ok (some (errorTerminal bareError)) := by
    decide
  refine ⟨hvalid, fun reported => ?_⟩
  have hrun : StreamRest freeRates (.new false) (errorRecord bareError) _ :=
    (streamRest_of_none hvalid (.inl rfl) rfl).mpr ⟨true, rfl⟩
  obtain ⟨body, hsent, -⟩ := reported.stream _ hrun
  cases hsent

end Delivery

end CodexApi
