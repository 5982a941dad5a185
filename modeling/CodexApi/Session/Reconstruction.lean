import CodexApi.Chat.Agreement
import CodexApi.Session.Prepare
import CodexApi.Upstream.Recognition

/-!
# Output put together from completed items

A completed response can come without its output, which then has to be put together from the items
that completed before. `readChatTerminal` does this for a single Chat answer, and
`forwardWebSocketStream` for the snapshot of a session. The conditions they do it under are not the
same: `outputReconstructed_iff` says for which streams both end up with the same list.
-/

namespace CodexApi

/-! ### The two loops -/

/-- The output list of a terminal event. -/
def responseOutput (terminal : TerminalEvent) : Option (List Value) :=
  (terminal.payload.pointer ["response", "output"]).bind Value.asArray

/-- The terminal event that `read_chat_terminal` hands to the conversion, with the items completed so
far. -/
def chatTerminal (items : List Value) : List SseRecord → Option TerminalEvent
  | [] => none
  | record :: records =>
    match validateEvent record with
    | .error _ => none
    | .ok none => chatTerminal (items ++ (completedOutputItem record).toList) records
    | .ok (some terminal) =>
      if terminal.upstreamError.isSome then none else some (terminal.withOutputItems items)

/-- The item of a `response.output_item.done` event, as `forward_websocket_responses_stream` takes
it. -/
def completedObjectItem (event : Value) (eventName : String) : Option Value :=
  if eventName = "response.output_item.done" then (event.get "item").filter (·.isObject) else none

/-- Fills an output that is missing, null or empty with the items completed before. -/
def TerminalEvent.withSnapshotItems (terminal : TerminalEvent) (items : List Value) :
    TerminalEvent :=
  let output := terminal.payload.pointer ["response", "output"]
  if terminal.kind = .completed ∧ items ≠ [] ∧
      (output = none ∨ output = some .null ∨ output = some (.array [])) then
    let response := (terminal.payload.index "response").setField "output" (.array items)
    { terminal with payload := terminal.payload.setField "response" response }
  else terminal

/-- The terminal event that `forward_websocket_responses_stream` returns, with the items completed
so far. The client stays, nothing shuts down, and the ledger can be written. -/
def forwardWebSocketStream (items : List Value) : List UpstreamEvent → Option TerminalEvent
  | [] => none
  | .text frame :: rest =>
    match frame.bind fun event => (eventType event).map (event, ·) with
    | none => none
    | some (event, eventName) =>
      let items := items ++ (completedObjectItem event eventName).toList
      match parseTerminalPayload event with
      | .error _ => none
      | .ok none => forwardWebSocketStream items rest
      | .ok (some terminal) => some (terminal.withSnapshotItems items)
  | .ping (some true) :: rest => forwardWebSocketStream items rest
  | .pong :: rest => forwardWebSocketStream items rest
  | _ :: _ => none

/-! ### The two outputs -/

/-- The list of output items that a single Chat answer converts, if there is one. -/
def chatOutput (records : List SseRecord) : Option (List Value) :=
  (chatTerminal [] records).bind responseOutput

/-- The list of output items that a session stores, if there is one. -/
def sessionOutput (events : List UpstreamEvent) : Option (List Value) :=
  (forwardWebSocketStream [] events).bind responseOutput

/-- The text frame that carries the event of a record. -/
def SseRecord.frame (record : SseRecord) : UpstreamEvent := .text record.data

/-- **Both paths reconstruct the same output**, or have none. -/
def OutputReconstructed (records : List SseRecord) : Prop :=
  chatOutput records = sessionOutput (records.map SseRecord.frame)

instance (records : List SseRecord) : Decidable (OutputReconstructed records) :=
  inferInstanceAs (Decidable (_ = _))

/-- The single answer is converted from the event of `chatTerminal`. -/
theorem readChatTerminal_eq (records : List SseRecord) : ∀ items,
    readChatTerminal items records =
      (chatTerminal items records).bind fun terminal => (convertTerminalEvent terminal).toOption := by
  induction records with
  | nil => exact fun _ => rfl
  | cons record records ih =>
    intro items
    unfold readChatTerminal chatTerminal
    cases hvalid : validateEvent record with
    | error error => rfl
    | ok outcome =>
      cases outcome with
      | none => exact ih _
      | some terminal =>
        by_cases herror : terminal.upstreamError.isSome = true
        · simp [herror]
        · simp [herror]

/-- A Chat answer is converted from `chatOutput`. -/
theorem chatOutput_of_readChatTerminal {records : List SseRecord} {completion : ConvertedTerminal}
    (h : readChatTerminal [] records = some completion) :
    ∃ output converted, chatOutput records = some output ∧ convertOutput output = .ok converted ∧
      (firstChoice completion.chatCompletion).bind (·.get "message") =
        some (chatMessage converted).toValue := by
  rw [readChatTerminal_eq] at h
  obtain ⟨terminal, hterminal, hconvert⟩ := Option.bind_eq_some_iff.mp h
  obtain ⟨status, response, metadata, usage, output, converted, finishReason, -, hresponse, -, -, -,
    -, -, -, -, -, houtput, hconverted, -, rfl⟩ :=
    convertTerminalEvent_eq_ok.mp (toOption_eq_some.mp hconvert)
  refine ⟨output, converted, ?_, hconverted, ?_⟩
  · simp [chatOutput, hterminal, responseOutput, Value.pointer, hresponse, houtput, Value.asArray]
  · simp [firstChoice_completionJson, get_json, OrdMap.ofList]

/-- A session stores the output of the event it is given, if the response has an id. -/
theorem finishTurn_snapshot {session : Session} (hkeyed : session.keyed = true)
    (snapshotBytes : Snapshot → Nat) (input : List Value) (parameters : Value)
    {terminal : TerminalEvent} (hkind : terminal.kind = .completed) {id : String} (hid : id ≠ "")
    (hresponse : terminal.payload.pointer ["response", "id"] = some (.string id)) :
    (session.finishTurn snapshotBytes input parameters
        ⟨decide (terminal.kind = .completed), terminal.payload⟩).snapshot =
      match responseOutput terminal with
      | some output => some ⟨id, input ++ output, parameters⟩
      | none => session.snapshot := by
  simp only [Session.finishTurn, hkeyed, hkind, hresponse, Option.bind_some, Value.asStr,
    Option.filter, responseOutput]
  cases (terminal.payload.pointer ["response", "output"]).bind Value.asArray with
  | none => simp [Session.disconnect]
  | some output => simp [hid]

/-! ### What the loops end with -/

/-- The items that completed among some records. -/
def completedItems (records : List SseRecord) : List Value := records.filterMap completedOutputItem

theorem completedItems_cons (record : SseRecord) (records : List SseRecord) :
    completedItems (record :: records) =
      (completedOutputItem record).toList ++ completedItems records := by
  unfold completedItems
  cases h : completedOutputItem record with
  | none => simp [h]
  | some item => simp [h]

/-- Every record carries an event, that is, a value with a type. -/
def AllTyped (records : List SseRecord) : Prop :=
  ∀ record ∈ records, (record.data.bind eventType).isSome = true

/-- The Chat loop ends with the items of all records before the last. The induction is on them. -/
theorem chatTerminal_append {earlier : List SseRecord} {last : SseRecord}
    {terminal : TerminalEvent} (hlast : validateEvent last = .ok (some terminal))
    (herror : terminal.upstreamError = none) : ∀ items,
      (∀ record ∈ earlier, validateEvent record = .ok none) →
        chatTerminal items (earlier ++ [last]) =
          some (terminal.withOutputItems (items ++ completedItems earlier)) := by
  induction earlier with
  | nil =>
    intro items _
    simp [chatTerminal, hlast, herror, completedItems]
  | cons record earlier ih =>
    intro items hvalid
    have hhead := hvalid record List.mem_cons_self
    have htail := ih (items ++ (completedOutputItem record).toList)
      fun record hmem => hvalid record (List.mem_cons_of_mem _ hmem)
    rw [List.cons_append, chatTerminal, hhead]
    simp only [htail, completedItems_cons, List.append_assoc]

/-- The event of a record that is no terminal event is none either. -/
theorem parse_of_validateEvent_none {record : SseRecord} {event : Value}
    (hdata : record.data = some event) (h : validateEvent record = .ok none) :
    parseTerminalPayload event = .ok none := by
  unfold validateEvent at h
  rw [hdata] at h
  obtain ⟨parsed, hparsed, h⟩ := bind_eq_ok.mp h
  cases parsed with
  | none => exact hparsed
  | some parsed =>
    cases hevent : TerminalKind.fromName record.event with
    | none =>
      rw [hevent] at h
      cases h
    | some eventKind =>
      rw [hevent] at h
      simp only at h
      split_ifs at h
      · cases h
      · cases h

/-- The items of the two loops differ in those that are no objects. -/
theorem completedObjectItem_eq {record : SseRecord} {event : Value} {eventName : String}
    (hdata : record.data = some event) (htype : eventType event = some eventName) :
    completedObjectItem event eventName = (completedOutputItem record).filter (·.isObject) := by
  unfold completedObjectItem completedOutputItem
  rw [hdata, Option.bind_some, htype]
  by_cases hname : eventName = "response.output_item.done"
  · simp [hname]
  · simp [hname]

/-- The WebSocket loop ends with the objects among the items, unless an event has no type. The
induction is on the records before the last. -/
theorem forwardWebSocketStream_append {earlier : List SseRecord} {payload : Value}
    {terminal : TerminalEvent} (hlast : parseTerminalPayload payload = .ok (some terminal)) :
    ∀ items, (∀ record ∈ earlier, validateEvent record = .ok none) →
      (AllTyped earlier →
        forwardWebSocketStream items (earlier.map SseRecord.frame ++ [.text (some payload)]) =
          some (terminal.withSnapshotItems
            (items ++ (completedItems earlier).filter (·.isObject)))) ∧
      (¬ AllTyped earlier →
        forwardWebSocketStream items (earlier.map SseRecord.frame ++ [.text (some payload)]) =
          none) := by
  obtain ⟨hpayload, htype⟩ := terminal_of_parse hlast
  have hlastType : eventType payload = some terminal.kind.eventName := by
    simp [eventType, htype, Value.asStr]
  induction earlier with
  | nil =>
    intro items _
    have hitem : completedObjectItem payload terminal.kind.eventName = none := by
      have hname : terminal.kind.eventName ≠ "response.output_item.done" := by
        cases terminal.kind <;> decide
      rw [completedObjectItem, if_neg hname]
    refine ⟨fun _ => ?_, fun huntyped => absurd (by simp [AllTyped]) huntyped⟩
    simp [forwardWebSocketStream, hlastType, hitem, hlast, completedItems]
  | cons record earlier ih =>
    intro items hvalid
    have hhead := hvalid record List.mem_cons_self
    have htail items := ih items fun record hmem => hvalid record (List.mem_cons_of_mem _ hmem)
    have htyped : AllTyped (record :: earlier) ↔
        (record.data.bind eventType).isSome = true ∧ AllTyped earlier := List.forall_mem_cons
    rw [List.map_cons, List.cons_append, SseRecord.frame, forwardWebSocketStream, htyped]
    cases hdata : record.data with
    | none => simp
    | some event =>
      cases htype : eventType event with
      | none => simp [htype]
      | some eventName =>
        have hitem := completedObjectItem_eq hdata htype
        have hparse := parse_of_validateEvent_none hdata hhead
        obtain ⟨hdone, hfail⟩ := htail (items ++ (completedObjectItem event eventName).toList)
        simp only [Option.bind_some, htype, Option.map_some, Option.isSome_some, true_and, hparse]
        refine ⟨fun hrest => ?_, hfail⟩
        rw [hdone hrest, hitem, completedItems_cons, List.filter_append, Option.toList_filter,
          List.append_assoc]

/-! ### The outputs they fill in -/

variable {terminal : TerminalEvent} {items : List Value}

/-- An output that is replaced is the list it is replaced by. -/
theorem responseOutput_setField {response : Value}
    (hresponse : terminal.payload.get "response" = some response)
    (hobject : response.isObject = true) (items : List Value) :
    responseOutput { terminal with
      payload := terminal.payload.setField "response"
        ((terminal.payload.index "response").setField "output" (.array items)) } =
      some items := by
  have hpayload : terminal.payload.isObject = true := Value.isObject_of_get hresponse
  rw [responseOutput, Value.index_of_get hresponse]
  simp [Value.pointer, Value.get_setField_self hpayload, Value.get_setField_self hobject,
    Value.asArray]

/-- What `withOutputItems` leaves as the output. -/
theorem responseOutput_withOutputItems {response : Value}
    (hresponse : terminal.payload.get "response" = some response)
    (hobject : response.isObject = true) (items : List Value) :
    responseOutput (terminal.withOutputItems items) =
      if response.get "output" = some (.array []) ∧ items ≠ [] then some items
      else (response.get "output").bind Value.asArray := by
  have houtput : terminal.payload.pointer ["response", "output"] = response.get "output" := by
    simp [Value.pointer, hresponse]
  unfold TerminalEvent.withOutputItems
  rw [houtput]
  split_ifs
  · exact responseOutput_setField hresponse hobject items
  · rw [responseOutput, houtput]

/-- What `withSnapshotItems` leaves as the output of a completed response. -/
theorem responseOutput_withSnapshotItems (hkind : terminal.kind = .completed) {response : Value}
    (hresponse : terminal.payload.get "response" = some response)
    (hobject : response.isObject = true) (items : List Value) :
    responseOutput (terminal.withSnapshotItems items) =
      if items ≠ [] ∧ (response.get "output" = none ∨ response.get "output" = some .null ∨
          response.get "output" = some (.array [])) then some items
      else (response.get "output").bind Value.asArray := by
  have houtput : terminal.payload.pointer ["response", "output"] = response.get "output" := by
    simp [Value.pointer, hresponse]
  unfold TerminalEvent.withSnapshotItems
  simp only [houtput, hkind, true_and]
  split_ifs
  · exact responseOutput_setField hresponse hobject items
  · rw [responseOutput, houtput]

theorem some_of_fill (items : List Value) :
    (if items ≠ [] then some items else some []) = some items := by
  by_cases h : items = []
  · simp [h]
  · simp [h]

/-! ### The exact condition -/

/-- The items completed before the last record and its output are such that both paths make the
same of them. -/
def OutputsAgree (earlier : List SseRecord) (terminal : TerminalEvent) : Prop :=
  match terminal.payload.pointer ["response", "output"] with
  | some (.array []) => AllTyped earlier ∧ ∀ item ∈ completedItems earlier, item.isObject = true
  | some (.array (_ :: _)) => AllTyped earlier
  | none | some .null =>
    AllTyped earlier → ∀ item ∈ completedItems earlier, item.isObject = false
  | some _ => True

/-- **Where the output is reconstructed the same way.** A stream whose last record is an accepted
`response.completed` event gives both paths the same output, or none, exactly when

* a given output comes after events that all have a type;
* an empty output comes after such events and after items that are all objects;
* a missing output comes after no item that is an object, or after an event without a type. -/
theorem outputReconstructed_iff {earlier : List SseRecord} {last : SseRecord}
    {terminal : TerminalEvent} (hvalid : ∀ record ∈ earlier, validateEvent record = .ok none)
    (hlast : validateEvent last = .ok (some terminal)) (hkind : terminal.kind = .completed) :
    OutputReconstructed (earlier ++ [last]) ↔ OutputsAgree earlier terminal := by
  obtain ⟨⟨payload, hdata, hparse⟩, -⟩ := validateEvent_eq_ok_some hlast
  obtain ⟨response, hresponse, hobject, -⟩ :=
    (carries_of_parse hparse).response "completed" (by rw [hkind]; rfl)
  have herror : terminal.upstreamError = none := by
    simp [TerminalEvent.upstreamError, hkind]
  have houtput : terminal.payload.pointer ["response", "output"] = response.get "output" := by
    simp [Value.pointer, hresponse]
  have hchat : chatOutput (earlier ++ [last]) =
      responseOutput (terminal.withOutputItems (completedItems earlier)) := by
    rw [chatOutput, chatTerminal_append hlast herror [] hvalid]
    rfl
  have hframes : (earlier ++ [last]).map SseRecord.frame =
      earlier.map SseRecord.frame ++ [.text (some payload)] := by
    simp [SseRecord.frame, hdata]
  obtain ⟨htyped, huntyped⟩ := forwardWebSocketStream_append hparse [] hvalid
  rw [OutputReconstructed, sessionOutput, hframes, hchat,
    responseOutput_withOutputItems hresponse hobject, OutputsAgree, houtput]
  by_cases hall : AllTyped earlier
  · rw [htyped hall, Option.bind_some,
      responseOutput_withSnapshotItems hkind hresponse hobject, List.nil_append]
    cases hvalue : response.get "output" with
    | none => simp [hall]
    | some value =>
      cases value with
      | null => simp [hall, Value.asArray]
      | array output =>
        cases output with
        | nil =>
          -- each path fills in its own items, so these have to be the same
          simp only [true_and, or_true, and_true, Option.bind_some, Value.asArray, some_of_fill,
            Option.some.injEq, eq_comm (a := completedItems earlier), List.filter_eq_self, hall]
        | cons item output => simp [hall, Value.asArray]
      | bool _ => simp [Value.asArray]
      | number _ => simp [Value.asArray]
      | string _ => simp [Value.asArray]
      | object _ => simp [Value.asArray]
  · rw [huntyped hall, Option.bind_none]
    cases hvalue : response.get "output" with
    | none => simp [hall]
    | some value =>
      cases value with
      | null => simp [hall, Value.asArray]
      | array output =>
        cases output with
        | nil => simp only [true_and, Option.bind_some, Value.asArray, some_of_fill, hall,
            reduceCtorEq, false_and]
        | cons item output => simp [hall, Value.asArray]
      | bool _ => simp [Value.asArray]
      | number _ => simp [Value.asArray]
      | string _ => simp [Value.asArray]
      | object _ => simp [Value.asArray]

/-- An item that completes. -/
private def itemRecord : SseRecord where
  event := "response.output_item.done"
  data := some (json [("type", .string "response.output_item.done"),
    ("item", json [("type", .string "message"), ("role", .string "assistant"),
      ("content", .array [])])])

/-- The fields of a completed response besides its output. -/
private def answerFields : List (String × Value) :=
  [("id", .string "resp_1"), ("status", .string "completed"),
    ("usage", json [("input_tokens", jsonInt 3), ("output_tokens", jsonInt 2),
      ("total_tokens", jsonInt 5)])]

/-- A completed response with some further fields. -/
private def answerPayload (fields : List (String × Value)) : Value :=
  json [("type", .string "response.completed"), ("response", json (answerFields ++ fields))]

/-- Its record. -/
private def answerRecord (fields : List (String × Value)) : SseRecord :=
  ⟨"response.completed", some (answerPayload fields)⟩

/-- An empty output is filled in on both paths. -/
theorem outputReconstructed_empty :
    OutputReconstructed [itemRecord, answerRecord [("output", .array [])]] := by
  have hlast : validateEvent (answerRecord [("output", .array [])]) =
      .ok (some ⟨.completed, answerPayload [("output", .array [])], some ⟨3, 0, 2, 0, 5⟩⟩) := by
    decide
  have hitems : completedItems [itemRecord] = [((itemRecord.data.getD .null).index "item")] := by
    decide
  have hvalid : ∀ record ∈ [itemRecord], validateEvent record = .ok none := by decide
  refine (outputReconstructed_iff hvalid hlast rfl).mpr ⟨?_, ?_⟩
  · intro record hmem
    rw [List.mem_singleton.mp hmem]
    decide
  · intro item hmem
    rw [hitems, List.mem_singleton] at hmem
    rw [hmem]
    decide

/-- A missing output is filled in for the session only. -/
theorem outputReconstructed_missing :
    validateEvent itemRecord = .ok none ∧
      validateEvent (answerRecord []) =
        .ok (some ⟨.completed, answerPayload [], some ⟨3, 0, 2, 0, 5⟩⟩) ∧
      ¬ OutputReconstructed [itemRecord, answerRecord []] := by
  decide

end CodexApi
