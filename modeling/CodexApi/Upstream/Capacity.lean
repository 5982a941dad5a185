import CodexApi.Upstream.Recognition

/-!
# Rewritten capacity failures

`retryableCapacityPayload` turns a capacity failure of either shape into a `response.failed` event
whose error carries one `Retry-After` header. `Rewritten` says what the new event has to do with
the old one, and `retryableCapacityPayload_sound` that it has: the new payload is a terminal event
again, it differs in nothing but the advice (and the envelope of a bare error), and rewriting it
once more changes nothing.

The parser for HTTP dates is any predicate.
-/

namespace CodexApi

/-! ### The rewriting -/

/-- The headers an object carries. -/
def headersOf (value : Value) : List (String × Value) := (value.index "headers").asObject.getD []

section

variable (isHttpDate : String → Bool)

/-- A header with retry advice a client can use. -/
def isAdvice (field : String × Value) : Bool :=
  isRetryAfter field.1 && isRetryAdvice isHttpDate field.2

/-- The first valid advice among the headers, or 30 seconds where there is none. -/
def IsFirstAdvice (headers : List (String × Value)) (advice : Value) : Prop :=
  (∃ before name after, headers = before ++ (name, advice) :: after ∧
    (∀ field ∈ before, isAdvice isHttpDate field = false) ∧
    isAdvice isHttpDate (name, advice) = true) ∨
  (∀ field ∈ headers, isAdvice isHttpDate field = false) ∧ advice = .string "30"

/-- What the error of a rewritten event has to do with that of the original event. -/
structure ErrorRewritten (eventHeaders : List (String × Value)) (error error' : Value) : Prop where
  /-- Nothing but the headers changes. -/
  others : ∀ field, field ≠ "headers" → error'.get field = error.get field
  /-- The headers are an object that keeps what is no advice and has one advice. -/
  headers : ∃ headers, error'.get "headers" = some (.object headers) ∧
    headers.filter (!isRetryAfter ·.1) = (headersOf error).filter (!isRetryAfter ·.1) ∧
    ∃ advice, headers.filter (isRetryAfter ·.1) = [("Retry-After", advice)] ∧
      IsFirstAdvice isHttpDate (headersOf error ++ eventHeaders) advice

/-- What a rewritten event has to do with the original one. -/
structure Rewritten (terminal terminal' : TerminalEvent) : Prop where
  /-- The new event is a failed response. -/
  kind : terminal'.kind = .failed
  /-- It is accounted as the original is. -/
  usage : terminal'.usage = terminal.usage
  /-- Its error is the original one with other advice. -/
  error : ∃ error error', terminal.upstreamError = some error ∧
    terminal'.upstreamError = some error' ∧
    ErrorRewritten isHttpDate (headersOf terminal.payload) error error'
  /-- The rest of the event is as it was, the envelope of a bare error apart. -/
  event : ∀ field, field ≠ "response" →
    (terminal.kind = .error → field ≠ "type" ∧ field ≠ "error") →
      terminal'.payload.get field = terminal.payload.get field
  /-- So is the rest of a failed response. -/
  response : terminal.kind = .failed → ∀ field, field ≠ "error" →
    (terminal'.payload.index "response").get field = (terminal.payload.index "response").get field

end

/-! ### The advice -/

section

variable {isHttpDate : String → Bool} {headers : List (String × Value)} {advice : Value}

theorem isRetryAfter_own : isRetryAfter "Retry-After" = true := by
  rw [isRetryAfter, decide_eq_true_iff, ← String.toList_inj, String.toList_map]
  decide

theorem retryAfter_isFirstAdvice (error event : Value) :
    IsFirstAdvice isHttpDate (headersOf error ++ headersOf event)
      (retryAfter isHttpDate [error.index "headers", event.index "headers"]) := by
  have hfields : (([error.index "headers", event.index "headers"]).filterMap
      Value.asObject).flatten = headersOf error ++ headersOf event := by
    unfold headersOf
    cases herror : (error.index "headers").asObject <;>
      cases hevent : (event.index "headers").asObject <;> simp [herror, hevent]
  unfold retryAfter
  rw [hfields, List.head?_filter]
  cases hfind : (headersOf error ++ headersOf event).find? fun field =>
      isRetryAfter field.1 && isRetryAdvice isHttpDate field.2 with
  | none =>
    have hnone := List.find?_eq_none.mp hfind
    exact .inr ⟨fun field hmem => Bool.not_eq_true _ ▸ hnone field hmem, rfl⟩
  | some field =>
    obtain ⟨hvalid, before, after, happend, hbefore⟩ := List.find?_eq_some_iff_append.mp hfind
    obtain ⟨name, advice⟩ := field
    refine .inl ⟨before, name, after, happend, fun field hmem => ?_, hvalid⟩
    exact Bool.not_eq_true' _ ▸ hbefore field hmem

/-- Whatever advice is given is valid. -/
theorem IsFirstAdvice.valid (h : IsFirstAdvice isHttpDate headers advice) :
    isRetryAdvice isHttpDate advice = true := by
  obtain ⟨before, name, after, -, -, hvalid⟩ | ⟨-, rfl⟩ := h
  · exact (Bool.and_eq_true_iff.mp hvalid).2
  · have hdecimal : isDecimalU64 (trim "30") = true := by decide
    simp [isRetryAdvice, hdecimal]

/-- Advice that stands alone in the headers of an error is the advice taken. -/
theorem retryAfter_of_filter {error : Value} (event : Value)
    (h : (headersOf error).filter (isRetryAfter ·.1) = [("Retry-After", advice)])
    (hvalid : isRetryAdvice isHttpDate advice = true) :
    retryAfter isHttpDate [error.index "headers", event] = advice := by
  have hobject : (error.index "headers").asObject = some (headersOf error) := by
    unfold headersOf at h ⊢
    cases hvalue : (error.index "headers").asObject with
    | none =>
      rw [hvalue] at h
      cases h
    | some fields => rfl
  have hfilter : (headersOf error).filter (fun field =>
      isRetryAfter field.1 && isRetryAdvice isHttpDate field.2) = [("Retry-After", advice)] := by
    simp only [Bool.and_comm (isRetryAfter _)]
    rw [← List.filter_filter, h]
    simp [hvalid]
  unfold retryAfter
  rw [List.filterMap_cons_some hobject, List.flatten_cons, List.filter_append, hfilter]
  rfl

end

/-! ### The new error -/

/-- The error of a rewritten event. -/
def rewrittenError (isHttpDate : String → Bool) (error event : Value) : Value :=
  error.setField "headers" (.object (Assoc.insert "Retry-After"
    (retryAfter isHttpDate [error.index "headers", event.index "headers"])
    ((headersOf error).filter (!isRetryAfter ·.1))))

section

variable {isHttpDate : String → Bool} {error event : Value}

theorem headersOf_rewrittenError (h : error.isObject = true) :
    headersOf (rewrittenError isHttpDate error event) = Assoc.insert "Retry-After"
      (retryAfter isHttpDate [error.index "headers", event.index "headers"])
      ((headersOf error).filter (!isRetryAfter ·.1)) := by
  rw [headersOf, rewrittenError, Value.index_of_get (Value.get_setField_self h)]
  rfl

/-- Every other header is kept. -/
theorem otherHeaders_rewrittenError (h : error.isObject = true) :
    (headersOf (rewrittenError isHttpDate error event)).filter (!isRetryAfter ·.1) =
      (headersOf error).filter (!isRetryAfter ·.1) := by
  have hkey : (!isRetryAfter "Retry-After") = false := by simp [isRetryAfter_own]
  rw [headersOf_rewrittenError h,
    Assoc.filter_insert_of_not (p := fun name => !isRetryAfter name) hkey, List.filter_filter]
  simp

/-- There is exactly one header with advice, the one taken. -/
theorem advice_rewrittenError (h : error.isObject = true) :
    (headersOf (rewrittenError isHttpDate error event)).filter (isRetryAfter ·.1) =
      [("Retry-After", retryAfter isHttpDate [error.index "headers", event.index "headers"])] := by
  rw [headersOf_rewrittenError h]
  refine Assoc.filter_insert_of_none (p := isRetryAfter) isRetryAfter_own fun field hmem => ?_
  have hother := (List.mem_filter.mp hmem).2
  simpa using hother

/-- **The error keeps everything but the advice.** -/
theorem rewrittenError_rewritten (h : error.isObject = true) :
    ErrorRewritten isHttpDate (headersOf event) error (rewrittenError isHttpDate error event) where
  others := fun field hfield => Value.get_setField_of_ne hfield
  headers := by
    refine ⟨_, Value.get_setField_self h, ?_, _, ?_, retryAfter_isFirstAdvice error event⟩
    · rw [← headersOf_rewrittenError h]
      exact otherHeaders_rewrittenError h
    · rw [← headersOf_rewrittenError h]
      exact advice_rewrittenError h

/-- Rewriting an error again changes nothing, whatever the headers of its event are now. -/
theorem rewrittenError_self (h : error.isObject = true) (event' : Value) :
    rewrittenError isHttpDate (rewrittenError isHttpDate error event) event' =
      rewrittenError isHttpDate error event := by
  have hvalid : isRetryAdvice isHttpDate
      (retryAfter isHttpDate [error.index "headers", event.index "headers"]) = true :=
    (retryAfter_isFirstAdvice error event).valid
  -- the advice written the first time stands alone, so it is taken again
  have hsame := retryAfter_of_filter (event'.index "headers") (advice_rewrittenError h) hvalid
  rw [rewrittenError, hsame, otherHeaders_rewrittenError h]
  nth_rewrite 1 [rewrittenError]
  rw [Value.setField_setField_self]
  rfl

end

/-! ### The new event -/

/-- The payload of a rewritten event. -/
def rewrittenPayload (terminal : TerminalEvent) (error : Value) : Value :=
  if terminal.kind = .error then
    ((terminal.payload.removeField "error").setField "type" (.string "response.failed")).setField
      "response" (json [("status", .string "failed"), ("error", error)])
  else
    terminal.payload.setField "response" ((terminal.payload.index "response").setField "error" error)

/-- The error codes of a capacity failure. -/
def IsCapacityError (error : Value) : Prop :=
  (error.index "code").asStr = some "server_is_overloaded" ∨
    (error.index "code").asStr = some "slow_down"

section

variable {isHttpDate : String → Bool} {terminal : TerminalEvent} {payload p error : Value}

/-- **What is rewritten**, and to what. -/
theorem retryableCapacityPayload_eq_some :
    terminal.retryableCapacityPayload isHttpDate = some p ↔
      ∃ error, terminal.upstreamError = some error ∧ IsCapacityError error ∧
        p = rewrittenPayload terminal (rewrittenError isHttpDate error terminal.payload) := by
  unfold TerminalEvent.retryableCapacityPayload
  cases herror : terminal.upstreamError with
  | none => simp
  | some error =>
    simp only [Option.some.injEq, exists_eq_left', IsCapacityError]
    by_cases hcode : (error.index "code").asStr ≠ some "server_is_overloaded" ∧
        (error.index "code").asStr ≠ some "slow_down"
    · rw [if_pos hcode]
      simp [hcode.1, hcode.2]
    · rw [if_neg hcode]
      have hcapacity : (error.index "code").asStr = some "server_is_overloaded" ∨
          (error.index "code").asStr = some "slow_down" := by tauto
      simp only [hcapacity, true_and, rewrittenPayload, rewrittenError, headersOf]
      split_ifs with hkind
      · simp [eq_comm]
      · simp [eq_comm]

/-- The event and the response that get the new error: those of a failed response, or the ones a
bare error is wrapped in. -/
structure Envelope (terminal : TerminalEvent) (event response : Value) : Prop where
  /-- The error is put into the response, and that into the event. -/
  payload : ∀ error, rewrittenPayload terminal error =
    event.setField "response" (response.setField "error" error)
  /-- The event is an object. -/
  isObject : event.isObject = true
  /-- It is a failed response. -/
  type : event.get "type" = some (.string "response.failed")
  /-- The response is an object. -/
  response_isObject : response.isObject = true
  /-- It has failed. -/
  status : response.get "status" = some (.string "failed")
  /-- It has the usage of the original event. -/
  usage : parseUsage response .failed = .ok terminal.usage
  /-- The event has the fields of the original event. -/
  event_fields : ∀ field, field ≠ "response" →
    (terminal.kind = .error → field ≠ "type" ∧ field ≠ "error") →
      event.get field = terminal.payload.get field
  /-- A failed response keeps its fields. -/
  response_fields : terminal.kind = .failed → response = terminal.payload.index "response"

/-- A bare error is wrapped. -/
theorem envelope_of_error (hkind : terminal.kind = .error) (husage : terminal.usage = none)
    (hobject : terminal.payload.isObject = true) :
    Envelope terminal
      ((terminal.payload.removeField "error").setField "type" (.string "response.failed"))
      (json [("status", .string "failed")]) where
  payload := by
    intro error
    have hwrap : json [("status", .string "failed"), ("error", error)] =
        (json [("status", .string "failed")]).setField "error" error := by
      simp [json, OrdMap.ofList, Object.toValue, Value.setField, OrdMap.insert]
    rw [rewrittenPayload, if_pos hkind, hwrap]
  isObject := by simp [hobject]
  type := Value.get_setField_self (by simp [hobject])
  response_isObject := rfl
  status := rfl
  usage := by
    rw [husage]
    rfl
  event_fields := by
    intro field _ hfield
    obtain ⟨htype, herror⟩ := hfield hkind
    rw [Value.get_setField_of_ne htype, Value.get_removeField_of_ne herror]
  response_fields := by simp [hkind]

/-- A failed response is its own envelope. -/
theorem envelope_of_failed (hparse : parseTerminalPayload payload = .ok (some terminal))
    (hkind : terminal.kind = .failed) :
    Envelope terminal terminal.payload (terminal.payload.index "response") := by
  obtain ⟨htype, rfl, hfits⟩ := parse_eq_ok_some.mp hparse
  simp only [ResponseFits, hkind, TerminalKind.responseStatus] at hfits
  obtain ⟨response, hresponse, hobject, hstatus, husage⟩ := hfits
  have hindex := Value.index_of_get hresponse
  rw [hkind] at htype
  exact {
    payload := by simp [rewrittenPayload, hkind]
    isObject := Value.isObject_of_get hresponse
    type := htype
    response_isObject := hindex ▸ hobject
    status := hindex ▸ hstatus
    usage := hindex ▸ husage
    event_fields := fun _ _ _ => rfl
    response_fields := fun _ => rfl }

theorem envelope_of_upstreamError (hparse : parseTerminalPayload payload = .ok (some terminal))
    (herror : terminal.upstreamError = some error) :
    ∃ event response, Envelope terminal event response := by
  unfold TerminalEvent.upstreamError at herror
  obtain ⟨hget, -⟩ := Option.filter_eq_some_iff.mp herror
  cases hkind : terminal.kind with
  | completed =>
    rw [hkind] at hget
    cases hget
  | incomplete =>
    rw [hkind] at hget
    cases hget
  | failed => exact ⟨_, _, envelope_of_failed hparse hkind⟩
  | error =>
    rw [hkind] at hget
    exact ⟨_, _, envelope_of_error hkind ((carries_of_parse hparse).error hkind)
      (Value.isObject_of_get hget)⟩

variable {event response : Value}

/-- The event in the envelope, with a new error, is a failed terminal event. -/
theorem Envelope.parse (envelope : Envelope terminal event response) (error : Value) :
    parseTerminalPayload (rewrittenPayload terminal error) =
      .ok (some ⟨.failed, rewrittenPayload terminal error, terminal.usage⟩) := by
  refine parse_eq_ok_some.mpr ⟨?_, rfl, response.setField "error" error, ?_, ?_, ?_, ?_⟩
  · rw [envelope.payload, Value.get_setField_of_ne (by decide), envelope.type]
    rfl
  · rw [envelope.payload, Value.get_setField_self envelope.isObject]
  · rw [Value.isObject_setField, envelope.response_isObject]
  · rw [Value.get_setField_of_ne (by decide), envelope.status]
  · have husage : (response.setField "error" error).get "usage" = response.get "usage" :=
      Value.get_setField_of_ne (by decide)
    rw [parseUsage, husage, ← envelope.usage]
    rfl

/-- The response of the event in the envelope. -/
theorem Envelope.response_index (envelope : Envelope terminal event response) (error : Value) :
    (rewrittenPayload terminal error).index "response" = response.setField "error" error := by
  rw [envelope.payload, Value.index_of_get (Value.get_setField_self envelope.isObject)]

/-- Its error is the new one. -/
theorem Envelope.upstreamError (envelope : Envelope terminal event response)
    (h : error.isObject = true) :
    TerminalEvent.upstreamError ⟨.failed, rewrittenPayload terminal error, terminal.usage⟩ =
      some error := by
  have hresponse : (rewrittenPayload terminal error).get "response" =
      some (response.setField "error" error) := by
    rw [envelope.payload, Value.get_setField_self envelope.isObject]
  have herror : (response.setField "error" error).get "error" = some error :=
    Value.get_setField_self envelope.response_isObject
  simp [TerminalEvent.upstreamError, Value.pointer, hresponse, herror, h]

/-- Putting the same error in once more changes nothing. -/
theorem Envelope.payload_self (envelope : Envelope terminal event response) (error : Value) :
    rewrittenPayload ⟨.failed, rewrittenPayload terminal error, terminal.usage⟩ error =
      rewrittenPayload terminal error := by
  rw [rewrittenPayload, if_neg (by simp), envelope.response_index, Value.setField_setField_self]
  simp only [envelope.payload, Value.setField_setField_self]

/-- **Rewriting a capacity failure is sound and idempotent.** The rewritten payload is a failed
terminal event that is accounted as the original one, keeps what is no advice, gives the first
valid advice once, and is rewritten to itself. -/
theorem retryableCapacityPayload_sound
    (hparse : parseTerminalPayload payload = .ok (some terminal))
    (h : terminal.retryableCapacityPayload isHttpDate = some p) :
    ∃ terminal', parseTerminalPayload p = .ok (some terminal') ∧
      Rewritten isHttpDate terminal terminal' ∧
      terminal'.retryableCapacityPayload isHttpDate = some p := by
  obtain ⟨error, herror, hcapacity, rfl⟩ := retryableCapacityPayload_eq_some.mp h
  obtain ⟨event, response, envelope⟩ := envelope_of_upstreamError hparse herror
  have hobject : error.isObject = true := (Option.filter_eq_some_iff.mp herror).2
  let error' := rewrittenError isHttpDate error terminal.payload
  have hobject' : error'.isObject = true := by
    rw [← hobject]
    exact Value.isObject_setField
  have herror' := envelope.upstreamError hobject'
  refine ⟨_, envelope.parse error', ?_, ?_⟩
  · exact {
      kind := rfl
      usage := rfl
      error := ⟨error, error', herror, herror', rewrittenError_rewritten hobject⟩
      event := by
        intro field hfield hwrapped
        rw [envelope.payload, Value.get_setField_of_ne hfield,
          envelope.event_fields field hfield hwrapped]
      response := by
        intro hkind field hfield
        rw [envelope.response_index, Value.get_setField_of_ne hfield,
          envelope.response_fields hkind] }
  · have hcode : error'.index "code" = error.index "code" := by
      unfold Value.index
      rw [show error'.get "code" = error.get "code" from Value.get_setField_of_ne (by decide)]
    refine retryableCapacityPayload_eq_some.mpr ⟨error', herror', ?_, ?_⟩
    · unfold IsCapacityError
      rwa [hcode]
    · simp only [rewrittenError_self hobject, error', envelope.payload_self]

end

/-- A bare capacity error with useless advice of its own and some on its event. -/
private def overloaded : TerminalEvent where
  kind := .error
  payload := json [("type", .string "error"), ("status", .number (.posInt 429)),
    ("error", json [("code", .string "slow_down"),
      ("headers", json [("Retry-After", .string "soon")])]),
    ("headers", json [("retry-after", .string "12")])]
  usage := none

/-- It is rewritten, and only once. -/
theorem retryableCapacityPayload_sound_overloaded :
    ∃ p terminal', overloaded.retryableCapacityPayload (fun _ => false) = some p ∧
      parseTerminalPayload p = .ok (some terminal') ∧
      Rewritten (fun _ => false) overloaded terminal' ∧
      terminal'.retryableCapacityPayload (fun _ => false) = some p := by
  have hparse : parseTerminalPayload overloaded.payload = .ok (some overloaded) := by decide
  have hrewritten : overloaded.retryableCapacityPayload (fun _ => false) = some _ :=
    retryableCapacityPayload_eq_some.mpr ⟨_, rfl, .inr (by decide), rfl⟩
  obtain ⟨terminal', hparse', hsame, hself⟩ := retryableCapacityPayload_sound hparse hrewritten
  exact ⟨_, terminal', hrewritten, hparse', hsame, hself⟩

end CodexApi
