import CodexApi.Panics.Streams

/-!
# A turn of a session, with the panics

`Session::prepare` and what `respond` does after it, as the source writes them. The body of a turn
comes from a request that was normalized, so it is an object, and it stays one: the edits of
`prepare` and `responses_lite_prewarm` only set and remove fields. A socket is there when something
is sent, since `prepare` connects one unless the session has it. The new items of a continued turn
begin where the snapshot ends, which is a prefix of the input.
-/

namespace CodexApi

namespace Checked

/-- `items[start..]`. -/
def sliceFrom {α : Type} (items : List α) (start : Nat) : Except Panic (List α) :=
  if start ≤ items.length then .ok (items.drop start)
  else .error ⟨s!"range start index {start} out of range for slice of length {items.length}"⟩

/-- `self.upstream.as_mut().expect`. -/
def expectSocket (session : Session) (message : String) : Except Panic Unit :=
  expect (if session.upstream then some () else none) message

theorem expectSocket_eq {session : Session} (h : session.upstream = true) (message : String) :
    expectSocket session message = .ok () := by
  simp [expectSocket, h]

/-! ### Prewarms -/

/-- `responses_lite_prewarm`. -/
def responsesLitePrewarm (request model : Value) (requestKey : String) :
    Panicking UpstreamWebSocketError (Value × Value) := do
  let object ← call (okOr request.toObject .request)
  let tools := requestTools object
  let object := object.erase "tools"
  let disableTools := tools.isNone && !hasInlineTools (object.get "input")
  let tools := tools.getD routeMarkerTools
  let clientInstructions := (object.get "instructions").bind Value.asStr
  let object := object.erase "instructions"
  let baseInstructions ← call (okOr ((model.get "base_instructions").bind Value.asStr) .request)
  let object := normalizeResponsesLiteFields object requestKey disableTools
  let prewarm ← evaluate (expect (Object.toValue object).toObject
    "cloned Responses request remains an object")
  let prewarm := prewarm.insert "input"
    (.array (prewarmInput tools baseInstructions clientInstructions))
  let prewarm := prewarm.insert "generate" (.bool false)
  let prewarm := prewarm.insert "tool_choice" (.string "auto")
  return (Object.toValue object, Object.toValue prewarm)

theorem responsesLitePrewarm_returns (object : Object) (model : Value) (requestKey : String) :
    Returns (responsesLitePrewarm object.toValue model requestKey)
      ((CodexApi.responsesLitePrewarm object model requestKey).map fun (body, prewarm) =>
        (body.toValue, prewarm.toValue)) := by
  unfold responsesLitePrewarm CodexApi.responsesLitePrewarm
  refine .bind_ok (by rw [toObject_toValue]; exact .call _) ?_
  cases (model.get "base_instructions").bind Value.asStr with
  | none => rfl
  | some baseInstructions =>
    refine .bind_ok (.call _) (.bind_ok (.evaluate ?_) (.pure _))
    rw [toObject_toValue]
    rfl

/-- `prepare_responses_lite` for a model that supports it. -/
def prepareResponsesLite (request model : Value) (requestKey : String)
    (answered : Except UpstreamWebSocketError String) :
    Panicking UpstreamWebSocketError Value := do
  let (request, _) ← responsesLitePrewarm request model requestKey
  let previousResponseId ← call answered
  evaluate (request.assign (.string previousResponseId) ["previous_response_id"])

/-- A request that has been prepared is an object. -/
theorem prepareResponsesLite_returns (object : Object) (model : Value) (requestKey : String)
    (answered : Except UpstreamWebSocketError String) :
    Returns (prepareResponsesLite object.toValue model requestKey answered) (do
      let (body, _) ← CodexApi.responsesLitePrewarm object model requestKey
      let responseId ← answered
      return Object.toValue (body.insert "previous_response_id" (.string responseId))) := by
  have hprewarm := responsesLitePrewarm_returns object model requestKey
  unfold prepareResponsesLite
  cases hresult : CodexApi.responsesLitePrewarm object model requestKey with
  | error error =>
    rw [hresult] at hprewarm
    exact .bind_error hprewarm
  | ok prepared =>
    rw [hresult] at hprewarm
    refine .bind_ok hprewarm (.bind (.call _) fun responseId _ => ?_)
    exact .evaluate (Value.assign_field rfl)

/-! ### `prepare` -/

/-- `prepare` up to its first await. -/
def plan (session : Session) (body model : Value) (headers : HeaderMap) :
    Panicking ApiError Plan := do
  -- A value that is no object has no fields.
  let fields := body.toObject.getD .empty
  let previousId ← call (previousResponseId fields)
  let input ← call (inputItems fields)
  let input ← call (session.fullInput previousId input)
  let object ← evaluate (expect body.toObject "normalized object")
  let body := Object.toValue (object.erase "previous_response_id")
  let object ← evaluate (expect body.toObject "normalized object")
  let (headers, object) ← call (routeMetadata headers object)
  let prepared ← evaluate
    (responsesLitePrewarm (Object.toValue object) model session.requestKey).run
  let (body, prewarm) ← call (prepared.mapError fun _ =>
    .gateway "Failed to prepare the upstream Responses session")
  let properties ← evaluate (expect body.toObject "normalized object")
  let properties := (properties.erase "input").erase "client_metadata"
  return {
    input
    headers
    body := body.toObject.getD .empty
    prewarm := prewarm.toObject.getD .empty
    parameters := .array [Object.toValue properties, prewarm.index "input"] }

/-- The body of a turn is an object at every step. -/
theorem plan_returns (session : Session) (body : Object) (model : Value) (headers : HeaderMap) :
    Returns (plan session body.toValue model headers) (session.plan ⟨body, model, headers⟩) := by
  unfold plan Session.plan
  simp only [toObject_toValue, Option.getD_some]
  refine .bind (.call _) fun previousId _ => .bind (.call _) fun input _ => ?_
  refine .bind (.call _) fun input _ => .bind_ok (.evaluate rfl) (.bind_ok (.evaluate rfl) ?_)
  refine .bind (.call _) fun routed _ => ?_
  obtain ⟨upstreamHeaders, object⟩ := routed
  refine .bind_ok (.evaluate (responsesLitePrewarm_returns object model session.requestKey)) ?_
  cases hprewarm : CodexApi.responsesLitePrewarm object model session.requestKey with
  | error error => rfl
  | ok prepared =>
    obtain ⟨body, prewarm⟩ := prepared
    refine .bind_ok (.call _) (.bind_ok (.evaluate (a := body) ?_) ?_)
    · simp only [toObject_toValue]
      rfl
    · simp only [toObject_toValue, Option.getD_some]
      rfl

/-- The last send of `prepare`. -/
def sendGeneration (session : Session) (opened : Bool) (prewarm : Option Object)
    (warmed : Option String) (plan : Plan) (previousId : String)
    (input : Except Panic (List Value)) (sent : Option Bool) : Except Panic Prepared := do
  let body ← (Object.toValue plan.body).assign (.string previousId) ["previous_response_id"]
  let input ← input
  let body ← body.assign (.array input) ["input"]
  expectSocket session "connected socket"
  return {
    session
    opened
    prewarm
    warmed
    generation := body.toObject
    result := match sent with
      | none => none
      | some true => some (.ok (plan.input, plan.parameters))
      | some false => some (.error (.gateway "Failed to send the upstream WebSocket request")) }

/-- `prepare` once a socket is there. -/
def sendTurn (session : Session) (opened : Bool) (plan : Plan) (replies : PrepareReplies) :
    Except Panic Prepared :=
  match session.incremental plan with
  | some snapshot =>
    sendGeneration session opened none none plan snapshot.responseId
      (sliceFrom plan.input snapshot.input.length) replies.generationSent
  | none => do
    let prewarm ← expect (Object.toValue plan.prewarm).toObject "prewarm object"
    let prewarm := prewarm.erase "previous_response_id"
    let session := { session with upstreamResponseId := none }
    expectSocket session "connected socket"
    match CodexApi.sendResponsesPrewarm replies.prewarmSent replies.prewarmEvents with
    | none => return ⟨session, opened, some prewarm, none, none, none⟩
    | some (.error _) =>
      return ⟨session, opened, some prewarm, none, none,
        some (.error (.gateway "Failed to prepare the upstream Responses session"))⟩
    | some (.ok responseId) =>
      sendGeneration session opened (some prewarm) (some responseId) plan responseId
        (.ok plan.input) replies.generationSent

/-- `prepare`. -/
def prepare (session : Session) (body model : Value) (headers : HeaderMap)
    (replies : PrepareReplies) : Except Panic Prepared := do
  match ← (plan session body model headers).run with
  | .error error => return ⟨session, false, none, none, none, some (.error error)⟩
  | .ok plan =>
    if session.connectionReused plan then sendTurn session false plan replies
    else
      match replies.connect with
      | none => return ⟨session, false, none, none, none, none⟩
      | some false =>
        return ⟨session, false, none, none, none,
          some (.error (.gateway "Failed to connect to the upstream WebSocket"))⟩
      | some true =>
        sendTurn { session with
          upstream := true
          handshakeHeaders := plan.headers
          upstreamResponseId := none } true plan replies

/-- With a socket and an object for a body, the generating request can be sent. -/
theorem sendGeneration_eq {session : Session} (h : session.upstream = true) (opened : Bool)
    (prewarm : Option Object) (warmed : Option String) (plan : Plan) (previousId : String)
    (input : List Value) (sent : Option Bool) :
    sendGeneration session opened prewarm warmed plan previousId (.ok input) sent =
      .ok (session.sendGeneration opened prewarm warmed plan previousId input sent) := by
  unfold sendGeneration Session.sendGeneration
  rw [Value.assign_field rfl, ok_bind, ok_bind, Value.assign_field rfl, ok_bind,
    expectSocket_eq h, ok_bind, Object.setField_toValue, Object.setField_toValue, toObject_toValue]
  rfl

/-- The snapshot a turn continues is a prefix of its input. -/
theorem sliceFrom_incremental {session : Session} {plan : Plan} {snapshot : Snapshot}
    (h : session.incremental plan = some snapshot) :
    sliceFrom plan.input snapshot.input.length = .ok (plan.input.drop snapshot.input.length) := by
  obtain ⟨-, hsame⟩ := Option.filter_eq_some_iff.mp h
  have hprefix : snapshot.input <+: plan.input := by
    have := of_decide_eq_true hsame
    exact List.isPrefixOf_iff_prefix.mp this.2.2
  rw [sliceFrom, if_pos hprefix.length_le]

theorem sendTurn_eq {session : Session} (h : session.upstream = true) (opened : Bool) (plan : Plan)
    (replies : PrepareReplies) :
    sendTurn session opened plan replies = .ok (session.sendTurn opened plan replies) := by
  unfold sendTurn Session.sendTurn
  cases hincremental : session.incremental plan with
  | some snapshot =>
    simp only
    rw [sliceFrom_incremental hincremental, sendGeneration_eq h]
  | none =>
    have hfresh : ({ session with upstreamResponseId := none } : Session).upstream = true := h
    simp only [toObject_toValue, expect, ok_bind, expectSocket_eq hfresh]
    cases CodexApi.sendResponsesPrewarm replies.prewarmSent replies.prewarmEvents with
    | none => rfl
    | some result =>
      cases result with
      | error error => rfl
      | ok responseId => exact sendGeneration_eq hfresh opened _ _ plan responseId plan.input _

/-- **Preparing a turn does not panic**, whatever the session and whatever the upstream answers. -/
theorem prepare_eq (session : Session) (body : Object) (model : Value) (headers : HeaderMap)
    (replies : PrepareReplies) :
    prepare session body.toValue model headers replies =
      .ok (session.prepare ⟨body, model, headers⟩ replies) := by
  unfold prepare Session.prepare
  rw [plan_returns session body model headers, ok_bind]
  cases session.plan ⟨body, model, headers⟩ with
  | error error => rfl
  | ok plan =>
    simp only [Session.carryOut]
    by_cases hreused : session.connectionReused plan = true
    · have hupstream : session.upstream = true := by
        rw [Session.connectionReused, Bool.and_eq_true] at hreused
        exact hreused.1
      simp only [hreused, if_true]
      exact sendTurn_eq hupstream false plan replies
    · simp only [hreused]
      cases replies.connect with
      | none => rfl
      | some connected =>
        cases connected with
        | false => rfl
        | true => exact sendTurn_eq rfl true plan replies

/-! ### `respond` -/

/-- `respond` up to the terminal event of its stream. -/
def respond (isHttpDate : String → Bool) (session : Session) (body model : Value)
    (headers : HeaderMap) (replies : PrepareReplies) (events : List UpstreamEvent) :
    Except Panic (Option (TerminalEvent × Option Value)) := do
  let prepared ← prepare session body model headers replies
  match prepared.result with
  | some (.ok _) =>
    expectSocket prepared.session "prepared connection"
    forwardWebSocketStream isHttpDate [] events
  | none | some (.error _) => return none

end Checked

/-- A prepared turn has a socket. -/
theorem Session.upstream_of_prepare {session : Session} {turn : Turn} {replies : PrepareReplies}
    {prepared : List Value × Value}
    (h : (session.prepare turn replies).result = some (.ok prepared)) :
    (session.prepare turn replies).session.upstream = true := by
  have hsend : ∀ (session : Session) (opened : Bool) (plan : Plan),
      session.upstream = true → (session.sendTurn opened plan replies).session.upstream = true := by
    intro session opened plan hupstream
    unfold Session.sendTurn
    split
    · exact hupstream
    · simp only
      split <;> exact hupstream
  unfold Session.prepare at h ⊢
  split at h
  · cases h
  · next plan hplan =>
    unfold Session.carryOut at h ⊢
    split at h
    · next hreused =>
      rw [if_pos hreused]
      rw [Session.connectionReused, Bool.and_eq_true] at hreused
      exact hsend session false plan hreused.1
    · next hreused =>
      rw [if_neg hreused]
      split at h
      · cases h
      · cases h
      · exact hsend _ true plan rfl

/-- **A turn does not panic**, from its body to its terminal event. -/
theorem Checked.respond_eq (isHttpDate : String → Bool) (session : Session) (body : Object)
    (model : Value) (headers : HeaderMap) (replies : PrepareReplies)
    (events : List UpstreamEvent) :
    ∃ ending, Checked.respond isHttpDate session body.toValue model headers replies events =
      .ok ending := by
  unfold Checked.respond
  rw [Checked.prepare_eq, ok_bind]
  cases hresult : (session.prepare ⟨body, model, headers⟩ replies).result with
  | none => exact ⟨none, rfl⟩
  | some result =>
    cases result with
    | error error => exact ⟨none, rfl⟩
    | ok prepared =>
      rw [Checked.expectSocket_eq (Session.upstream_of_prepare hresult),
        Checked.forwardWebSocketStream_eq]
      exact ⟨_, rfl⟩

end CodexApi
