import CodexApi.JsonText
import CodexApi.Lib.Panic
import CodexApi.Relay.Wire

/-!
# Accepting requests, with the panics

The functions that turn a request into a body for the upstream, as the source writes them: with
their `expect` calls. Each of them relies on something that was checked elsewhere. A capped
effort and the prices of the fallback are validated with the configuration, a fallback is only
admitted if there is one, a converted Chat request names the model that was looked up before, and
the effort that is written into a body was read from it. So a validated configuration never panics
here, and the functions agree with those without panics (`Checked.dispatch_eq`).
-/

namespace CodexApi

/-! ### Writing into a value -/

namespace Value

/-- `pointer_mut` on a path of field names, and an assignment there. -/
def setPointer (value : Value) (inner : Value) : List String → Option Value
  | [] => some inner
  | key :: path =>
    ((value.get key).bind (setPointer · inner path)).map (value.setField key ·)

/-- How `serde_json` names the type of a value. -/
def typeName : Value → String
  | null => "null"
  | bool _ => "boolean"
  | number _ => "number"
  | string _ => "string"
  | array _ => "array"
  | object _ => "object"

/-- `value[a][b] = inner`. A null becomes an object; anything else must be one. -/
def assign (value : Value) (inner : Value) : List String → Except Panic Value
  | [] => .ok inner
  | key :: path =>
    match value with
    | null => (assign null inner path).map fun inner => object [(key, inner)]
    | object fields =>
      (((Assoc.get key fields).getD null).assign inner path).map fun inner =>
        object (Assoc.insert key inner fields)
    | value => .error ⟨s!"cannot access key {debugQuote key} in JSON {value.typeName}"⟩

/-- An assignment to a field of an object. -/
theorem assign_field {value inner : Value} {key : String} (h : value.isObject = true) :
    value.assign inner [key] = .ok (value.setField key inner) := by
  cases value with
  | object fields => rfl
  | _ => cases h

/-- An assignment to a field of a field of an object. -/
theorem assign_inner {value child inner : Value} {key key' : String} (h : value.get key = some child)
    (hchild : child.isObject = true) :
    value.assign inner [key, key'] = .ok (value.setField key (child.setField key' inner)) := by
  cases value with
  | object fields =>
    rw [get_object] at h
    rw [assign, h, Option.getD_some, assign_field hchild]
    rfl
  | _ => cases h

/-- The field of a field can be written where it can be read. -/
theorem setPointer_inner {value child found : Value} (inner : Value) {key key' : String}
    (h : value.get key = some child) (hfound : child.get key' = some found) :
    value.setPointer inner [key, key'] =
      some (value.setField key (child.setField key' inner)) := by
  simp [setPointer, h, hfound]

end Value

theorem Object.setField_toValue (object : Object) (key : String) (inner : Value) :
    object.toValue.setField key inner = Object.toValue (object.insert key inner) := rfl

namespace Checked

/-! ### Candidates -/

/-- The closure in `effective_model` that caps an effort. -/
def cappedEffort (maxReasoningEffort : Option String) (requested : String) :
    Except Panic String :=
  match maxReasoningEffort with
  | none => .ok requested
  | some maximum =>
    match reasoningEffortRank requested with
    | none => .ok requested
    | some rank => do
      let cap ← expect (reasoningEffortRank maximum) "validated limit"
      return if cap < rank then maximum else requested

/-- `effective_model`. -/
def effectiveModel (config : Config) (model : String) (reasoningEffort : Option String) :
    Except Panic (Option EffectiveModel) :=
  match config.modelPrices.get model with
  | none => .ok none
  | some price => do
    let reasoningEffort ← reasoningEffort.mapM (cappedEffort price.maxReasoningEffort)
    return some {
      model
      reasoningEffort
      rates := {
        inputUsdPerMillion := price.inputUsdPerMillion
        cachedInputUsdPerMillion := price.cachedInputUsdPerMillion
        outputUsdPerMillion := price.outputUsdPerMillion } }

/-- `model_candidates`. -/
def modelCandidates (config : Config) (model : String) (reasoningEffort : Option String) :
    Except Panic (Option ModelCandidates) := do
  match ← effectiveModel config model reasoningEffort with
  | none => return none
  | some primary =>
    match config.fallbackModel with
    | none => return some ⟨primary, none⟩
    | some fallback =>
      let found ← effectiveModel config fallback reasoningEffort
      let found ← expect found "configured fallback model must have prices"
      return some ⟨primary, some found⟩

/-- A cap that is a known level has a rank. -/
theorem cappedEffort_eq {maxReasoningEffort : Option String}
    (h : ∀ maximum ∈ maxReasoningEffort, ∃ cap, reasoningEffortRank maximum = some cap)
    (requested : String) :
    cappedEffort maxReasoningEffort requested =
      .ok (CodexApi.cappedEffort maxReasoningEffort requested) := by
  unfold cappedEffort CodexApi.cappedEffort
  cases maxReasoningEffort with
  | none => rfl
  | some maximum =>
    obtain ⟨cap, hcap⟩ := h maximum rfl
    simp only [hcap]
    cases reasoningEffortRank requested <;> rfl

/-- Every cap of a validated configuration is a known level. -/
theorem effectiveModel_eq {config : Config} (hconfig : config.validate = .ok ()) (model : String)
    (reasoningEffort : Option String) :
    effectiveModel config model reasoningEffort =
      .ok (config.effectiveModel model reasoningEffort) := by
  unfold effectiveModel Config.effectiveModel
  cases hprice : config.modelPrices.get model with
  | none => rfl
  | some price =>
    cases reasoningEffort with
    | none => rfl
    | some requested =>
      have hcapped := cappedEffort_eq
        (fun _ hmax => config.validated_cap hconfig hprice hmax) requested
      simp only [Option.mapM_some, hcapped]
      rfl

/-- The fallback of a validated configuration has prices. -/
theorem modelCandidates_eq {config : Config} (hconfig : config.validate = .ok ()) (model : String)
    (reasoningEffort : Option String) :
    modelCandidates config model reasoningEffort =
      .ok (config.modelCandidates model reasoningEffort) := by
  unfold modelCandidates Config.modelCandidates
  rw [effectiveModel_eq hconfig, ok_bind]
  cases config.effectiveModel model reasoningEffort with
  | none => rfl
  | some primary =>
    cases hfallback : config.fallbackModel with
    | none => rfl
    | some fallback =>
      obtain ⟨price, hprice⟩ := config.validated_fallback hconfig hfallback
      have hfound : (config.effectiveModel fallback reasoningEffort).isSome = true := by
        rw [Config.effectiveModel, hprice]
        rfl
      obtain ⟨found, hfound⟩ := Option.isSome_iff_exists.mp hfound
      simp only [effectiveModel_eq hconfig, ok_bind, Option.map_some, Option.bind_some, hfound,
        expect]
      rfl

/-! ### Acceptance -/

/-- `responses` up to the session key. -/
def responsesRequest (config : Config) (parsed : Value) : Panicking ApiError AcceptedRequest := do
  let candidates ← evaluate
    (modelCandidates config (requestedModel parsed) (reasoningEffortOf parsed))
  let candidates ← call (okOr candidates (.invalid "model" "model is not configured"))
  let body ← call (normalizeResponsesRequest parsed)
  return { candidates, body }

/-- `chat_completions` up to admission. -/
def chatRequest (config : Config) (parsed : Value) :
    Panicking ApiError (AcceptedRequest × ConvertedRequest) := do
  let tentative ← evaluate (modelCandidates config (requestedModel parsed)
    (requestedString parsed "reasoning_effort"))
  call (failIf (tentative.isNone = true) (.invalid "model" "model is not configured"))
  let converted ← call ((convertRequest parsed).mapError ChatError.toApiError)
  let candidates ← evaluate (modelCandidates config converted.model converted.reasoningEffort)
  let candidates ← evaluate (expect candidates "model was admitted above")
  return ({ candidates, body := converted.upstreamRequest }, converted)

/-- `prepare_request`. -/
def prepareRequest (config : Config) (value : Value) : Panicking ValidationError AcceptedRequest := do
  let object ← call (okOr value.toObject
    ⟨"type", "WebSocket messages must be response.create objects"⟩)
  call (failIf ((object.get "type").bind Value.asStr ≠ some "response.create")
    ⟨"type", "Only response.create messages are supported"⟩)
  let model ← call (okOr ((object.get "model").bind Value.asStr)
    ⟨"model", "response.create requires a model"⟩)
  let reasoningEffort := ((object.get "reasoning").bind (·.get "effort")).bind Value.asStr
  let candidates ← evaluate (modelCandidates config model reasoningEffort)
  let candidates ← call (okOr candidates
    ⟨"model", "The requested model is not configured"⟩)
  call (failIf ((object.get "stream").any (·.asBool ≠ some true) = true)
    ⟨"stream", "stream must be true in WebSocket mode"⟩)
  call (failIf (object.contains "background" = true)
    ⟨"background", "background is not used in WebSocket mode"⟩)
  call (failIf (object.contains "max_output_tokens" = true)
    ⟨"max_output_tokens", "max_output_tokens is not supported by the ChatGPT Codex upstream"⟩)
  call (failIf ((object.get "store").any (fun store => !store.isNull && store.asBool ≠ some false)
    = true) ⟨"store", "store must be false in WebSocket mode"⟩)
  return {
    candidates
    body := ((expandTextInput object).insert "store" (.bool false)).insert "stream" (.bool true) }

theorem responsesRequest_returns {config : Config} (hconfig : config.validate = .ok ())
    (parsed : Value) :
    Returns (responsesRequest config parsed) (CodexApi.responsesRequest config parsed) := by
  refine .bind_ok (.evaluate (modelCandidates_eq hconfig _ _)) ?_
  refine .bind (.call _) fun candidates _ => ?_
  exact .bind (.call _) fun body _ => .pure _

theorem prepareRequest_returns {config : Config} (hconfig : config.validate = .ok ())
    (value : Value) :
    Returns (prepareRequest config value) (CodexApi.prepareRequest config value) := by
  refine .bind (.call _) fun object _ => .bind (.call _) fun _ _ => ?_
  refine .bind (.call _) fun model _ => .bind_ok (.evaluate (modelCandidates_eq hconfig _ _)) ?_
  refine .bind (.call _) fun candidates _ => .bind (.call _) fun _ _ => ?_
  refine .bind (.call _) fun _ _ => .bind (.call _) fun _ _ => ?_
  exact .bind (.call _) fun _ _ => .pure _

/-- The second look-up of a Chat request finds what the first one has found. -/
theorem candidates_of_convert {config : Config} {parsed : Value} {converted : ConvertedRequest}
    {effort : Option String} (hparsed : parsed.Keyed)
    (hfound : (config.modelCandidates (requestedModel parsed) effort).isSome = true)
    (hconvert : convertRequest parsed = .ok converted) :
    (config.modelCandidates converted.model converted.reasoningEffort).isSome = true := by
  rcases hparsed.cases with ⟨request, rfl⟩ | hscalar
  · obtain ⟨hmodel, -⟩ := convertRequest_eq_ok hconvert
    have hsame : requestedModel request.toValue = converted.model := by
      rw [requestedModel, requestedString, Object.get_toValue, hmodel]
      rfl
    rw [hsame] at hfound
    simpa [Config.modelCandidates, Config.effectiveModel] using hfound
  · have hnone : parsed.toObject = none := by
      simpa [Value.toObject, Value.isObject] using hscalar
    simp [convertRequest, intoRequestObject, hnone] at hconvert

theorem chatRequest_returns {config : Config} (hconfig : config.validate = .ok ()) {parsed : Value}
    (hparsed : parsed.Keyed) :
    Returns (chatRequest config parsed) (CodexApi.chatRequest config parsed) := by
  refine .bind_ok (.evaluate (modelCandidates_eq hconfig _ _)) ?_
  refine .bind (.call _) fun _ hfound => .bind (.call _) fun converted hconverted => ?_
  have hconvert : convertRequest parsed = .ok converted := by
    cases hresult : convertRequest parsed with
    | error error =>
      rw [hresult] at hconverted
      cases hconverted
    | ok result =>
      rw [hresult] at hconverted
      cases hconverted
      rfl
  have hsome := candidates_of_convert hparsed
    (by simpa [Option.isSome_iff_ne_none] using failIf_eq_ok.mp hfound) hconvert
  obtain ⟨candidates, hcandidates⟩ := Option.isSome_iff_exists.mp hsome
  refine .bind_ok (.evaluate (modelCandidates_eq hconfig _ _)) ?_
  rw [hcandidates]
  exact .bind_ok (.evaluate rfl) (.pure _)

/-- The request that a path accepts. -/
def acceptRequest (config : Config) (path : ApiPath) (request : Value) :
    Except Panic (Option AcceptedRequest) :=
  match path with
  | .responses => (responsesRequest config request).run.map Except.toOption
  | .chatCompletions =>
    (chatRequest config request).run.map fun result => result.toOption.map Prod.fst
  | .webSocket => (prepareRequest config request).run.map Except.toOption

theorem acceptRequest_eq {config : Config} (hconfig : config.validate = .ok ()) (path : ApiPath)
    {request : Value} (hrequest : request.Keyed) :
    acceptRequest config path request = .ok (CodexApi.acceptRequest config path request) := by
  cases path with
  | responses => rw [acceptRequest, responsesRequest_returns hconfig request]; rfl
  | chatCompletions => rw [acceptRequest, chatRequest_returns hconfig hrequest]; rfl
  | webSocket => rw [acceptRequest, prepareRequest_returns hconfig request]; rfl

/-! ### Admission -/

/-- `begin_request` between its two statements. -/
def planInsertion (now : OffsetDateTime) (context : RequestContext) (quota : QuotaLimits)
    (candidates : ModelCandidates) (spent : Decimal) : Panicking StoreError Insertion := do
  let requestedAtMs ← call (timestampMs now)
  let softExceeded ← call (spendMeetsLimit spent quota.weeklyLimitUsd)
  let hardExceeded ← call (spendMeetsLimit spent quota.hardLimitUsd)
  let rejected := hardExceeded || (softExceeded && candidates.fallback.isNone)
  let useFallback := softExceeded && !rejected
  let effectiveModel ← evaluate (if useFallback then
      expect candidates.fallback "fallback admission requires a fallback candidate"
    else .ok candidates.primary)
  return {
    row := admissionRow requestedAtMs context rejected effectiveModel
    admitted := if rejected then none else some effectiveModel }

/-- `begin_request`. -/
def beginRequest (now : OffsetDateTime) (ledger : Ledger) (context : RequestContext)
    (quota : QuotaLimits) (candidates : ModelCandidates) :
    Panicking StoreError (Admission × Ledger) := do
  let spent ← call (currentWeekSpendNanoUsd ledger context.apiKeyId now)
  let insertion ← planInsertion now context quota candidates spent
  let inserted ← call (insertRow ledger insertion.row)
  return (insertion.admission ledger.length, inserted)

/-- The fallback is only used if there is one. -/
theorem planInsertion_returns (now : OffsetDateTime) (context : RequestContext)
    (quota : QuotaLimits) (candidates : ModelCandidates) (spent : Decimal) :
    Returns (planInsertion now context quota candidates spent)
      (CodexApi.planInsertion now context quota candidates spent) := by
  refine .bind (.call _) fun requestedAtMs _ => .bind (.call _) fun softExceeded _ => ?_
  refine .bind (.call _) fun hardExceeded _ => ?_
  cases softExceeded with
  | false => exact .bind_ok (.evaluate rfl) (.pure _)
  | true =>
    cases hfallback : candidates.fallback with
    | none => cases hardExceeded <;> exact .bind_ok (.evaluate rfl) (.pure _)
    | some fallback => cases hardExceeded <;> exact .bind_ok (.evaluate rfl) (.pure _)

theorem beginRequest_returns (now : OffsetDateTime) (ledger : Ledger) (context : RequestContext)
    (quota : QuotaLimits) (candidates : ModelCandidates) :
    Returns (beginRequest now ledger context quota candidates)
      (CodexApi.beginRequest now ledger context quota candidates) := by
  refine .bind (.call _) fun spent _ => ?_
  refine .bind (planInsertion_returns now context quota candidates spent) fun insertion _ => ?_
  exact .bind (.call _) fun inserted _ => .pure _

/-! ### The body for the upstream -/

/-- `apply_effective_request`. -/
def applyEffectiveRequest (body : Value) (effectiveModel : EffectiveModel) : Except Panic Value := do
  let _ ← expect body.asObject "validated upstream request must be an object"
  let body := body.setField "model" (.string effectiveModel.model)
  match effectiveModel.reasoningEffort with
  | none => return body
  | some reasoningEffort =>
    expect (body.setPointer (.string reasoningEffort) ["reasoning", "effort"])
      "effective reasoning effort came from this request"

/-- The effort can be written into a body that has one. -/
theorem applyEffectiveRequest_eq {body : Object} {effectiveModel : EffectiveModel}
    (h : effectiveModel.reasoningEffort.isSome = true → (bodyEffort body).isSome = true) :
    applyEffectiveRequest body.toValue effectiveModel =
      .ok (CodexApi.applyEffectiveRequest body effectiveModel).toValue := by
  simp only [applyEffectiveRequest, CodexApi.applyEffectiveRequest, Object.setField_toValue]
  cases heffort : effectiveModel.reasoningEffort with
  | none => rfl
  | some reasoningEffort =>
    obtain ⟨effort, hread⟩ := Option.isSome_iff_exists.mp (h (by rw [heffort]; rfl))
    obtain ⟨reasoning, hreasoning, heffort⟩ := Option.bind_eq_some_iff.mp hread
    have hbody : (body.insert "model" (.string effectiveModel.model)).get "reasoning" =
        some reasoning := by
      rw [OrdMap.get_insert_of_ne (by decide), hreasoning]
    have hwrite := Value.setPointer_inner (.string reasoningEffort)
      ((Object.get_toValue _ _).trans hbody) heffort
    simp only [hwrite, hbody, expect]
    rfl

/-- A request up to the body for the upstream; nothing is sent for a refused one. -/
def dispatch (config : Config) (path : ApiPath) (now : OffsetDateTime) (ledger : Ledger)
    (context : RequestContext) (quota : QuotaLimits) (request : Value) :
    Except Panic (Option Value) := do
  match ← acceptRequest config path request with
  | none => return none
  | some accepted =>
    match ← (beginRequest now ledger context quota accepted.candidates).run with
    | .ok (.admitted _ effectiveModel, _) =>
      return some (← applyEffectiveRequest accepted.body.toValue effectiveModel)
    | .ok (.weeklyQuotaExceeded, _) | .error _ => return none

end Checked

/-- The body for the upstream, if a request is accepted and admitted. -/
def dispatchedBody (config : Config) (path : ApiPath) (now : OffsetDateTime) (ledger : Ledger)
    (context : RequestContext) (quota : QuotaLimits) (request : Value) : Option Object :=
  (acceptRequest config path request).bind fun accepted =>
    match beginRequest now ledger context quota accepted.candidates with
    | .ok (.admitted _ effectiveModel, _) =>
      some (applyEffectiveRequest accepted.body effectiveModel)
    | .ok (.weeklyQuotaExceeded, _) | .error _ => none

/-- An admitted model is a candidate. -/
theorem candidate_of_beginRequest {now : OffsetDateTime} {ledger ledger' : Ledger}
    {context : RequestContext} {quota : QuotaLimits} {candidates : ModelCandidates}
    {id : RequestId} {effectiveModel : EffectiveModel}
    (h : beginRequest now ledger context quota candidates =
      .ok (.admitted id effectiveModel, ledger')) :
    effectiveModel = candidates.primary ∨ candidates.fallback = some effectiveModel := by
  simp only [beginRequest, bind_eq_ok] at h
  obtain ⟨spent, -, insertion, hplan, inserted, -, h⟩ := h
  have hadmission : insertion.admission ledger.length = .admitted id effectiveModel := by
    have hpair := Except.ok.inj h
    exact congrArg Prod.fst hpair
  have hadmitted : insertion.admitted = some effectiveModel := by
    unfold Insertion.admission at hadmission
    split at hadmission
    · next model hmodel =>
      cases hadmission
      exact hmodel
    · cases hadmission
  exact (candidate_of_planInsertion hplan hadmitted).1

/-- A request that is no object is not accepted. -/
theorem acceptRequest_of_scalar {config : Config} {path : ApiPath} {request : Value}
    (h : request.isObject = false) : acceptRequest config path request = none := by
  have hnone : request.toObject = none := by
    simpa [Value.toObject, Value.isObject] using h
  cases path with
  | responses =>
    cases hcandidates :
        config.modelCandidates (requestedModel request) (reasoningEffortOf request) <;>
      simp [acceptRequest, responsesRequest, normalizeResponsesRequest, hnone, hcandidates, okOr,
        Except.toOption]
  | chatCompletions =>
    cases hcandidates : (config.modelCandidates (requestedModel request)
        (requestedString request "reasoning_effort")).isNone <;>
      simp [acceptRequest, chatRequest, convertRequest, intoRequestObject, hnone, hcandidates,
        failIf, Except.mapError, Except.toOption]
  | webSocket => simp [acceptRequest, prepareRequest, hnone, okOr, Except.toOption]

/-- **From the request to its body nothing panics**, under a validated configuration. -/
theorem Checked.dispatch_eq {config : Config} (hconfig : config.validate = .ok ()) (path : ApiPath)
    (now : OffsetDateTime) (ledger : Ledger) (context : RequestContext) (quota : QuotaLimits)
    {request : Value} (hrequest : request.Keyed) :
    Checked.dispatch config path now ledger context quota request =
      .ok ((dispatchedBody config path now ledger context quota request).map Object.toValue) := by
  unfold Checked.dispatch dispatchedBody
  rw [Checked.acceptRequest_eq hconfig path hrequest, ok_bind]
  cases haccept : CodexApi.acceptRequest config path request with
  | none => rfl
  | some accepted =>
    have hbegin := Checked.beginRequest_returns now ledger context quota accepted.candidates
    simp only [Option.bind_some]
    rw [hbegin, ok_bind]
    cases hadmit : CodexApi.beginRequest now ledger context quota accepted.candidates with
    | error error => rfl
    | ok admission =>
      obtain ⟨admission, ledger'⟩ := admission
      cases admission with
      | weeklyQuotaExceeded => rfl
      | admitted id effectiveModel =>
        have hobject : ∃ object : Object, request = object.toValue := by
          rcases hrequest.cases with hobject | hscalar
          · exact hobject
          · rw [acceptRequest_of_scalar hscalar] at haccept
            cases haccept
        obtain ⟨object, rfl⟩ := hobject
        obtain ⟨effort, haccepts⟩ := accepts_of_acceptRequest haccept
        obtain ⟨model, hcandidates⟩ := haccepts.candidates
        obtain ⟨price, -, heffort, -⟩ :=
          effectiveModel_of_candidates hcandidates (candidate_of_beginRequest hadmit)
        have hbody : effectiveModel.reasoningEffort.isSome = true →
            (bodyEffort accepted.body).isSome = true := by
          intro hsome
          rw [heffort, Option.isSome_map, ← haccepts.readsEffort] at hsome
          cases hread : bodyEffort accepted.body with
          | none =>
            rw [hread] at hsome
            cases hsome
          | some value => rfl
        simp only [Checked.applyEffectiveRequest_eq hbody]
        rfl

end CodexApi
