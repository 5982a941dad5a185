import CodexApi.Relay.Requests
import CodexApi.Session.Continuation

/-!
# From the request to the upstream

`Dispatch` relates an admitted request to its ledger row and to the request that generates at the
upstream, on each of the three paths. The model of that request is always the model of the row
(`Dispatch.model`), and its rates are the configured ones (`Dispatch.rates`). Its reasoning effort
is that of the row unless the request has no `reasoning` at all: the normalization for Responses
Lite then adds the effort `medium`, after the cap was applied (`Dispatch.effort`). That default can
exceed the cap (`withinCap_iff`) and is missing in the row (`ledgerAgrees_iff`).
-/

namespace CodexApi

/-! ### What is sent -/

/-- The requests that generate which a path can send for a body: on the two paths over the upstream
WebSocket after a prewarm, whatever the upstream answers and whatever session it is. -/
inductive Generates : ApiPath → Object → Object → Prop
  | responses {body frame : Object} {model : Value} {headers : HeaderMap} {session : Session}
      {replies : PrepareReplies}
      (lite : (model.get "use_responses_lite").bind Value.asBool = some true)
      (sent : (session.prepare ⟨body, model, headers⟩ replies).generation = some frame) :
      Generates .responses body frame
  | chatCompletions {body : Object} : Generates .chatCompletions body body
  | webSocket {body payload prewarm : Object} {model : Value} {requestKey responseId : String}
      (lite : (model.get "use_responses_lite").bind Value.asBool = some true)
      (prepared : responsesLitePrewarm body model requestKey = .ok (payload, prewarm)) :
      Generates .webSocket body (payload.insert "previous_response_id" (.string responseId))

/-- An admitted request, its ledger row, and the request that generates for it. The spend that
admission has read is arbitrary. A request that is not an object is never accepted. -/
structure Dispatch (config : Config) (path : ApiPath) (request : Object) (row : Row)
    (effectiveModel : EffectiveModel) (frame : Object) : Prop where
  dispatched : ∃ accepted now context quota spent insertion,
    acceptRequest config path request.toValue = some accepted ∧
      planInsertion now context quota accepted.candidates spent = .ok insertion ∧
      insertion.row = row ∧ insertion.admitted = some effectiveModel ∧
      Generates path (applyEffectiveRequest accepted.body effectiveModel) frame

/-- The effort in a body. -/
def bodyEffort (body : Object) : Option Value := (body.get "reasoning").bind (·.get "effort")

/-- Responses Lite adds an effort to the requests without `reasoning` that it handles. -/
def AddsEffort (path : ApiPath) (request : Object) : Prop :=
  path ≠ .chatCompletions ∧ request.get "reasoning" = none

instance (path : ApiPath) (request : Object) : Decidable (AddsEffort path request) :=
  inferInstanceAs (Decidable (_ ∧ _))

/-! ### Acceptance -/

theorem get_expandTextInput {object : Object} {field : String} (h : field ≠ "input") :
    (expandTextInput object).get field = object.get field := by
  unfold expandTextInput
  split
  · exact OrdMap.get_insert_of_ne h
  · rfl

/-- What a path has found in a request it accepts: the model and the effort its candidates are
for, and a body whose effort is that of the request. -/
structure Accepts (config : Config) (path : ApiPath) (request : Object)
    (accepted : AcceptedRequest) (effort : Option String) : Prop where
  candidates : ∃ model, config.modelCandidates model effort = some accepted.candidates
  readsEffort : (bodyEffort accepted.body).bind Value.asStr = effort
  sameEffort : path ≠ .chatCompletions → bodyEffort accepted.body =
    effortValue path request.toValue
  sameReasoning : path ≠ .chatCompletions →
    accepted.body.get "reasoning" = request.get "reasoning"
  chatReasoning : path = .chatCompletions → bodyEffort accepted.body = effort.map .string

theorem pointer_effort (request : Object) :
    request.toValue.pointer ["reasoning", "effort"] =
      (request.get "reasoning").bind (·.get "effort") := by
  simp only [Value.pointer, Object.get_toValue]
  congr 1
  funext value
  cases value.get "effort" <;> rfl

theorem accepts_responses {config : Config} {request : Object} {accepted : AcceptedRequest}
    (h : responsesRequest config request.toValue = .ok accepted) :
    ∃ effort, Accepts config .responses request accepted effort := by
  simp only [responsesRequest, bind_eq_ok, okOr_eq_ok] at h
  obtain ⟨candidates, hcandidates, body, hbody, h⟩ := h
  cases h
  simp only [normalizeResponsesRequest, toObject_toValue, bind_eq_ok, okOr_eq_ok] at hbody
  obtain ⟨object, hobject, -, -, -, -, -, -, -, -, hbody⟩ := hbody
  cases hobject
  cases hbody
  have hreasoning : ((expandTextInput request).insert "store" (.bool false)).get "reasoning" =
      request.get "reasoning" := by
    rw [OrdMap.get_insert_of_ne (by decide), get_expandTextInput (by decide)]
  refine ⟨reasoningEffortOf request.toValue, ⟨⟨_, hcandidates⟩, ?_, ?_, fun _ => hreasoning, ?_⟩⟩
  · rw [bodyEffort, hreasoning, reasoningEffortOf, pointer_effort]
  · intro _
    rw [bodyEffort, hreasoning, effortValue, pointer_effort]
  · intro hpath
    cases hpath

theorem accepts_webSocket {config : Config} {request : Object} {accepted : AcceptedRequest}
    (h : prepareRequest config request.toValue = .ok accepted) :
    ∃ effort, Accepts config .webSocket request accepted effort := by
  simp only [prepareRequest, toObject_toValue, bind_eq_ok, okOr_eq_ok] at h
  obtain ⟨object, hobject, -, -, model, hmodel, candidates, hcandidates, -, -, -, -, -, -, -, -,
    h⟩ := h
  cases hobject
  cases h
  have hreasoning : (((expandTextInput request).insert "store" (.bool false)).insert "stream"
      (.bool true)).get "reasoning" = request.get "reasoning" := by
    rw [OrdMap.get_insert_of_ne (by decide), OrdMap.get_insert_of_ne (by decide),
      get_expandTextInput (by decide)]
  refine ⟨_, ⟨⟨_, hcandidates⟩, ?_, ?_, fun _ => hreasoning, ?_⟩⟩
  · rw [bodyEffort, hreasoning]
  · intro _
    rw [bodyEffort, hreasoning, effortValue, pointer_effort]
  · intro hpath
    cases hpath

theorem accepts_chat {config : Config} {request : Object} {accepted : AcceptedRequest}
    {converted : ConvertedRequest}
    (h : chatRequest config request.toValue = .ok (accepted, converted)) :
    ∃ effort, Accepts config .chatCompletions request accepted effort := by
  simp only [chatRequest, bind_eq_ok, okOr_eq_ok] at h
  obtain ⟨-, -, converted', hconvert, candidates, hcandidates, h⟩ := h
  cases h
  have hconvert : convertRequest request.toValue = .ok converted := by
    cases hresult : convertRequest request.toValue with
    | error error =>
      rw [hresult] at hconvert
      cases hconvert
    | ok result =>
      rw [hresult] at hconvert
      cases hconvert
      rfl
  obtain ⟨-, -, -, -, -, hreasoning⟩ := convertRequest_eq_ok hconvert
  have heffort : bodyEffort converted.upstreamRequest = converted.reasoningEffort.map .string := by
    rw [bodyEffort, hreasoning]
    cases converted.reasoningEffort with
    | none => rfl
    | some effort => simp [get_json, OrdMap.ofList]
  refine ⟨converted.reasoningEffort, ⟨⟨_, hcandidates⟩, ?_, ?_, ?_, fun _ => heffort⟩⟩
  · rw [heffort]
    cases converted.reasoningEffort <;> rfl
  · exact fun hpath => absurd rfl hpath
  · exact fun hpath => absurd rfl hpath

/-- Every accepted request has been accepted for the model and the effort it names. -/
theorem accepts_of_acceptRequest {config : Config} {path : ApiPath} {request : Object}
    {accepted : AcceptedRequest} (h : acceptRequest config path request.toValue = some accepted) :
    ∃ effort, Accepts config path request accepted effort := by
  cases path with
  | responses => exact accepts_responses (toOption_eq_some.mp h)
  | chatCompletions =>
    obtain ⟨result, hresult, rfl⟩ := Option.map_eq_some_iff.mp h
    exact accepts_chat (toOption_eq_some.mp hresult)
  | webSocket => exact accepts_webSocket (toOption_eq_some.mp h)

/-! ### Normalization -/

theorem get_model_normalize (object : Object) (requestKey : String) (disableTools : Bool) :
    (normalizeResponsesLiteFields object requestKey disableTools).get "model" =
      object.get "model" := by
  cases disableTools <;>
    simp [normalizeResponsesLiteFields, OrdMap.get_insertIfNew]

theorem get_reasoning_normalize (object : Object) (requestKey : String) (disableTools : Bool) :
    (normalizeResponsesLiteFields object requestKey disableTools).get "reasoning" =
      some (normalizedReasoning object) := by
  cases disableTools <;>
    simp [normalizeResponsesLiteFields, normalizedReasoning, OrdMap.get_insertIfNew]

/-- The effort after normalization: what it was, or `medium` if there was no `reasoning`. -/
theorem bodyEffort_normalize (object : Object) (requestKey : String) (disableTools : Bool) :
    bodyEffort (normalizeResponsesLiteFields object requestKey disableTools) =
      if object.get "reasoning" = none then some (.string "medium") else bodyEffort object := by
  rw [bodyEffort, get_reasoning_normalize, Option.bind_some, normalizedReasoning,
    Value.get_setField_of_ne (by decide), bodyEffort]
  cases hreasoning : object.get "reasoning" with
  | none => simp [get_json, OrdMap.ofList]
  | some reasoning => simp

/-- Every generating request of a session comes from the body of its plan. -/
theorem frame_of_prepare {session : Session} {turn : Turn} {replies : PrepareReplies}
    {frame : Object} (h : (session.prepare turn replies).generation = some frame) :
    ∃ plan id input, session.plan turn = .ok plan ∧
      frame = (plan.body.insert "previous_response_id" (.string id)).insert "input"
        (.array input) := by
  have hsend : ∀ (session : Session) opened (plan : Plan),
      (session.sendTurn opened plan replies).generation = some frame →
        ∃ id input, frame = (plan.body.insert "previous_response_id" (.string id)).insert "input"
          (.array input) := by
    intro session opened plan h
    unfold Session.sendTurn at h
    split at h
    · exact ⟨_, _, (Option.some.inj h).symm⟩
    · split at h
      · cases h
      · cases h
      · exact ⟨_, _, (Option.some.inj h).symm⟩
  unfold Session.prepare at h
  split at h
  · cases h
  · next plan hplan =>
    unfold Session.carryOut at h
    split at h
    · obtain ⟨id, input, hframe⟩ := hsend _ _ _ h
      exact ⟨plan, id, input, hplan, hframe⟩
    · split at h
      · cases h
      · cases h
      · obtain ⟨id, input, hframe⟩ := hsend _ _ _ h
        exact ⟨plan, id, input, hplan, hframe⟩

/-- **What generates.** The request keeps the model of the body, and its effort unless Responses
Lite adds one. -/
theorem Generates.keeps {path : ApiPath} {body frame : Object} (h : Generates path body frame) :
    frame.get "model" = body.get "model" ∧
      bodyEffort frame =
        if path ≠ .chatCompletions ∧ body.get "reasoning" = none then some (.string "medium")
        else bodyEffort body := by
  cases h with
  | chatCompletions => simp
  | @responses body frame model headers session replies lite sent =>
    obtain ⟨plan, id, input, hplan, rfl⟩ := frame_of_prepare sent
    obtain ⟨-, -, routed, -, -, -, hrouted, hprewarm, -⟩ := plan_eq_ok hplan
    obtain ⟨metadata, hmetadata⟩ := routeMetadata_eq_ok hrouted
    obtain ⟨-, -, hbody, -⟩ := responsesLitePrewarm_eq_ok.mp hprewarm
    have hrouted' : routed = (body.erase "previous_response_id").insert "client_metadata" metadata :=
      hmetadata
    rw [hrouted'] at hbody
    have hframe : bodyEffort ((plan.body.insert "previous_response_id" (.string id)).insert "input"
        (.array input)) = bodyEffort plan.body := by
      simp [bodyEffort]
    rw [hframe, hbody, bodyEffort_normalize]
    simp [get_model_normalize, bodyEffort]
  | @webSocket body payload prewarm model requestKey responseId lite prepared =>
    obtain ⟨-, -, hbody, -⟩ := responsesLitePrewarm_eq_ok.mp prepared
    have hframe : bodyEffort (payload.insert "previous_response_id" (.string responseId)) =
        bodyEffort payload := by
      simp [bodyEffort]
    rw [hframe, hbody, bodyEffort_normalize]
    simp [get_model_normalize, bodyEffort]

/-! ### The effective request -/

theorem get_model_applyEffectiveRequest (body : Object) (effectiveModel : EffectiveModel) :
    (applyEffectiveRequest body effectiveModel).get "model" =
      some (.string effectiveModel.model) := by
  simp only [applyEffectiveRequest]
  split <;> simp

theorem get_reasoning_applyEffectiveRequest (body : Object) (effectiveModel : EffectiveModel) :
    (applyEffectiveRequest body effectiveModel).get "reasoning" = none ↔
      body.get "reasoning" = none := by
  simp only [applyEffectiveRequest]
  split
  · next heffort hreasoning =>
    rw [OrdMap.get_insert_of_ne (by decide)] at hreasoning
    simp [hreasoning]
  · rw [OrdMap.get_insert_of_ne (by decide)]

/-- The effort written is the effective one, where the request had one. -/
theorem bodyEffort_applyEffectiveRequest {body : Object} {effectiveModel : EffectiveModel}
    {effort : String} {requested : Option String}
    (heffort : effectiveModel.reasoningEffort = some effort)
    (hbody : (bodyEffort body).bind Value.asStr = requested) (hrequested : requested.isSome = true) :
    bodyEffort (applyEffectiveRequest body effectiveModel) = some (.string effort) := by
  obtain ⟨reasoning, hreasoning, hobject⟩ : ∃ reasoning, body.get "reasoning" = some reasoning ∧
      reasoning.isObject = true := by
    rw [← hbody, bodyEffort] at hrequested
    cases hreasoning : body.get "reasoning" with
    | none => simp [hreasoning] at hrequested
    | some reasoning =>
      refine ⟨reasoning, rfl, ?_⟩
      rw [hreasoning] at hrequested
      cases reasoning <;> simp_all [Value.get, Value.isObject, Value.asObject]
  have hreasoning' : (body.insert "model" (.string effectiveModel.model)).get "reasoning" =
      some reasoning := by
    rw [OrdMap.get_insert_of_ne (by decide), hreasoning]
  simp [applyEffectiveRequest, heffort, hreasoning', bodyEffort, Value.get_setField_self hobject]

theorem bodyEffort_applyEffectiveRequest_of_none {body : Object} {effectiveModel : EffectiveModel}
    (heffort : effectiveModel.reasoningEffort = none) :
    bodyEffort (applyEffectiveRequest body effectiveModel) = bodyEffort body := by
  simp [applyEffectiveRequest, heffort, bodyEffort]

/-! ### The dispatch of a request -/

/-- The candidates are configured models under their caps. -/
theorem effectiveModel_of_candidates {config : Config} {model : String} {effort : Option String}
    {candidates : ModelCandidates} {effectiveModel : EffectiveModel}
    (h : config.modelCandidates model effort = some candidates)
    (hmem : effectiveModel = candidates.primary ∨ candidates.fallback = some effectiveModel) :
    ∃ price, config.modelPrices.get effectiveModel.model = some price ∧
      effectiveModel.reasoningEffort = effort.map (cappedEffort price.maxReasoningEffort) ∧
      effectiveModel.rates = ⟨price.inputUsdPerMillion, price.cachedInputUsdPerMillion,
        price.outputUsdPerMillion⟩ := by
  obtain ⟨primary, hprimary, rfl⟩ := Option.map_eq_some_iff.mp h
  have hconfigured : ∃ model, config.effectiveModel model effort = some effectiveModel := by
    rcases hmem with rfl | hfallback
    · exact ⟨model, hprimary⟩
    · obtain ⟨fallback, -, hfallback⟩ := Option.bind_eq_some_iff.mp hfallback
      exact ⟨fallback, hfallback⟩
  obtain ⟨name, hname⟩ := hconfigured
  obtain ⟨price, hprice, rfl⟩ := Option.map_eq_some_iff.mp hname
  exact ⟨price, hprice, rfl, rfl⟩

/-- An admitted model is one of the candidates, and the row is that model's. -/
theorem candidate_of_planInsertion {now : OffsetDateTime} {context : RequestContext}
    {quota : QuotaLimits} {candidates : ModelCandidates} {spent : Decimal} {insertion : Insertion}
    {effectiveModel : EffectiveModel}
    (h : planInsertion now context quota candidates spent = .ok insertion)
    (hadmitted : insertion.admitted = some effectiveModel) :
    (effectiveModel = candidates.primary ∨ candidates.fallback = some effectiveModel) ∧
      insertion.row.model = effectiveModel.model ∧
      insertion.row.reasoningEffort = effectiveModel.reasoningEffort := by
  obtain ⟨soft, hard, model, -, -, hmodel, rfl⟩ := planInsertion_eq_ok.mp h
  have hsame : model = effectiveModel := by
    split_ifs at hadmitted
    exact Option.some.inj hadmitted
  subst hsame
  refine ⟨?_, rfl, rfl⟩
  split_ifs at hmodel
  · exact .inr hmodel
  · exact .inl (Option.some.inj hmodel).symm

section

variable {config : Config} {path : ApiPath} {request : Object} {row : Row}
  {effectiveModel : EffectiveModel} {frame : Object}

/-- **What a dispatch agrees on.** The model is the same everywhere and configured, the rates are
its configured rates, and the effort is that of the row, capped for the model, unless the
normalization adds one. -/
theorem Dispatch.agrees (h : Dispatch config path request row effectiveModel frame) :
    ∃ price effort, config.modelPrices.get effectiveModel.model = some price ∧
      effectiveModel.rates = ⟨price.inputUsdPerMillion, price.cachedInputUsdPerMillion,
        price.outputUsdPerMillion⟩ ∧
      row.model = effectiveModel.model ∧
      frame.get "model" = some (.string effectiveModel.model) ∧
      row.reasoningEffort = effort.map (cappedEffort price.maxReasoningEffort) ∧
      (AddsEffort path request → row.reasoningEffort = none ∧
        bodyEffort frame = some (.string "medium")) ∧
      (¬ AddsEffort path request → ∀ requested, effort = some requested →
        bodyEffort frame = some (.string (cappedEffort price.maxReasoningEffort requested))) ∧
      (¬ AddsEffort path request → effort = none →
        bodyEffort frame = none ∨ ∃ value, effortValue path request.toValue = some value ∧
          value.asStr = none ∧ bodyEffort frame = some value) := by
  obtain ⟨accepted, now, context, quota, spent, insertion, haccepted, hplan, rfl, hadmitted,
    hgenerates⟩ := h.dispatched
  obtain ⟨hmem, hrowModel, hrowEffort⟩ := candidate_of_planInsertion hplan hadmitted
  obtain ⟨effort, ⟨⟨model, hcandidates⟩, hreads, hsameEffort, hsameReasoning, hchat⟩⟩ :=
    accepts_of_acceptRequest haccepted
  obtain ⟨price, hprice, heffort, hrates⟩ := effectiveModel_of_candidates hcandidates hmem
  obtain ⟨hmodel, hframe⟩ := hgenerates.keeps
  rw [get_model_applyEffectiveRequest] at hmodel
  have hadds : (path ≠ .chatCompletions ∧
      (applyEffectiveRequest accepted.body effectiveModel).get "reasoning" = none) ↔
        AddsEffort path request := by
    rw [get_reasoning_applyEffectiveRequest, AddsEffort]
    exact and_congr_right fun hpath => by rw [hsameReasoning hpath]
  simp only [hadds] at hframe
  refine ⟨price, effort, hprice, hrates, hrowModel, hmodel, by rw [hrowEffort, heffort], ?_, ?_, ?_⟩
  · intro hadd
    have hnone : effort = none := by
      rw [← hreads, bodyEffort, hsameReasoning hadd.1, hadd.2]
      rfl
    rw [if_pos hadd] at hframe
    exact ⟨by rw [hrowEffort, heffort, hnone]; rfl, hframe⟩
  · intro hadd requested hrequested
    rw [if_neg hadd] at hframe
    rw [hframe]
    exact bodyEffort_applyEffectiveRequest (by rw [heffort, hrequested]; rfl) hreads
      (by rw [hrequested]; rfl)
  · intro hadd hnone
    rw [if_neg hadd, bodyEffort_applyEffectiveRequest_of_none (by rw [heffort, hnone]; rfl)] at hframe
    by_cases hpath : path = .chatCompletions
    · rw [hchat hpath, hnone] at hframe
      exact .inl hframe
    · cases hvalue : bodyEffort accepted.body with
      | none => exact .inl (hframe.trans hvalue)
      | some value =>
        refine .inr ⟨value, (hsameEffort hpath).symm.trans hvalue, ?_, hframe.trans hvalue⟩
        rw [hvalue, hnone] at hreads
        exact hreads

/-! ### The ledger and the wire -/

/-- The row of a request, the rates it is billed at and the request that generates agree. -/
structure LedgerAgrees (config : Config) (row : Row) (rates : ModelRates) (frame : Object) :
    Prop where
  model : frame.get "model" = some (.string row.model)
  rates : ∃ price, config.modelPrices.get row.model = some price ∧
    rates = ⟨price.inputUsdPerMillion, price.cachedInputUsdPerMillion, price.outputUsdPerMillion⟩
  effort : bodyEffort frame = row.reasoningEffort.map .string

/-- **When the ledger agrees with the wire.** For a request whose effort, if present, is a string,
the row, the bill and the request that generates agree exactly when the normalization adds no
effort. -/
theorem ledgerAgrees_iff (h : Dispatch config path request row effectiveModel frame)
    (hstring : ∀ value, effortValue path request.toValue = some value → ∃ s, value = .string s) :
    LedgerAgrees config row effectiveModel.rates frame ↔ ¬ AddsEffort path request := by
  obtain ⟨price, effort, hprice, hrates, hrow, hmodel, heffort, hadds, hsome, hnone⟩ := h.agrees
  constructor
  · rintro ⟨-, -, hagree⟩ hadd
    obtain ⟨hrowNone, hmedium⟩ := hadds hadd
    rw [hrowNone, hmedium] at hagree
    cases hagree
  · intro hadd
    refine ⟨by rw [hrow, hmodel], ⟨price, by rw [hrow, hprice], hrates⟩, ?_⟩
    cases hrequested : effort with
    | some requested => rw [heffort, hrequested, hsome hadd requested hrequested]; rfl
    | none =>
      rw [heffort, hrequested]
      rcases hnone hadd hrequested with hframe | ⟨value, hvalue, hnotString, -⟩
      · exact hframe
      · obtain ⟨s, rfl⟩ := hstring value hvalue
        cases hnotString

/-! ### The cap -/

/-- A known effort in a body is within the cap of the model the body names. -/
def WithinCap (config : Config) (frame : Object) : Prop :=
  ∀ model effort price maximum rank cap, frame.get "model" = some (.string model) →
    bodyEffort frame = some (.string effort) → reasoningEffortRank effort = some rank →
    config.modelPrices.get model = some price → price.maxReasoningEffort = some maximum →
    reasoningEffortRank maximum = some cap → rank ≤ cap

/-- The cap of a model is below `medium`. -/
def CapBelowMedium (config : Config) (model : String) : Prop :=
  ∃ price, config.modelPrices.get model = some price ∧
    price.maxReasoningEffort ∈ [some "none", some "minimal", some "low"]

/-- A capped effort is within its cap. -/
theorem rank_cappedEffort {maximum requested : String} {rank cap : Nat}
    (hcap : reasoningEffortRank maximum = some cap)
    (hrank : reasoningEffortRank (cappedEffort (some maximum) requested) = some rank) :
    rank ≤ cap := by
  simp only [cappedEffort, hcap] at hrank
  cases hrequested : reasoningEffortRank requested with
  | none => simp [hrequested] at hrank
  | some requestedRank =>
    simp only [hrequested] at hrank
    split_ifs at hrank with hlt
    · exact le_of_eq (Option.some.inj (hrank.symm.trans hcap))
    · rw [hrequested] at hrank
      have := Option.some.inj hrank
      omega

/-- The levels below `medium`. -/
theorem rank_lt_medium {maximum : String} {cap : Nat}
    (hcap : reasoningEffortRank maximum = some cap) :
    cap < 3 ↔ maximum ∈ ["none", "minimal", "low"] := by
  simp only [reasoningEffortRank, reasoningEfforts, List.findIdx?_cons, List.findIdx?_nil,
    decide_eq_true_eq] at hcap
  simp only [List.mem_cons, List.not_mem_nil, or_false]
  grind

/-- **When the cap holds on the wire.** Under a validated configuration the request that generates
keeps the cap exactly when the normalization adds no effort, or the cap of the admitted model is
not below the effort it adds. -/
theorem withinCap_iff (hconfig : config.validate = .ok ())
    (h : Dispatch config path request row effectiveModel frame) :
    WithinCap config frame ↔
      ¬ (AddsEffort path request ∧ CapBelowMedium config effectiveModel.model) := by
  obtain ⟨price, effort, hprice, hrates, hrow, hmodel, heffort, hadds, hsome, hnone⟩ := h.agrees
  have hmedium : reasoningEffortRank "medium" = some 3 := by decide
  constructor
  · rintro hwithin ⟨hadd, price', hprice', hmem⟩
    obtain ⟨-, hframe⟩ := hadds hadd
    cases hprice.symm.trans hprice'
    have hlow : ∃ maximum ∈ ["none", "minimal", "low"], price.maxReasoningEffort = some maximum := by
      simp only [List.mem_cons, List.not_mem_nil, or_false] at hmem ⊢
      rcases hmem with hmax | hmax | hmax <;> simp [hmax]
    obtain ⟨maximum, hlow, hmax⟩ := hlow
    obtain ⟨cap, hcap⟩ := config.validated_cap hconfig hprice hmax
    have hlt := (rank_lt_medium hcap).mpr hlow
    have hle := hwithin _ _ _ _ _ _ hmodel hframe hmedium hprice hmax hcap
    omega
  · intro hfine model effort' price' maximum rank cap hmodel' heffort' hrank hprice' hmax hcap
    have hsame : model = effectiveModel.model := by
      have := hmodel'.symm.trans hmodel
      simpa using this
    rw [hsame] at hprice'
    cases hprice.symm.trans hprice'
    by_cases hadd : AddsEffort path request
    · obtain ⟨-, hframe⟩ := hadds hadd
      rw [hframe] at heffort'
      cases heffort'
      cases hmedium.symm.trans hrank
      by_contra hlt
      have hlow := (rank_lt_medium hcap).mp (by omega)
      refine hfine ⟨hadd, price, hprice, ?_⟩
      rw [hmax]
      simpa using hlow
    · cases hrequested : effort with
      | some requested =>
        rw [hsome hadd requested hrequested, hmax] at heffort'
        cases heffort'
        exact rank_cappedEffort hcap hrank
      | none =>
        rcases hnone hadd hrequested with hframe | ⟨value, -, hnotString, hframe⟩
        · rw [hframe] at heffort'
          cases heffort'
        · rw [hframe] at heffort'
          cases heffort'
          cases hnotString

end

/-! ### A request without `reasoning` -/

/-- A price of one dollar per million tokens of every kind, for a model capped at `low`. -/
def lowPrice : ModelPrice := ⟨.one, .one, .one, some "low"⟩

/-- A relay with one unlimited key and one model. -/
def lowConfig : Config where
  enableWebsockets := true
  supportsWebsockets := true
  statePath := "state"
  authFile := "auth"
  baseUrlScheme := "https"
  oauthTokenUrlScheme := "https"
  fallbackModel := none
  apiKeys := [.unlimited "key" "secret"]
  modelPrices := OrdMap.ofList [("gpt", lowPrice)]

theorem validate_lowConfig : lowConfig.validate = .ok () := by decide

/-- A client WebSocket request that says nothing about reasoning. -/
def plainCreate : Object :=
  OrdMap.ofList [("type", .string "response.create"), ("model", .string "gpt")]

/-- One that asks for more than the cap. -/
def highCreate : Object :=
  plainCreate.insert "reasoning" (json [("effort", .string "high")])

/-- The effective model of these requests. -/
def lowEffective (effort : Option String) : EffectiveModel :=
  ⟨"gpt", effort, ⟨.one, .one, .one⟩⟩

/-- The row of these requests. -/
def lowRow (effort : Option String) : Row :=
  admissionRow 0 ⟨"key", .responses, .webSocket⟩ false (lowEffective effort)

/-- What a client WebSocket request becomes once it is validated. -/
def createBody (request : Object) : Object :=
  (request.insert "store" (.bool false)).insert "stream" (.bool true)

/-- What is sent for it. -/
def createFrame (request : Object) (effort : Option String) : Object :=
  (normalizeResponsesLiteFields (applyEffectiveRequest (createBody request) (lowEffective effort))
    "codex-api-0" true).insert "previous_response_id" (.string "warm")

/-- A Responses Lite model. -/
def liteModel : Value :=
  json [("use_responses_lite", .bool true), ("base_instructions", .string "base")]

private theorem dispatch_create {request : Object} {effort : Option String}
    (haccepted : acceptRequest lowConfig .webSocket request.toValue =
      some ⟨⟨lowEffective effort, none⟩, createBody request⟩)
    (hprepared : ((responsesLitePrewarm
        (applyEffectiveRequest (createBody request) (lowEffective effort)) liteModel
          "codex-api-0").map Prod.fst) =
      .ok (normalizeResponsesLiteFields
        (applyEffectiveRequest (createBody request) (lowEffective effort)) "codex-api-0" true)) :
    Dispatch lowConfig .webSocket request (lowRow effort) (lowEffective effort)
      (createFrame request effort) := by
  obtain ⟨prewarm, hprewarm⟩ : ∃ prewarm, responsesLitePrewarm
      (applyEffectiveRequest (createBody request) (lowEffective effort)) liteModel "codex-api-0" =
        .ok (normalizeResponsesLiteFields
          (applyEffectiveRequest (createBody request) (lowEffective effort)) "codex-api-0" true,
          prewarm) := by
    revert hprepared
    cases responsesLitePrewarm (applyEffectiveRequest (createBody request) (lowEffective effort))
        liteModel "codex-api-0" with
    | error error => simp [Except.map]
    | ok result =>
      intro h
      exact ⟨result.2, by rw [← Except.ok.inj h]⟩
  exact ⟨_, ⟨0, by decide, by decide⟩, ⟨"key", .responses, .webSocket⟩, ⟨none, none⟩, Decimal.zero,
    ⟨lowRow effort, some (lowEffective effort)⟩, haccepted, rfl, rfl, rfl,
    Generates.webSocket (by decide) hprewarm⟩

private theorem dispatch_plainCreate :
    Dispatch lowConfig .webSocket plainCreate (lowRow none) (lowEffective none)
      (createFrame plainCreate none) :=
  dispatch_create (by decide) (by decide)

private theorem dispatch_highCreate :
    Dispatch lowConfig .webSocket highCreate (lowRow (some "low")) (lowEffective (some "low"))
      (createFrame highCreate (some "low")) :=
  dispatch_create (by decide) (by decide)

/-- The cap holds for a request that asks for more. -/
theorem withinCap_highCreate : WithinCap lowConfig (createFrame highCreate (some "low")) :=
  (withinCap_iff validate_lowConfig dispatch_highCreate).mpr fun hadd => absurd hadd.1 (by decide)

/-- The row, the bill and the wire agree for that request. -/
theorem ledgerAgrees_highCreate :
    LedgerAgrees lowConfig (lowRow (some "low")) (lowEffective (some "low")).rates
      (createFrame highCreate (some "low")) :=
  (ledgerAgrees_iff dispatch_highCreate fun value hvalue =>
    ⟨"high", (Option.some.inj hvalue).symm⟩).mpr (by decide)

/-- **A request that says nothing exceeds the cap**: it is sent with the effort `medium` to a model
capped at `low`. -/
theorem plainCreate_exceeds_cap :
    lowConfig.validate = .ok () ∧
      Dispatch lowConfig .webSocket plainCreate (lowRow none) (lowEffective none)
        (createFrame plainCreate none) ∧
      (createFrame plainCreate none).get "model" = some (.string "gpt") ∧
      bodyEffort (createFrame plainCreate none) = some (.string "medium") ∧
      ¬ WithinCap lowConfig (createFrame plainCreate none) := by
  refine ⟨validate_lowConfig, dispatch_plainCreate, by decide, by decide, fun hwithin => ?_⟩
  have hle := hwithin "gpt" "medium" lowPrice "low" 3 2 (by decide) (by decide) (by decide)
    (by decide) (by decide) (by decide)
  omega

/-- **Its row says nothing about the effort it is sent with.** -/
theorem plainCreate_not_in_ledger :
    Dispatch lowConfig .webSocket plainCreate (lowRow none) (lowEffective none)
        (createFrame plainCreate none) ∧
      effortValue .webSocket plainCreate.toValue = none ∧
      (lowRow none).reasoningEffort = none ∧
      bodyEffort (createFrame plainCreate none) = some (.string "medium") ∧
      ¬ LedgerAgrees lowConfig (lowRow none) (lowEffective none).rates
        (createFrame plainCreate none) := by
  refine ⟨dispatch_plainCreate, by decide, rfl, by decide, fun hagrees => ?_⟩
  have heffort := hagrees.effort
  revert heffort
  decide

end CodexApi
