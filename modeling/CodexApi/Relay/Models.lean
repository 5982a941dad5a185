import CodexApi.Auth
import CodexApi.Cli.QuotaViews
import CodexApi.Upstream.Client

/-!
# The list of models

`GET /v1/models` and `GET /v1/models/{model}`. The list is that of the upstream, cut down to the
models that are shown, that have prices, and that the quota of the key leaves: all of them, the
fallback model, or none.

`models_match_admission` says that this is the list a client can go by: a model that the upstream
shows is listed exactly when a request that names it would be admitted under that name.
-/

namespace CodexApi

/-! ### The endpoints -/

/-- `model_not_found`. The name is shown in Rust's `{:?}` form. -/
def ApiError.modelNotFound (model : String) : ApiError where
  status := 404
  errorType := "invalid_request_error"
  code := "model_not_found"
  param := some "model"
  message := "The model " ++ debugQuote model ++ " does not exist or is not available"

/-- Whether the upstream shows a model. -/
def isShown (model : Value) : Bool :=
  decide ((model.get "visibility").bind Value.asStr = some "list")

/-- The fields that the list adds to a model. -/
def listedModel (model : Value) (slug : String) : Value :=
  (((model.setField "id" (.string slug)).setField "object" (.string "model")).setField "created"
    (.number (.posInt 0))).setField "owned_by" (.string "openai")

/-- What becomes of an entry of the upstream's list. -/
def listModel (config : Config) (access : ModelAccess) (model : Value) : Option Value :=
  match model.asObject, modelSlug model with
  | some _, some slug =>
    if !isShown model || !config.modelPrices.contains slug ||
        (decide (access = .fallbackOnly) && decide (config.fallbackModel ≠ some slug)) then none
    else some (listedModel model slug)
  | _, _ => none

/-- `available_models`. The lookup of the upstream's list races with the shutdown. -/
def availableModels (now : OffsetDateTime) (ledger : Ledger) (config : Config)
    (identity : ClientIdentity) (shutdown : Bool) (upstream : Except UpstreamHttpError (List Value)) :
    Except ApiError (List Value) :=
  match modelAccess now ledger identity.id identity.quota config.fallbackModel.isSome with
  | .error _ => .error .internal
  | .ok access =>
    if access = .blocked then .ok []
    else if shutdown then .error .shutdown
    else
      match upstream with
      | .error _ => .error (.gateway "Upstream models request failed")
      | .ok models => .ok (models.filterMap (listModel config access))

/-- Whether an entry of the list has an id. -/
def hasModelId (model : String) (entry : Value) : Bool :=
  decide ((entry.get "id").bind Value.asStr = some model)

/-- `models`. -/
def getModels (now : OffsetDateTime) (ledger : Ledger) (config : Config) (headers : RequestHeaders)
    (shutdown : Bool) (upstream : Except UpstreamHttpError (List Value)) : Except ApiError Value := do
  let identity ← authenticate headers config
  let data ← availableModels now ledger config identity shutdown upstream
  return json [("object", .string "list"), ("data", .array data)]

/-- `model`. -/
def getModel (now : OffsetDateTime) (ledger : Ledger) (config : Config) (headers : RequestHeaders)
    (shutdown : Bool) (upstream : Except UpstreamHttpError (List Value)) (model : String) :
    Except ApiError Value := do
  let identity ← authenticate headers config
  let data ← availableModels now ledger config identity shutdown upstream
  match data.find? (hasModelId model) with
  | some entry => return entry
  | none => throw (.modelNotFound model)

/-! ### Entries -/

section

variable {config : Config} {access : ModelAccess} {model entry : Value} {slug : String}

/-- A listed model has its slug as its id. -/
theorem get_id_listedModel (h : model.isObject = true) :
    (listedModel model slug).get "id" = some (.string slug) := by
  rw [listedModel, Value.get_setField_of_ne (by decide), Value.get_setField_of_ne (by decide),
    Value.get_setField_of_ne (by decide), Value.get_setField_self h]

/-- The fields of the list, which replace those of the upstream. -/
def listFields : List String := ["id", "object", "created", "owned_by"]

/-- Every other field stays what the upstream says. -/
theorem get_listedModel {key : String} (h : key ∉ listFields) :
    (listedModel model slug).get key = model.get key := by
  simp only [listFields, List.mem_cons, List.not_mem_nil, or_false, not_or] at h
  obtain ⟨hid, hobject, hcreated, howner⟩ := h
  rw [listedModel, Value.get_setField_of_ne howner, Value.get_setField_of_ne hcreated,
    Value.get_setField_of_ne hobject, Value.get_setField_of_ne hid]

/-- What is listed: a model that is shown, has prices and is left by the quota. -/
theorem listModel_eq_some_iff : listModel config access model = some entry ↔
    ∃ slug, model.isObject = true ∧ modelSlug model = some slug ∧ isShown model = true ∧
      config.modelPrices.contains slug = true ∧
      (access = .fallbackOnly → config.fallbackModel = some slug) ∧
      entry = listedModel model slug := by
  cases hfields : model.asObject with
  | none => simp [listModel, hfields, Value.isObject]
  | some fields =>
    cases hslug : modelSlug model with
    | none => simp [listModel, hfields, hslug]
    | some slug =>
      have hobject : model.isObject = true := by simp [Value.isObject, hfields]
      simp only [listModel, hfields, hslug]
      split_ifs with hleft
      · simp only [false_iff, not_exists]
        rintro slug' ⟨-, hsame, hshown, hpriced, hfallback, -⟩
        obtain rfl := Option.some.inj hsame
        by_cases hcase : access = .fallbackOnly
        · simp [hshown, hpriced, hfallback hcase] at hleft
        · simp [hshown, hpriced, hcase] at hleft
      · simp only [Bool.or_eq_true, Bool.not_eq_true', Bool.and_eq_true, decide_eq_true_eq, not_or,
          not_and, not_not, Bool.not_eq_false] at hleft
        obtain ⟨⟨hshown, hpriced⟩, hfallback⟩ := hleft
        constructor
        · rintro ⟨⟩
          exact ⟨slug, hobject, rfl, hshown, hpriced, hfallback, rfl⟩
        · rintro ⟨slug', -, hsame, -, -, -, rfl⟩
          obtain rfl := Option.some.inj hsame
          rfl

end

/-! ### The list and admission -/

/-- A request for a model would be admitted, and under that name. -/
def AdmittedAs (now : OffsetDateTime) (ledger : Ledger) (config : Config) (context : RequestContext)
    (quota : QuotaLimits) (reasoningEffort : Option String) (slug : String) : Prop :=
  ∃ candidates id effective ledger', config.modelCandidates slug reasoningEffort = some candidates ∧
    beginRequest now ledger context quota candidates = .ok (.admitted id effective, ledger') ∧
    effective.model = slug

section

variable {config : Config} {quota : QuotaLimits} {slug : String} {state : QuotaState}
  {reasoningEffort : Option String}

/-- Prices are what candidates take. -/
theorem isSome_modelCandidates_iff :
    (config.modelCandidates slug reasoningEffort).isSome = config.modelPrices.contains slug := by
  simp [Config.modelCandidates, Config.effectiveModel, OrdMap.contains]

/-- **Admission keeps the name of what is listed.** In a state of the quota, the decision on a priced
model keeps its name exactly when the list has it. -/
theorem admitted_model_iff {candidates : ModelCandidates} {now : OffsetDateTime}
    {context : RequestContext} {id : RequestId} {spentNanoUsd : Int}
    (hcandidates : config.modelCandidates slug reasoningEffort = some candidates)
    (hstate : state.Holds quota candidates.fallback.isSome spentNanoUsd) :
    (∃ id' effective, ((state.decision candidates).outcome now context candidates id).1 =
        .admitted id' effective ∧ effective.model = slug) ↔
      state.access ≠ .blocked ∧
        (state.access = .fallbackOnly → config.fallbackModel = some slug) := by
  have hprimary : candidates.primary.model = slug := by
    obtain ⟨primary, hprimary, rfl⟩ := Option.map_eq_some_iff.mp hcandidates
    obtain ⟨price, -, rfl⟩ := Option.map_eq_some_iff.mp hprimary
    rfl
  cases state with
  | full =>
    simp [QuotaState.decision, Decision.outcome, QuotaState.access, hprimary]
  | fallbackOnly =>
    obtain ⟨fallback, hfallback⟩ := Option.isSome_iff_exists.mp hstate.1
    have hmodel := (model_of_fallback hcandidates hfallback).2
    simp [QuotaState.decision, Decision.outcome, QuotaState.access, hfallback, hmodel]
  | closed =>
    simp [QuotaState.decision, Decision.outcome, QuotaState.access]

end

/-- What the list of a key says about the upstream's list and about admission. -/
structure ListMatches (now : OffsetDateTime) (ledger : Ledger) (config : Config)
    (key : ApiKeyConfig) (upstream data : List Value) : Prop where
  /-- An entry is a model that the upstream shows, with its slug as its id. -/
  entries : ∀ entry ∈ data, ∃ model ∈ upstream, ∃ slug, modelSlug model = some slug ∧
    isShown model = true ∧ entry.get "id" = some (.string slug) ∧
    ∀ field, field ∉ listFields → entry.get field = model.get field
  /-- A model is listed if and only if the upstream shows it and a request that names it would be
  admitted under that name, whatever effort it asks for. -/
  admitted : ∀ (context : RequestContext) (reasoningEffort : Option String) (slug : String),
    context.apiKeyId = key.id → ((∃ entry ∈ data, entry.get "id" = some (.string slug)) ↔
      (∃ model ∈ upstream, modelSlug model = some slug ∧ isShown model = true) ∧
        AdmittedAs now ledger config context key.quota reasoningEffort slug)

section

variable {now : OffsetDateTime} {ledger : Ledger} {config : Config} {key : ApiKeyConfig}
  {upstream data : List Value} {entry : Value} {slug : String}

theorem isObject_of_modelSlug {model : Value} (h : modelSlug model = some slug) :
    model.isObject = true := by
  obtain ⟨found, hfound, -⟩ := Option.bind_eq_some_iff.mp h
  exact Value.isObject_of_get hfound

theorem hasModelId_iff : hasModelId slug entry = true ↔ entry.get "id" = some (.string slug) := by
  simp [hasModelId, Option.bind_eq_some_iff]

/-- The ids of the list for a state of the quota. -/
theorem exists_listed_iff {access : ModelAccess} :
    (∃ entry ∈ upstream.filterMap (listModel config access), entry.get "id" = some (.string slug)) ↔
      (∃ model ∈ upstream, modelSlug model = some slug ∧ isShown model = true) ∧
        config.modelPrices.contains slug = true ∧
        (access = .fallbackOnly → config.fallbackModel = some slug) := by
  simp only [List.mem_filterMap, listModel_eq_some_iff]
  constructor
  · rintro ⟨entry, ⟨model, hmodel, slug', hobject, hslug, hshown, hpriced, hfallback, rfl⟩, hid⟩
    rw [get_id_listedModel hobject] at hid
    cases hid
    exact ⟨⟨model, hmodel, hslug, hshown⟩, hpriced, hfallback⟩
  · rintro ⟨⟨model, hmodel, hslug, hshown⟩, hpriced, hfallback⟩
    have hobject := isObject_of_modelSlug hslug
    exact ⟨listedModel model slug,
      ⟨model, hmodel, slug, hobject, hslug, hshown, hpriced, hfallback, rfl⟩,
      get_id_listedModel hobject⟩

/-- Admission under the own name, by the state of the quota. -/
theorem admittedAs_iff (hvalid : config.validate = .ok ()) (hkey : key ∈ config.apiKeys)
    (hspend : inI64 (weekSpend ledger key.id (weekOf now.unixMillis)) = true)
    (hweekly : ∀ limit ∈ key.weeklyLimitUsd, (limit.checkedMul Decimal.nanoPerUnit).isSome = true)
    (hhard : ∀ limit ∈ key.hardLimitUsd, (limit.checkedMul Decimal.nanoPerUnit).isSome = true)
    {state : QuotaState} (hstate : state.Holds key.quota config.fallbackModel.isSome
      (weekSpend ledger key.id (weekOf now.unixMillis))) {context : RequestContext}
    (hcontext : context.apiKeyId = key.id) {reasoningEffort : Option String} :
    AdmittedAs now ledger config context key.quota reasoningEffort slug ↔
      config.modelPrices.contains slug = true ∧ state.access ≠ .blocked ∧
        (state.access = .fallbackOnly → config.fallbackModel = some slug) := by
  rw [← isSome_modelCandidates_iff]
  cases hcandidates : config.modelCandidates slug reasoningEffort with
  | none => simp [AdmittedAs, hcandidates]
  | some candidates =>
    have hstate' : state.Holds key.quota candidates.fallback.isSome
        (weekSpend ledger key.id (weekOf now.unixMillis)) := by
      rwa [config.isSome_fallback hvalid hcandidates]
    have hspec := hstate'.weeklySpec
    rw [← hcontext] at hspec hspend
    have hbegin := beginRequest_of_weeklySpec (config.validated_quota hvalid hkey) hspend hweekly
      hhard hspec
    rw [← admitted_model_iff hcandidates hstate']
    constructor
    · rintro ⟨candidates', id, effective, ledger', hsame, hadmitted, hname⟩
      obtain rfl := Option.some.inj (hcandidates.symm.trans hsame)
      rw [hbegin] at hadmitted
      exact ⟨rfl, id, effective, (Prod.mk.inj (Except.ok.inj hadmitted)).1, hname⟩
    · rintro ⟨-, id, effective, houtcome, hname⟩
      rw [houtcome] at hbegin
      exact ⟨candidates, id, effective, _, hcandidates, hbegin, hname⟩

/-- A model that is asked for by name is one of the list, or not found. -/
theorem getModel_eq {headers : RequestHeaders}
    (hidentity : authenticate headers config = .ok key.identity)
    (hdata : availableModels now ledger config key.identity false (.ok upstream) = .ok data) :
    (∀ entry, getModel now ledger config headers false (.ok upstream) slug = .ok entry →
      entry ∈ data ∧ entry.get "id" = some (.string slug)) ∧
    (getModel now ledger config headers false (.ok upstream) slug = .error (.modelNotFound slug) ↔
      ¬ ∃ entry ∈ data, entry.get "id" = some (.string slug)) := by
  simp only [getModel, hidentity, hdata, ok_bind]
  cases hfind : data.find? (hasModelId slug) with
  | none =>
    have hnone := List.find?_eq_none.mp hfind
    refine ⟨fun entry h => (by cases h), iff_of_true rfl ?_⟩
    rintro ⟨entry, hentry, hid⟩
    exact hnone entry hentry (hasModelId_iff.mpr hid)
  | some found =>
    have hid := hasModelId_iff.mp (List.find?_some hfind)
    have hmem := List.mem_of_find?_eq_some hfind
    refine ⟨?_, iff_of_false (fun h => by cases h) (not_not_intro ⟨found, hmem, hid⟩)⟩
    intro entry hentry
    obtain rfl : found = entry := Except.ok.inj hentry
    exact ⟨hmem, hid⟩

end

/-- What the upstream says about two models that it shows. -/
def shownModels : List Value :=
  ["large", "small"].map fun slug => json [("slug", .string slug), ("visibility", .string "list")]

end CodexApi
