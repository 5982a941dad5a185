import CodexApi.Json
import CodexApi.Store.Ledger

/-!
# Configuration

The parts of `config.rs` that decide admission: the API keys with their limits, the price table
and the fallback model. `Config.validate` is the check a configuration has to
pass at startup, with its messages; `QuotaLimits.Validated` is what it guarantees about the limits
of a key (`Config.validated_quota`). `Config.modelCandidates` resolves the model a request names.

The hard limit of a key is present exactly when its weekly limit is, by the deserializer
(`ApiKeyConfig.fromInput`); `ApiKeyConfig` carries that as a field.
-/

namespace CodexApi

/-- `reasoning_effort_rank` ranks a level by its position here. -/
def reasoningEfforts : List String :=
  ["none", "minimal", "low", "medium", "high", "xhigh", "max", "ultra"]

/-- `reasoning_effort_rank`. -/
def reasoningEffortRank (value : String) : Option Nat :=
  reasoningEfforts.findIdx? (· = value)

/-- The default of `hard_limit_usd`, `600.00`. -/
def defaultHardLimitUsd : Decimal := ⟨60000, 2, by decide, by decide⟩

/-- An API key as resolved at startup. -/
structure ApiKeyConfig where
  id : String
  secret : String
  weeklyLimitUsd : Option Decimal
  hardLimitUsd : Option Decimal
  hard_iff_weekly : hardLimitUsd.isSome = weeklyLimitUsd.isSome

/-- The limits of a key as admission uses them. -/
def ApiKeyConfig.quota (key : ApiKeyConfig) : QuotaLimits :=
  ⟨key.weeklyLimitUsd, key.hardLimitUsd⟩

/-- A key without limits. -/
def ApiKeyConfig.unlimited (id secret : String) : ApiKeyConfig := ⟨id, secret, none, none, rfl⟩

/-- An API key as written in the configuration file. -/
structure ApiKeyConfigInput where
  id : String
  secret : Option String
  secretFile : Option String
  weeklyLimitUsd : Option Decimal
  hardLimitUsd : Option Decimal

/-- A secret file's contents without one trailing line break. -/
def trimLineBreak (contents : String) : String :=
  if contents.endsWith "\r\n" then String.ofList (contents.toList.dropLast.dropLast)
  else if contents.endsWith "\n" then String.ofList contents.toList.dropLast
  else contents

/-- `ApiKeyConfig::deserialize`. `readToString` is the file system. -/
def ApiKeyConfig.fromInput (readToString : String → Except String String)
    (input : ApiKeyConfigInput) : Except String ApiKeyConfig := do
  let secret ← match input.secret, input.secretFile with
    | some secret, none => pure secret
    | none, some path =>
      match readToString path with
      | .ok contents => pure (trimLineBreak contents)
      | .error error => throw s!"failed to read API key secret file {path}: {error}"
    | _, _ => throw "API key must set exactly one of secret or secret_file"
  match input.weeklyLimitUsd, input.hardLimitUsd with
  | none, some _ => throw "API key hard_limit_usd requires weekly_limit_usd"
  | none, none => return .unlimited input.id secret
  | some soft, some hard => return ⟨input.id, secret, some soft, some hard, rfl⟩
  | some soft, none => return ⟨input.id, secret, some soft, some defaultHardLimitUsd, rfl⟩

/-- The prices of a model and the cap on its reasoning effort. -/
structure ModelPrice where
  inputUsdPerMillion : Decimal
  cachedInputUsdPerMillion : Decimal
  outputUsdPerMillion : Decimal
  maxReasoningEffort : Option String
deriving DecidableEq

/-- The configuration, as far as requests depend on it. -/
structure Config where
  enableWebsockets : Bool
  supportsWebsockets : Bool
  statePath : String
  authFile : String
  baseUrlScheme : String
  oauthTokenUrlScheme : String
  fallbackModel : Option String
  apiKeys : List ApiKeyConfig
  modelPrices : OrdMap String ModelPrice

/-- A string in Rust's `{:?}` form, for strings without control characters. -/
def debugQuote (s : String) : String :=
  "\"" ++ String.join (s.toList.map fun c =>
    if c = '"' then "\\\"" else if c = '\\' then "\\\\" else c.toString) ++ "\""

/-- `u8::is_ascii_whitespace`, on characters. -/
def isAsciiWhitespace (c : Char) : Bool :=
  c = ' ' || c = '\t' || c = '\n' || c.toNat = 12 || c = '\r'

/-- `bail!` unless the condition holds. -/
def ensure (condition : Bool) (message : String) : Except String Unit :=
  if condition then .ok () else .error message

/-- The checks of `validate` on the limits of one key. -/
def validateLimits (hasFallback : Bool) (key : ApiKeyConfig) : Except String Unit := do
  ensure (key.weeklyLimitUsd.all Decimal.zero.le)
    "configuration API key weekly_limit_usd must be non-negative"
  ensure (key.hardLimitUsd.all Decimal.zero.le)
    "configuration API key hard_limit_usd must be non-negative"
  match key.weeklyLimitUsd, key.hardLimitUsd with
  | some soft, some hard =>
    ensure (!(hasFallback && hard.le soft))
      "configuration API key hard_limit_usd must be greater than weekly_limit_usd when fallback_model is set"
    ensure (soft.le hard)
      "configuration API key hard_limit_usd must be greater than or equal to weekly_limit_usd"
  | _, _ => return

/-- The loop of `validate` over the keys, with the ids and secrets seen so far. -/
def validateKeys (hasFallback : Bool) (ids secrets : List String) :
    List ApiKeyConfig → Except String Unit
  | [] => .ok ()
  | key :: keys => do
    ensure (key.id ≠ "") "configuration api_keys id must not be empty"
    ensure (key.secret ≠ "") "configuration api_keys secret must not be empty"
    ensure (!key.secret.toList.any isAsciiWhitespace)
      "configuration api_keys secret must not contain ASCII whitespace"
    ensure (!ids.contains key.id)
      s!"configuration contains duplicate API key id {debugQuote key.id}"
    ensure (!secrets.contains key.secret) "configuration contains a duplicate API key secret"
    validateLimits hasFallback key
    validateKeys hasFallback (key.id :: ids) (key.secret :: secrets) keys

/-- The loop of `validate` over the price table. -/
def validatePrices : List (String × ModelPrice) → Except String Unit
  | [] => .ok ()
  | (model, price) :: prices => do
    ensure (model ≠ "") "configuration model_prices contains an empty model name"
    ensure (Decimal.zero.le price.inputUsdPerMillion)
      s!"configuration model {debugQuote model} input price must be non-negative"
    ensure (Decimal.zero.le price.cachedInputUsdPerMillion)
      s!"configuration model {debugQuote model} cached input price must be non-negative"
    ensure (Decimal.zero.le price.outputUsdPerMillion)
      s!"configuration model {debugQuote model} output price must be non-negative"
    ensure (price.maxReasoningEffort.all fun effort => (reasoningEffortRank effort).isSome)
      s!"configuration model {debugQuote model} has an invalid max_reasoning_effort"
    validatePrices prices

/-- `validate_http_url`, on the scheme of the URL. -/
def validateHttpUrl (name scheme : String) : Except String Unit :=
  ensure (scheme = "http" || scheme = "https") s!"configuration {name} must use http or https"

/-- The checks of `validate` on the fallback model. -/
def validateFallback (config : Config) : Except String Unit :=
  match config.fallbackModel with
  | none => .ok ()
  | some fallbackModel => do
    ensure (fallbackModel ≠ "") "configuration fallback_model must not be empty"
    ensure (config.modelPrices.contains fallbackModel)
      s!"configuration fallback_model {debugQuote fallbackModel} is not present in model_prices"

/-- `Config::validate`. -/
def Config.validate (config : Config) : Except String Unit := do
  ensure (config.statePath ≠ "") "configuration state.path must not be empty"
  ensure (config.authFile ≠ "") "configuration upstream.auth_file must not be empty"
  validateHttpUrl "upstream.base_url" config.baseUrlScheme
  validateHttpUrl "upstream.oauth_token_url" config.oauthTokenUrlScheme
  ensure (!(config.enableWebsockets && !config.supportsWebsockets))
    "configuration enables downstream WebSockets while upstream.supports_websockets is false"
  ensure (!config.apiKeys.isEmpty) "configuration api_keys must contain at least one key"
  validateKeys config.fallbackModel.isSome [] [] config.apiKeys
  ensure (!config.modelPrices.entries.isEmpty)
    "configuration model_prices must contain at least one model"
  validatePrices config.modelPrices.entries
  validateFallback config

/-! ### The model of a request -/

/-- The reasoning effort of a request under the cap of a model. Both levels have to be known
for the cap to apply; that of a validated configuration is. -/
def cappedEffort (maxReasoningEffort : Option String) (requested : String) : String :=
  match maxReasoningEffort with
  | none => requested
  | some maximum =>
    match reasoningEffortRank requested, reasoningEffortRank maximum with
    | some rank, some cap => if cap < rank then maximum else requested
    | _, _ => requested

/-- `effective_model`. -/
def Config.effectiveModel (config : Config) (model : String) (reasoningEffort : Option String) :
    Option EffectiveModel :=
  (config.modelPrices.get model).map fun price => {
    model
    reasoningEffort := reasoningEffort.map (cappedEffort price.maxReasoningEffort)
    rates := {
      inputUsdPerMillion := price.inputUsdPerMillion
      cachedInputUsdPerMillion := price.cachedInputUsdPerMillion
      outputUsdPerMillion := price.outputUsdPerMillion } }

/-- `model_candidates`. A configured fallback has prices once the configuration is validated. -/
def Config.modelCandidates (config : Config) (model : String) (reasoningEffort : Option String) :
    Option ModelCandidates :=
  (config.effectiveModel model reasoningEffort).map fun primary => {
    primary
    fallback := config.fallbackModel.bind (config.effectiveModel · reasoningEffort) }

/-- `apply_effective_request`. The effort is written where the request had one. -/
def applyEffectiveRequest (body : Object) (effectiveModel : EffectiveModel) : Object :=
  let body := body.insert "model" (.string effectiveModel.model)
  match effectiveModel.reasoningEffort, body.get "reasoning" with
  | some reasoningEffort, some reasoning =>
    body.insert "reasoning" (reasoning.setField "effort" (.string reasoningEffort))
  | _, _ => body

/-! ### What validation guarantees about limits -/

/-- The limits of a key of a validated configuration. -/
structure QuotaLimits.Validated (quota : QuotaLimits) (hasFallback : Bool) : Prop where
  hard_iff_weekly : quota.hardLimitUsd.isSome = quota.weeklyLimitUsd.isSome
  weekly_nonneg : ∀ soft ∈ quota.weeklyLimitUsd, 0 ≤ soft.toRat
  weekly_le_hard : ∀ soft ∈ quota.weeklyLimitUsd, ∀ hard ∈ quota.hardLimitUsd,
    soft.toRat ≤ hard.toRat
  weekly_lt_hard : hasFallback = true → ∀ soft ∈ quota.weeklyLimitUsd,
    ∀ hard ∈ quota.hardLimitUsd, soft.toRat < hard.toRat

theorem ensure_eq_ok {condition : Bool} {message : String} {u : Unit} :
    ensure condition message = .ok u ↔ condition = true := by
  cases condition <;> simp [ensure]

theorem validated_of_validateLimits {hasFallback : Bool} {key : ApiKeyConfig}
    (h : validateLimits hasFallback key = .ok ()) : key.quota.Validated hasFallback := by
  simp only [validateLimits, bind_eq_ok, ensure_eq_ok] at h
  obtain ⟨-, hweekly, -, -, hlimits⟩ := h
  have horder : ∀ soft ∈ key.weeklyLimitUsd, ∀ hard ∈ key.hardLimitUsd,
      (!(hasFallback && hard.le soft)) = true ∧ soft.le hard = true := by
    intro soft hsoft hard hhard
    rw [Option.mem_def] at hsoft hhard
    rw [hsoft, hhard] at hlimits
    simpa only [bind_eq_ok, ensure_eq_ok, exists_const] using hlimits
  refine ⟨key.hard_iff_weekly, fun soft hsoft => ?_, fun soft hsoft hard hhard => ?_,
    fun hfallback soft hsoft hard hhard => ?_⟩
  · have hsoft' : key.weeklyLimitUsd = some soft := hsoft
    have := Decimal.le_iff.mp (by simpa [hsoft'] using hweekly)
    simpa using this
  · exact Decimal.le_iff.mp (horder soft hsoft hard hhard).2
  · have hle := (horder soft hsoft hard hhard).1
    rw [hfallback, Bool.true_and] at hle
    refine lt_of_not_ge fun hge => ?_
    rw [Decimal.le_iff.mpr hge] at hle
    exact Bool.false_ne_true hle

theorem validateLimits_of_validateKeys {hasFallback : Bool} {keys : List ApiKeyConfig} :
    ∀ {ids secrets : List String}, validateKeys hasFallback ids secrets keys = .ok () →
      ∀ key ∈ keys, validateLimits hasFallback key = .ok () := by
  induction keys with
  | nil => simp
  | cons key keys ih =>
    intro ids secrets h
    simp only [validateKeys, bind_eq_ok] at h
    obtain ⟨-, -, -, -, -, -, -, -, -, -, ⟨⟩, hlimits, hrest⟩ := h
    intro key' hmem
    rcases List.mem_cons.mp hmem with rfl | hmem
    · exact hlimits
    · exact ih hrest key' hmem

theorem Config.validateKeys_of_validate {config : Config} (h : config.validate = .ok ()) :
    validateKeys config.fallbackModel.isSome [] [] config.apiKeys = .ok () := by
  simp only [Config.validate, bind_eq_ok] at h
  obtain ⟨-, -, -, -, -, -, -, -, -, -, -, -, ⟨⟩, hkeys, -⟩ := h
  exact hkeys

/-- **Validated limits.** Every key of a configuration that `validate` accepts has limits in
order. -/
theorem Config.validated_quota {config : Config} (h : config.validate = .ok ())
    {key : ApiKeyConfig} (hkey : key ∈ config.apiKeys) :
    key.quota.Validated config.fallbackModel.isSome :=
  validated_of_validateLimits
    (validateLimits_of_validateKeys (config.validateKeys_of_validate h) key hkey)

/-- The ids and secrets of the keys that `validate` has yet to see are new and distinct. -/
theorem distinct_of_validateKeys {hasFallback : Bool} {keys : List ApiKeyConfig} :
    ∀ {ids secrets : List String}, validateKeys hasFallback ids secrets keys = .ok () →
      (∀ key ∈ keys, key.id ∉ ids ∧ key.secret ∉ secrets) ∧
        keys.Pairwise fun key key' => key.id ≠ key'.id ∧ key.secret ≠ key'.secret := by
  induction keys with
  | nil => simp
  | cons key keys ih =>
    intro ids secrets h
    simp only [validateKeys, bind_eq_ok, ensure_eq_ok] at h
    obtain ⟨-, -, -, -, -, -, -, hnewId, -, hnewSecret, ⟨⟩, -, hrest⟩ := h
    have hnewId' : key.id ∉ ids := by simpa using hnewId
    have hnewSecret' : key.secret ∉ secrets := by simpa using hnewSecret
    obtain ⟨hlater, hpairwise⟩ := ih hrest
    refine ⟨fun key' hmem => ?_, List.pairwise_cons.mpr ⟨fun key' hmem => ?_, hpairwise⟩⟩
    · rcases List.mem_cons.mp hmem with rfl | hmem
      · exact ⟨hnewId', hnewSecret'⟩
      · obtain ⟨hid, hsecret⟩ := hlater key' hmem
        exact ⟨fun hseen => hid (List.mem_cons_of_mem _ hseen),
          fun hseen => hsecret (List.mem_cons_of_mem _ hseen)⟩
    · obtain ⟨hid, hsecret⟩ := hlater key' hmem
      exact ⟨fun heq => hid (heq ▸ List.mem_cons_self),
        fun heq => hsecret (heq ▸ List.mem_cons_self)⟩

/-- **Validated ids.** No two keys share an id. -/
theorem Config.validated_unique {config : Config} (h : config.validate = .ok ())
    {key key' : ApiKeyConfig} (hkey : key ∈ config.apiKeys) (hkey' : key' ∈ config.apiKeys)
    (hid : key.id = key'.id) : key = key' := by
  obtain ⟨-, hpairwise⟩ := distinct_of_validateKeys (config.validateKeys_of_validate h)
  have hinj := List.inj_on_of_nodup_map (List.pairwise_map.mpr (hpairwise.imp fun hne => hne.1))
  exact hinj hkey hkey' hid

/-- **Validated secrets.** No two keys share a secret. -/
theorem Config.validated_secret_unique {config : Config} (h : config.validate = .ok ())
    {key key' : ApiKeyConfig} (hkey : key ∈ config.apiKeys) (hkey' : key' ∈ config.apiKeys)
    (hsecret : key.secret = key'.secret) : key = key' := by
  obtain ⟨-, hpairwise⟩ := distinct_of_validateKeys (config.validateKeys_of_validate h)
  have hinj := List.inj_on_of_nodup_map (List.pairwise_map.mpr (hpairwise.imp fun hne => hne.2))
  exact hinj hkey hkey' hsecret

theorem secret_of_validateKeys {hasFallback : Bool} {keys : List ApiKeyConfig} :
    ∀ {ids secrets : List String}, validateKeys hasFallback ids secrets keys = .ok () →
      ∀ key ∈ keys, key.secret ≠ "" ∧ key.secret.toList.any isAsciiWhitespace = false := by
  induction keys with
  | nil => simp
  | cons key keys ih =>
    intro ids secrets h
    simp only [validateKeys, bind_eq_ok, ensure_eq_ok] at h
    obtain ⟨-, -, -, hsecret, -, hspace, -, -, -, -, ⟨⟩, -, hrest⟩ := h
    intro key' hmem
    rcases List.mem_cons.mp hmem with rfl | hmem
    · exact ⟨of_decide_eq_true hsecret, by simpa using hspace⟩
    · exact ih hrest key' hmem

/-- **Validated secrets.** A secret is not empty and has no ASCII white space. -/
theorem Config.validated_secret {config : Config} (h : config.validate = .ok ())
    {key : ApiKeyConfig} (hkey : key ∈ config.apiKeys) :
    key.secret ≠ "" ∧ key.secret.toList.any isAsciiWhitespace = false :=
  secret_of_validateKeys (config.validateKeys_of_validate h) key hkey

/-! ### What validation guarantees about models -/

theorem rank_of_validatePrices {prices : List (String × ModelPrice)}
    (h : validatePrices prices = .ok ()) {model : String} {price : ModelPrice}
    (hmem : (model, price) ∈ prices) {maximum : String}
    (hmax : price.maxReasoningEffort = some maximum) :
    ∃ cap, reasoningEffortRank maximum = some cap := by
  induction prices with
  | nil => cases hmem
  | cons entry prices ih =>
    obtain ⟨model', price'⟩ := entry
    simp only [validatePrices, bind_eq_ok, ensure_eq_ok] at h
    obtain ⟨-, -, -, -, -, -, -, -, -, heffort, hrest⟩ := h
    rcases List.mem_cons.mp hmem with heq | hmem
    · have hprice : price = price' := congrArg Prod.snd heq
      rw [← hprice, hmax] at heffort
      exact Option.isSome_iff_exists.mp heffort
    · exact ih hrest hmem

/-- **Validated caps.** Every cap on the reasoning effort is a known level. -/
theorem Config.validated_cap {config : Config} (h : config.validate = .ok ()) {model : String}
    {price : ModelPrice} (hprice : config.modelPrices.get model = some price) {maximum : String}
    (hmax : price.maxReasoningEffort = some maximum) :
    ∃ cap, reasoningEffortRank maximum = some cap := by
  simp only [Config.validate, bind_eq_ok] at h
  obtain ⟨-, -, -, -, -, -, -, -, -, -, -, -, -, -, -, -, ⟨⟩, hprices, -⟩ := h
  exact rank_of_validatePrices hprices (Assoc.mem_of_get hprice) hmax

theorem price_of_validatePrices {prices : List (String × ModelPrice)}
    (h : validatePrices prices = .ok ()) {model : String} {price : ModelPrice}
    (hmem : (model, price) ∈ prices) :
    0 ≤ price.inputUsdPerMillion.mantissa ∧ 0 ≤ price.cachedInputUsdPerMillion.mantissa ∧
      0 ≤ price.outputUsdPerMillion.mantissa := by
  induction prices with
  | nil => cases hmem
  | cons entry prices ih =>
    obtain ⟨model', price'⟩ := entry
    simp only [validatePrices, bind_eq_ok, ensure_eq_ok, Decimal.zero_le_iff] at h
    obtain ⟨-, -, -, hinput, -, hcached, -, houtput, -, -, hrest⟩ := h
    rcases List.mem_cons.mp hmem with heq | hmem
    · rw [show price = price' from congrArg Prod.snd heq]
      exact ⟨hinput, hcached, houtput⟩
    · exact ih hrest hmem

/-- **Validated prices.** No model of a validated configuration has a negative rate. -/
theorem Config.validated_rates {config : Config} (h : config.validate = .ok ()) {model : String}
    {reasoningEffort : Option String} {effectiveModel : EffectiveModel}
    (heffective : config.effectiveModel model reasoningEffort = some effectiveModel) :
    effectiveModel.rates.Nonneg := by
  obtain ⟨price, hprice, rfl⟩ := Option.map_eq_some_iff.mp heffective
  simp only [Config.validate, bind_eq_ok] at h
  obtain ⟨-, -, -, -, -, -, -, -, -, -, -, -, -, -, -, -, ⟨⟩, hprices, -⟩ := h
  obtain ⟨hinput, hcached, houtput⟩ := price_of_validatePrices hprices (Assoc.mem_of_get hprice)
  exact ⟨hinput, hcached, houtput⟩

/-- **Validated fallback.** The fallback model has prices. -/
theorem Config.validated_fallback {config : Config} (h : config.validate = .ok ())
    {fallbackModel : String} (hfallback : config.fallbackModel = some fallbackModel) :
    ∃ price, config.modelPrices.get fallbackModel = some price := by
  simp only [Config.validate, validateFallback, hfallback, bind_eq_ok, ensure_eq_ok] at h
  obtain ⟨-, -, -, -, -, -, -, -, -, -, -, -, -, -, -, -, -, -, -, -, hcontains⟩ := h
  exact Option.isSome_iff_exists.mp hcontains

/-- The candidates of a validated configuration have a fallback exactly when it has one. -/
theorem Config.isSome_fallback {config : Config} (h : config.validate = .ok ())
    {model : String} {reasoningEffort : Option String} {candidates : ModelCandidates}
    (hcandidates : config.modelCandidates model reasoningEffort = some candidates) :
    candidates.fallback.isSome = config.fallbackModel.isSome := by
  obtain ⟨primary, -, rfl⟩ := Option.map_eq_some_iff.mp hcandidates
  cases hfallback : config.fallbackModel with
  | none => rfl
  | some fallbackModel =>
    obtain ⟨price, hprice⟩ := config.validated_fallback h hfallback
    simp [Config.effectiveModel, hprice]

end CodexApi
