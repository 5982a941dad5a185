import CodexApi.Cli.Stat

/-!
# Three views of a quota

Admission, the model list and the `stat` command each decide from the ledger what a key may still
use. `QuotaState` is what they are about: below the soft limit every model, then the fallback
model up to the hard limit, then nothing. Each view shows exactly this state
(`modelAccess_eq`, `statStatus_eq`, `beginRequest_of_weeklySpec`), so they agree
(`quotaViews_agree`).

Two things set the views apart. A request for the fallback model itself is admitted on it in both
of the other states, so its admission does not tell them apart. And the report exists only for a week
that the date functions know, while admission and the model list work for every clock time.
-/

namespace CodexApi

/-! ### The state of a quota -/

/-- What a key may use. -/
inductive QuotaState
  | full
  | fallbackOnly
  | closed
deriving DecidableEq

/-- The state of a key that has spent `spentNanoUsd` this week. -/
def QuotaState.Holds (quota : QuotaLimits) (hasFallback : Bool) (spentNanoUsd : Int) :
    QuotaState → Prop
  | .full => ¬ Reached quota.weeklyLimitUsd spentNanoUsd
  | .fallbackOnly => hasFallback = true ∧ Reached quota.weeklyLimitUsd spentNanoUsd ∧
      ¬ Reached quota.hardLimitUsd spentNanoUsd
  | .closed => Reached quota.weeklyLimitUsd spentNanoUsd ∧
      (hasFallback = false ∨ Reached quota.hardLimitUsd spentNanoUsd)

/-- What `model_access` answers in a state. -/
def QuotaState.access : QuotaState → ModelAccess
  | .full => .all
  | .fallbackOnly => .fallbackOnly
  | .closed => .blocked

/-- The decision of admission in a state. -/
def QuotaState.decision (candidates : ModelCandidates) : QuotaState → Decision
  | .full => .primary
  | .fallbackOnly => .fallback (candidates.fallback.getD candidates.primary)
  | .closed => .rejected

/-- The status that the report shows in a state. -/
def QuotaState.status (limited : Bool) : QuotaState → StatStatus
  | .full => if limited then .available else .unlimited
  | .fallbackOnly => .fallback
  | .closed => .blocked

section

variable {quota : QuotaLimits} {hasFallback : Bool} {spentNanoUsd : Int} {state : QuotaState}

/-- Every quota is in a state. -/
theorem QuotaState.exists_holds (quota : QuotaLimits) (hasFallback : Bool) (spentNanoUsd : Int) :
    ∃ state : QuotaState, state.Holds quota hasFallback spentNanoUsd := by
  by_cases hsoft : Reached quota.weeklyLimitUsd spentNanoUsd
  · by_cases hclosed : hasFallback = false ∨ Reached quota.hardLimitUsd spentNanoUsd
    · exact ⟨.closed, hsoft, hclosed⟩
    · have hfallback : hasFallback = true := by
        simpa using fun hnone => hclosed (.inl hnone)
      exact ⟨.fallbackOnly, hfallback, hsoft, fun hhard => hclosed (.inr hhard)⟩
  · exact ⟨.full, hsoft⟩

/-- Admission decides by the state. -/
theorem QuotaState.Holds.weeklySpec {candidates : ModelCandidates}
    (h : state.Holds quota candidates.fallback.isSome spentNanoUsd) :
    WeeklySpec quota candidates spentNanoUsd (state.decision candidates) := by
  cases state with
  | full => exact h
  | fallbackOnly =>
    obtain ⟨hfallback, hsoft, hhard⟩ := h
    obtain ⟨model, hmodel⟩ := Option.isSome_iff_exists.mp hfallback
    exact ⟨by simp [hmodel], hsoft, hhard⟩
  | closed =>
    obtain ⟨hsoft, hnone | hhard⟩ := h
    · exact ⟨hsoft, .inl (by simpa using hnone)⟩
    · exact ⟨hsoft, .inr hhard⟩

/-- **The model list shows the state.** -/
theorem modelAccess_eq {now : OffsetDateTime} {ledger : Ledger} {apiKeyId : String}
    (hquota : quota.Validated hasFallback)
    (hsum : inI64 (weekSpend ledger apiKeyId (weekOf now.unixMillis)) = true)
    (hweekly : ∀ limit ∈ quota.weeklyLimitUsd, (limit.checkedMul Decimal.nanoPerUnit).isSome = true)
    (hhard : ∀ limit ∈ quota.hardLimitUsd, (limit.checkedMul Decimal.nanoPerUnit).isSome = true)
    (hstate : state.Holds quota hasFallback
      (weekSpend ledger apiKeyId (weekOf now.unixMillis))) :
    modelAccess now ledger apiKeyId quota hasFallback = .ok state.access := by
  obtain ⟨spent, hread⟩ := decimalOfSum_isOk hsum
  obtain ⟨soft, hsoft⟩ : ∃ b, spendMeetsLimit spent quota.weeklyLimitUsd = .ok b :=
    spendMeetsLimit_isOk hweekly
  obtain ⟨hard, hhard⟩ : ∃ b, spendMeetsLimit spent quota.hardLimitUsd = .ok b :=
    spendMeetsLimit_isOk hhard
  have hsoft_iff := reached_of_spendMeetsLimit (toRat_of_decimalOfSum hread) hsoft
  have hhard_iff := reached_of_spendMeetsLimit (toRat_of_decimalOfSum hread) hhard
  have hspend : currentWeekSpendNanoUsd ledger apiKeyId now = .ok spent := by
    rw [currentWeekSpend_eq, hread]
  have hlimited : Reached quota.weeklyLimitUsd (weekSpend ledger apiKeyId (weekOf now.unixMillis)) →
      quota.weeklyLimitUsd.isNone = false := by
    rintro ⟨limit, hlimit, -⟩
    rw [Option.mem_def.mp hlimit]
    rfl
  cases state with
  | full =>
    have hsoft_false : soft = false := by simpa using mt hsoft_iff.mp hstate
    have hhard_false : hard = false := by
      simpa using mt hhard_iff.mp (not_reached_hard hquota hstate)
    cases hnone : quota.weeklyLimitUsd.isNone with
    | true =>
      simp only [modelAccess, hnone, if_true]
      rfl
    | false =>
      simp only [modelAccess, hnone, hspend, hsoft, hhard, hsoft_false, hhard_false, ok_bind]
      rfl
  | fallbackOnly =>
    obtain ⟨hfallback, hreached, hbelow⟩ := hstate
    have hhard_false : hard = false := by simpa using mt hhard_iff.mp hbelow
    simp only [modelAccess, hlimited hreached, hspend, hsoft, hhard, hsoft_iff.mpr hreached,
      hhard_false, hfallback, ok_bind]
    rfl
  | closed =>
    obtain ⟨hreached, hclosed⟩ := hstate
    cases hard with
    | true =>
      simp only [modelAccess, hlimited hreached, hspend, hhard, ok_bind]
      rfl
    | false =>
      have hnone : hasFallback = false := by
        rcases hclosed with hnone | hhard_reached
        · exact hnone
        · exact absurd (hhard_iff.mpr hhard_reached) Bool.false_ne_true
      simp only [modelAccess, hlimited hreached, hspend, hsoft, hhard, hsoft_iff.mpr hreached,
        hnone, ok_bind]
      rfl

/-- A spend of whole billionths has reached a limit exactly when it is no less, as decimals. -/
theorem le_iff_reached {limit spent : Decimal} (hspent : spent.IsNano spentNanoUsd) :
    limit.le spent = true ↔ Reached (some limit) spentNanoUsd := by
  have hscale : limit.toRat ≤ spent.toRat ↔
      limit.toRat * 1000000000 ≤ spent.toRat * 1000000000 :=
    (mul_le_mul_iff_left₀ (by norm_num)).symm
  rw [Decimal.le_iff, hscale, hspent.toRat]
  simp [Reached]

/-- **The report shows the state.** -/
theorem statStatus_eq {key : ApiKeyConfig} {spent : Decimal} (hspent : spent.IsNano spentNanoUsd)
    (hquota : key.quota.Validated hasFallback)
    (hstate : state.Holds key.quota hasFallback spentNanoUsd) :
    statStatus key hasFallback spent = state.status key.weeklyLimitUsd.isSome := by
  unfold statStatus
  split
  · rename_i hweekly
    have hunlimited : ¬ Reached key.quota.weeklyLimitUsd spentNanoUsd := by
      rintro ⟨limit, hlimit, -⟩
      rw [ApiKeyConfig.quota, hweekly] at hlimit
      cases hlimit
    cases state with
    | full => simp [QuotaState.status, hweekly]
    | fallbackOnly => exact absurd hstate.2.1 hunlimited
    | closed => exact absurd hstate.1 hunlimited
  · rename_i soft hardLimit hweekly hhard
    have hsoft_iff : soft.le spent = true ↔ Reached key.quota.weeklyLimitUsd spentNanoUsd := by
      rw [ApiKeyConfig.quota, hweekly]
      exact le_iff_reached hspent
    have hhard_iff : hardLimit.le spent = true ↔ Reached key.quota.hardLimitUsd spentNanoUsd := by
      rw [ApiKeyConfig.quota, hhard]
      exact le_iff_reached hspent
    cases state with
    | full =>
      have hsoft : soft.le spent = false := by simpa using mt hsoft_iff.mp hstate
      have hhard : hardLimit.le spent = false := by
        simpa using mt hhard_iff.mp (not_reached_hard hquota hstate)
      simp [hsoft, hhard, QuotaState.status, hweekly]
    | fallbackOnly =>
      obtain ⟨hfallback, hreached, hbelow⟩ := hstate
      have hsoft : soft.le spent = true := hsoft_iff.mpr hreached
      have hhard : hardLimit.le spent = false := by simpa using mt hhard_iff.mp hbelow
      simp [hsoft, hhard, hfallback, QuotaState.status]
    | closed =>
      obtain ⟨hreached, hclosed⟩ := hstate
      have hsoft : soft.le spent = true := hsoft_iff.mpr hreached
      have hblocked : (hardLimit.le spent || (soft.le spent && !hasFallback)) = true := by
        rcases hclosed with hnone | hreached_hard
        · simp [hsoft, hnone]
        · simp [hhard_iff.mpr hreached_hard]
      simp [hblocked, QuotaState.status]
  · rename_i hweekly hhard
    have hboth := key.hard_iff_weekly
    rw [hweekly, hhard] at hboth
    cases hboth

end

/-! ### The views agree -/

/-- What it is for the answers of the three views to a key to agree on a request for `model`. A
request for the fallback model itself is admitted alike in both open states. -/
structure ViewsAgree (config : Config) (model : String) (candidates : ModelCandidates)
    (id : RequestId) (admission : Admission) (access : ModelAccess) (status : StatStatus) :
    Prop where
  all_iff : access = .all ↔ status = .unlimited ∨ status = .available
  fallbackOnly_iff : access = .fallbackOnly ↔ status = .fallback
  blocked_iff : access = .blocked ↔ status = .blocked
  rejected_iff : admission = .weeklyQuotaExceeded ↔ access = .blocked
  admitted_iff : config.fallbackModel ≠ some model →
    (admission = .admitted id candidates.primary ↔ access = .all)
  rewritten_iff : config.fallbackModel ≠ some model →
    ((∃ fallback, candidates.fallback = some fallback ∧ admission = .admitted id fallback) ↔
      access = .fallbackOnly)
  admitted_iff_of_fallback : config.fallbackModel = some model →
    (admission = .admitted id candidates.primary ↔ access ≠ .blocked)

/-- The model of the fallback candidate is the configured one. -/
theorem model_of_fallback {config : Config} {model : String} {reasoningEffort : Option String}
    {candidates : ModelCandidates} {fallback : EffectiveModel}
    (hcandidates : config.modelCandidates model reasoningEffort = some candidates)
    (hfallback : candidates.fallback = some fallback) :
    candidates.primary.model = model ∧ config.fallbackModel = some fallback.model := by
  obtain ⟨primary, hprimary, rfl⟩ := Option.map_eq_some_iff.mp hcandidates
  obtain ⟨price, -, rfl⟩ := Option.map_eq_some_iff.mp hprimary
  obtain ⟨fallbackModel, hmodel, heffective⟩ := Option.bind_eq_some_iff.mp hfallback
  obtain ⟨price', -, rfl⟩ := Option.map_eq_some_iff.mp heffective
  exact ⟨rfl, hmodel⟩

/-- The candidate for the fallback model is its own fallback. -/
theorem fallback_eq_primary {config : Config} {model : String} {reasoningEffort : Option String}
    {candidates : ModelCandidates}
    (hcandidates : config.modelCandidates model reasoningEffort = some candidates)
    (hmodel : config.fallbackModel = some model) :
    candidates.fallback = some candidates.primary := by
  obtain ⟨primary, hprimary, rfl⟩ := Option.map_eq_some_iff.mp hcandidates
  simp only [hmodel, Option.bind_some, hprimary]

/-- Views that show one state agree. -/
theorem viewsAgree_of_state {config : Config} {model : String} {reasoningEffort : Option String}
    {candidates : ModelCandidates}
    (hcandidates : config.modelCandidates model reasoningEffort = some candidates)
    {quota : QuotaLimits} {spentNanoUsd : Int} {state : QuotaState}
    (hstate : state.Holds quota candidates.fallback.isSome spentNanoUsd) (now : OffsetDateTime)
    (context : RequestContext) (id : RequestId) (limited : Bool) :
    ViewsAgree config model candidates id ((state.decision candidates).outcome now context
      candidates id).1 state.access (state.status limited) := by
  have hdistinct : config.fallbackModel ≠ some model → ∀ fallback,
      candidates.fallback = some fallback → candidates.primary ≠ fallback := by
    rintro hmodel fallback hfallback rfl
    obtain ⟨hprimary, hconfigured⟩ := model_of_fallback hcandidates hfallback
    exact hmodel (by rw [hconfigured, hprimary])
  cases state with
  | full =>
    constructor
    · cases limited <;> simp [QuotaState.access, QuotaState.status]
    · cases limited <;> simp [QuotaState.access, QuotaState.status]
    · cases limited <;> simp [QuotaState.access, QuotaState.status]
    · simp [QuotaState.access, QuotaState.decision, Decision.outcome]
    · simp [QuotaState.access, QuotaState.decision, Decision.outcome]
    · intro hmodel
      refine iff_of_false ?_ (by simp [QuotaState.access])
      rintro ⟨fallback, hfallback, hadmission⟩
      simp only [QuotaState.decision, Decision.outcome, Admission.admitted.injEq, true_and]
        at hadmission
      exact hdistinct hmodel fallback hfallback hadmission
    · simp [QuotaState.access, QuotaState.decision, Decision.outcome]
  | fallbackOnly =>
    obtain ⟨fallback, hfallback⟩ := Option.isSome_iff_exists.mp hstate.1
    constructor
    · simp [QuotaState.access, QuotaState.status]
    · simp [QuotaState.access, QuotaState.status]
    · simp [QuotaState.access, QuotaState.status]
    · simp [QuotaState.access, QuotaState.decision, Decision.outcome]
    · intro hmodel
      have hne := hdistinct hmodel fallback hfallback
      simpa [QuotaState.access, QuotaState.decision, Decision.outcome, hfallback] using hne.symm
    · simp [QuotaState.access, QuotaState.decision, Decision.outcome, hfallback]
    · intro hmodel
      simp [QuotaState.access, QuotaState.decision, Decision.outcome,
        fallback_eq_primary hcandidates hmodel]
  | closed =>
    constructor
    · simp [QuotaState.access, QuotaState.status]
    · simp [QuotaState.access, QuotaState.status]
    · simp [QuotaState.access, QuotaState.status]
    · simp [QuotaState.access, QuotaState.decision, Decision.outcome]
    · simp [QuotaState.access, QuotaState.decision, Decision.outcome]
    · simp [QuotaState.access, QuotaState.decision, Decision.outcome]
    · simp [QuotaState.access, QuotaState.decision, Decision.outcome]

/-- **The three views agree.** Under a validated configuration, over rows that pass the checks of
the table, at a time whose week is in the calendar, and with the sums of the week in `i64` and
limits that scale to nano-USD, a request of a configured key for a priced model is answered by
admission, by the model list and by the report, and the three answers agree. -/
theorem quotaViews_agree (config : Config) (hvalid : config.validate = .ok ()) (key : ApiKeyConfig)
    (hkey : key ∈ config.apiKeys) (ledger : Ledger) (hchecks : ∀ row ∈ ledger, row.checks = true)
    (now : OffsetDateTime) (hcalendar : InCalendar now)
    (hspend : ∀ apiKeyId, inI64 (weekSpend ledger apiKeyId (weekOf now.unixMillis)) = true)
    (htokens : ∀ apiKeyId, inI64 (weekInputTokens ledger apiKeyId (weekOf now.unixMillis)) = true)
    (hweekly : ∀ limit ∈ key.weeklyLimitUsd, (limit.checkedMul Decimal.nanoPerUnit).isSome = true)
    (hhard : ∀ limit ∈ key.hardLimitUsd, (limit.checkedMul Decimal.nanoPerUnit).isSome = true)
    (context : RequestContext) (hcontext : context.apiKeyId = key.id) (model : String)
    (reasoningEffort : Option String) (candidates : ModelCandidates)
    (hcandidates : config.modelCandidates model reasoningEffort = some candidates) :
    ∃ admission ledger' access report,
      beginRequest now ledger context key.quota candidates = .ok (admission, ledger') ∧
      modelAccess now ledger key.id key.quota config.fallbackModel.isSome = .ok access ∧
      printStat now ⟨none, none⟩ config ledger = .ok report ∧
      (∃ line ∈ report, line.apiKey = key.id) ∧
      ∀ line ∈ report, line.apiKey = key.id →
        ViewsAgree config model candidates ledger.length admission access line.status := by
  have hquota := config.validated_quota hvalid hkey
  have hfallback := config.isSome_fallback hvalid hcandidates
  obtain ⟨state, hstate⟩ := QuotaState.exists_holds key.quota config.fallbackModel.isSome
    (weekSpend ledger key.id (weekOf now.unixMillis))
  have hstate' : state.Holds key.quota candidates.fallback.isSome
      (weekSpend ledger key.id (weekOf now.unixMillis)) := by rwa [hfallback]
  obtain ⟨sums, hreport, hspent⟩ :=
    printStat_default config hcalendar hchecks hspend htokens
  have hspec := hstate'.weeklySpec
  rw [← hcontext] at hspec
  refine ⟨_, _, _, _,
    beginRequest_of_weeklySpec hquota (hspend context.apiKeyId) hweekly hhard hspec,
    modelAccess_eq hquota (hspend key.id) hweekly hhard hstate, hreport,
    ⟨statRow config sums key, List.mem_map_of_mem hkey, rfl⟩, ?_⟩
  intro line hline hid
  obtain ⟨key', hkey', rfl⟩ := List.mem_map.mp hline
  have hsame : key' = key := config.validated_unique hvalid hkey' hkey hid
  rw [hsame]
  have hstatus : (statRow config sums key).status = state.status key.weeklyLimitUsd.isSome :=
    statStatus_eq (hspent key.id) hquota hstate
  rw [hstatus]
  exact viewsAgree_of_state hcandidates hstate' now context ledger.length _

/-! ### At the soft limit -/

/-- One dollar per million tokens of every kind, without a cap on the reasoning effort. -/
def flatPrice : ModelPrice := ⟨.one, .one, .one, none⟩

/-- A key that falls back from two to three thousandths of a dollar a week. -/
def smallKey : ApiKeyConfig :=
  ⟨"key", "secret", smallQuota.weeklyLimitUsd, smallQuota.hardLimitUsd, rfl⟩

/-- A relay with one key and two models, the small one being the fallback. -/
def smallConfig : Config where
  enableWebsockets := true
  supportsWebsockets := true
  statePath := "state"
  authFile := "auth"
  baseUrlScheme := "https"
  oauthTokenUrlScheme := "https"
  fallbackModel := some "small"
  apiKeys := [smallKey]
  modelPrices := OrdMap.ofList [("large", flatPrice), ("small", flatPrice)]

theorem validate_smallConfig : smallConfig.validate = .ok () := by decide

/-- A key at its soft limit: the fallback model is admitted, listed and reported. -/
theorem quotaViews_agree_at_soft_limit :
    ∃ admission ledger' access report,
      beginRequest epochNoon [spentRow] ⟨"key", .responses, .httpSse⟩ smallKey.quota
          ⟨flatModel "large", some (flatModel "small")⟩ = .ok (admission, ledger') ∧
      modelAccess epochNoon [spentRow] "key" smallKey.quota true = .ok access ∧
      printStat epochNoon ⟨none, none⟩ smallConfig [spentRow] = .ok report ∧
      (∃ line ∈ report, line.apiKey = "key") ∧
      ∀ line ∈ report, line.apiKey = "key" →
        ViewsAgree smallConfig "large" ⟨flatModel "large", some (flatModel "small")⟩ 1 admission
          access line.status := by
  have hspend : ∀ apiKeyId,
      inI64 (weekSpend [spentRow] apiKeyId (weekOf epochNoon.unixMillis)) = true := by
    intro apiKeyId
    by_cases hkey : "key" = apiKeyId
    · rw [← hkey]
      decide
    · have hnone : weekSpend [spentRow] apiKeyId (weekOf epochNoon.unixMillis) = 0 := by
        simp [weekSpend, weekCosts, spentRow, startedRow, Row.finish, hkey]
      rw [hnone]
      decide
  have htokens : ∀ apiKeyId,
      inI64 (weekInputTokens [spentRow] apiKeyId (weekOf epochNoon.unixMillis)) = true := by
    intro apiKeyId
    by_cases hkey : "key" = apiKeyId
    · rw [← hkey]
      decide
    · have hnone : weekInputTokens [spentRow] apiKeyId (weekOf epochNoon.unixMillis) = 0 := by
        simp [weekInputTokens, keySum, spentRow, startedRow, Row.finish, hkey]
      rw [hnone]
      decide
  exact quotaViews_agree smallConfig validate_smallConfig smallKey (by simp [smallConfig])
    [spentRow] (by simpa using (show spentRow.checks = true by decide)) epochNoon
    ⟨by decide, by decide⟩ hspend htokens (by rintro limit ⟨⟩; decide)
    (by rintro limit ⟨⟩; decide) ⟨"key", .responses, .httpSse⟩ rfl "large" none
    ⟨flatModel "large", some (flatModel "small")⟩ (by decide)

/-- Monday, the 27th of December 9999. -/
def lastMonday : OffsetDateTime := ⟨253401868800000000000, by decide, by decide⟩

/-- The views differ where a request names the fallback model, which is admitted while the model
list shows the fallback only; and in the last week of the calendar, where the report panics. -/
theorem quotaViews_disagree :
    (smallConfig.validate = .ok () ∧
      smallConfig.modelCandidates "small" none =
        some ⟨flatModel "small", some (flatModel "small")⟩ ∧
      (beginRequest epochNoon [spentRow] ⟨"key", .responses, .httpSse⟩ smallKey.quota
          ⟨flatModel "small", some (flatModel "small")⟩).map Prod.fst =
        .ok (.admitted 1 (flatModel "small")) ∧
      modelAccess epochNoon [spentRow] "key" smallKey.quota true = .ok .fallbackOnly) ∧
    (modelAccess lastMonday [] "key" smallKey.quota true = .ok .all ∧
      printStat lastMonday ⟨none, none⟩ smallConfig [] = .error .panicked) := by
  decide

end CodexApi
