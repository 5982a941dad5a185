import CodexApi.Store.Concurrency

/-!
# When admission reaches a decision

`begin_request` and `model_access` can fail in two places although the database works: scaling a
limit to nano-USD leaves no room for it in a decimal, or the week's costs add up to more than an
`i64`. Nothing in a validated configuration excludes either.

`admission_decides_iff` is the exact condition. It asks for the sum under every key, with limits or
without: `begin_request` reads it always, while `model_access` answers for a key without limits
before it reads (`modelAccess_decides_iff`).
-/

namespace CodexApi

open Transition

variable {now : OffsetDateTime} {ledger : Ledger} {context : RequestContext}
  {quota : QuotaLimits} {candidates : ModelCandidates} {hasFallback : Bool} {spent : Decimal}

/-! ### What succeeds -/

/-- The week's spend is read exactly when it is an `i64`. -/
theorem currentWeekSpend_isOk_iff {apiKeyId : String} :
    (∃ spent, currentWeekSpendNanoUsd ledger apiKeyId now = .ok spent) ↔
      inI64 (weekSpend ledger apiKeyId (weekOf now.unixMillis)) = true := by
  rw [currentWeekSpend_eq]
  refine ⟨fun ⟨spent, h⟩ => ?_, decimalOfSum_isOk⟩
  rw [decimalOfSum] at h
  split_ifs at h with hsum
  exact hsum

/-- The limits of a key, if there are any, can be scaled to nano-USD. -/
def QuotaLimits.Scales (quota : QuotaLimits) : Prop :=
  ∀ limit ∈ quota.hardLimitUsd, limit.toRat * 1000000000 < 2 ^ 96

/-- A comparison with a limit that is not negative succeeds exactly when the scaled limit is below
`2 ^ 96`. -/
theorem spendMeetsLimit_isOk_iff {limit : Decimal} (hlimit : 0 ≤ limit.toRat) :
    (∃ b, spendMeetsLimit spent (some limit) = .ok b) ↔ limit.toRat * 1000000000 < 2 ^ 96 := by
  rw [← Decimal.isSome_checkedMul_nano_iff (Decimal.toRat_nonneg_iff.mp hlimit)]
  cases hmul : limit.checkedMul Decimal.nanoPerUnit <;> simp [spendMeetsLimit, hmul]

/-- Both comparisons with the limits of a validated key succeed exactly when its limits scale; the
weekly limit is the smaller one. -/
theorem limits_isOk_iff (spent : Decimal) (hquota : quota.Validated hasFallback) :
    ((∃ b, spendMeetsLimit spent quota.weeklyLimitUsd = .ok b) ∧
      ∃ b, spendMeetsLimit spent quota.hardLimitUsd = .ok b) ↔ quota.Scales := by
  have hsome := hquota.hard_iff_weekly
  cases hhard : quota.hardLimitUsd with
  | none =>
    have hweekly : quota.weeklyLimitUsd = none := by
      rw [hhard] at hsome
      exact Option.isNone_iff_eq_none.mp (by simpa using hsome.symm)
    simp [QuotaLimits.Scales, hhard, hweekly, spendMeetsLimit]
  | some hard =>
    obtain ⟨soft, hweekly⟩ : ∃ soft, quota.weeklyLimitUsd = some soft :=
      Option.isSome_iff_exists.mp (by rw [← hsome, hhard]; rfl)
    have hsoft := hquota.weekly_nonneg soft hweekly
    have hle := hquota.weekly_le_hard soft hweekly hard hhard
    rw [hweekly, spendMeetsLimit_isOk_iff hsoft, spendMeetsLimit_isOk_iff (hsoft.trans hle)]
    simp only [QuotaLimits.Scales, hhard, Option.mem_def, Option.some.injEq, forall_eq']
    refine ⟨fun h => h.2, fun h => ⟨lt_of_le_of_lt ?_ h, h⟩⟩
    exact mul_le_mul_of_nonneg_right hle (by norm_num)

/-! ### The decisions -/

/-- **When `begin_request` decides**: the week's costs add up to an `i64` and the limits scale. -/
theorem beginRequest_isOk_iff (hquota : quota.Validated hasFallback) :
    (∃ result, beginRequest now ledger context quota candidates = .ok result) ↔
      inI64 (weekSpend ledger context.apiKeyId (weekOf now.unixMillis)) = true ∧ quota.Scales := by
  constructor
  · rintro ⟨result, h⟩
    simp only [beginRequest, bind_eq_ok] at h
    obtain ⟨spent, hspent, insertion, hplan, -⟩ := h
    obtain ⟨soft, hard, -, hsoft, hhard, -, -⟩ := planInsertion_eq_ok.mp hplan
    exact ⟨currentWeekSpend_isOk_iff.mp ⟨spent, hspent⟩,
      (limits_isOk_iff spent hquota).mp ⟨⟨soft, hsoft⟩, ⟨hard, hhard⟩⟩⟩
  · rintro ⟨hsum, hscales⟩
    obtain ⟨spent, hspent⟩ := currentWeekSpend_isOk_iff.mpr hsum
    obtain ⟨hweekly, hhard⟩ := (limits_isOk_iff spent hquota).mpr hscales
    obtain ⟨decision, hspec, -⟩ := existsUnique_weeklySpec quota candidates
      (weekSpend ledger context.apiKeyId (weekOf now.unixMillis))
    rw [currentWeekSpend_eq] at hspent
    obtain ⟨insertion, hplan, houtcome⟩ := planInsertion_eq hquota (toRat_of_decimalOfSum hspent)
      hweekly hhard hspec now context
    have hchecks : insertion.row.checks = true := by
      rw [show insertion.row = _ from congrArg Prod.snd (houtcome 0)]
      exact decision.checks_outcome
    refine ⟨(insertion.admission ledger.length, ledger ++ [insertion.row]), ?_⟩
    rw [beginRequest, currentWeekSpend_eq, hspent, ok_bind, hplan, ok_bind,
      insertRow_eq_ok.mpr ⟨hchecks, rfl⟩]
    rfl

/-- **When `model_access` decides**: always for a key without limits, otherwise under the same
condition. -/
theorem modelAccess_isOk_iff {apiKeyId : String} (hquota : quota.Validated hasFallback) :
    (∃ access, modelAccess now ledger apiKeyId quota hasFallback = .ok access) ↔
      quota.weeklyLimitUsd = none ∨
        inI64 (weekSpend ledger apiKeyId (weekOf now.unixMillis)) = true ∧ quota.Scales := by
  cases hweekly : quota.weeklyLimitUsd with
  | none =>
    have hall : modelAccess now ledger apiKeyId quota hasFallback = .ok .all := by
      simp [modelAccess, hweekly, pure, Except.pure]
    simp [hall]
  | some soft =>
    simp only [modelAccess, hweekly, Option.isNone_some, Bool.false_eq_true, if_false, bind_eq_ok,
      reduceCtorEq, false_or]
    constructor
    · rintro ⟨access, spent, hspent, reachedHard, hhard, -⟩
      refine ⟨currentWeekSpend_isOk_iff.mp ⟨spent, hspent⟩, ?_⟩
      intro hard hlimit
      have hnonneg := (hquota.weekly_nonneg soft hweekly).trans
        (hquota.weekly_le_hard soft hweekly hard hlimit)
      rw [hlimit] at hhard
      exact (spendMeetsLimit_isOk_iff hnonneg).mp ⟨reachedHard, hhard⟩
    · rintro ⟨hsum, hscales⟩
      obtain ⟨spent, hspent⟩ := currentWeekSpend_isOk_iff.mpr hsum
      obtain ⟨⟨reachedSoft, hsoft⟩, reachedHard, hhard⟩ :=
        (limits_isOk_iff spent hquota).mpr hscales
      rw [hweekly] at hsoft
      cases reachedHard with
      | true => exact ⟨.blocked, spent, hspent, true, hhard, rfl⟩
      | false =>
        cases reachedSoft with
        | true => exact ⟨_, spent, hspent, false, hhard, bind_eq_ok.mpr ⟨true, hsoft, rfl⟩⟩
        | false => exact ⟨.all, spent, hspent, false, hhard, bind_eq_ok.mpr ⟨false, hsoft, rfl⟩⟩

/-- **When admission is total.** For a key of a validated configuration, at any time and on any
ledger, `begin_request` and `model_access` both reach a decision if and only if the key's costs of
the week add up to an `i64` and its limits, if it has any, are below `2 ^ 96` nano-USD. -/
theorem admission_decides_iff {config : Config} {key : ApiKeyConfig}
    (hconfig : config.validate = .ok ()) (hkey : key ∈ config.apiKeys)
    (hcontext : context.apiKeyId = key.id) :
    (∃ result, beginRequest now ledger context key.quota candidates = .ok result) ∧
      (∃ access,
        modelAccess now ledger key.id key.quota config.fallbackModel.isSome = .ok access) ↔
    inI64 (weekSpend ledger key.id (weekOf now.unixMillis)) = true ∧ key.quota.Scales := by
  have hquota := config.validated_quota hconfig hkey
  rw [beginRequest_isOk_iff hquota, modelAccess_isOk_iff hquota, hcontext]
  exact ⟨fun h => h.1, fun h => ⟨h, .inr h⟩⟩

/-! ### Limits and weeks that are too large -/

/-- A configuration of two keys, one with a weekly limit of a hundred quintillion dollars. -/
def boundlessConfig : Config where
  enableWebsockets := false
  supportsWebsockets := false
  statePath := "state"
  authFile := "auth"
  baseUrlScheme := "https"
  oauthTokenUrlScheme := "https"
  fallbackModel := none
  apiKeys :=
    let limit := Decimal.ofInt 100000000000000000000 (by decide)
    [⟨"rich", "secret", some limit, some limit, rfl⟩, .unlimited "free" "password"]
  modelPrices := OrdMap.ofList [("large", ⟨.one, .one, .one, none⟩)]

/-- A request of a key over the Responses API. -/
def requestOf (apiKeyId : String) : RequestContext := ⟨apiKeyId, .responses, .httpSse⟩

/-- The key without limits sends two requests of five quadrillion tokens. -/
def boundlessWeek : List StoreAction :=
  let candidates : ModelCandidates := ⟨flatModel "large", none⟩
  let usage : BillableUsage := ⟨5000000000000000, 0, 0, (flatModel "large").rates⟩
  [.read epochNoon (requestOf "free") candidates, .insert 0,
    .finalize epochNoon 0 .completed (some 200) (some usage),
    .read epochNoon (requestOf "free") candidates, .insert 0,
    .finalize epochNoon 1 .completed (some 200) (some usage)]

/-- The ledger after that week. -/
def boundlessState : StoreState :=
  (exec (storeStep (fun _ => ⟨none, none⟩) false) .init boundlessWeek).getD .init

/-- The key without limits is admitted on the empty ledger. -/
theorem admission_decides_iff_free :
    ((∃ result, beginRequest epochNoon [] (requestOf "free") ⟨none, none⟩
        ⟨flatModel "large", none⟩ = .ok result) ∧
      ∃ access, modelAccess epochNoon [] "free" ⟨none, none⟩ false = .ok access) ↔
    inI64 (weekSpend [] "free" (weekOf epochNoon.unixMillis)) = true ∧
      (⟨none, none⟩ : QuotaLimits).Scales := by
  have hkey : ApiKeyConfig.unlimited "free" "password" ∈ boundlessConfig.apiKeys := by
    simp [boundlessConfig]
  exact admission_decides_iff (by decide) hkey rfl

/-- **Admission without a decision.** In a validated configuration, every request of a key whose
limit is too large fails on the empty ledger; and a key without limits whose two requests were each
priced and recorded gets a database error for its third, while `model_access` still offers it every
model. -/
theorem admission_undecided :
    boundlessConfig.validate = .ok () ∧
      (∀ key ∈ boundlessConfig.apiKeys, key.id = "rich" →
        beginRequest epochNoon [] (requestOf "rich") key.quota ⟨flatModel "large", none⟩ =
            .error .costOutOfRange ∧
          modelAccess epochNoon [] "rich" key.quota false = .error .costOutOfRange) ∧
      StoreRun (fun _ => ⟨none, none⟩) false .init boundlessWeek boundlessState ∧
      beginRequest epochNoon boundlessState.ledger (requestOf "free") ⟨none, none⟩
        ⟨flatModel "large", none⟩ = .error .database ∧
      modelAccess epochNoon boundlessState.ledger "free" ⟨none, none⟩ false = .ok .all := by
  refine ⟨by decide, ?_, run_ofFun_iff.mpr (by decide +kernel), by decide +kernel,
    by decide +kernel⟩
  simp only [boundlessConfig, List.mem_cons, List.not_mem_nil, or_false]
  rintro key (rfl | rfl) hid
  · exact ⟨by decide +kernel, by decide +kernel⟩
  · simp [ApiKeyConfig.unlimited] at hid

end CodexApi
