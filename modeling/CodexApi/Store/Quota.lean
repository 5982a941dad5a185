import CodexApi.Config

/-!
# Admission follows the weekly specification

The specification of quota admission is stated over exact numbers: `weekSpend` is the sum of the
committed costs of a key in a calendar week, and `WeeklySpec` says which of the two candidates a
request gets, by comparing that sum with the limits as rationals. `begin_request` computes the
sum by a millisecond window query and compares decimals; `beginRequest_follows_weeklySpec` shows
that it takes exactly the specified decision and inserts exactly the specified row.
-/

namespace CodexApi

/-! ### The specification -/

/-- The committed costs of a key in the week `week`. -/
def weekCosts (ledger : Ledger) (apiKeyId : String) (week : Int) : List Int :=
  ledger.filterMap fun row =>
    if row.apiKeyId = apiKeyId ∧ weekOf row.requestedAtMs = week then row.costNanoUsd else none

/-- The committed spend of a key in the week `week`. -/
def weekSpend (ledger : Ledger) (apiKeyId : String) (week : Int) : Int :=
  (weekCosts ledger apiKeyId week).sum

/-- Whether a spend in nano-USD has reached a limit in USD; an absent limit is never reached. -/
def Reached (limitUsd : Option Decimal) (spentNanoUsd : Int) : Prop :=
  ∃ limit ∈ limitUsd, limit.toRat * 1000000000 ≤ spentNanoUsd

/-- What admission can decide. -/
inductive Decision
  | primary
  | fallback (model : EffectiveModel)
  | rejected

/-- The decision for a request of a key that has spent `spentNanoUsd` this week: the requested
model below the soft limit, the fallback from the soft limit up to the hard limit, otherwise
rejection. -/
def WeeklySpec (quota : QuotaLimits) (candidates : ModelCandidates) (spentNanoUsd : Int) :
    Decision → Prop
  | .primary => ¬ Reached quota.weeklyLimitUsd spentNanoUsd
  | .fallback model =>
    candidates.fallback = some model ∧ Reached quota.weeklyLimitUsd spentNanoUsd ∧
      ¬ Reached quota.hardLimitUsd spentNanoUsd
  | .rejected =>
    Reached quota.weeklyLimitUsd spentNanoUsd ∧
      (candidates.fallback = none ∨ Reached quota.hardLimitUsd spentNanoUsd)

/-- The row of a request that starts at `now` on `model`. -/
def startedRow (now : OffsetDateTime) (context : RequestContext) (model : EffectiveModel) : Row where
  requestedAtMs := now.unixMillis
  finishedAtMs := none
  apiKeyId := context.apiKeyId
  model := model.model
  reasoningEffort := model.reasoningEffort
  apiProtocol := context.apiProtocol
  transport := context.transport
  inputTokens := none
  cachedInputTokens := none
  outputTokens := none
  costNanoUsd := none
  durationMs := none
  status := .started
  httpStatus := none

/-- The row of a request that is rejected at `now` for its quota. -/
def quotaRejectedRow (now : OffsetDateTime) (context : RequestContext) (model : EffectiveModel) :
    Row :=
  { startedRow now context model with
    finishedAtMs := some now.unixMillis
    durationMs := some 0
    status := .final .rejected
    httpStatus := match context.transport with
      | .httpSse => some 429
      | .webSocket => none }

/-- The rows of admission pass the table's checks. -/
theorem checks_startedRow (now : OffsetDateTime) (context : RequestContext)
    (model : EffectiveModel) : (startedRow now context model).checks = true := rfl

theorem checks_quotaRejectedRow (now : OffsetDateTime) (context : RequestContext)
    (model : EffectiveModel) : (quotaRejectedRow now context model).checks = true := by
  cases h : context.transport <;> simp [Row.checks, quotaRejectedRow, startedRow, h]

/-- The answer and the inserted row of a decision. -/
def Decision.outcome (now : OffsetDateTime) (context : RequestContext)
    (candidates : ModelCandidates) (id : RequestId) : Decision → Admission × Row
  | .primary => (.admitted id candidates.primary, startedRow now context candidates.primary)
  | .fallback model => (.admitted id model, startedRow now context model)
  | .rejected => (.weeklyQuotaExceeded, quotaRejectedRow now context candidates.primary)

/-- The row of every decision belongs to the week of `now`. -/
theorem Decision.weekOf_outcome {now : OffsetDateTime} {context : RequestContext}
    {candidates : ModelCandidates} {id : RequestId} (decision : Decision) :
    weekOf (decision.outcome now context candidates id).2.requestedAtMs = weekOf now.unixMillis := by
  cases decision <;> rfl

theorem Decision.checks_outcome {now : OffsetDateTime} {context : RequestContext}
    {candidates : ModelCandidates} {id : RequestId} (decision : Decision) :
    (decision.outcome now context candidates id).2.checks = true := by
  cases decision with
  | primary => exact checks_startedRow ..
  | fallback => exact checks_startedRow ..
  | rejected => exact checks_quotaRejectedRow ..

/-! ### The window query sums the week -/

/-- The window query of `now` ranges over the costs of the week of `now`. -/
theorem windowCosts_eq_weekCosts (ledger : Ledger) (apiKeyId : String) (now : OffsetDateTime) :
    windowCosts ledger apiKeyId (mondayStart now).unixMillis
        ((mondayStart now).unixMillis + 604800000) =
      weekCosts ledger apiKeyId (weekOf now.unixMillis) := by
  unfold windowCosts weekCosts
  congr 1
  funext row
  simp only [← mem_window_iff]

/-- The spend read by admission is the sum of the week of `now`. -/
theorem currentWeekSpend_eq (ledger : Ledger) (apiKeyId : String) (now : OffsetDateTime) :
    currentWeekSpendNanoUsd ledger apiKeyId now =
      decimalOfSum (weekSpend ledger apiKeyId (weekOf now.unixMillis)) := by
  rw [currentWeekSpendNanoUsd, timestampMs_eq, ok_bind, if_pos (inI64_nextWeek now),
    windowCosts_eq_weekCosts, weekSpend]

/-- What a sum that fits reads as. -/
theorem toRat_of_decimalOfSum {sum : Int} {spent : Decimal} (h : decimalOfSum sum = .ok spent) :
    spent.toRat = sum := by
  rw [decimalOfSum] at h
  split_ifs at h with hsum
  cases h
  exact Decimal.toRat_ofInt _ _

theorem decimalOfSum_isOk {sum : Int} (h : inI64 sum = true) :
    ∃ spent, decimalOfSum sum = .ok spent :=
  ⟨_, dif_pos h⟩

/-! ### The comparison with a limit is exact -/

/-- A comparison that succeeds decides `Reached`. -/
theorem reached_of_spendMeetsLimit {limitUsd : Option Decimal} {spent : Decimal} {n : Int} {b : Bool}
    (hspent : spent.toRat = n) (h : spendMeetsLimit spent limitUsd = .ok b) :
    b = true ↔ Reached limitUsd n := by
  cases limitUsd with
  | none =>
    cases h
    simp [Reached]
  | some limit =>
    cases hmul : limit.checkedMul Decimal.nanoPerUnit with
    | none => simp [spendMeetsLimit, hmul] at h
    | some limitNanoUsd =>
      simp only [spendMeetsLimit, hmul, Except.ok.injEq] at h
      rw [← h, Decimal.le_iff, Decimal.checkedMul_nano hmul, hspent]
      simp [Reached]

/-- The comparison succeeds when scaling the limit does. -/
theorem spendMeetsLimit_isOk {limitUsd : Option Decimal} {spent : Decimal}
    (h : ∀ limit ∈ limitUsd, (limit.checkedMul Decimal.nanoPerUnit).isSome = true) :
    ∃ b, spendMeetsLimit spent limitUsd = .ok b := by
  cases limitUsd with
  | none => exact ⟨false, rfl⟩
  | some limit =>
    obtain ⟨limitNanoUsd, hmul⟩ := Option.isSome_iff_exists.mp (h limit rfl)
    exact ⟨limitNanoUsd.le spent, by simp [spendMeetsLimit, hmul]⟩

/-! ### Admission -/

section

variable {quota : QuotaLimits} {candidates : ModelCandidates} {spentNanoUsd : Int}

/-- With the limits in order, a key below its soft limit is below its hard limit. -/
theorem not_reached_hard {hasFallback : Bool} (hquota : quota.Validated hasFallback)
    (h : ¬ Reached quota.weeklyLimitUsd spentNanoUsd) :
    ¬ Reached quota.hardLimitUsd spentNanoUsd := by
  rintro ⟨hard, hhard, hle⟩
  have hsome : quota.weeklyLimitUsd.isSome = true := by
    rw [← hquota.hard_iff_weekly, Option.mem_def.mp hhard]
    rfl
  obtain ⟨soft, hsoft⟩ := Option.isSome_iff_exists.mp hsome
  refine h ⟨soft, hsoft, le_trans ?_ hle⟩
  exact mul_le_mul_of_nonneg_right (hquota.weekly_le_hard soft hsoft hard hhard) (by norm_num)

/-- The specification decides every request, in one way. -/
theorem existsUnique_weeklySpec (quota : QuotaLimits) (candidates : ModelCandidates)
    (spentNanoUsd : Int) : ∃! decision, WeeklySpec quota candidates spentNanoUsd decision := by
  by_cases hsoft : Reached quota.weeklyLimitUsd spentNanoUsd
  · by_cases hhard : Reached quota.hardLimitUsd spentNanoUsd
    · refine ⟨.rejected, ⟨hsoft, .inr hhard⟩, ?_⟩
      rintro (_ | model | _) hspec
      · exact absurd hsoft hspec
      · exact absurd hhard hspec.2.2
      · rfl
    · cases hfallback : candidates.fallback with
      | none =>
        refine ⟨.rejected, ⟨hsoft, .inl hfallback⟩, ?_⟩
        rintro (_ | model | _) hspec
        · exact absurd hsoft hspec
        · simp [WeeklySpec, hfallback] at hspec
        · rfl
      | some model =>
        refine ⟨.fallback model, ⟨hfallback, hsoft, hhard⟩, ?_⟩
        rintro (_ | model' | _) hspec
        · exact absurd hsoft hspec
        · rw [Option.some.inj (hfallback.symm.trans hspec.1)]
        · rcases hspec.2 with hnone | hreached
          · rw [hfallback] at hnone
            cases hnone
          · exact absurd hreached hhard
  · refine ⟨.primary, hsoft, ?_⟩
    rintro (_ | model | _) hspec
    · rfl
    · exact absurd hspec.2.1 hsoft
    · exact absurd hspec.1 hsoft

/-- The planned insertion is the specified one, whenever the comparisons succeed. -/
theorem planInsertion_eq {hasFallback : Bool} {spent : Decimal} {decision : Decision}
    (hquota : quota.Validated hasFallback)
    (hspent : spent.toRat = spentNanoUsd)
    (hweekly : ∃ b, spendMeetsLimit spent quota.weeklyLimitUsd = .ok b)
    (hhard : ∃ b, spendMeetsLimit spent quota.hardLimitUsd = .ok b)
    (hspec : WeeklySpec quota candidates spentNanoUsd decision)
    (now : OffsetDateTime) (context : RequestContext) :
    ∃ insertion, planInsertion now context quota candidates spent = .ok insertion ∧
      ∀ id, (insertion.admission id, insertion.row) =
        decision.outcome now context candidates id := by
  obtain ⟨soft, hsoft⟩ := hweekly
  obtain ⟨hard, hhard⟩ := hhard
  have hsoft_iff := reached_of_spendMeetsLimit hspent hsoft
  have hhard_iff := reached_of_spendMeetsLimit hspent hhard
  cases decision with
  | primary =>
    have hsoft_false : soft = false := by simpa using mt hsoft_iff.mp hspec
    have hhard_false : hard = false := by
      simpa using mt hhard_iff.mp (not_reached_hard hquota hspec)
    subst hsoft_false hhard_false
    exact ⟨_, planInsertion_eq_ok.mpr ⟨_, _, _, hsoft, hhard, rfl, rfl⟩, fun _ => rfl⟩
  | fallback model =>
    obtain ⟨hfallback, hreached, hbelow⟩ := hspec
    have hsoft_true : soft = true := hsoft_iff.mpr hreached
    have hhard_false : hard = false := by simpa using mt hhard_iff.mp hbelow
    subst hsoft_true hhard_false
    have hrejected : (false || (true && candidates.fallback.isNone)) = false := by
      simp [hfallback]
    refine ⟨_, planInsertion_eq_ok.mpr ⟨_, _, model, hsoft, hhard, ?_, rfl⟩, fun _ => ?_⟩
    · rw [hrejected, hfallback]
      rfl
    · rw [hrejected]
      rfl
  | rejected =>
    obtain ⟨hreached, hreject⟩ := hspec
    have hsoft_true : soft = true := hsoft_iff.mpr hreached
    subst hsoft_true
    have hrejected : (hard || (true && candidates.fallback.isNone)) = true := by
      rcases hreject with hnone | hreached
      · simp [hnone]
      · simp [hhard_iff.mpr hreached]
    refine ⟨_, planInsertion_eq_ok.mpr ⟨_, _, candidates.primary, hsoft, hhard, ?_, rfl⟩,
      fun _ => ?_⟩
    · rw [hrejected]
      rfl
    · rw [hrejected]
      rfl

end

/-- `begin_request` takes the specified decision, if the week's sum fits in `i64` and the limits
scale to nano-USD. -/
theorem beginRequest_of_weeklySpec {now : OffsetDateTime} {ledger : Ledger}
    {context : RequestContext} {quota : QuotaLimits} {candidates : ModelCandidates}
    {hasFallback : Bool} {decision : Decision} (hquota : quota.Validated hasFallback)
    (hsum : inI64 (weekSpend ledger context.apiKeyId (weekOf now.unixMillis)) = true)
    (hweekly : ∀ limit ∈ quota.weeklyLimitUsd, (limit.checkedMul Decimal.nanoPerUnit).isSome = true)
    (hhard : ∀ limit ∈ quota.hardLimitUsd, (limit.checkedMul Decimal.nanoPerUnit).isSome = true)
    (hspec : WeeklySpec quota candidates
      (weekSpend ledger context.apiKeyId (weekOf now.unixMillis)) decision) :
    beginRequest now ledger context quota candidates =
      .ok ((decision.outcome now context candidates ledger.length).1,
        ledger ++ [(decision.outcome now context candidates ledger.length).2]) := by
  obtain ⟨spent, hread⟩ := decimalOfSum_isOk hsum
  obtain ⟨insertion, hplan, houtcome⟩ := planInsertion_eq hquota (toRat_of_decimalOfSum hread)
    (spendMeetsLimit_isOk hweekly) (spendMeetsLimit_isOk hhard) hspec now context
  have hid := houtcome ledger.length
  have hchecks : insertion.row.checks = true := by
    rw [show insertion.row = _ from congrArg Prod.snd hid]
    exact decision.checks_outcome
  rw [← hid, beginRequest, currentWeekSpend_eq, hread, ok_bind, hplan, ok_bind,
    insertRow_eq_ok.mpr ⟨hchecks, rfl⟩]
  rfl

/-- **Admission decides by the weekly specification.** Let the week's sum fit in `i64` and the
limits scale to nano-USD. Then the specification has exactly one decision for the sum of the
week of `now`, and `begin_request` takes it: it answers with that decision's model and appends
exactly that decision's row, which belongs to the week of `now`. -/
theorem beginRequest_follows_weeklySpec (now : OffsetDateTime) (ledger : Ledger)
    (context : RequestContext) (quota : QuotaLimits) (candidates : ModelCandidates)
    (hasFallback : Bool) (hquota : quota.Validated hasFallback)
    (hsum : inI64 (weekSpend ledger context.apiKeyId (weekOf now.unixMillis)) = true)
    (hweekly : ∀ limit ∈ quota.weeklyLimitUsd, (limit.checkedMul Decimal.nanoPerUnit).isSome = true)
    (hhard : ∀ limit ∈ quota.hardLimitUsd, (limit.checkedMul Decimal.nanoPerUnit).isSome = true) :
    ∃! decision : Decision,
      WeeklySpec quota candidates
        (weekSpend ledger context.apiKeyId (weekOf now.unixMillis)) decision ∧
      beginRequest now ledger context quota candidates =
        .ok ((decision.outcome now context candidates ledger.length).1,
          ledger ++ [(decision.outcome now context candidates ledger.length).2]) ∧
      weekOf (decision.outcome now context candidates ledger.length).2.requestedAtMs =
        weekOf now.unixMillis := by
  obtain ⟨decision, hspec, hunique⟩ := existsUnique_weeklySpec quota candidates
    (weekSpend ledger context.apiKeyId (weekOf now.unixMillis))
  exact ⟨decision, ⟨hspec, beginRequest_of_weeklySpec hquota hsum hweekly hhard hspec,
    decision.weekOf_outcome⟩, fun other hother => hunique other hother.1⟩

/-! ### At the soft limit -/

/-- A model at one dollar per million tokens of every kind. -/
def flatModel (model : String) : EffectiveModel where
  model
  reasoningEffort := none
  rates := ⟨.one, .one, .one⟩

/-- A thousandth of a dollar, and multiples. -/
def milliUsd (n : Nat) (h : (n : Int).natAbs < 2 ^ 96 := by decide) : Decimal :=
  ⟨n, 3, h, by decide⟩

/-- A key that falls back from two to three thousandths of a dollar a week. -/
def smallQuota : QuotaLimits := ⟨some (milliUsd 2), some (milliUsd 3)⟩

/-- Noon of Thursday, the first of January 1970. -/
def epochNoon : OffsetDateTime := ⟨43200000000000, by decide, by decide⟩

/-- A row that spent two thousandths of a dollar at noon. -/
def spentRow : Row :=
  (startedRow epochNoon ⟨"key", .responses, .httpSse⟩ (flatModel "large")).finish 43200000 0
    (some ⟨2000, 0, 0, 2000000⟩) .completed (some 200)

theorem validated_smallQuota : smallQuota.Validated true where
  hard_iff_weekly := rfl
  weekly_nonneg := by
    rintro soft ⟨⟩
    exact (Decimal.toRat_nonneg_iff).mpr (by decide)
  weekly_le_hard := by
    rintro soft ⟨⟩ hard ⟨⟩
    exact Decimal.le_iff.mp (by decide)
  weekly_lt_hard := by
    rintro - soft ⟨⟩ hard ⟨⟩
    exact lt_of_not_ge (mt Decimal.le_iff.mpr (by decide))

/-- A week that has spent exactly the soft limit admits the fallback. -/
theorem beginRequest_follows_weeklySpec_at_soft_limit :
    (∃! decision : Decision,
      WeeklySpec smallQuota ⟨flatModel "large", some (flatModel "small")⟩
        (weekSpend [spentRow] "key" (weekOf epochNoon.unixMillis)) decision ∧
      beginRequest epochNoon [spentRow] ⟨"key", .responses, .httpSse⟩ smallQuota
          ⟨flatModel "large", some (flatModel "small")⟩ =
        .ok ((decision.outcome epochNoon ⟨"key", .responses, .httpSse⟩
            ⟨flatModel "large", some (flatModel "small")⟩ 1).1,
          [spentRow] ++ [(decision.outcome epochNoon ⟨"key", .responses, .httpSse⟩
            ⟨flatModel "large", some (flatModel "small")⟩ 1).2]) ∧
      weekOf (decision.outcome epochNoon ⟨"key", .responses, .httpSse⟩
          ⟨flatModel "large", some (flatModel "small")⟩ 1).2.requestedAtMs =
        weekOf epochNoon.unixMillis) ∧
    (beginRequest epochNoon [spentRow] ⟨"key", .responses, .httpSse⟩ smallQuota
      ⟨flatModel "large", some (flatModel "small")⟩).map Prod.fst =
        .ok (.admitted 1 (flatModel "small")) :=
  ⟨beginRequest_follows_weeklySpec epochNoon [spentRow] ⟨"key", .responses, .httpSse⟩ smallQuota
    ⟨flatModel "large", some (flatModel "small")⟩ true validated_smallQuota (by decide)
    (by rintro limit ⟨⟩; decide) (by rintro limit ⟨⟩; decide), by decide⟩

end CodexApi
