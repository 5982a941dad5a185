import CodexApi.Clock
import CodexApi.Decimal
import CodexApi.Lib.Except

/-!
# The request ledger

The tables and statements of the store that concern requests: `beginRequest`,
`recordRejection`, `finalizeRequest`, `modelAccess` and the pricing of a terminal's usage.

A `Ledger` is the list of the rows of `request_ledger` in insertion order. Rows are never
deleted and the key is `AUTOINCREMENT`, so a `RequestId` is a row's position. Functions that await
the database twice are written as the two statements they issue: `beginRequest` reads the week's
spend and then inserts the planned row, `finalizeRequest` selects a `started` row and then updates
it under the same condition. Each statement sees the ledger of its own moment.
-/

namespace CodexApi

/-! ### Records -/

/-- The API a request came through. -/
inductive ApiProtocol
  | responses
  | chatCompletions
deriving DecidableEq

/-- How the client is connected. -/
inductive Transport
  | httpSse
  | webSocket
deriving DecidableEq

/-- Who sent a request, and how. -/
structure RequestContext where
  apiKeyId : String
  apiProtocol : ApiProtocol
  transport : Transport
deriving DecidableEq

/-- The statuses `finalize_request` writes. -/
inductive FinalStatus
  | completed
  | incomplete
  | rejected
  | upstreamError
  | canceled
  | internalError
deriving DecidableEq

/-- The status column. -/
inductive Status
  | started
  | final (status : FinalStatus)
deriving DecidableEq

/-- The weekly limits of a key; both are absent for an unlimited key. -/
structure QuotaLimits where
  weeklyLimitUsd : Option Decimal
  hardLimitUsd : Option Decimal
deriving DecidableEq

/-- USD per million tokens. -/
structure ModelRates where
  inputUsdPerMillion : Decimal
  cachedInputUsdPerMillion : Decimal
  outputUsdPerMillion : Decimal
deriving DecidableEq

/-- The model a request runs on, after reasoning caps. -/
structure EffectiveModel where
  model : String
  reasoningEffort : Option String
  rates : ModelRates
deriving DecidableEq

/-- The requested model and the configured fallback. -/
structure ModelCandidates where
  primary : EffectiveModel
  fallback : Option EffectiveModel
deriving DecidableEq

/-- Token counts with the rates that price them. -/
structure BillableUsage where
  inputTokens : UInt64
  cachedInputTokens : UInt64
  outputTokens : UInt64
  rates : ModelRates
deriving DecidableEq

/-- What `model_access` lets a key use. -/
inductive ModelAccess
  | all
  | fallbackOnly
  | blocked
deriving DecidableEq

/-- The position of a row in the ledger. -/
abbrev RequestId := Nat

/-- A row of `request_ledger`. -/
structure Row where
  requestedAtMs : Int
  finishedAtMs : Option Int
  apiKeyId : String
  model : String
  reasoningEffort : Option String
  apiProtocol : ApiProtocol
  transport : Transport
  inputTokens : Option Int
  cachedInputTokens : Option Int
  outputTokens : Option Int
  costNanoUsd : Option Int
  durationMs : Option Int
  status : Status
  httpStatus : Option Nat
deriving DecidableEq

/-- The rows of `request_ledger` in insertion order. -/
abbrev Ledger := List Row

/-- The errors of the store; `panicked` stands for a violated `expect`. -/
inductive StoreError
  | database
  | credentialsNotInitialized
  | requestNotStarted (id : RequestId)
  | invalidUsage
  | usageOutOfRange
  | costOutOfRange
  | timestampOutOfRange
  | panicked
deriving DecidableEq

/-- The `CHECK` constraints of the table that its column types leave open. -/
def Row.checks (row : Row) : Bool :=
  row.inputTokens.all (0 ≤ ·) &&
  row.cachedInputTokens.all (fun cached => decide (0 ≤ cached) && row.inputTokens.any (cached ≤ ·)) &&
  row.outputTokens.all (0 ≤ ·) &&
  row.costNanoUsd.all (0 ≤ ·) &&
  row.durationMs.all (0 ≤ ·) &&
  row.httpStatus.all (fun status => decide (100 ≤ status) && decide (status ≤ 599))

/-- An `INSERT` into the ledger. -/
def insertRow (ledger : Ledger) (row : Row) : Except StoreError Ledger :=
  if row.checks then .ok (ledger ++ [row]) else .error .database

/-! ### Conversions -/

/-- `timestamp_ms`. -/
def timestampMs (value : OffsetDateTime) : Except StoreError Int :=
  if inI64 value.unixMillis then .ok value.unixMillis else .error .timestampOutOfRange

/-- `token_count`. -/
def tokenCount (value : UInt64) : Except StoreError Int :=
  if inI64 value.toNat then .ok value.toNat else .error .usageOutOfRange

@[simp]
theorem timestampMs_eq (value : OffsetDateTime) : timestampMs value = .ok value.unixMillis := by
  rw [timestampMs, if_pos (inI64_unixMillis value)]

/-- `Decimal::from` of a `u64`. -/
def decimalOfU64 (n : UInt64) : Decimal :=
  Decimal.ofInt n.toNat (by have := n.toNat_lt; omega)

/-- `calculate_cost_nano_usd`. -/
def calculateCostNanoUsd (usage : BillableUsage) : Except StoreError Int :=
  if usage.inputTokens < usage.cachedInputTokens then .error .invalidUsage
  else
    let uncached := decimalOfU64 (usage.inputTokens - usage.cachedInputTokens)
    let cached := decimalOfU64 usage.cachedInputTokens
    let output := decimalOfU64 usage.outputTokens
    let weighted : Option Decimal := do
      let value ← uncached.checkedMul usage.rates.inputUsdPerMillion
      let cachedCost ← cached.checkedMul usage.rates.cachedInputUsdPerMillion
      let value ← value.checkedAdd cachedCost
      let outputCost ← output.checkedMul usage.rates.outputUsdPerMillion
      let value ← value.checkedAdd outputCost
      value.checkedMul (Decimal.ofInt 1000 (by decide))
    match weighted with
    | none => .error .costOutOfRange
    | some weighted =>
      if inI64 weighted.roundToInt then .ok weighted.roundToInt else .error .costOutOfRange

/-- `spend_meets_limit`. -/
def spendMeetsLimit (spentNanoUsd : Decimal) (limitUsd : Option Decimal) :
    Except StoreError Bool :=
  match limitUsd with
  | none => .ok false
  | some limit =>
    match limit.checkedMul Decimal.nanoPerUnit with
    | none => .error .costOutOfRange
    | some limitNanoUsd => .ok (limitNanoUsd.le spentNanoUsd)

/-! ### Admission -/

/-- The costs `SUM` ranges over: non-null costs of a key in a half-open window. -/
def windowCosts (ledger : Ledger) (apiKeyId : String) (start next : Int) : List Int :=
  ledger.filterMap fun row =>
    if row.apiKeyId = apiKeyId ∧ start ≤ row.requestedAtMs ∧ row.requestedAtMs < next then
      row.costNanoUsd
    else none

/-- The `SUM` of integer costs as a decimal; SQLite's sum fails outside `i64`. -/
def decimalOfSum (sum : Int) : Except StoreError Decimal :=
  if h : inI64 sum = true then
    .ok (Decimal.ofInt sum (by rw [inI64_iff] at h; omega))
  else .error .database

/-- `current_week_spend_nano_usd`. -/
def currentWeekSpendNanoUsd (ledger : Ledger) (apiKeyId : String) (now : OffsetDateTime) :
    Except StoreError Decimal := do
  let weekStartMs ← timestampMs (mondayStart now)
  if inI64 (weekStartMs + 604800000) then
    decimalOfSum (windowCosts ledger apiKeyId weekStartMs (weekStartMs + 604800000)).sum
  else .error .timestampOutOfRange

/-- The row `begin_request` inserts and, unless it is a rejection, the model it admits. -/
structure Insertion where
  row : Row
  admitted : Option EffectiveModel
deriving DecidableEq

/-- The row `begin_request` binds to its `INSERT`. -/
def admissionRow (requestedAtMs : Int) (context : RequestContext) (rejected : Bool)
    (model : EffectiveModel) : Row where
  requestedAtMs
  finishedAtMs := if rejected then some requestedAtMs else none
  apiKeyId := context.apiKeyId
  model := model.model
  reasoningEffort := model.reasoningEffort
  apiProtocol := context.apiProtocol
  transport := context.transport
  inputTokens := none
  cachedInputTokens := none
  outputTokens := none
  costNanoUsd := none
  durationMs := if rejected then some 0 else none
  status := if rejected then .final .rejected else .started
  httpStatus :=
    if rejected then
      match context.transport with
      | .httpSse => some 429
      | .webSocket => none
    else none

/-- `begin_request` between its two statements: the row to insert, given the spend read. -/
def planInsertion (now : OffsetDateTime) (context : RequestContext) (quota : QuotaLimits)
    (candidates : ModelCandidates) (spent : Decimal) : Except StoreError Insertion := do
  let requestedAtMs ← timestampMs now
  let softExceeded ← spendMeetsLimit spent quota.weeklyLimitUsd
  let hardExceeded ← spendMeetsLimit spent quota.hardLimitUsd
  let rejected := hardExceeded || (softExceeded && candidates.fallback.isNone)
  let useFallback := softExceeded && !rejected
  match if useFallback then candidates.fallback else some candidates.primary with
  | none => .error .panicked
  | some effectiveModel =>
    .ok {
      row := admissionRow requestedAtMs context rejected effectiveModel
      admitted := if rejected then none else some effectiveModel }

/-- The answer of `begin_request`. -/
inductive Admission
  | admitted (requestId : RequestId) (effectiveModel : EffectiveModel)
  | weeklyQuotaExceeded
deriving DecidableEq

/-- The answer for an insertion that got the row position `id`. -/
def Insertion.admission (insertion : Insertion) (id : RequestId) : Admission :=
  match insertion.admitted with
  | some effectiveModel => .admitted id effectiveModel
  | none => .weeklyQuotaExceeded

/-- `begin_request`, both statements on one ledger. -/
def beginRequest (now : OffsetDateTime) (ledger : Ledger) (context : RequestContext)
    (quota : QuotaLimits) (candidates : ModelCandidates) :
    Except StoreError (Admission × Ledger) := do
  let spent ← currentWeekSpendNanoUsd ledger context.apiKeyId now
  let insertion ← planInsertion now context quota candidates spent
  let inserted ← insertRow ledger insertion.row
  return (insertion.admission ledger.length, inserted)

/-- `model_access`. -/
def modelAccess (now : OffsetDateTime) (ledger : Ledger) (apiKeyId : String)
    (quota : QuotaLimits) (hasFallback : Bool) : Except StoreError ModelAccess := do
  if quota.weeklyLimitUsd.isNone then
    return .all
  let spent ← currentWeekSpendNanoUsd ledger apiKeyId now
  if ← spendMeetsLimit spent quota.hardLimitUsd then
    return .blocked
  if ← spendMeetsLimit spent quota.weeklyLimitUsd then
    return if hasFallback then .fallbackOnly else .blocked
  return .all

/-- The row `record_rejection` inserts. -/
def rejectionRow (now : OffsetDateTime) (context : RequestContext) (model : String)
    (reasoningEffort : Option String) (httpStatus : Option Nat) : Except StoreError Row := do
  let requestedAtMs ← timestampMs now
  return {
    requestedAtMs
    finishedAtMs := some requestedAtMs
    apiKeyId := context.apiKeyId
    model
    reasoningEffort
    apiProtocol := context.apiProtocol
    transport := context.transport
    inputTokens := none
    cachedInputTokens := none
    outputTokens := none
    costNanoUsd := none
    durationMs := some 0
    status := .final .rejected
    httpStatus }

/-- `record_rejection`. -/
def recordRejection (now : OffsetDateTime) (ledger : Ledger) (context : RequestContext)
    (model : String) (reasoningEffort : Option String) (httpStatus : Option Nat) :
    Except StoreError Ledger := do
  let row ← rejectionRow now context model reasoningEffort httpStatus
  insertRow ledger row

/-! ### Finalization -/

/-- The columns a priced usage fills: token counts and cost. -/
structure Charge where
  inputTokens : Int
  cachedInputTokens : Int
  outputTokens : Int
  costNanoUsd : Int
deriving DecidableEq

/-- The checked token counts and cost of a usage. -/
def charge (usage : BillableUsage) : Except StoreError Charge := do
  return {
    inputTokens := ← tokenCount usage.inputTokens
    cachedInputTokens := ← tokenCount usage.cachedInputTokens
    outputTokens := ← tokenCount usage.outputTokens
    costNanoUsd := ← calculateCostNanoUsd usage }

/-- The charge of an optional usage. -/
def chargeOption : Option BillableUsage → Except StoreError (Option Charge)
  | none => .ok none
  | some usage => (charge usage).map some

/-- The first statement of `finalize_request`: the start time of a `started` row. -/
def selectStarted (ledger : Ledger) (id : RequestId) : Except StoreError Int :=
  match ledger[id]? with
  | some row =>
    if row.status = .started then .ok row.requestedAtMs else .error (.requestNotStarted id)
  | none => .error (.requestNotStarted id)

/-- `saturating_sub` on `i64`. -/
def saturatingSub (a b : Int) : Int :=
  max (-9223372036854775808) (min 9223372036854775807 (a - b))

/-- A row as the `UPDATE` of `finalize_request` leaves it. -/
def Row.finish (row : Row) (finishedAtMs durationMs : Int) (charge : Option Charge)
    (status : FinalStatus) (httpStatus : Option Nat) : Row :=
  { row with
    finishedAtMs := some finishedAtMs
    inputTokens := charge.map (·.inputTokens)
    cachedInputTokens := charge.map (·.cachedInputTokens)
    outputTokens := charge.map (·.outputTokens)
    costNanoUsd := charge.map (·.costNanoUsd)
    durationMs := some durationMs
    status := .final status
    httpStatus }

/-- The second statement of `finalize_request`: the update, under the condition that the row is
still `started`. -/
def updateStarted (ledger : Ledger) (id : RequestId) (update : Row → Row) :
    Except StoreError Ledger :=
  match ledger[id]? with
  | some row =>
    if row.status = .started then
      if (update row).checks then .ok (ledger.set id (update row)) else .error .database
    else .error (.requestNotStarted id)
  | none => .error (.requestNotStarted id)

/-- `finalize_request` after its first statement returned `requestedAtMs`. -/
def finalizeUpdate (now : OffsetDateTime) (ledger : Ledger) (id : RequestId)
    (requestedAtMs : Int) (status : FinalStatus) (httpStatus : Option Nat)
    (usage : Option BillableUsage) : Except StoreError Ledger := do
  let finishedAtMs ← timestampMs now
  let durationMs := max (saturatingSub finishedAtMs requestedAtMs) 0
  let charge ← chargeOption usage
  updateStarted ledger id fun row => row.finish finishedAtMs durationMs charge status httpStatus

/-- `finalize_request`, both statements on one ledger. -/
def finalizeRequest (now : OffsetDateTime) (ledger : Ledger) (id : RequestId)
    (status : FinalStatus) (httpStatus : Option Nat) (usage : Option BillableUsage) :
    Except StoreError Ledger := do
  let requestedAtMs ← selectStarted ledger id
  finalizeUpdate now ledger id requestedAtMs status httpStatus usage

/-! ### What the statements do -/

section

variable {now : OffsetDateTime} {ledger ledger' : Ledger} {id : RequestId} {row : Row}
  {status : FinalStatus} {httpStatus : Option Nat} {usage : Option BillableUsage}

theorem insertRow_eq_ok : insertRow ledger row = .ok ledger' ↔
    row.checks = true ∧ ledger' = ledger ++ [row] := by
  unfold insertRow
  split_ifs with h <;> simp [h, eq_comm]

/-- **What a planned insertion is.** The comparisons with the two limits decide between
rejection, the fallback and the requested model. -/
theorem planInsertion_eq_ok {context : RequestContext} {quota : QuotaLimits}
    {candidates : ModelCandidates} {spent : Decimal} {insertion : Insertion} :
    planInsertion now context quota candidates spent = .ok insertion ↔
      ∃ soft hard model, spendMeetsLimit spent quota.weeklyLimitUsd = .ok soft ∧
        spendMeetsLimit spent quota.hardLimitUsd = .ok hard ∧
        (if soft && !(hard || (soft && candidates.fallback.isNone)) then candidates.fallback
          else some candidates.primary) = some model ∧
        insertion = ⟨admissionRow now.unixMillis context
            (hard || (soft && candidates.fallback.isNone)) model,
          if hard || (soft && candidates.fallback.isNone) then none else some model⟩ := by
  simp only [planInsertion, timestampMs_eq, ok_bind, bind_eq_ok]
  constructor
  · rintro ⟨soft, hsoft, hard, hhard, h⟩
    split at h
    · cases h
    · rename_i model hmodel
      cases h
      exact ⟨soft, hard, model, hsoft, hhard, hmodel, rfl⟩
  · rintro ⟨soft, hard, model, hsoft, hhard, hmodel, rfl⟩
    refine ⟨soft, hsoft, hard, hhard, ?_⟩
    rw [hmodel]

/-- A row that `begin_request` binds passes the checks. -/
theorem checks_admissionRow {requestedAtMs : Int} {context : RequestContext} {rejected : Bool}
    {model : EffectiveModel} : (admissionRow requestedAtMs context rejected model).checks = true := by
  cases rejected with
  | false => rfl
  | true =>
    cases htransport : context.transport <;> simp [admissionRow, Row.checks, htransport]

/-- A row that `record_rejection` binds passes the checks. -/
theorem checks_of_rejectionRow {context : RequestContext} {model : String}
    {reasoningEffort : Option String}
    (hstatus : ∀ status ∈ httpStatus, 100 ≤ status ∧ status ≤ 599)
    (h : rejectionRow now context model reasoningEffort httpStatus = .ok row) :
    row.checks = true := by
  simp only [rejectionRow, timestampMs_eq, ok_bind] at h
  cases h
  cases httpStatus with
  | none => rfl
  | some status =>
    obtain ⟨hlow, hhigh⟩ := hstatus status rfl
    simp [Row.checks, hlow, hhigh]

/-- Rates that are not negative. -/
structure ModelRates.Nonneg (rates : ModelRates) : Prop where
  input : 0 ≤ rates.inputUsdPerMillion.mantissa
  cachedInput : 0 ≤ rates.cachedInputUsdPerMillion.mantissa
  output : 0 ≤ rates.outputUsdPerMillion.mantissa

/-- A charge that the table's checks accept. -/
structure Charge.Sound (charge : Charge) : Prop where
  cached_nonneg : 0 ≤ charge.cachedInputTokens
  cached_le_input : charge.cachedInputTokens ≤ charge.inputTokens
  output_nonneg : 0 ≤ charge.outputTokens
  cost_nonneg : 0 ≤ charge.costNanoUsd

theorem tokenCount_eq_ok {value : UInt64} {n : Int} (h : tokenCount value = .ok n) :
    n = value.toNat := by
  unfold tokenCount at h
  split_ifs at h
  exact (Except.ok.inj h).symm

/-- **What a cost is.** The counts are in order and, at rates that are not negative, neither is the
cost. -/
theorem cost_of_calculateCostNanoUsd {usage : BillableUsage} {cost : Int}
    (h : calculateCostNanoUsd usage = .ok cost) :
    usage.cachedInputTokens ≤ usage.inputTokens ∧ (usage.rates.Nonneg → 0 ≤ cost) := by
  simp only [calculateCostNanoUsd] at h
  split at h
  case isTrue => cases h
  case isFalse hcached =>
    refine ⟨UInt64.not_lt.mp hcached, fun hrates => ?_⟩
    split at h
    case h_1 => cases h
    case h_2 weighted hweighted =>
      split_ifs at h
      cases h
      simp only [Option.bind_eq_bind, Option.bind_eq_some_iff] at hweighted
      obtain ⟨input, hinput, cached, hcachedCost, inputs, hinputs, output, houtput, total, htotal,
        hweighted⟩ := hweighted
      have hcount : ∀ n : UInt64, 0 ≤ (decimalOfU64 n).mantissa := fun n => Int.natCast_nonneg _
      have hinput := Decimal.checkedMul_nonneg (hcount _) hrates.input hinput
      have hcachedCost := Decimal.checkedMul_nonneg (hcount _) hrates.cachedInput hcachedCost
      have houtput := Decimal.checkedMul_nonneg (hcount _) hrates.output houtput
      have htotal := Decimal.checkedAdd_nonneg
        (Decimal.checkedAdd_nonneg hinput hcachedCost hinputs) houtput htotal
      exact Decimal.roundToInt_nonneg
        (Decimal.checkedMul_nonneg htotal (by decide) hweighted)

/-- **What is charged passes the checks**, at rates that are not negative. -/
theorem sound_of_charge {usage : BillableUsage} {c : Charge} (hrates : usage.rates.Nonneg)
    (h : charge usage = .ok c) : c.Sound := by
  simp only [charge, bind_eq_ok] at h
  obtain ⟨input, hinput, cached, hcached, output, houtput, cost, hcost, h⟩ := h
  cases h
  obtain ⟨hle, hnonneg⟩ := cost_of_calculateCostNanoUsd hcost
  rw [tokenCount_eq_ok hinput, tokenCount_eq_ok hcached, tokenCount_eq_ok houtput]
  exact ⟨Int.natCast_nonneg _, Int.ofNat_le.mpr (UInt64.le_iff_toNat_le.mp hle),
    Int.natCast_nonneg _, hnonneg hrates⟩

/-- The checks of a finished row are those of what finishing it writes. -/
theorem checks_finish {finishedAtMs durationMs : Int} {charge : Option Charge} :
    (row.finish finishedAtMs durationMs charge status httpStatus).checks = true ↔
      0 ≤ durationMs ∧ (∀ c ∈ charge, c.Sound) ∧
        ∀ status ∈ httpStatus, 100 ≤ status ∧ status ≤ 599 := by
  have hsound : ∀ c : Charge, c.Sound ↔ 0 ≤ c.inputTokens ∧ (0 ≤ c.cachedInputTokens ∧
      c.cachedInputTokens ≤ c.inputTokens) ∧ 0 ≤ c.outputTokens ∧ 0 ≤ c.costNanoUsd := fun c =>
    ⟨fun h => ⟨h.cached_nonneg.trans h.cached_le_input, ⟨h.cached_nonneg, h.cached_le_input⟩,
      h.output_nonneg, h.cost_nonneg⟩, fun h => ⟨h.2.1.1, h.2.1.2, h.2.2.1, h.2.2.2⟩⟩
  cases charge <;> cases httpStatus <;>
    simp only [Row.checks, Row.finish, Option.map_none, Option.map_some, Option.all_none,
      Option.all_some, Option.any_some, Option.mem_def, Option.some.injEq, Bool.and_eq_true,
      decide_eq_true_eq, forall_eq', hsound, reduceCtorEq, false_implies, implies_true, true_and,
      and_true] <;> tauto

theorem updateStarted_eq_ok {update : Row → Row} :
    updateStarted ledger id update = .ok ledger' ↔
      ∃ row, ledger[id]? = some row ∧ row.status = .started ∧ (update row).checks = true ∧
        ledger' = ledger.set id (update row) := by
  unfold updateStarted
  cases hrow : ledger[id]? with
  | none => simp
  | some row =>
    simp only [Option.some.injEq, exists_eq_left']
    split_ifs with hstarted hchecks
    · simp [hstarted, hchecks, eq_comm]
    · simp [hchecks]
    · simp [hstarted]

/-- **What a finalization does.** It finds the row `started` and replaces it by the finished
row, whose charge is that of the given usage; no other row changes. -/
theorem finalizeRequest_eq_ok : finalizeRequest now ledger id status httpStatus usage = .ok ledger' ↔
    ∃ row charge, ledger[id]? = some row ∧ row.status = .started ∧
      chargeOption usage = .ok charge ∧
      (row.finish now.unixMillis
        (max (saturatingSub now.unixMillis row.requestedAtMs) 0) charge status httpStatus).checks = true ∧
      ledger' = ledger.set id (row.finish now.unixMillis
        (max (saturatingSub now.unixMillis row.requestedAtMs) 0) charge status httpStatus) := by
  simp only [finalizeRequest, finalizeUpdate, timestampMs_eq, ok_bind, bind_eq_ok,
    updateStarted_eq_ok]
  constructor
  · rintro ⟨requestedAtMs, hselect, charge, hcharge, row, hrow, hstarted, hchecks, rfl⟩
    simp only [selectStarted, hrow, hstarted, if_true, Except.ok.injEq] at hselect
    subst hselect
    exact ⟨row, charge, hrow, hstarted, hcharge, hchecks, rfl⟩
  · rintro ⟨row, charge, hrow, hstarted, hcharge, hchecks, rfl⟩
    exact ⟨row.requestedAtMs, by simp [selectStarted, hrow, hstarted], charge, hcharge, row, hrow,
      hstarted, hchecks, rfl⟩

end

end CodexApi
