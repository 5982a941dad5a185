import CodexApi.Store.Quota

/-!
# Usage statistics

The `stat` command. It reads the view `request_logs`, which shows a time stamp as a text of whole
seconds and a cost as a text of dollars with nine digits, and adds the costs up in decimals. A time
stamp text stands for the second it denotes; `julianday` compares such texts as their seconds.

`printStat_default` says what the default report is: for every key, the spend of the calendar week
of `now`, exactly, and the status that this spend has under the limits of the key.
-/

namespace CodexApi

/-! ### The view -/

/-- SQLite's `printf('%d', n)`. -/
def printfD (n : Int) : String := toString n

/-- SQLite's `printf('%09d', n)`. -/
def printf09D (n : Int) : String :=
  let digits := n.natAbs.repr
  if 0 ≤ n then String.ofList (List.replicate (9 - digits.length) '0') ++ digits
  else "-" ++ String.ofList (List.replicate (8 - digits.length) '0') ++ digits

/-- The column `cost_usd`. -/
def costUsd (costNanoUsd : Int) : String :=
  printfD (costNanoUsd.tdiv 1000000000) ++ "." ++ printf09D (costNanoUsd.tmod 1000000000)

/-- Days since the epoch of `0000-01-01`, the first date of SQLite's date functions and of
RFC 3339. -/
def firstDate : Int := -719528

/-- Days since the epoch of `9999-12-31`, the last date of both and of the `time` crate. -/
def lastDate : Int := 2932896

/-- `strftime('%Y-%m-%dT%H:%M:%SZ', ms / 1000.0, 'unixepoch')`, as the second it denotes. -/
def requestedAtSeconds (requestedAtMs : Int) : Option Int :=
  let seconds := requestedAtMs / 1000
  if firstDate * 86400 ≤ seconds ∧ seconds < (lastDate + 1) * 86400 then some seconds else none

/-- A row of `request_logs`; its other columns are those of the ledger's row. -/
structure RequestLog where
  requestedAt : Option Int
  costUsd : Option String
  row : Row

/-- The view `request_logs`. -/
def requestLogs (ledger : Ledger) : List RequestLog :=
  ledger.map fun row => ⟨requestedAtSeconds row.requestedAtMs, row.costNanoUsd.map costUsd, row⟩

/-! ### The command -/

/-- The errors of the command; `panicked` stands for a date past the last one. -/
inductive CliError
  | message (text : String)
  | panicked
deriving DecidableEq

/-- The dates given on the command line, as days since the epoch. -/
structure StatArgs where
  startDate : Option Int
  endDate : Option Int

/-- A date six days later. -/
def weekEnd (weekStart : Int) : Except CliError Int :=
  if weekStart + 6 ≤ lastDate then .ok (weekStart + 6) else .error .panicked

/-- `next_day`. -/
def nextDay (date : Int) : Except CliError Int :=
  if date < lastDate then .ok (date + 1) else .error (.message "--end-date is out of range")

/-- Midnight of a date in RFC 3339, as the second it denotes. -/
def formatMidnight (date : Int) : Except CliError Int :=
  if firstDate ≤ date then .ok (date * 86400)
  else .error
    (.message "The year component cannot be formatted into the requested format.")

/-- The sums of the report by key: the spend, and input and cached input tokens. -/
structure StatSums where
  spentByKey : OrdMap String Decimal
  tokensByKey : OrdMap String (Int × Int)

/-- `checked_add` on `i64`. -/
def checkedAddI64 (a b : Int) : Option Int := if inI64 (a + b) then some (a + b) else none

/-- The part of the loop over the logs that adds up the spend. -/
def addSpend (sums : StatSums) (log : RequestLog) : Except CliError StatSums :=
  match log.costUsd with
  | none => .ok sums
  | some cost =>
    match Decimal.parse cost with
    | none => .error (.message "request_logs contains an invalid cost_usd value")
    | some cost =>
      match ((sums.spentByKey.get log.row.apiKeyId).getD Decimal.zero).checkedAdd cost with
      | none => .error (.message "usage spend is out of range")
      | some spent => .ok { sums with spentByKey := sums.spentByKey.insert log.row.apiKeyId spent }

/-- The part of the loop over the logs that adds up the tokens. -/
def addTokens (sums : StatSums) (log : RequestLog) : Except CliError StatSums :=
  match log.row.inputTokens with
  | none => .ok sums
  | some inputTokens =>
    let cachedInputTokens := log.row.cachedInputTokens.getD 0
    let tokens := (sums.tokensByKey.get log.row.apiKeyId).getD (0, 0)
    match checkedAddI64 tokens.1 inputTokens, checkedAddI64 tokens.2 cachedInputTokens with
    | none, _ => .error (.message "input token count is out of range")
    | _, none => .error (.message "cached input token count is out of range")
    | some input, some cached =>
      .ok { sums with tokensByKey := sums.tokensByKey.insert log.row.apiKeyId (input, cached) }

/-- The loop over the logs. -/
def sumLogs (sums : StatSums) : List RequestLog → Except CliError StatSums
  | [] => .ok sums
  | log :: logs => do
    let sums ← addSpend sums log
    let sums ← addTokens sums log
    sumLogs sums logs

/-- The column `STATUS` of the report. -/
inductive StatStatus
  | unlimited
  | blocked
  | fallback
  | available
deriving DecidableEq

/-- The status of a key that spent `spent`. A key with a weekly limit has a hard limit. -/
def statStatus (key : ApiKeyConfig) (fallbackConfigured : Bool) (spent : Decimal) : StatStatus :=
  match hweekly : key.weeklyLimitUsd, hhard : key.hardLimitUsd with
  | none, _ => .unlimited
  | some soft, some hardLimit =>
    if hardLimit.le spent || (soft.le spent && !fallbackConfigured) then .blocked
    else if soft.le spent then .fallback
    else .available
  | some _, none => absurd key.hard_iff_weekly (by simp [hweekly, hhard])

/-- A line of the report. The cache rate is the share of the cached in the input tokens. -/
structure StatRow where
  apiKey : String
  spentUsd : Decimal
  cacheRate : Option (Int × Int)
  status : StatStatus
deriving DecidableEq

/-- The line of a key. -/
def statRow (config : Config) (sums : StatSums) (key : ApiKeyConfig) : StatRow where
  apiKey := key.id
  spentUsd := (sums.spentByKey.get key.id).getD Decimal.zero
  cacheRate :=
    match sums.tokensByKey.get key.id with
    | some (inputTokens, cachedInputTokens) =>
      if 0 < inputTokens then some (cachedInputTokens, inputTokens) else none
    | none => none
  status := statStatus key config.fallbackModel.isSome
    ((sums.spentByKey.get key.id).getD Decimal.zero)

/-- Whether the query of the report selects a log. -/
def inStatRange (rangeStart rangeEnd : Int) (log : RequestLog) : Bool :=
  log.requestedAt.any fun seconds => decide (rangeStart ≤ seconds ∧ seconds < rangeEnd)

/-- `print_stat`: the lines of the report. -/
def printStat (now : OffsetDateTime) (args : StatArgs) (config : Config) (ledger : Ledger) :
    Except CliError (List StatRow) := do
  let weekStart := now.date - OffsetDateTime.daysFromMonday now.date
  let startDate := args.startDate.getD weekStart
  let endDate := args.endDate.getD (← weekEnd weekStart)
  if startDate > endDate then
    throw (.message "--start-date must be earlier than or equal to --end-date")
  let rangeEnd ← nextDay endDate
  let rangeStart ← formatMidnight startDate
  let rangeEnd ← formatMidnight rangeEnd
  let sums ← sumLogs ⟨.empty, .empty⟩ ((requestLogs ledger).filter (inStatRange rangeStart rangeEnd))
  return config.apiKeys.map (statRow config sums)

/-! ### Printed costs are read back -/

theorem toList_printfD (n : Nat) : (printfD n).toList = Nat.toDigits 10 n :=
  Nat.toList_repr

theorem toList_printf09D (n : Nat) :
    (printf09D n).toList =
      List.replicate (9 - (Nat.toDigits 10 n).length) '0' ++ Nat.toDigits 10 n := by
  simp [printf09D, ← String.length_toList]

/-- **A cost survives the view.** Its text in dollars is read as exactly that many billionths. -/
theorem parse_costUsd {costNanoUsd : Int} (hpos : 0 ≤ costNanoUsd)
    (hbound : costNanoUsd.natAbs < 2 ^ 96) :
    Decimal.parse (costUsd costNanoUsd) = some (Decimal.nano costNanoUsd hbound) := by
  obtain ⟨n, rfl⟩ := Int.eq_ofNat_of_zero_le hpos
  have hdigit : ∀ (k : Nat), ∀ c ∈ Nat.toDigits 10 k, c.isDigit = true := fun k c hc =>
    Nat.isDigit_of_mem_toDigits (by decide) (by decide) hc
  have hlength : (Nat.toDigits 10 (n % 1000000000)).length ≤ 9 :=
    (Nat.length_toDigits_le_iff (by decide) (by decide)).mpr (by omega)
  have htext : costUsd n = String.ofList (Nat.toDigits 10 (n / 1000000000) ++ '.' ::
      (List.replicate (9 - (Nat.toDigits 10 (n % 1000000000)).length) '0' ++
        Nat.toDigits 10 (n % 1000000000))) := by
    rw [← String.toList_inj]
    have hdiv : (n : Int).tdiv 1000000000 = ((n / 1000000000 : Nat) : Int) := rfl
    have hmod : (n : Int).tmod 1000000000 = ((n % 1000000000 : Nat) : Int) := rfl
    simp only [costUsd, hdiv, hmod, String.toList_append, toList_printfD, toList_printf09D,
      String.toList_ofList]
    simp
  have hvalue : Nat.ofDigitChars 10 (Nat.toDigits 10 (n / 1000000000) ++
      (List.replicate (9 - (Nat.toDigits 10 (n % 1000000000)).length) '0' ++
        Nat.toDigits 10 (n % 1000000000))) 0 = n := by
    rw [Nat.ofDigitChars_append, Nat.ofDigitChars_append, Nat.ofDigitChars_ten_toDigits,
      Nat.ofDigitChars_replicate_zero, Nat.ofDigitChars_eq_ofDigitChars_zero,
      Nat.ofDigitChars_ten_toDigits, ← mul_assoc, ← pow_add, Nat.add_sub_cancel' hlength]
    omega
  rw [htext, Decimal.parse_eq_fit Nat.toDigits_ne_nil (hdigit _), hvalue]
  · have hnine : (List.replicate (9 - (Nat.toDigits 10 (n % 1000000000)).length) '0' ++
        Nat.toDigits 10 (n % 1000000000)).length = 9 := by
      rw [List.length_append, List.length_replicate]
      omega
    rw [hnine]
    exact Decimal.fit_eq_self hbound (by decide)
  · intro c hc
    rcases List.mem_append.mp hc with hzero | hc
    · rw [(List.mem_replicate.mp hzero).2]
      rfl
    · exact hdigit _ c hc

/-! ### The sums are exact -/

/-- What the rows of a key amount to; rows without the amount do not count. -/
def keySum (amount : Row → Option Int) (apiKeyId : String) (rows : List Row) : Int :=
  (rows.filterMap fun row => if row.apiKeyId = apiKeyId then amount row else none).sum

theorem keySum_cons (amount : Row → Option Int) (apiKeyId : String) (row : Row) (rows : List Row) :
    keySum amount apiKeyId (row :: rows) =
      (if row.apiKeyId = apiKeyId then (amount row).getD 0 else 0) +
        keySum amount apiKeyId rows := by
  simp only [keySum, List.filterMap_cons]
  split_ifs with hkey
  · cases hamount : amount row with
    | none => simp
    | some n => simp
  · simp

theorem keySum_nonneg {amount : Row → Option Int} {apiKeyId : String} {rows : List Row}
    (h : ∀ row ∈ rows, 0 ≤ (amount row).getD 0) : 0 ≤ keySum amount apiKeyId rows := by
  induction rows with
  | nil => exact Int.le_refl 0
  | cons row rows ih =>
    have hhead : 0 ≤ (amount row).getD 0 := h row List.mem_cons_self
    have htail := ih fun row hrow => h row (List.mem_cons_of_mem _ hrow)
    rw [keySum_cons]
    split_ifs <;> omega

/-- The cached input tokens that the report counts: those of rows with input tokens. -/
def countedCached (row : Row) : Option Int :=
  row.inputTokens.map fun _ => row.cachedInputTokens.getD 0

/-- Sums that stand for the rows read so far, whose amounts by key are given. -/
structure StatSums.Counts (sums : StatSums) (spent input cached : String → Int) : Prop where
  spent_isNano : ∀ key, Decimal.IsNano ((sums.spentByKey.get key).getD Decimal.zero) (spent key)
  tokens_eq : ∀ key, (sums.tokensByKey.get key).getD (0, 0) = (input key, cached key)

/-- The amounts by key after a row. -/
def addAt (amounts : String → Int) (row : Row) (amount : Option Int) (key : String) : Int :=
  amounts key + if row.apiKeyId = key then amount.getD 0 else 0

section

variable {sums : StatSums} {spent input cached : String → Int} {row : Row}

theorem addSpend_counts (second : Option Int) (h : sums.Counts spent input cached)
    (hcost : ∀ cost ∈ row.costNanoUsd, 0 ≤ cost) (hspent : ∀ key, 0 ≤ spent key)
    (hbound : ∀ key, addAt spent row row.costNanoUsd key ≤ 9223372036854775807) :
    ∃ sums', addSpend sums ⟨second, row.costNanoUsd.map costUsd, row⟩ = .ok sums' ∧
      sums'.Counts (addAt spent row row.costNanoUsd) input cached := by
  cases hrow : row.costNanoUsd with
  | none => exact ⟨sums, rfl, ⟨fun key => by simpa [addAt] using h.spent_isNano key, h.tokens_eq⟩⟩
  | some cost =>
    have hpos : 0 ≤ cost := hcost cost hrow
    have hnow := hbound row.apiKeyId
    have hbefore := hspent row.apiKeyId
    rw [addAt, if_pos rfl, hrow, Option.getD_some] at hnow
    have hsmall : cost.natAbs < 2 ^ 96 := by omega
    obtain ⟨sum, hadd, hsum⟩ :=
      (h.spent_isNano row.apiKeyId).checkedAdd hsmall (by omega)
    have hcounted : addSpend sums ⟨second, some (costUsd cost), row⟩ =
        .ok ⟨sums.spentByKey.insert row.apiKeyId sum, sums.tokensByKey⟩ := by
      simp only [addSpend, parse_costUsd hpos hsmall, hadd]
    refine ⟨_, hcounted, fun key => ?_, h.tokens_eq⟩
    rw [OrdMap.get_insert, addAt]
    by_cases hkey : key = row.apiKeyId
    · rw [if_pos hkey, if_pos hkey.symm, hkey]
      exact hsum
    · rw [if_neg hkey, if_neg (Ne.symm hkey), add_zero]
      exact h.spent_isNano key

theorem addTokens_counts (second : Option Int) (h : sums.Counts spent input cached)
    (hinput : ∀ key, inI64 (addAt input row row.inputTokens key) = true)
    (hcached : ∀ key, inI64 (addAt cached row (countedCached row) key) = true) :
    ∃ sums', addTokens sums ⟨second, row.costNanoUsd.map costUsd, row⟩ = .ok sums' ∧
      sums'.Counts spent (addAt input row row.inputTokens)
        (addAt cached row (countedCached row)) := by
  cases hrow : row.inputTokens with
  | none =>
    refine ⟨sums, by simp [addTokens, hrow], h.spent_isNano, fun key => ?_⟩
    simpa [addAt, countedCached, hrow] using h.tokens_eq key
  | some inputTokens =>
    have hin := hinput row.apiKeyId
    have hca := hcached row.apiKeyId
    rw [addAt, if_pos rfl, hrow, Option.getD_some] at hin
    rw [addAt, if_pos rfl, countedCached, hrow, Option.map_some, Option.getD_some] at hca
    have htokens := h.tokens_eq row.apiKeyId
    have hcounted : addTokens sums ⟨second, row.costNanoUsd.map costUsd, row⟩ =
        .ok ⟨sums.spentByKey, sums.tokensByKey.insert row.apiKeyId
          (input row.apiKeyId + inputTokens,
            cached row.apiKeyId + row.cachedInputTokens.getD 0)⟩ := by
      simp only [addTokens, hrow, htokens, checkedAddI64, hin, hca, if_true]
    refine ⟨_, hcounted, h.spent_isNano, fun key => ?_⟩
    rw [OrdMap.get_insert, addAt, addAt]
    by_cases hkey : key = row.apiKeyId
    · rw [if_pos hkey, if_pos hkey.symm, if_pos hkey.symm, hkey]
      simp [countedCached, hrow]
    · rw [if_neg hkey, if_neg (Ne.symm hkey), if_neg (Ne.symm hkey), add_zero, add_zero]
      exact h.tokens_eq key

/-- What the checks of the table say about the amounts of a row. -/
theorem amounts_of_checks (h : row.checks = true) :
    (∀ cost ∈ row.costNanoUsd, 0 ≤ cost) ∧ 0 ≤ (countedCached row).getD 0 ∧
      (countedCached row).getD 0 ≤ row.inputTokens.getD 0 := by
  simp only [Row.checks, Bool.and_eq_true] at h
  obtain ⟨⟨⟨⟨⟨hinput, hcached⟩, -⟩, hcost⟩, -⟩, -⟩ := h
  refine ⟨fun cost hrow => ?_, ?_⟩
  · rw [Option.mem_def.mp hrow] at hcost
    simpa using hcost
  · cases hin : row.inputTokens with
    | none => simp [countedCached, hin]
    | some inputTokens =>
      have hin_nonneg : 0 ≤ inputTokens := by simpa [hin] using hinput
      cases hca : row.cachedInputTokens with
      | none => simpa [countedCached, hin, hca] using hin_nonneg
      | some cachedInputTokens =>
        have hboth : 0 ≤ cachedInputTokens ∧ cachedInputTokens ≤ inputTokens := by
          simpa [hin, hca] using hcached
        simpa [countedCached, hin, hca] using hboth

/-- Amounts that stay in `i64` when the rows that are left are added. -/
structure InRange (spent input cached : String → Int) (rows : List Row) : Prop where
  spent_nonneg : ∀ key, 0 ≤ spent key
  cached_nonneg : ∀ key, 0 ≤ cached key
  cached_le : ∀ key, cached key ≤ input key
  spent_le : ∀ key, spent key + keySum Row.costNanoUsd key rows ≤ 9223372036854775807
  input_le : ∀ key, input key + keySum Row.inputTokens key rows ≤ 9223372036854775807

theorem keySum_nonneg_of_checks {rows : List Row} (hchecks : ∀ row ∈ rows, row.checks = true)
    (key : String) :
    0 ≤ keySum Row.costNanoUsd key rows ∧ 0 ≤ keySum Row.inputTokens key rows := by
  refine ⟨keySum_nonneg fun row hrow => ?_, keySum_nonneg fun row hrow => ?_⟩
  · obtain ⟨hcost, -⟩ := amounts_of_checks (hchecks row hrow)
    cases hsome : row.costNanoUsd with
    | none => simp
    | some cost => exact hcost cost hsome
  · obtain ⟨-, hnonneg, hle⟩ := amounts_of_checks (hchecks row hrow)
    exact hnonneg.trans hle

theorem InRange.tail {rows : List Row} (h : InRange spent input cached (row :: rows))
    (hrow : row.checks = true) :
    InRange (addAt spent row row.costNanoUsd) (addAt input row row.inputTokens)
      (addAt cached row (countedCached row)) rows := by
  obtain ⟨hcost, hnonneg, hle⟩ := amounts_of_checks hrow
  have hcost_nonneg : 0 ≤ row.costNanoUsd.getD 0 := by
    cases hsome : row.costNanoUsd with
    | none => simp
    | some cost => exact hcost cost hsome
  constructor
  · intro key
    have hbefore := h.spent_nonneg key
    rw [addAt]
    split_ifs <;> omega
  · intro key
    have hbefore := h.cached_nonneg key
    rw [addAt]
    split_ifs <;> omega
  · intro key
    have hbefore := h.cached_le key
    rw [addAt, addAt]
    split_ifs <;> omega
  · intro key
    have hbefore := h.spent_le key
    rw [keySum_cons] at hbefore
    rw [addAt]
    omega
  · intro key
    have hbefore := h.input_le key
    rw [keySum_cons] at hbefore
    rw [addAt]
    omega

end

/-- **The loop adds up exactly.** Over rows that pass the checks of the table, and as long as the
sums are `i64` numbers, the loop ends with the sums of the rows by key. -/
theorem sumLogs_counts (second : Row → Option Int) {rows : List Row}
    (hchecks : ∀ row ∈ rows, row.checks = true) :
    ∀ {sums : StatSums} {spent input cached : String → Int}, sums.Counts spent input cached →
      InRange spent input cached rows →
      ∃ sums', sumLogs sums (rows.map fun row => ⟨second row, row.costNanoUsd.map costUsd, row⟩) =
          .ok sums' ∧
        sums'.Counts (fun key => spent key + keySum Row.costNanoUsd key rows)
          (fun key => input key + keySum Row.inputTokens key rows)
          (fun key => cached key + keySum countedCached key rows) := by
  induction rows with
  | nil =>
    intro sums spent input cached hcounts _
    exact ⟨sums, rfl, by simpa [keySum] using hcounts⟩
  | cons row rows ih =>
    intro sums spent input cached hcounts hrange
    have hrow := hchecks row List.mem_cons_self
    have htail : ∀ row ∈ rows, row.checks = true := fun row hmem =>
      hchecks row (List.mem_cons_of_mem _ hmem)
    have hrest := hrange.tail hrow
    have hnonneg := keySum_nonneg_of_checks htail
    have hspent : ∀ key, addAt spent row row.costNanoUsd key ≤ 9223372036854775807 := by
      intro key
      have hle := hrest.spent_le key
      have hpos := (hnonneg key).1
      omega
    have hinput : ∀ key, inI64 (addAt input row row.inputTokens key) = true ∧
        inI64 (addAt cached row (countedCached row) key) = true := by
      intro key
      have hle := hrest.input_le key
      have hpos := (hnonneg key).2
      have hcached := hrest.cached_nonneg key
      have hcached_le := hrest.cached_le key
      exact ⟨inI64_iff.mpr ⟨by omega, by omega⟩, inI64_iff.mpr ⟨by omega, by omega⟩⟩
    obtain ⟨sums₁, hspend, hcounts₁⟩ := addSpend_counts (second row) hcounts
      (amounts_of_checks hrow).1 hrange.spent_nonneg hspent
    obtain ⟨sums₂, htokens, hcounts₂⟩ := addTokens_counts (second row) hcounts₁
      (fun key => (hinput key).1) (fun key => (hinput key).2)
    obtain ⟨sums', hloop, hcounts'⟩ := ih htail hcounts₂ hrest
    refine ⟨sums', ?_, ?_⟩
    · simp only [List.map_cons, sumLogs, hspend, htokens, ok_bind, hloop]
    · have hassoc : ∀ (amounts : String → Int) (amount : Row → Option Int) (key : String),
          addAt amounts row (amount row) key + keySum amount key rows =
            amounts key + keySum amount key (row :: rows) := by
        intro amounts amount key
        rw [keySum_cons, addAt, add_assoc]
      simpa only [hassoc] using hcounts'

/-! ### The default report -/

/-- The input tokens of a key in the week `week`. -/
def weekInputTokens (ledger : Ledger) (apiKeyId : String) (week : Int) : Int :=
  keySum Row.inputTokens apiKeyId (ledger.filter fun row => weekOf row.requestedAtMs = week)

/-- The date of the first day of the week of `now`. -/
def weekStart (now : OffsetDateTime) : Int :=
  now.date - OffsetDateTime.daysFromMonday now.date

/-- The week of `now` and the midnight after it lie between the years 0 and 9999. -/
def InCalendar (now : OffsetDateTime) : Prop :=
  firstDate ≤ weekStart now ∧ weekStart now + 7 ≤ lastDate

/-- The default range of the report selects the logs of the week of `now`. -/
theorem inStatRange_week {now : OffsetDateTime} (h : InCalendar now) (row : Row)
    (costUsd : Option String) :
    inStatRange (weekStart now * 86400) ((weekStart now + 7) * 86400)
        ⟨requestedAtSeconds row.requestedAtMs, costUsd, row⟩ =
      decide (weekOf row.requestedAtMs = weekOf now.unixMillis) := by
  obtain ⟨hfirst, hlast⟩ := h
  have hweek := mem_window_iff now row.requestedAtMs
  have hmonday : (mondayStart now).unixMillis = weekStart now * 86400000 := by
    simp only [mondayStart, OffsetDateTime.unixMillis, weekStart]
    omega
  rw [hmonday] at hweek
  simp only [inStatRange, requestedAtSeconds]
  rw [Bool.eq_iff_iff, decide_eq_true_eq, ← hweek]
  split_ifs with hcalendar
  · simp only [Option.any_some, decide_eq_true_eq]
    omega
  · simp only [Option.any_none, Bool.false_eq_true, false_iff]
    omega

theorem keySum_cost_week (ledger : Ledger) (apiKeyId : String) (week : Int) :
    keySum Row.costNanoUsd apiKeyId (ledger.filter fun row => weekOf row.requestedAtMs = week) =
      weekSpend ledger apiKeyId week := by
  rw [keySum, weekSpend, weekCosts, List.filterMap_filter]
  congr 2
  funext row
  by_cases hweek : weekOf row.requestedAtMs = week
  · simp [hweek]
  · simp [hweek]

/-- **The default report.** If the week of `now` is one of the calendar of the date functions, the
rows pass the checks of the table and the sums of the week fit in `i64`, the report has a line for
every key, in order, whose spend is exactly that of the week of `now`. -/
theorem printStat_default {now : OffsetDateTime} (config : Config) {ledger : Ledger}
    (hcalendar : InCalendar now) (hchecks : ∀ row ∈ ledger, row.checks = true)
    (hspend : ∀ apiKeyId, inI64 (weekSpend ledger apiKeyId (weekOf now.unixMillis)) = true)
    (htokens : ∀ apiKeyId, inI64 (weekInputTokens ledger apiKeyId (weekOf now.unixMillis)) = true) :
    ∃ sums, printStat now ⟨none, none⟩ config ledger =
        .ok (config.apiKeys.map (statRow config sums)) ∧
      ∀ apiKeyId, Decimal.IsNano ((sums.spentByKey.get apiKeyId).getD Decimal.zero)
        (weekSpend ledger apiKeyId (weekOf now.unixMillis)) := by
  have hfilter : (requestLogs ledger).filter
        (inStatRange (weekStart now * 86400) ((weekStart now + 7) * 86400)) =
      (ledger.filter fun row => weekOf row.requestedAtMs = weekOf now.unixMillis).map fun row =>
        ⟨requestedAtSeconds row.requestedAtMs, row.costNanoUsd.map costUsd, row⟩ := by
    rw [requestLogs, List.filter_map]
    congr 2
    funext row
    exact inStatRange_week hcalendar row _
  have hstart : StatSums.Counts ⟨.empty, .empty⟩ (fun _ => 0) (fun _ => 0) (fun _ => 0) :=
    ⟨fun _ => Decimal.isNano_zero, fun _ => rfl⟩
  have hrange : InRange (fun _ => 0) (fun _ => 0) (fun _ => 0)
      (ledger.filter fun row => weekOf row.requestedAtMs = weekOf now.unixMillis) := by
    refine ⟨fun _ => Int.le_refl 0, fun _ => Int.le_refl 0, fun _ => Int.le_refl 0,
      fun key => ?_, fun key => ?_⟩
    · have hkey := inI64_iff.mp (hspend key)
      rw [keySum_cost_week]
      omega
    · have hkey := inI64_iff.mp (htokens key)
      rw [weekInputTokens] at hkey
      omega
  obtain ⟨sums, hloop, hcounts⟩ := sumLogs_counts
    (fun row : Row => requestedAtSeconds row.requestedAtMs)
    (fun row hrow => hchecks row (List.mem_filter.mp hrow).1) hstart hrange
  refine ⟨sums, ?_, fun apiKeyId => ?_⟩
  · obtain ⟨hfirst, hlast⟩ := hcalendar
    have hsix : weekEnd (weekStart now) = .ok (weekStart now + 6) := if_pos (by omega)
    have hnext : nextDay (weekStart now + 6) = .ok (weekStart now + 7) := by
      rw [nextDay, if_pos (by omega), add_assoc]
      rfl
    have hmidnight : formatMidnight (weekStart now) = .ok (weekStart now * 86400) := if_pos hfirst
    have hmidnight' : formatMidnight (weekStart now + 7) = .ok ((weekStart now + 7) * 86400) :=
      if_pos (by omega)
    have horder : ¬ weekStart now > weekStart now + 6 := by omega
    rw [weekStart] at hsix hnext hmidnight hmidnight' horder hfilter
    simp only [printStat, Option.getD_none, hsix, ok_bind, if_neg horder, hnext, hmidnight,
      hmidnight', hfilter, hloop]
    rfl
  · have hspent := hcounts.spent_isNano apiKeyId
    rwa [keySum_cost_week, zero_add] at hspent

end CodexApi
