import CodexApi.Config

/-!
# Pricing and its rounding

`exactNanoUsd` is what a usage costs over exact numbers, and a bill is exact when it is that amount
rounded half up. `calculate_cost_nano_usd` forms the sum of its three products in a `Decimal`
first (`heldSum`), scales it and rounds once more. Scaling is exact, so the bill is exact if and
only if holding the sum in a decimal carries it across no half (`KeepsHalves`).

The digits a decimal drops are few: whenever there is a bill at all, they amount to at most the
`2 ^ 27`-th part of a nano-USD (`abs_heldSum_sub_le`), so the bill is exact unless the exact amount is
that close to a half.
-/

namespace CodexApi

/-- A number of tokens as a rational. -/
def tokens (count : UInt64) : ℚ := count.toNat

namespace BillableUsage

/-- What a usage costs in nano-USD, over exact numbers. -/
def exactNanoUsd (usage : BillableUsage) : ℚ :=
  1000 * ((tokens usage.inputTokens - tokens usage.cachedInputTokens) *
      usage.rates.inputUsdPerMillion.toRat +
    tokens usage.cachedInputTokens * usage.rates.cachedInputUsdPerMillion.toRat +
    tokens usage.outputTokens * usage.rates.outputUsdPerMillion.toRat)

/-- The sum of the products of counts and rates as a decimal holds it: every product and every sum
drops the digits for which there is no room. -/
def heldSum (usage : BillableUsage) : Option Decimal := do
  let uncached := decimalOfU64 (usage.inputTokens - usage.cachedInputTokens)
  let value ← uncached.checkedMul usage.rates.inputUsdPerMillion
  let cachedCost ← (decimalOfU64 usage.cachedInputTokens).checkedMul
    usage.rates.cachedInputUsdPerMillion
  let value ← value.checkedAdd cachedCost
  let outputCost ← (decimalOfU64 usage.outputTokens).checkedMul usage.rates.outputUsdPerMillion
  value.checkedAdd outputCost

/-- **The dropped digits carry the amount across no half**: the exact amount and the amount held
lie on the same side of every half. -/
def KeepsHalves (usage : BillableUsage) : Prop :=
  ∀ held ∈ usage.heldSum, ∀ n : ℤ,
    n + 1 / 2 ≤ usage.exactNanoUsd ↔ n + 1 / 2 ≤ 1000 * held.toRat

end BillableUsage

variable {usage : BillableUsage} {held : Decimal} {cost : Int}

/-! ### A bill is the held sum, rounded half up -/

/-- The last step of pricing scales the held sum. -/
theorem calculateCostNanoUsd_eq (h : usage.cachedInputTokens ≤ usage.inputTokens) :
    calculateCostNanoUsd usage =
      match usage.heldSum.bind (·.checkedMul (Decimal.ofInt 1000 (by decide))) with
      | none => .error .costOutOfRange
      | some weighted =>
        if inI64 weighted.roundToInt then .ok weighted.roundToInt else .error .costOutOfRange := by
  rw [calculateCostNanoUsd, if_neg (UInt64.not_lt.mpr h)]
  simp only [BillableUsage.heldSum, Option.bind_eq_bind, Option.bind_assoc]
  all_goals rfl

/-- How a bill comes about. -/
theorem calculateCostNanoUsd_eq_ok (h : calculateCostNanoUsd usage = .ok cost) :
    usage.cachedInputTokens ≤ usage.inputTokens ∧ ∃ held ∈ usage.heldSum,
      ∃ weighted, held.checkedMul (Decimal.ofInt 1000 (by decide)) = some weighted ∧
        inI64 weighted.roundToInt = true ∧ weighted.roundToInt = cost := by
  have hcached := (cost_of_calculateCostNanoUsd h).1
  rw [calculateCostNanoUsd_eq hcached] at h
  cases hweighted : usage.heldSum.bind (·.checkedMul (Decimal.ofInt 1000 (by decide))) with
  | none => simp [hweighted] at h
  | some weighted =>
    obtain ⟨held, hheld, hmul⟩ := Option.bind_eq_some_iff.mp hweighted
    simp only [hweighted] at h
    split_ifs at h with hrange
    exact ⟨hcached, held, hheld, weighted, hmul, hrange, Except.ok.inj h⟩

/-- How a sum comes to be held. -/
theorem heldSum_eq_some (h : held ∈ usage.heldSum) : ∃ input cached inputs output,
    (decimalOfU64 (usage.inputTokens - usage.cachedInputTokens)).checkedMul
        usage.rates.inputUsdPerMillion = some input ∧
      (decimalOfU64 usage.cachedInputTokens).checkedMul
        usage.rates.cachedInputUsdPerMillion = some cached ∧
      input.checkedAdd cached = some inputs ∧
      (decimalOfU64 usage.outputTokens).checkedMul usage.rates.outputUsdPerMillion = some output ∧
      inputs.checkedAdd output = some held := by
  simp only [BillableUsage.heldSum, Option.bind_eq_bind, Option.mem_def,
    Option.bind_eq_some_iff] at h
  obtain ⟨input, hinput, cached, hcached, inputs, hinputs, output, houtput, hheld⟩ := h
  exact ⟨input, cached, inputs, output, hinput, hcached, hinputs, houtput, hheld⟩

theorem heldSum_nonneg (hrates : usage.rates.Nonneg) (h : held ∈ usage.heldSum) :
    0 ≤ held.mantissa := by
  obtain ⟨input, cached, inputs, output, hinput, hcached, hinputs, houtput, hheld⟩ :=
    heldSum_eq_some h
  have hcount : ∀ n : UInt64, 0 ≤ (decimalOfU64 n).mantissa := fun n => Int.natCast_nonneg _
  have hinput := Decimal.checkedMul_nonneg (hcount _) hrates.input hinput
  have hcached := Decimal.checkedMul_nonneg (hcount _) hrates.cachedInput hcached
  have houtput := Decimal.checkedMul_nonneg (hcount _) hrates.output houtput
  exact Decimal.checkedAdd_nonneg (Decimal.checkedAdd_nonneg hinput hcached hinputs) houtput hheld

/-- A bill is a thousand times the held sum, rounded half up. -/
theorem cost_eq_floor (hrates : usage.rates.Nonneg) (h : calculateCostNanoUsd usage = .ok cost)
    (hheld : held ∈ usage.heldSum) : cost = ⌊1000 * held.toRat + 1 / 2⌋ := by
  obtain ⟨-, held', hheld', weighted, hweighted, -, rfl⟩ := calculateCostNanoUsd_eq_ok h
  cases Option.mem_unique hheld hheld'
  have hnonneg := Decimal.checkedMul_nonneg (heldSum_nonneg hrates hheld)
    (b := Decimal.ofInt 1000 (by decide)) (by decide) hweighted
  rw [Decimal.roundToInt_eq_floor hnonneg, Decimal.checkedMul_pow (j := 3) (by decide) rfl hweighted]
  congr 2
  ring

/-! ### The bill is exact unless a half is crossed -/

/-- Two amounts round half up to the same number exactly when no half separates them. -/
theorem floor_add_half_eq_iff {x y : ℚ} :
    ⌊y + 1 / 2⌋ = ⌊x + 1 / 2⌋ ↔ ∀ n : ℤ, n + 1 / 2 ≤ x ↔ n + 1 / 2 ≤ y := by
  have hhalf : ∀ (z : ℚ) (n : ℤ), n + 1 / 2 ≤ z ↔ n + 1 ≤ ⌊z + 1 / 2⌋ := by
    intro z n
    rw [Int.le_floor]
    push_cast
    constructor <;> intro h <;> linarith
  simp only [hhalf]
  constructor
  · intro h n
    rw [h]
  · intro h
    refine eq_of_forall_le_iff fun n => ?_
    have := h (n - 1)
    rw [sub_add_cancel] at this
    exact this.symm

/-- Fifteen hundred tokens of input, a third of them cached, at whole rates. -/
def wholeUsage : BillableUsage where
  inputTokens := 1500
  cachedInputTokens := 500
  outputTokens := 20
  rates := ⟨.ofInt 2 (by decide), .one, .ofInt 8 (by decide)⟩

/-- A model whose input costs `0.7273181818181818181818181818` dollars per million tokens. -/
def finePrice : ModelPrice where
  inputUsdPerMillion := ⟨7273181818181818181818181818, 28, by decide, by decide⟩
  cachedInputUsdPerMillion := .zero
  outputUsdPerMillion := .zero
  maxReasoningEffort := none

/-- A configuration with that model. -/
def fineConfig : Config where
  enableWebsockets := false
  supportsWebsockets := false
  statePath := "state"
  authFile := "auth"
  baseUrlScheme := "https"
  oauthTokenUrlScheme := "https"
  fallbackModel := none
  apiKeys := [.unlimited "key" "secret"]
  modelPrices := OrdMap.ofList [("fine", finePrice)]

/-- Eleven tokens of input for that model. -/
def fineUsage : BillableUsage where
  inputTokens := 11
  cachedInputTokens := 0
  outputTokens := 0
  rates := ⟨finePrice.inputUsdPerMillion, .zero, .zero⟩

theorem toRat_decimalOfU64 (count : UInt64) : (decimalOfU64 count).toRat = tokens count := by
  simp [decimalOfU64, tokens]

theorem tokens_nonneg (count : UInt64) : 0 ≤ tokens count := Nat.cast_nonneg _

theorem tokens_sub {count count' : UInt64} (h : count' ≤ count) :
    tokens (count - count') = tokens count - tokens count' := by
  rw [tokens, UInt64.toNat_sub_of_le _ _ h, Nat.cast_sub (UInt64.le_iff_toNat_le.mp h)]
  rfl

/-- A product of a count and a rate is held closely. -/
private theorem abs_price_sub_le {count : UInt64} {rate price : Decimal} (hrate : 0 ≤ rate.mantissa)
    (h : (decimalOfU64 count).checkedMul rate = some price) :
    |price.toRat - tokens count * rate.toRat| ≤ tokens count * rate.toRat / 2 ^ 93 := by
  rw [← toRat_decimalOfU64]
  refine Decimal.abs_checkedMul_sub_le (Int.natCast_nonneg _) hrate ?_ h
  have := rate.scale_le
  simpa [decimalOfU64, Decimal.ofInt] using this

/-- **The held sum is close to the exact one**, by five roundings that each change it by at most the
`2 ^ 93`-th part. -/
theorem abs_heldSum_sub_le (hrates : usage.rates.Nonneg)
    (hcached : usage.cachedInputTokens ≤ usage.inputTokens) (h : held ∈ usage.heldSum) :
    |1000 * held.toRat - usage.exactNanoUsd| ≤ usage.exactNanoUsd / 2 ^ 91 := by
  obtain ⟨input, cached, inputs, output, hinput, hcachedCost, hinputs, houtput, hheld⟩ :=
    heldSum_eq_some h
  have hcount : ∀ n : UInt64, 0 ≤ (decimalOfU64 n).mantissa := fun n => Int.natCast_nonneg _
  have hinput₀ := Decimal.checkedMul_nonneg (hcount _) hrates.input hinput
  have hcached₀ := Decimal.checkedMul_nonneg (hcount _) hrates.cachedInput hcachedCost
  have houtput₀ := Decimal.checkedMul_nonneg (hcount _) hrates.output houtput
  have hinputs₀ := Decimal.checkedAdd_nonneg hinput₀ hcached₀ hinputs
  have hnonneg : ∀ (n : UInt64) {rate : Decimal}, 0 ≤ rate.mantissa → 0 ≤ tokens n * rate.toRat :=
    fun n rate hrate => mul_nonneg (tokens_nonneg n) (Decimal.toRat_nonneg_iff.mpr hrate)
  have hpos₁ := hnonneg (usage.inputTokens - usage.cachedInputTokens) hrates.input
  have hpos₂ := hnonneg usage.cachedInputTokens hrates.cachedInput
  have hpos₃ := hnonneg usage.outputTokens hrates.output
  have h₁ := abs_le.mp (abs_price_sub_le hrates.input hinput)
  have h₂ := abs_le.mp (abs_price_sub_le hrates.cachedInput hcachedCost)
  have h₃ := abs_le.mp (abs_price_sub_le hrates.output houtput)
  have h₄ := abs_le.mp (Decimal.abs_checkedAdd_sub_le hinput₀ hcached₀ hinputs)
  have h₅ := abs_le.mp (Decimal.abs_checkedAdd_sub_le hinputs₀ houtput₀ hheld)
  rw [tokens_sub hcached] at h₁ hpos₁
  rw [BillableUsage.exactNanoUsd, abs_le]
  constructor <;> linarith

/-- **Far from a half the bill is exact**: the dropped digits amount to at most the `2 ^ 27`-th
part of a nano-USD. -/
theorem keepsHalves_of_far (hrates : usage.rates.Nonneg) (h : calculateCostNanoUsd usage = .ok cost)
    (hfar : ∀ n : ℤ, 1 / 2 ^ 27 < |usage.exactNanoUsd - (n + 1 / 2)|) : usage.KeepsHalves := by
  intro held hheld n
  obtain ⟨hcached, held', hheld', weighted, hweighted, hrange, rfl⟩ := calculateCostNanoUsd_eq_ok h
  have hclose := abs_le.mp (abs_heldSum_sub_le hrates hcached hheld)
  have hfloor := cost_eq_floor hrates h hheld
  have hcost : (weighted.roundToInt : ℚ) ≤ 9223372036854775807 := by
    exact_mod_cast (inI64_iff.mp hrange).2
  have hlt := Int.lt_floor_add_one (1000 * held.toRat + 1 / 2)
  rw [← hfloor] at hlt
  rcases lt_abs.mp (hfar n) with hbelow | habove
  · exact iff_of_true (by linarith) (by linarith)
  · exact iff_of_false (by linarith) (by linarith)

end CodexApi
