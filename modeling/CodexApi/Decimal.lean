import Mathlib.Data.Rat.Cast.Order
import Mathlib.Algebra.Order.Field.Rat
import Mathlib.Algebra.Order.Ring.Abs
import Mathlib.Data.Rat.Floor
import Mathlib.Tactic.Linarith
import Mathlib.Tactic.FieldSimp
import Mathlib.Tactic.Ring
import Mathlib.Tactic.Positivity

/-!
# Fixed-width decimals

`Decimal` is the number type of `rust_decimal`: a mantissa of 96 bits and a scale of at most
28. Products and sums are formed exactly and then fitted (`fit`): as few low-order digits as
possible are dropped, rounding half to even, until the mantissa fits; the operation fails only
when even the integer part does not. Comparison is by value.

Admission needs `checkedMul_nano`: scaling a value by `10 ^ 9` never drops a nonzero digit, so it
is exact whenever it succeeds. Pricing needs to know how much the dropped digits can amount to
(`abs_fit_sub_le`). Statistics need that sums of billionths are exact
(`IsNano.checkedAdd`) and that a printed amount is read back (`parse_eq_fit`).
-/

namespace CodexApi

/-- A decimal number `mantissa / 10 ^ scale`. -/
structure Decimal where
  mantissa : Int
  scale : Nat
  mantissa_lt : mantissa.natAbs < 2 ^ 96
  scale_le : scale ≤ 28

namespace Decimal

instance : DecidableEq Decimal := fun a b =>
  decidable_of_iff (a.mantissa = b.mantissa ∧ a.scale = b.scale)
    ⟨fun h => by cases a; cases b; simpa using h, fun h => h ▸ ⟨rfl, rfl⟩⟩

/-- The value of a decimal. -/
def toRat (d : Decimal) : ℚ := d.mantissa / 10 ^ d.scale

/-- An integer as a decimal. -/
def ofInt (n : Int) (h : n.natAbs < 2 ^ 96) : Decimal := ⟨n, 0, h, Nat.zero_le _⟩

/-- `Decimal::ZERO`. -/
def zero : Decimal := ofInt 0 (by decide)

/-- `Decimal::ONE`. -/
def one : Decimal := ofInt 1 (by decide)

/-- `a ≤ b`, by value. -/
def le (a b : Decimal) : Bool :=
  decide (a.mantissa * 10 ^ b.scale ≤ b.mantissa * 10 ^ a.scale)

/-- Division of a mantissa by a power of ten, rounded half to even. -/
def roundHalfEven (m : Int) (p : Nat) : Int :=
  let q := m / p
  let r := m % p
  if 2 * r < p then q else if 2 * r = p then (if q % 2 = 0 then q else q + 1) else q + 1

/-- Whether `m / 10 ^ s` with its last `n` digits dropped is a decimal. -/
def fits (m : Int) (s n : Nat) : Bool :=
  decide ((roundHalfEven m (10 ^ n)).natAbs < 2 ^ 96 ∧ s - n ≤ 28)

/-- The decimal for `m / 10 ^ s` that keeps the most digits. -/
def fit (m : Int) (s : Nat) : Option Decimal :=
  ((List.range (s + 1)).find? (fits m s)).bind fun n =>
    if h : fits m s n = true then
      some ⟨roundHalfEven m (10 ^ n), s - n, (of_decide_eq_true h).1, (of_decide_eq_true h).2⟩
    else none

/-- `checked_mul`. -/
def checkedMul (a b : Decimal) : Option Decimal :=
  fit (a.mantissa * b.mantissa) (a.scale + b.scale)

/-- `checked_add`. -/
def checkedAdd (a b : Decimal) : Option Decimal :=
  fit (a.mantissa * 10 ^ (max a.scale b.scale - a.scale) +
    b.mantissa * 10 ^ (max a.scale b.scale - b.scale)) (max a.scale b.scale)

/-- `round_dp_with_strategy(0, MidpointAwayFromZero)` followed by the integer it shows. -/
def roundToInt (d : Decimal) : Int :=
  let p : Int := 10 ^ d.scale
  if 0 ≤ d.mantissa then (2 * d.mantissa + p) / (2 * p) else -((2 * (-d.mantissa) + p) / (2 * p))

/-- `Decimal::from(1_000_000_000_u64)`. -/
def nanoPerUnit : Decimal := ofInt 1000000000 (by decide)

/-! ### Decimal texts -/

/-- A sign and the text after it; without a sign the text is not negative. -/
def splitSign : List Char → Bool × List Char
  | '-' :: text => (true, text)
  | '+' :: text => (false, text)
  | text => (false, text)

/-- The digits of the rest of a text, which starts at the point if there is a rest. -/
def fractionDigits : List Char → Option (List Char)
  | [] => some []
  | c :: text => if c = '.' && text.all Char.isDigit then some text else none

/-- `str::parse`, on plain notation: a sign, digits and at most one point. -/
def parse (text : String) : Option Decimal := do
  let (negative, digits) := splitSign text.toList
  let whole := digits.takeWhile Char.isDigit
  let fraction ← fractionDigits (digits.dropWhile Char.isDigit)
  guard (whole ++ fraction ≠ [])
  let mantissa : Int := Nat.ofDigitChars 10 (whole ++ fraction) 0
  fit (if negative then -mantissa else mantissa) fraction.length

/-- Billionths. -/
def nano (n : Int) (h : n.natAbs < 2 ^ 96) : Decimal := ⟨n, 9, h, by decide⟩

/-! ### Comparison -/

private theorem pow_pos' (n : Nat) : (0 : ℚ) < 10 ^ n := by positivity

theorem le_iff {a b : Decimal} : a.le b = true ↔ a.toRat ≤ b.toRat := by
  rw [le, decide_eq_true_eq, toRat, toRat, div_le_div_iff₀ (pow_pos' _) (pow_pos' _)]
  exact_mod_cast Iff.rfl

@[simp]
theorem toRat_ofInt (n : Int) (h : n.natAbs < 2 ^ 96) : (ofInt n h).toRat = n := by
  simp [toRat, ofInt]

@[simp]
theorem toRat_zero : zero.toRat = 0 := by
  simp [zero]

theorem zero_le_iff {d : Decimal} : zero.le d = true ↔ 0 ≤ d.mantissa := by
  simp [le, zero, ofInt]

theorem toRat_nonneg_iff {d : Decimal} : 0 ≤ d.toRat ↔ 0 ≤ d.mantissa := by
  rw [← zero_le_iff, le_iff, toRat_zero]

/-! ### Exact scaling -/

theorem roundHalfEven_of_dvd {m : Int} {p : Nat} (hp : 0 < p) (h : (p : Int) ∣ m) :
    roundHalfEven m p = m / p := by
  have hr : m % p = 0 := Int.emod_eq_zero_of_dvd h
  simp only [roundHalfEven, hr]
  rw [if_pos (by omega)]

/-- What a successful fit returns: the value with the fewest possible digits dropped. -/
theorem fit_eq_some {m : Int} {s : Nat} {d : Decimal} (h : fit m s = some d) :
    ∃ n ≤ s, d.mantissa = roundHalfEven m (10 ^ n) ∧ d.scale = s - n ∧
      ∀ k < n, fits m s k = false := by
  obtain ⟨n, hfind, hd⟩ := Option.bind_eq_some_iff.mp h
  obtain ⟨hfits, hmem, hleast⟩ := List.find?_range_eq_some.mp hfind
  rw [dif_pos hfits] at hd
  cases hd
  refine ⟨n, ?_, rfl, rfl, fun k hk => by simpa using hleast k hk⟩
  simpa [Nat.lt_succ_iff] using hmem

/-- Dropping digits that are all zero keeps the value. -/
theorem toRat_of_drop_zeros {m : Int} {s n : Nat} {d : Decimal} (hn : n ≤ s)
    (hdvd : (10 ^ n : Int) ∣ m) (hmantissa : d.mantissa = roundHalfEven m (10 ^ n))
    (hscale : d.scale = s - n) : d.toRat = m / 10 ^ s := by
  have hcast : ((10 ^ n : Nat) : Int) = 10 ^ n := by push_cast; rfl
  obtain ⟨q, rfl⟩ := hdvd
  have hround : roundHalfEven (10 ^ n * q) (10 ^ n) = q := by
    rw [roundHalfEven_of_dvd (by positivity) (by rw [hcast]; exact dvd_mul_right _ _), hcast,
      Int.mul_ediv_cancel_left _ (by positivity)]
  have hsplit : (10 : ℚ) ^ s = 10 ^ n * 10 ^ (s - n) := by rw [← pow_add, Nat.add_sub_cancel' hn]
  rw [toRat, hmantissa, hscale, hround]
  push_cast
  rw [hsplit, mul_div_mul_left _ _ (by positivity)]

/-- **Scaling by a power of ten is exact.** If a value times `10 ^ j` is a decimal at all, it is the
exact product. -/
theorem checkedMul_pow {l p d : Decimal} {j : Nat} (hp : p.mantissa = 10 ^ j) (hs : p.scale = 0)
    (h : l.checkedMul p = some d) : d.toRat = l.toRat * 10 ^ j := by
  obtain ⟨n, hn, hmantissa, hscale, hleast⟩ := fit_eq_some h
  rw [hp, hs, Nat.add_zero] at *
  -- The digits of the power can always be dropped, so no more than these are.
  have hj : n ≤ j := by
    by_contra hgt
    have hcast : ((10 ^ j : Nat) : Int) = 10 ^ j := by push_cast; rfl
    have hround : roundHalfEven (l.mantissa * 10 ^ j) (10 ^ j) = l.mantissa := by
      rw [roundHalfEven_of_dvd (by positivity) (by rw [hcast]; exact dvd_mul_left _ _), hcast,
        Int.mul_ediv_cancel _ (by positivity)]
    have hfails := hleast j (by omega)
    have hbound := l.mantissa_lt
    have hle := l.scale_le
    simp only [fits, hround, decide_eq_false_iff_not] at hfails
    omega
  have hdvd : (10 ^ n : Int) ∣ l.mantissa * 10 ^ j :=
    (show (10 ^ n : Int) ∣ 10 ^ j from pow_dvd_pow 10 hj).mul_left _
  rw [toRat_of_drop_zeros hn hdvd hmantissa hscale, toRat]
  push_cast
  ring

/-- **Scaling to nano-units is exact.** -/
theorem checkedMul_nano {l d : Decimal} (h : l.checkedMul nanoPerUnit = some d) :
    d.toRat = l.toRat * 1000000000 := by
  rw [checkedMul_pow (j := 9) (by decide) rfl h]
  norm_num

/-- A value that fits with some of its digits dropped can be fitted. -/
theorem isSome_fit {m : Int} {s n : Nat} (hn : n ≤ s) (h : fits m s n = true) :
    (fit m s).isSome = true := by
  cases hfind : (List.range (s + 1)).find? (fits m s) with
  | none =>
    have hfails := List.find?_eq_none.mp hfind n (List.mem_range.mpr (Nat.lt_succ_of_le hn))
    exact absurd h hfails
  | some k =>
    rw [fit, hfind, Option.bind_some, dif_pos (List.find?_some hfind)]
    rfl

/-- A decimal that is not negative is below `2 ^ 96`. -/
theorem toRat_lt {d : Decimal} (hd : 0 ≤ d.mantissa) : d.toRat < 2 ^ 96 := by
  have hmantissa : (d.mantissa : ℚ) < 2 ^ 96 := by
    have := d.mantissa_lt
    exact_mod_cast (by omega : d.mantissa < 2 ^ 96)
  have hmantissa₀ : (0 : ℚ) ≤ d.mantissa := by exact_mod_cast hd
  exact (div_le_self hmantissa₀ (one_le_pow₀ (by norm_num))).trans_lt hmantissa

/-- **When scaling to nano-units succeeds.** The scaled value is below `2 ^ 96`. -/
theorem isSome_checkedMul_nano_iff {l : Decimal} (hl : 0 ≤ l.mantissa) :
    (l.checkedMul nanoPerUnit).isSome = true ↔ l.toRat * 1000000000 < 2 ^ 96 := by
  constructor
  · intro h
    obtain ⟨d, hd⟩ := Option.isSome_iff_exists.mp h
    rw [← checkedMul_nano hd]
    refine toRat_lt (toRat_nonneg_iff.mp ?_)
    rw [checkedMul_nano hd]
    exact mul_nonneg (toRat_nonneg_iff.mpr hl) (by norm_num)
  · intro h
    have hmantissa := l.mantissa_lt
    have hscale := l.scale_le
    by_cases hnine : 9 ≤ l.scale
    · -- Nine digits are zero and can go.
      refine isSome_fit (n := 9) hnine ?_
      have hround : roundHalfEven (l.mantissa * 1000000000) (10 ^ 9) = l.mantissa := by
        rw [roundHalfEven_of_dvd (by decide) (by norm_num)]
        norm_num
      simp only [fits, nanoPerUnit, ofInt, hround, decide_eq_true_eq]
      omega
    · -- The scaled value is an integer.
      refine isSome_fit (n := l.scale) (Nat.le_add_right _ _) ?_
      have hsplit : (1000000000 : Int) = 10 ^ l.scale * 10 ^ (9 - l.scale) := by
        rw [← pow_add, Nat.add_sub_cancel' (by omega)]
        norm_num
      have hcast : ((10 ^ l.scale : Nat) : Int) = 10 ^ l.scale := by push_cast; rfl
      have hround : roundHalfEven (l.mantissa * 1000000000) (10 ^ l.scale) =
          l.mantissa * 10 ^ (9 - l.scale) := by
        have hproduct : l.mantissa * 1000000000 =
            10 ^ l.scale * (l.mantissa * 10 ^ (9 - l.scale)) := by
          rw [hsplit]
          ring
        rw [roundHalfEven_of_dvd (by positivity)
          (by rw [hcast, hproduct]; exact dvd_mul_right _ _), hcast, hproduct,
          Int.mul_ediv_cancel_left _ (by positivity)]
      have hvalue : l.toRat * 1000000000 = ((l.mantissa * 10 ^ (9 - l.scale) : Int) : ℚ) := by
        have hsplit' : (1000000000 : ℚ) = 10 ^ l.scale * 10 ^ (9 - l.scale) := by
          exact_mod_cast hsplit
        rw [toRat, hsplit']
        push_cast
        field_simp
      rw [hvalue] at h
      have hlt : l.mantissa * 10 ^ (9 - l.scale) < 2 ^ 96 := by exact_mod_cast h
      have hnonneg : 0 ≤ l.mantissa * 10 ^ (9 - l.scale) := by positivity
      simp only [fits, nanoPerUnit, ofInt, hround, decide_eq_true_eq]
      omega

/-! ### Amounts that are not negative -/

theorem roundHalfEven_nonneg {m : Int} {p : Nat} (hm : 0 ≤ m) : 0 ≤ roundHalfEven m p := by
  have hq : 0 ≤ m / p := Int.ediv_nonneg hm (Int.natCast_nonneg p)
  simp only [roundHalfEven]
  split_ifs <;> omega

theorem fit_nonneg {m : Int} {s : Nat} {d : Decimal} (hm : 0 ≤ m) (h : fit m s = some d) :
    0 ≤ d.mantissa := by
  obtain ⟨n, -, hmantissa, -⟩ := fit_eq_some h
  rw [hmantissa]
  exact roundHalfEven_nonneg hm

theorem checkedMul_nonneg {a b d : Decimal} (ha : 0 ≤ a.mantissa) (hb : 0 ≤ b.mantissa)
    (h : a.checkedMul b = some d) : 0 ≤ d.mantissa :=
  fit_nonneg (mul_nonneg ha hb) h

theorem checkedAdd_nonneg {a b d : Decimal} (ha : 0 ≤ a.mantissa) (hb : 0 ≤ b.mantissa)
    (h : a.checkedAdd b = some d) : 0 ≤ d.mantissa :=
  fit_nonneg (by positivity) h

theorem roundToInt_nonneg {d : Decimal} (hd : 0 ≤ d.mantissa) : 0 ≤ d.roundToInt := by
  simp only [roundToInt, if_pos hd]
  positivity

/-- A decimal that is not negative, rounded to an integer, is rounded half up. -/
theorem roundToInt_eq_floor {d : Decimal} (hd : 0 ≤ d.mantissa) :
    d.roundToInt = ⌊d.toRat + 1 / 2⌋ := by
  have hp : (0 : ℚ) < 10 ^ d.scale := by positivity
  have hsum : d.toRat + 1 / 2 =
      ((2 * d.mantissa + 10 ^ d.scale : Int) : ℚ) / ((2 * 10 ^ d.scale : Nat) : ℚ) := by
    rw [toRat]
    push_cast
    field_simp
  rw [hsum, Rat.floor_intCast_div_natCast, roundToInt, if_pos hd]
  push_cast
  rfl

/-! ### How far a fitted value is from the exact one -/

/-- Rounding is to the nearest multiple. -/
theorem roundHalfEven_near (m : Int) {p : Nat} (hp : 0 < p) :
    2 * |p * roundHalfEven m p - m| ≤ p := by
  have hdivision := Int.mul_ediv_add_emod m p
  have hnonneg := Int.emod_nonneg m (Int.natCast_ne_zero.mpr hp.ne')
  have hlt := Int.emod_lt_of_pos m (Int.natCast_pos.mpr hp)
  have hup : (p : Int) * (m / p + 1) = p * (m / p) + p := by ring
  have habs : ∀ q : Int, -(p : Int) ≤ 2 * (p * q - m) → 2 * (p * q - m) ≤ p →
      2 * |p * q - m| ≤ p := by
    intro q hlow hhigh
    rcases abs_cases (p * q - m) with ⟨heq, -⟩ | ⟨heq, -⟩ <;> rw [heq] <;> omega
  simp only [roundHalfEven]
  split_ifs <;> refine habs _ ?_ ?_ <;> omega

/-- A scaled-up half of a mantissa that did not fit outweighs the digits dropped after it. -/
private theorem drop_le {m : Int} {k : Nat} (hm : 0 ≤ m)
    (h : ¬ (roundHalfEven m (10 ^ k)).natAbs < 2 ^ 96) : 2 ^ 93 * (5 * 10 ^ k) ≤ m := by
  have hnear := roundHalfEven_near m (p := 10 ^ k) (by positivity)
  have hround := roundHalfEven_nonneg (p := 10 ^ k) hm
  have hlarge : (2 : Int) ^ 96 ≤ roundHalfEven m (10 ^ k) := by omega
  have hone : (0 : Int) < 10 ^ k := by positivity
  have hmul := mul_le_mul_of_nonneg_left hlarge hone.le
  have hle := le_abs_self (((10 ^ k : Nat) : Int) * roundHalfEven m (10 ^ k) - m)
  push_cast at hnear hle
  nlinarith

/-- **A fitted value is relatively close.** If a value with at most 28 digits after the point fits
at all, it changes by at most the `2 ^ 93`-th part. -/
theorem abs_fit_sub_le {m : Int} {s : Nat} {d : Decimal} (hm : 0 ≤ m) (hs : s ≤ 28)
    (h : fit m s = some d) : |d.toRat - m / 10 ^ s| ≤ m / 10 ^ s / 2 ^ 93 := by
  obtain ⟨n, hn, hmantissa, hscale, hleast⟩ := fit_eq_some h
  have hm' : (0 : ℚ) ≤ m := by exact_mod_cast hm
  cases n with
  | zero =>
    rw [toRat_of_drop_zeros hn (by simp) hmantissa hscale, sub_self, abs_zero]
    positivity
  | succ k =>
    have hfails := hleast k (Nat.lt_succ_self k)
    simp only [fits, decide_eq_false_iff_not, not_and] at hfails
    have hdrop : 2 ^ 93 * (5 * 10 ^ k) ≤ m := drop_le hm fun hlt => hfails hlt (by omega)
    have hnear := roundHalfEven_near m (p := 10 ^ (k + 1)) (by positivity)
    have hsplit : (10 : ℚ) ^ s = 10 ^ (k + 1) * 10 ^ (s - (k + 1)) := by
      rw [← pow_add, Nat.add_sub_cancel' hn]
    have hdiff : d.toRat - m / 10 ^ s =
        (((10 ^ (k + 1) : Nat) * roundHalfEven m (10 ^ (k + 1)) - m : Int) : ℚ) / 10 ^ s := by
      rw [toRat, hmantissa, hscale, hsplit]
      push_cast
      field_simp
    have hnear' : 2 * |(((10 ^ (k + 1) : Nat) * roundHalfEven m (10 ^ (k + 1)) - m : Int) : ℚ)| ≤
        (10 : ℚ) ^ (k + 1) := by exact_mod_cast hnear
    have hdrop' : (2 : ℚ) ^ 93 * (5 * 10 ^ k) ≤ m := by exact_mod_cast hdrop
    rw [hdiff, abs_div, abs_of_pos (show (0 : ℚ) < 10 ^ s by positivity), div_div,
      mul_comm ((10 : ℚ) ^ s), ← div_div]
    refine div_le_div_of_nonneg_right ?_ (by positivity)
    rw [le_div_iff₀ (by positivity)]
    have hten : (10 : ℚ) ^ (k + 1) = 2 * (5 * 10 ^ k) := by ring
    rw [hten] at hnear'
    nlinarith

/-- A product with at most 28 digits after the point is relatively close to the exact one. -/
theorem abs_checkedMul_sub_le {a b d : Decimal} (ha : 0 ≤ a.mantissa) (hb : 0 ≤ b.mantissa)
    (hs : a.scale + b.scale ≤ 28) (h : a.checkedMul b = some d) :
    |d.toRat - a.toRat * b.toRat| ≤ a.toRat * b.toRat / 2 ^ 93 := by
  have hexact : a.toRat * b.toRat =
      ((a.mantissa * b.mantissa : Int) : ℚ) / 10 ^ (a.scale + b.scale) := by
    rw [toRat, toRat, pow_add, div_mul_div_comm]
    push_cast
    rfl
  rw [hexact]
  exact abs_fit_sub_le (mul_nonneg ha hb) hs h

/-- A sum is relatively close to the exact one. -/
theorem abs_checkedAdd_sub_le {a b d : Decimal} (ha : 0 ≤ a.mantissa) (hb : 0 ≤ b.mantissa)
    (h : a.checkedAdd b = some d) :
    |d.toRat - (a.toRat + b.toRat)| ≤ (a.toRat + b.toRat) / 2 ^ 93 := by
  have hshift : ∀ x : Decimal, x.scale ≤ max a.scale b.scale → x.toRat =
      x.mantissa * 10 ^ (max a.scale b.scale - x.scale) / 10 ^ max a.scale b.scale := by
    intro x hx
    rw [toRat, ← Nat.add_sub_cancel' hx, pow_add]
    simp only [Nat.add_sub_cancel_left]
    field_simp
  have hexact : a.toRat + b.toRat =
      ((a.mantissa * 10 ^ (max a.scale b.scale - a.scale) +
        b.mantissa * 10 ^ (max a.scale b.scale - b.scale) : Int) : ℚ) /
          10 ^ max a.scale b.scale := by
    rw [hshift a (le_max_left _ _), hshift b (le_max_right _ _), ← add_div]
    push_cast
    rfl
  rw [hexact]
  exact abs_fit_sub_le (by positivity) (max_le a.scale_le b.scale_le) h

/-! ### Sums and texts of billionths are exact -/

/-- A number that is a decimal as it stands loses no digit. -/
theorem fit_eq_self {m : Int} {s : Nat} (hm : m.natAbs < 2 ^ 96) (hs : s ≤ 28) :
    fit m s = some ⟨m, s, hm, hs⟩ := by
  have hround : roundHalfEven m (10 ^ 0) = m := by
    rw [roundHalfEven_of_dvd (by decide) (by simp)]
    simp
  have hfits : fits m s 0 = true := by
    rw [fits, hround]
    simpa using ⟨hm, hs⟩
  have hfind : (List.range (s + 1)).find? (fits m s) = some 0 := by
    rw [List.find?_range_eq_some]
    exact ⟨hfits, by simp, by omega⟩
  rw [fit, hfind, Option.bind_some, dif_pos hfits]
  simp only [hround, Nat.sub_zero]

/-- A decimal that denotes a whole number of billionths, with no more than nine digits after the
point. -/
def IsNano (d : Decimal) (n : Int) : Prop :=
  d.scale ≤ 9 ∧ d.mantissa * 10 ^ (9 - d.scale) = n

theorem isNano_zero : IsNano zero 0 := ⟨by decide, by decide⟩

theorem IsNano.toRat {d : Decimal} {n : Int} (h : IsNano d n) : d.toRat * 1000000000 = n := by
  obtain ⟨hscale, rfl⟩ := h
  have hsplit : (10 : ℚ) ^ 9 = 10 ^ d.scale * 10 ^ (9 - d.scale) := by
    rw [← pow_add, Nat.add_sub_cancel' hscale]
  have hnano : (1000000000 : ℚ) = 10 ^ 9 := by norm_num
  rw [hnano, hsplit, Decimal.toRat]
  push_cast
  field_simp

/-- **Adding billionths is exact.** -/
theorem IsNano.checkedAdd {d : Decimal} {n c : Int} (h : IsNano d n) (hc : c.natAbs < 2 ^ 96)
    (hsum : (n + c).natAbs < 2 ^ 96) :
    ∃ sum, d.checkedAdd (nano c hc) = some sum ∧ IsNano sum (n + c) := by
  obtain ⟨hscale, hvalue⟩ := h
  have hmax : max d.scale 9 = 9 := max_eq_right hscale
  refine ⟨nano (n + c) hsum, ?_, Nat.le_refl 9, by simp [nano]⟩
  simp only [Decimal.checkedAdd, nano, hmax, hvalue, Nat.sub_self, pow_zero, mul_one]
  exact fit_eq_self hsum (by decide)

theorem splitSign_of_isDigit {c : Char} {text : List Char} (h : c.isDigit = true) :
    splitSign (c :: text) = (false, c :: text) := by
  unfold splitSign
  split
  · rename_i heq
    rw [(List.cons.inj heq).1] at h
    exact absurd h (by decide)
  · rename_i heq
    rw [(List.cons.inj heq).1] at h
    exact absurd h (by decide)
  · rfl

/-- **Reading what was printed.** Digits, a point and digits are read as the number they
spell. -/
theorem parse_eq_fit {whole fraction : List Char} (hne : whole ≠ [])
    (hwhole : ∀ c ∈ whole, c.isDigit = true) (hfraction : ∀ c ∈ fraction, c.isDigit = true) :
    parse (String.ofList (whole ++ '.' :: fraction)) =
      fit (Nat.ofDigitChars 10 (whole ++ fraction) 0 : Nat) fraction.length := by
  obtain ⟨c, rest, rfl⟩ := List.exists_cons_of_ne_nil hne
  have hsign : splitSign ((c :: rest) ++ '.' :: fraction) = (false, (c :: rest) ++ '.' :: fraction) :=
    splitSign_of_isDigit (hwhole c List.mem_cons_self)
  have htake : ((c :: rest) ++ '.' :: fraction).takeWhile Char.isDigit = c :: rest := by
    rw [List.takeWhile_append_of_pos hwhole]
    simp [List.takeWhile]
  have hdrop : ((c :: rest) ++ '.' :: fraction).dropWhile Char.isDigit = '.' :: fraction := by
    rw [List.dropWhile_append_of_pos hwhole]
    simp [List.dropWhile]
  have hdigits : fractionDigits ('.' :: fraction) = some fraction := by
    simpa [fractionDigits] using hfraction
  simp only [parse, String.toList_ofList, hsign, htake, hdrop, hdigits]
  simp [guard]

end Decimal

end CodexApi
