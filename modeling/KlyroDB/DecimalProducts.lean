import KlyroDB.Decimals
import Mathlib.Data.Nat.Cast.Order.Field
import Mathlib.Tactic.LinearCombination
import Mathlib.Tactic.Linarith

/-!
# Products and quotients of decimals

The guards of `operator*` are exact, and `operator/` truncates.  The scale of a
result has eight bits: where it does not fit, the result is another number.
-/

namespace KlyroDB

namespace Decimal

/-- The four guards of `operator*`: whether one of them throws. -/
def overflows (first second : Int) : Except DecimalFailure Bool :=
  if first = 0 ∨ second = 0 then .ok false
  else if 0 < first then
    if 0 < second then (quotient maxCoefficient second).map fun limit => limit < first
    else (quotient minCoefficient first).map fun limit => second < limit
  else if 0 < second then (quotient minCoefficient second).map fun limit => first < limit
  else (quotient maxCoefficient second).map fun limit => first < limit

/-- The product of the coefficients, without a bound. -/
def product (left right : Decimal) : Int := left.coefficient.toInt * right.coefficient.toInt

def mul (left right : Decimal) : Except DecimalFailure Decimal :=
  match overflows left.coefficient.toInt right.coefficient.toInt with
  | .error failure => .error failure
  | .ok true => .error .overflowError
  | .ok false =>
      (signed (product left right)).map fun result =>
        ⟨Int64.ofInt result, left.scale + right.scale⟩

/-- `operator/` with its six digits of extra precision. -/
def div (left right : Decimal) : Except DecimalFailure Decimal :=
  if right.coefficient = 0 then .error .invalidArgument
  else
    match scaleUpChecked left.coefficient.toInt 6 with
    | .error failure => .error failure
    | .ok none => .error .overflowError
    | .ok (some first) =>
        (quotient first right.coefficient.toInt).map fun result =>
          ⟨Int64.ofInt result, left.scale + 6 - right.scale⟩

/-! ## Multiplication -/

theorem quotient_maxCoefficient_neg {divisor : Int} (negative : divisor < 0) :
    quotient maxCoefficient divisor = .ok (-maxCoefficient.tdiv (-divisor)) := by
  have small := Int.natAbs_tdiv_le_natAbs maxCoefficient divisor
  rw [← Int.tdiv_neg, neg_neg, quotient, if_neg negative.ne, signed_of_fits]
  rw [fits_iff]
  unfold maxCoefficient at *
  omega

instance (value : Int) : Decidable (Fits value) := inferInstanceAs (Decidable (_ ∧ _))

theorem overflows_eq (first second : Int) :
    overflows first second = .ok (decide ¬Fits (first * second)) := by
  have lower : minCoefficient < 0 := by decide
  have upper : 0 < maxCoefficient := by decide
  unfold overflows Fits
  rcases Int.lt_trichotomy first 0 with firstNegative | rfl | firstPositive
  · rcases Int.lt_trichotomy second 0 with secondNegative | rfl | secondPositive
    · have product := mul_pos_of_neg_of_neg firstNegative secondNegative
      have exceeds := @tdiv_maxCoefficient_lt_iff (-first) (-second) (by omega)
      rw [neg_mul_neg] at exceeds
      rw [if_neg (by omega), if_neg (by omega), if_neg (by omega),
        quotient_maxCoefficient_neg secondNegative]
      simp only [Except.map]
      exact congrArg Except.ok (decide_eq_decide.mpr (by omega))
    · simp [lower.le, upper.le]
    · have product := mul_neg_of_neg_of_pos firstNegative secondPositive
      rw [if_neg (by omega), if_neg (by omega), if_pos secondPositive,
        quotient_eq secondPositive (Or.inr rfl)]
      simp only [Except.map, lt_tdiv_minCoefficient_iff secondPositive]
      exact congrArg Except.ok (decide_eq_decide.mpr (by omega))
  · simp [lower.le, upper.le]
  · rcases Int.lt_trichotomy second 0 with secondNegative | rfl | secondPositive
    · have product := mul_neg_of_pos_of_neg firstPositive secondNegative
      rw [if_neg (by omega), if_pos firstPositive, if_neg (by omega),
        quotient_eq firstPositive (Or.inr rfl)]
      simp only [Except.map, lt_tdiv_minCoefficient_iff firstPositive, mul_comm second]
      exact congrArg Except.ok (decide_eq_decide.mpr (by omega))
    · simp [lower.le, upper.le]
    · have product := mul_pos firstPositive secondPositive
      rw [if_neg (by omega), if_pos firstPositive, if_pos secondPositive,
        quotient_eq secondPositive (Or.inl rfl)]
      simp only [Except.map, tdiv_maxCoefficient_lt_iff secondPositive]
      exact congrArg Except.ok (decide_eq_decide.mpr (by omega))

variable (left right : Decimal)

theorem mul_eq : left.mul right =
    if Fits (product left right) then
      .ok ⟨Int64.ofInt (product left right), left.scale + right.scale⟩
    else .error .overflowError := by
  rw [mul, overflows_eq, ← product]
  by_cases fits : Fits (product left right)
  · simp [fits, signed_of_fits, Except.map]
  · simp [fits]

theorem value_ofInt {coefficient : Int} (fits : Fits coefficient) (scale : UInt8) :
    value ⟨Int64.ofInt coefficient, scale⟩ = coefficient / 10 ^ scale.toNat := by
  rw [fits_iff] at fits
  rw [value, Int64.toInt_ofInt_of_le fits.1 fits.2]

/-- A product is exact, or the multiplication throws because it cannot be
represented, unless the sum of the scales does not fit into eight bits and the
product of the coefficients fits and is not zero. -/
theorem mul_exact_iff :
    ((∃ result, left.mul right = .ok result ∧ result.value = left.value * right.value) ∨
        left.mul right = .error .overflowError ∧
          (¬Fits (product left right) ∨ 255 < left.scale.toNat + right.scale.toNat)) ↔
      (left.scale.toNat + right.scale.toNat ≤ 255 ∨ ¬Fits (product left right) ∨
        product left right = 0) := by
  rw [mul_eq]
  by_cases fits : Fits (product left right)
  · have exact : left.value * right.value =
        product left right / 10 ^ (left.scale.toNat + right.scale.toNat) := by
      rw [value, value, product, Int.cast_mul, pow_add, div_mul_div_comm]
    have power : (10 : ℚ) ^ ((left.scale.toNat + right.scale.toNat) % 2 ^ 8) =
        10 ^ (left.scale.toNat + right.scale.toNat) ↔
          left.scale.toNat + right.scale.toNat ≤ 255 := by
      rw [pow_right_inj₀ (by norm_num) (by norm_num)]
      omega
    simp only [fits, if_true, Except.ok.injEq, exists_eq_left', reduceCtorEq, false_and, or_false,
      not_true_eq_false, false_or]
    rw [exact, value_ofInt fits, UInt8.toNat_add]
    by_cases zero : product left right = 0
    · simp [zero]
    · rw [div_eq_mul_inv, div_eq_mul_inv, mul_right_inj' (Int.cast_ne_zero.mpr zero), inv_inj,
        power]
      simp [zero]
  · simp [fits]

/-- The square of a number with 128 digits behind the point is one. -/
theorem mul_wraps_scale :
    mul ⟨1, 128⟩ ⟨1, 128⟩ = .ok ⟨1, 0⟩ ∧ value ⟨1, 0⟩ ≠ value ⟨1, 128⟩ * value ⟨1, 128⟩ := by
  constructor
  · decide
  · simp only [value, show Int64.toInt 1 = 1 from rfl, show UInt8.toNat 0 = 0 from rfl,
      show UInt8.toNat 128 = 128 from rfl]
    norm_num

/-! ## Division -/

theorem tdiv_close (first : Int) {second : Int} (nonzero : second ≠ 0) :
    |(first.tdiv second : ℚ) - first / second| < 1 ∧
      |(first.tdiv second : ℚ)| ≤ |(first : ℚ) / second| := by
  have divisor : (0 : ℚ) < |(second : ℚ)| := abs_pos.mpr (Int.cast_ne_zero.mpr nonzero)
  constructor
  · have split : (first : ℚ) = second * first.tdiv second + first.tmod second := by
      exact_mod_cast (Int.mul_tdiv_add_tmod first second).symm
    have rest : (first.tdiv second : ℚ) - first / second = -(first.tmod second / second) := by
      have divides : (second : ℚ) ≠ 0 := Int.cast_ne_zero.mpr nonzero
      field_simp
      linear_combination -split
    have small : (first.tmod second).natAbs < second.natAbs := by
      rw [Int.natAbs_tmod]
      exact Nat.mod_lt _ (Int.natAbs_pos.mpr nonzero)
    rw [rest, abs_neg, abs_div, div_lt_one divisor]
    rw [← Int.cast_abs, ← Int.cast_abs, Int.cast_lt, Int.abs_eq_natAbs, Int.abs_eq_natAbs]
    exact_mod_cast small
  · have whole : ((first.tdiv second).natAbs : ℚ) ≤ first.natAbs / second.natAbs := by
      rw [Int.natAbs_tdiv]
      exact Nat.cast_div_le
    simpa only [Nat.cast_natAbs, Int.cast_abs, ← abs_div] using whole

/-- The numerator of the division. -/
def numerator (left : Decimal) : Int := left.coefficient.toInt * 10 ^ 6

theorem fits_tdiv_numerator {left : Decimal} (fits : Fits left.numerator) (second : Int) :
    Fits (left.numerator.tdiv second) := by
  have small := Int.natAbs_tdiv_le_natAbs left.numerator second
  rw [fits_iff] at *
  unfold numerator at *
  omega

theorem div_cases (left right : Decimal) :
    right.coefficient.toInt = 0 ∧ left.div right = .error .invalidArgument ∨
      right.coefficient.toInt ≠ 0 ∧
        (¬Fits left.numerator ∧ left.div right = .error .overflowError ∨
          Fits left.numerator ∧ left.div right =
            .ok ⟨Int64.ofInt (left.numerator.tdiv right.coefficient.toInt),
              left.scale + 6 - right.scale⟩) := by
  have zero : right.coefficient = 0 ↔ right.coefficient.toInt = 0 := Int64.toInt_inj.symm
  unfold div
  by_cases divisor : right.coefficient = 0
  · rw [if_pos divisor]
    exact Or.inl ⟨zero.mp divisor, rfl⟩
  · rw [if_neg divisor, scaleUpChecked_eq left.fits_coefficient]
    refine Or.inr ⟨fun none => divisor (zero.mpr none), ?_⟩
    rcases scaleUp_cases left.fits_coefficient 6 with ⟨found, _, fits⟩ | ⟨found, _, large⟩
    · rw [show scaleUp left.coefficient.toInt 6 = some left.numerator from found]
      dsimp only
      rw [quotient, if_neg fun none => divisor (zero.mpr none),
        signed_of_fits (fits_tdiv_numerator fits _)]
      exact Or.inr ⟨fits, rfl⟩
    · rw [found]
      exact Or.inl ⟨large.elim id (by omega), rfl⟩

/-- The quotient of two decimals in units of the last digit of the result;
the scale of the result may be off by 256. -/
theorem quotient_value {left right : Decimal} (nonzero : right.coefficient.toInt ≠ 0) {scale : Nat}
    {factor : ℚ} (shifted : (10 : ℚ) ^ right.scale.toNat * 10 ^ scale =
      factor * 10 ^ (left.scale.toNat + 6)) :
    left.value / right.value =
      left.numerator / right.coefficient.toInt * factor / 10 ^ scale := by
  have divides : (right.coefficient.toInt : ℚ) ≠ 0 := Int.cast_ne_zero.mpr nonzero
  have denominator :
      factor = 10 ^ right.scale.toNat * 10 ^ scale / 10 ^ (left.scale.toNat + 6) := by
    rw [shifted, mul_div_assoc, div_self (by positivity), mul_one]
  rw [denominator, value, value, numerator, pow_add]
  push_cast
  field_simp
  ring

theorem quotient_bounds {first second : Int} (firstFits : Fits first) (secondFits : Fits second)
    (nonzero : second ≠ 0) : |(first : ℚ) / second| ≤ 2 ^ 63 ∧
      (first = 0 ∨ 1 ≤ |(first : ℚ) / second| * 2 ^ 63) := by
  have bound {value : Int} (fits : Fits value) : |(value : ℚ)| ≤ 2 ^ 63 := by
    rw [fits_iff] at fits
    have limits : |value| ≤ 2 ^ 63 := by rw [abs_le]; omega
    exact_mod_cast limits
  have positive {value : Int} (nonzero : value ≠ 0) : 1 ≤ |(value : ℚ)| := by
    exact_mod_cast Int.one_le_abs nonzero
  have below := positive nonzero
  rw [abs_div]
  constructor
  · rw [div_le_iff₀ (by linarith)]
    nlinarith [bound firstFits]
  · rw [or_iff_not_imp_left, div_mul_eq_mul_div, one_le_div (by linarith)]
    intro some
    nlinarith [positive some, bound secondFits]

theorem near_large_iff {whole : Int} {exact : ℚ} (le : |(whole : ℚ)| ≤ |exact|)
    (least : exact = 0 ∨ 1 ≤ |exact| * 2 ^ 63) :
    |whole - exact * 10 ^ 256| < 1 ∧ |(whole : ℚ)| ≤ |exact * 10 ^ 256| ↔ exact = 0 := by
  constructor
  · rintro ⟨near, -⟩
    refine least.resolve_right fun some => ?_
    have apart := abs_sub_abs_le_abs_sub (exact * 10 ^ 256) (whole : ℚ)
    rw [abs_mul, abs_of_pos (by positivity : (0 : ℚ) < 10 ^ 256), abs_sub_comm] at apart
    linarith
  · rintro rfl
    have none : (whole : ℚ) = 0 := by simpa using le
    simp [none]

theorem near_tiny_iff {whole : Int} {exact : ℚ} (bound : |exact| ≤ 2 ^ 63) :
    |whole - exact * (1 / 10 ^ 256)| < 1 ∧ |(whole : ℚ)| ≤ |exact * (1 / 10 ^ 256)| ↔
      whole = 0 := by
  have tiny : |exact * (1 / 10 ^ 256)| < 1 := by
    rw [abs_mul, abs_of_pos (by positivity : (0 : ℚ) < 1 / 10 ^ 256)]
    linarith
  constructor
  · rintro ⟨-, le⟩
    have none := le.trans_lt tiny
    exact Int.abs_lt_one_iff.mp (by exact_mod_cast none)
  · rintro rfl
    rw [Int.cast_zero, zero_sub, abs_neg, abs_zero]
    exact ⟨tiny, abs_nonneg _⟩

theorem truncated_iff {coefficient : Int} (fits : Fits coefficient) (scale : UInt8) (units : ℚ) :
    (|value ⟨Int64.ofInt coefficient, scale⟩ - units / 10 ^ scale.toNat| < 1 / 10 ^ scale.toNat ∧
        |value ⟨Int64.ofInt coefficient, scale⟩| ≤ |units / 10 ^ scale.toNat|) ↔
      |coefficient - units| < 1 ∧ |(coefficient : ℚ)| ≤ |units| := by
  have positive : (0 : ℚ) < 10 ^ scale.toNat := by positivity
  rw [value_ofInt fits, ← sub_div, abs_div, abs_div, abs_div, abs_of_pos positive,
    div_lt_div_iff_of_pos_right positive, div_le_div_iff_of_pos_right positive]

/-- The division never overflows.  Its result is the quotient truncated to the
digits it has, unless its scale does not fit into eight bits; then it is
another number, or a zero for a quotient of very large scale. -/
theorem div_truncates_iff (left right : Decimal) :
    left.div right ≠ .error .undefined ∧
      ((∀ result, left.div right = .ok result →
          |result.value - left.value / right.value| < 1 / 10 ^ result.scale.toNat ∧
            |result.value| ≤ |left.value / right.value|) ↔
        (right.coefficient.toInt = 0 ∨ left.coefficient.toInt = 0 ∨ ¬Fits left.numerator ∨
          right.scale.toNat ≤ left.scale.toNat + 6 ∧
            (left.scale.toNat + 6 ≤ right.scale.toNat + 255 ∨
              left.numerator.tdiv right.coefficient.toInt = 0))) := by
  rcases div_cases left right with ⟨zero, threw⟩ | ⟨nonzero, ⟨large, threw⟩ | ⟨fits, returned⟩⟩
  · simp [threw, zero]
  · simp [threw, large]
  have close := tdiv_close left.numerator nonzero
  obtain ⟨bound, least⟩ := quotient_bounds fits right.fits_coefficient nonzero
  have small := right.scale.toNat_lt
  have limited := left.scale.toNat_lt
  have scale : (left.scale + 6 - right.scale).toNat =
      (left.scale.toNat + 262 - right.scale.toNat) % 256 := by
    rw [UInt8.toNat_sub, UInt8.toNat_add, show UInt8.toNat 6 = 6 from rfl]
    omega
  have vanishes : left.coefficient.toInt = 0 ↔ left.numerator = 0 := by
    unfold numerator
    omega
  have zero : (left.numerator / right.coefficient.toInt : ℚ) = 0 ↔ left.numerator = 0 := by
    simp [nonzero]
  have rescaled (factor : ℚ) (shifted : (10 : ℚ) ^ right.scale.toNat *
      10 ^ (left.scale + 6 - right.scale).toNat = factor * 10 ^ (left.scale.toNat + 6)) :=
    quotient_value nonzero shifted
  refine ⟨by simp [returned], ?_⟩
  simp only [returned, Except.ok.injEq, forall_eq', vanishes, nonzero, fits, not_true_eq_false,
    false_or]
  rcases Nat.lt_or_ge (left.scale.toNat + 6) right.scale.toNat with negative | start
  · rw [rescaled (10 ^ 256) (by rw [← pow_add, ← pow_add, scale]; congr 1; omega),
      truncated_iff (fits_tdiv_numerator fits _), near_large_iff close.2 (by rwa [zero]), zero]
    simp [Nat.not_le.mpr negative]
  · rcases Nat.lt_or_ge (right.scale.toNat + 255) (left.scale.toNat + 6) with above | inside
    · have power : left.scale.toNat + 6 =
          right.scale.toNat + (left.scale + 6 - right.scale).toNat + 256 := by
        omega
      rw [rescaled (1 / 10 ^ 256) (by rw [power, pow_add, pow_add]; field_simp),
        truncated_iff (fits_tdiv_numerator fits _), near_tiny_iff bound]
      simp only [start, Nat.not_le.mpr above, true_and, false_or]
      refine (or_iff_right_of_imp fun none => ?_).symm
      rw [none, Int.zero_tdiv]
    · rw [rescaled 1 (by rw [one_mul, ← pow_add, scale]; congr 1; omega), mul_one,
        truncated_iff (fits_tdiv_numerator fits _)]
      simp [close, start, inside]

/-- One divided by a unit in the seventh digit is not found. -/
theorem div_wraps_scale :
    div ⟨1, 0⟩ ⟨1, 7⟩ = .ok ⟨1000000, 255⟩ ∧
      1 / 10 ^ 255 ≤ |value ⟨1000000, 255⟩ - value ⟨1, 0⟩ / value ⟨1, 7⟩| := by
  constructor
  · decide
  · simp only [value, show Int64.toInt 1 = 1 from rfl, show Int64.toInt 1000000 = 1000000 from rfl,
      show UInt8.toNat 0 = 0 from rfl, show UInt8.toNat 7 = 7 from rfl,
      show UInt8.toNat 255 = 255 from rfl]
    norm_num

end Decimal

end KlyroDB
