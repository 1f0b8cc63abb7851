import KlyroDB.Values
import Mathlib.Algebra.Order.Field.Basic
import Mathlib.Data.Rat.Cast.Order
import Mathlib.Tactic.FieldSimp
import Mathlib.Tactic.Positivity

/-!
# Decimal numbers as rationals

`types/decimal.cpp` brings two numbers to one scale before it compares or adds
them.  Comparisons are right even where the coefficient overflows, except for
a zero whose scale is 19 or more below the other one.
-/

namespace KlyroDB

namespace Decimal

/-- The rational number that a decimal stands for. -/
def value (decimal : Decimal) : ℚ :=
  decimal.coefficient.toInt / 10 ^ decimal.scale.toNat

/-- The coefficient at another scale, without a bound. -/
def exact (decimal : Decimal) (target : Nat) : Int :=
  decimal.coefficient.toInt * 10 ^ (target - decimal.scale.toNat)

def Fits (value : Int) : Prop := minCoefficient ≤ value ∧ value ≤ maxCoefficient

theorem fits_iff (value : Int) : Fits value ↔ -2 ^ 63 ≤ value ∧ value < 2 ^ 63 := by
  unfold Fits minCoefficient maxCoefficient
  omega

theorem fits_coefficient (decimal : Decimal) : Fits decimal.coefficient.toInt :=
  (fits_iff _).mpr ⟨decimal.coefficient.le_toInt, decimal.coefficient.toInt_lt⟩

theorem multiplier_eq (rounds : Nat) :
    multiplier rounds = if rounds ≤ 18 then some (10 ^ rounds) else none := by
  induction rounds with
  | zero => rfl
  | succ rounds ih =>
    rw [multiplier, ih]
    rcases Nat.lt_trichotomy rounds 18 with below | rfl | above
    · have power : (10 : Int) ^ rounds ≤ 10 ^ 17 := pow_le_pow_right₀ (by decide) (by omega)
      have limit : maxCoefficient.tdiv 10 = 922337203685477580 := by decide
      rw [if_pos below.le, if_pos (Nat.succ_le_of_lt below), limit, pow_succ]
      exact if_neg (by omega)
    · decide
    · rw [if_neg (by omega), if_neg (by omega)]

section

variable {value power : Int} (positive : 0 < power)

include positive

theorem tdiv_maxCoefficient_lt_iff :
    maxCoefficient.tdiv power < value ↔ maxCoefficient < value * power := by
  rw [Int.tdiv_eq_ediv_of_nonneg (by decide), Int.ediv_lt_iff_lt_mul positive]

theorem lt_tdiv_minCoefficient_iff :
    value < minCoefficient.tdiv power ↔ value * power < minCoefficient := by
  have above := @Int.ediv_lt_iff_lt_mul (2 ^ 63) (-value) power positive
  rw [minCoefficient, Int.neg_tdiv, Int.tdiv_eq_ediv_of_nonneg (by decide)]
  rw [neg_mul] at above
  omega

end

theorem mul_signs (value : Int) (digits : Nat) : (0 : Int) < 10 ^ digits ∧
    (0 < value → 10 ^ digits ≤ value * 10 ^ digits) ∧
    (value < 0 → value * 10 ^ digits ≤ -10 ^ digits) ∧ (value = 0 → value * 10 ^ digits = 0) ∧
    (digits = 0 → value * 10 ^ digits = value) := by
  have positive : (0 : Int) < 10 ^ digits := by positivity
  refine ⟨positive, fun above => le_mul_of_one_le_left positive.le above, fun below => ?_, ?_, ?_⟩
  · have scaled := mul_le_mul_of_nonneg_right (show value ≤ -1 by omega) positive.le
    rwa [neg_one_mul] at scaled
  · rintro rfl
    exact zero_mul _
  · rintro rfl
    exact mul_one _

/-- `scale_up` finds the product exactly when it fits, but fails for zero over
more than 18 digits. -/
theorem scaleUp_cases {value : Int} (fits : Fits value) (difference : Nat) :
    scaleUp value difference = some (value * 10 ^ difference) ∧ difference ≤ 18 ∧
        Fits (value * 10 ^ difference) ∨
      scaleUp value difference = none ∧ 0 < difference ∧
        (¬Fits (value * 10 ^ difference) ∨ value = 0 ∧ 18 < difference) := by
  unfold scaleUp
  rw [multiplier_eq]
  by_cases same : difference = 0
  · subst same
    simpa using fits
  obtain ⟨positive, above, below, zero, _⟩ := mul_signs value difference
  rw [if_neg same]
  by_cases small : difference ≤ 18
  · rw [if_pos small]
    simp only [tdiv_maxCoefficient_lt_iff positive, lt_tdiv_minCoefficient_iff positive]
    unfold Fits minCoefficient maxCoefficient
    split_ifs with high low
    · exact Or.inr ⟨rfl, by omega, Or.inl (by omega)⟩
    · exact Or.inr ⟨rfl, by omega, Or.inl (by omega)⟩
    · exact Or.inl ⟨rfl, small, by omega⟩
  · have large : (10 : Int) ^ 19 ≤ 10 ^ difference := pow_le_pow_right₀ (by decide) (by omega)
    rw [if_neg small, fits_iff]
    exact Or.inr ⟨rfl, by omega, by omega⟩

/-! ## Comparisons -/

section

variable (left right : Decimal)

theorem value_eq (decimal : Decimal) {target : Nat} (le : decimal.scale.toNat ≤ target) :
    decimal.value = decimal.exact target / 10 ^ target := by
  have power : (10 : ℚ) ^ target =
      10 ^ (target - decimal.scale.toNat) * 10 ^ decimal.scale.toNat := by
    rw [← pow_add, Nat.sub_add_cancel le]
  rw [value, exact, power]
  push_cast
  field_simp

theorem left_value : left.value =
    left.exact (targetScale left right) / 10 ^ targetScale left right :=
  left.value_eq (le_max_left _ _)

theorem right_value : right.value =
    right.exact (targetScale left right) / 10 ^ targetScale left right :=
  right.value_eq (le_max_right _ _)

theorem value_eq_iff : left.value = right.value ↔
    left.exact (targetScale left right) = right.exact (targetScale left right) := by
  rw [left_value left right, right_value left right, div_left_inj' (by positivity), Int.cast_inj]

theorem value_lt_iff : left.value < right.value ↔
    left.exact (targetScale left right) < right.exact (targetScale left right) := by
  rw [left_value left right, right_value left right,
    div_lt_div_iff_of_pos_right (by positivity), Int.cast_lt]

/-- Neither number is a zero whose scale is 19 or more below the other one. -/
def Ordered : Prop :=
  (left.coefficient.toInt = 0 → right.scale.toNat ≤ left.scale.toNat + 18) ∧
    (right.coefficient.toInt = 0 → left.scale.toNat ≤ right.scale.toNat + 18)

theorem compare_iff :
    (left.less right = true ↔ Ordered left right ∧ left.value < right.value) ∧
      (left.equals right = true ↔ Ordered left right ∧ left.value = right.value) := by
  have scales : targetScale left right = max left.scale.toNat right.scale.toNat := rfl
  have first := scaleUp_cases left.fits_coefficient (targetScale left right - left.scale.toNat)
  have second := scaleUp_cases right.fits_coefficient (targetScale left right - right.scale.toNat)
  obtain ⟨_, _, _, _, _⟩ := mul_signs left.coefficient.toInt
    (targetScale left right - left.scale.toNat)
  obtain ⟨_, _, _, _, _⟩ := mul_signs right.coefficient.toInt
    (targetScale left right - right.scale.toNat)
  rw [value_eq_iff, value_lt_iff, equals, less]
  unfold scaled exact Ordered
  rw [fits_iff] at first second
  rcases first with ⟨found, _, _⟩ | ⟨found, _, _⟩
  · rcases second with ⟨other, _, _⟩ | ⟨other, _, _⟩
    · simp only [found, other, decide_eq_true_eq]
      omega
    · simp only [found, other, decide_eq_true_eq, Bool.false_eq_true, false_iff]
      omega
  · simp only [found, decide_eq_true_eq, Bool.false_eq_true, false_iff]
    omega

theorem value_sign (decimal : Decimal) : (decimal.value = 0 ↔ decimal.coefficient.toInt = 0) ∧
    (0 < decimal.value ↔ 0 < decimal.coefficient.toInt) ∧
    (decimal.value < 0 ↔ decimal.coefficient.toInt < 0) := by
  have positive : (0 : ℚ) < 10 ^ decimal.scale.toNat := by positivity
  rw [value, div_eq_zero_iff, or_iff_left positive.ne', Int.cast_eq_zero, div_pos_iff_of_pos_right
    positive, Int.cast_pos, div_lt_iff₀ positive, zero_mul, Int.cast_lt_zero]
  exact ⟨Iff.rfl, Iff.rfl, Iff.rfl⟩

/-- The comparisons are those of the rational numbers, except for a zero whose
scale is 19 or more below the other one; such a zero is found less than
negative numbers only, and greater than positive ones only. -/
theorem comparisons_exact_iff :
    ((left.equals right = true ↔ left.value = right.value) ∧
        (left.less right = true ↔ left.value < right.value)) ↔
      (left.coefficient = 0 → right.scale.toNat ≤ left.scale.toNat + 18 ∨ right.coefficient < 0) ∧
        (right.coefficient = 0 → left.scale.toNat ≤ right.scale.toNat + 18 ∨
          0 < left.coefficient) := by
  have zero (coefficient : Int64) : coefficient = 0 ↔ coefficient.toInt = 0 := Int64.toInt_inj.symm
  obtain ⟨leftZero, leftPositive, _⟩ := left.value_sign
  obtain ⟨rightZero, _, rightNegative⟩ := right.value_sign
  rw [(compare_iff left right).1, (compare_iff left right).2, and_iff_right_iff_imp,
    and_iff_right_iff_imp, ← or_imp, ← le_iff_eq_or_lt, zero, zero, Int64.lt_iff_toInt_lt,
    Int64.lt_iff_toInt_lt, show (0 : Int64).toInt = 0 from rfl, ← leftZero, ← rightZero,
    ← leftPositive, ← rightNegative]
  unfold Ordered
  rw [← leftZero, ← rightZero]
  constructor
  · intro ordered
    constructor
    · intro none
      rw [none] at ordered
      exact (le_or_gt 0 right.value).imp (fun le => (ordered le).1 rfl) id
    · intro none
      rw [none] at ordered
      exact (le_or_gt left.value 0).imp (fun le => (ordered le).2 rfl) id
  · rintro ⟨near, other⟩ le
    exact ⟨fun none => (near none).resolve_right (not_lt.mpr (none ▸ le)),
      fun none => (other none).resolve_right (not_lt.mpr (none ▸ le))⟩

end

/-- Zero with scale 0 is not found equal to zero with scale 19, and not less
than one with that scale. -/
theorem distant_zero_misjudged :
    equals ⟨0, 0⟩ ⟨0, 19⟩ = false ∧ value ⟨0, 0⟩ = value ⟨0, 19⟩ ∧
      less ⟨0, 0⟩ ⟨1, 19⟩ = false ∧ value ⟨0, 0⟩ < value ⟨1, 19⟩ := by
  rw [value_eq_iff, value_lt_iff]
  decide

/-! ## Addition and subtraction -/

/-- How an operation ends without a value: with an exception, or by a signed
computation whose result does not fit, which is undefined. -/
inductive DecimalFailure
  | overflowError
  | invalidArgument
  | undefined
  deriving DecidableEq, Repr

/-- The result of a signed 64-bit computation. -/
def signed (value : Int) : Except DecimalFailure Int :=
  if minCoefficient ≤ value ∧ value ≤ maxCoefficient then .ok value else .error .undefined

def quotient (left right : Int) : Except DecimalFailure Int :=
  if right = 0 then .error .undefined else signed (left.tdiv right)

def multiplierChecked : Nat → Except DecimalFailure (Option Int)
  | 0 => .ok (some 1)
  | rounds + 1 => do
      match ← multiplierChecked rounds with
      | none => .ok none
      | some power =>
          if (← quotient maxCoefficient 10) < power then .ok none
          else (signed (power * 10)).map some

/-- `scale_up` with its signed computations. -/
def scaleUpChecked (value : Int) (difference : Nat) : Except DecimalFailure (Option Int) :=
  if difference = 0 then .ok (some value)
  else do
    match ← multiplierChecked difference with
    | none => .ok none
    | some power =>
        if 0 < value then
          if (← quotient maxCoefficient power) < value then return none
        if value < 0 then
          if value < (← quotient minCoefficient power) then return none
        (signed (value * power)).map some

/-- The end of `operator+` and `operator-`: the guards, and the result.
`change` is what is added to the first coefficient. -/
def guarded (target : Nat) (first change : Int) : Except DecimalFailure Decimal := do
  if 0 < change then
    if (← signed (maxCoefficient - change)) < first then throw .overflowError
  if change < 0 then
    if first < (← signed (minCoefficient - change)) then throw .overflowError
  (signed (first + change)).map fun result => ⟨Int64.ofInt result, UInt8.ofNat target⟩

def combine (left right : Decimal) (change : Int → Int) : Except DecimalFailure Decimal := do
  let target := targetScale left right
  match ← scaleUpChecked left.coefficient.toInt (target - left.scale.toNat) with
  | none => .error .overflowError
  | some first =>
      match ← scaleUpChecked right.coefficient.toInt (target - right.scale.toNat) with
      | none => .error .overflowError
      | some second => guarded target first (change second)

/-- `operator+`, whose guards are `max - c2` and `min - c2`. -/
def add (left right : Decimal) : Except DecimalFailure Decimal :=
  combine left right id

/-- `operator-`, whose guards are `max + c2` and `min + c2`. -/
def sub (left right : Decimal) : Except DecimalFailure Decimal :=
  combine left right Neg.neg

theorem signed_of_fits {value : Int} (fits : Fits value) : signed value = .ok value :=
  if_pos fits

theorem multiplier_pos {rounds : Nat} {power : Int} (found : multiplier rounds = some power) :
    0 < power := by
  rw [multiplier_eq] at found
  split_ifs at found
  cases found
  positivity

theorem multiplierChecked_eq (rounds : Nat) :
    multiplierChecked rounds = .ok (multiplier rounds) := by
  induction rounds with
  | zero => rfl
  | succ rounds ih =>
    have limit : quotient maxCoefficient 10 = .ok (maxCoefficient.tdiv 10) := rfl
    rw [multiplierChecked, ih, multiplier]
    cases found : multiplier rounds with
    | none => rfl
    | some power =>
      have positive := multiplier_pos found
      simp only [bind, Except.bind, limit]
      split_ifs with large
      · rfl
      · rw [tdiv_maxCoefficient_lt_iff (by decide)] at large
        rw [signed_of_fits ⟨by unfold minCoefficient; omega, Int.not_lt.mp large⟩]
        rfl

theorem quotient_eq {bound power : Int} (positive : 0 < power)
    (limit : bound = maxCoefficient ∨ bound = minCoefficient) :
    quotient bound power = .ok (bound.tdiv power) := by
  have small := Int.natAbs_tdiv_le_natAbs bound power
  have sign : bound ≤ 0 → bound.tdiv power ≤ 0 := fun le => by
    have opposite := Int.tdiv_nonneg (Int.neg_nonneg_of_nonpos le) positive.le
    rw [Int.neg_tdiv] at opposite
    omega
  rw [quotient, if_neg positive.ne', signed_of_fits]
  rw [fits_iff]
  unfold maxCoefficient minCoefficient at *
  omega

theorem scaleUpChecked_eq {value : Int} (fits : Fits value) (difference : Nat) :
    scaleUpChecked value difference = .ok (scaleUp value difference) := by
  have cases := scaleUp_cases fits difference
  unfold scaleUpChecked
  unfold scaleUp at cases ⊢
  by_cases same : difference = 0
  · rw [if_pos same, if_pos same]
  rw [if_neg same] at cases
  rw [if_neg same, if_neg same, multiplierChecked_eq]
  cases found : multiplier difference with
  | none => rfl
  | some power =>
    have positive := multiplier_pos found
    simp only [bind, Except.bind, pure, Except.pure, quotient_eq positive, found, true_or,
      or_true] at cases ⊢
    by_cases high : 0 < value ∧ maxCoefficient.tdiv power < value
    · simp [high.1, high.2]
    by_cases low : value < 0 ∧ value < minCoefficient.tdiv power
    · simp [low.1, low.2, Int.not_lt.mpr low.1.le]
    rw [if_neg high, if_neg low] at cases ⊢
    obtain ⟨product, -, inside⟩ | ⟨none, -⟩ := cases
    · rw [← Option.some.inj product] at inside
      rw [signed_of_fits inside]
      split_ifs <;> simp_all [Except.map]
    · cases none

/-- The scales are at most 18 apart, and both coefficients fit at the larger
one. -/
def Rescalable (left right : Decimal) : Prop :=
  left.scale.toNat ≤ right.scale.toNat + 18 ∧ right.scale.toNat ≤ left.scale.toNat + 18 ∧
    Fits (left.exact (targetScale left right)) ∧ Fits (right.exact (targetScale left right))

/-- The operation returns the exact result at the larger scale, or it throws
because an operand or the result does not fit there. -/
def Computes (left right : Decimal) (coefficient : Int) (exactly : ℚ)
    (outcome : Except DecimalFailure Decimal) : Prop :=
  (∃ result, outcome = .ok result ∧ result.scale.toNat = targetScale left right ∧
      result.value = exactly) ∨
    outcome = .error .overflowError ∧ ¬(Rescalable left right ∧ Fits coefficient)

theorem guarded_cases {first change : Int} (fits : Fits first)
    (bounded : -2 ^ 63 ≤ change ∧ change ≤ 2 ^ 63) (target : Nat) :
    Fits (first + change) ∧ guarded target first change =
        .ok ⟨Int64.ofInt (first + change), UInt8.ofNat target⟩ ∨
      ¬Fits (first + change) ∧ guarded target first change = .error .overflowError := by
  have lower : minCoefficient = -2 ^ 63 := rfl
  have upper : maxCoefficient = 2 ^ 63 - 1 := rfl
  have result (inside : Fits (first + change)) := signed_of_fits inside
  unfold guarded
  simp only [bind, Except.bind, throw, throwThe, MonadExceptOf.throw]
  unfold Fits at *
  rcases Int.lt_trichotomy change 0 with negative | rfl | positive
  · simp only [negative, Int.not_lt.mpr negative.le, if_true, if_false]
    rw [@signed_of_fits (minCoefficient - change) ⟨by omega, by omega⟩]
    dsimp only
    split_ifs with low
    · exact Or.inr ⟨by omega, rfl⟩
    · rw [result (by omega)]
      exact Or.inl ⟨by omega, rfl⟩
  · rw [result (by omega)]
    exact Or.inl ⟨by omega, rfl⟩
  · simp only [positive, Int.not_lt.mpr positive.le, if_true, if_false]
    rw [@signed_of_fits (maxCoefficient - change) ⟨by omega, by omega⟩]
    dsimp only
    split_ifs with high
    · exact Or.inr ⟨by omega, rfl⟩
    · rw [result (by omega)]
      exact Or.inl ⟨by omega, rfl⟩

theorem combine_computes (left right : Decimal) {change : Int → Int} {exactly : ℚ}
    (bounded : ∀ value, Fits value → -2 ^ 63 ≤ change value ∧ change value ≤ 2 ^ 63)
    (exact_eq : exactly = ((left.exact (targetScale left right) +
      change (right.exact (targetScale left right)) : Int) : ℚ) / 10 ^ targetScale left right) :
    Computes left right (left.exact (targetScale left right) +
      change (right.exact (targetScale left right))) exactly (combine left right change) := by
  have scales : targetScale left right = max left.scale.toNat right.scale.toNat := rfl
  have first := scaleUp_cases left.fits_coefficient (targetScale left right - left.scale.toNat)
  have second := scaleUp_cases right.fits_coefficient (targetScale left right - right.scale.toNat)
  unfold Computes Rescalable combine
  dsimp only [bind, Except.bind]
  rw [scaleUpChecked_eq left.fits_coefficient, scaleUpChecked_eq right.fits_coefficient]
  rcases first with ⟨found, few, inside⟩ | ⟨found, _, outside⟩
  · rcases second with ⟨other, fewer, fits⟩ | ⟨other, _, outside⟩
    · rw [found, other]
      rcases guarded_cases inside (bounded _ fits) (targetScale left right) with
        ⟨small, returned⟩ | ⟨large, threw⟩
      · refine Or.inl ⟨_, returned, ?_⟩
        have scale : (UInt8.ofNat (targetScale left right)).toNat = targetScale left right :=
          UInt8.toNat_ofNat_of_lt (max_lt left.scale.toNat_lt right.scale.toNat_lt)
        rw [fits_iff] at small
        rw [value, scale, Int64.toInt_ofInt_of_le small.1 small.2, exact_eq]
        exact ⟨rfl, rfl⟩
      · exact Or.inr ⟨threw, fun both => large both.2⟩
    · rw [found, other]
      exact Or.inr ⟨rfl, fun both => outside.elim (· both.1.2.2.2) (by omega)⟩
  · rw [found]
    exact Or.inr ⟨rfl, fun both => outside.elim (· both.1.2.2.1) (by omega)⟩

/-- Addition and subtraction are exact or throw, and no signed computation on
the way overflows. -/
theorem add_sub_exact (left right : Decimal) :
    Computes left right (left.exact (targetScale left right) + right.exact (targetScale left right))
        (left.value + right.value) (add left right) ∧
      Computes left right
        (left.exact (targetScale left right) - right.exact (targetScale left right))
        (left.value - right.value) (sub left right) := by
  constructor
  · apply combine_computes left right
    · intro value fits
      rw [fits_iff] at fits
      exact ⟨fits.1, fits.2.le⟩
    · rw [left_value left right, right_value left right, Int.cast_add, add_div]
      rfl
  · apply combine_computes left right
    · intro value fits
      rw [fits_iff] at fits
      omega
    · rw [left_value left right, right_value left right, ← sub_eq_add_neg, Int.cast_sub, sub_div]

end Decimal

end KlyroDB
