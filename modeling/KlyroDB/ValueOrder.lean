import KlyroDB.Decimals
import KlyroDB.SerializedValues
import Mathlib.Data.List.Lex

/-!
# The order of values

`operator<` and `operator==` rank a value by its type and then by its data, but
arrays and dictionaries are not ordered at all, and a decimal zero is not
ordered with decimals of much larger scale.
-/

namespace KlyroDB

namespace Value

/-- Bytes as a list of numbers. -/
def numbers (bytes : List UInt8) : List ℚ := bytes.map fun byte => (byte.toNat : ℚ)

/-- The data of a value as a list of numbers, to be compared from the left. -/
def dataRank : Value → List ℚ
  | .null _ | .array _ _ | .dict _ => []
  | .boolean value => [if value then 1 else 0]
  | .smallInt value => [(value.toInt : ℚ)]
  | .integer value | .date value => [(value.toInt : ℚ)]
  | .bigInt value | .time value | .timestamp value _ => [(value.toInt : ℚ)]
  | .real bits => [(FloatFormat.single.key bits.toNat : ℚ)]
  | .double bits => [(FloatFormat.double.key bits.toNat : ℚ)]
  | .numeric value => [value.value]
  | .string value _ | .bytea value => numbers value
  | .interval value => [(value.months.toInt : ℚ), (value.days.toInt : ℚ), (value.micros.toInt : ℚ)]
  | .uuid value => numbers value.data
  | .json root => numbers root.toText
  | .enum id label => (id.toNat : ℚ) :: numbers label

def rank (value : Value) : List ℚ :=
  if value.isNull then [] else (value.type.code : ℚ) :: value.dataRank

/-- When the comparisons of two values are those of their ranks. -/
def Comparable : Value → Value → Prop
  | .real left, .real right =>
      FloatFormat.single.isNaN left.toNat = false ∧ FloatFormat.single.isNaN right.toNat = false
  | .double left, .double right =>
      FloatFormat.double.isNaN left.toNat = false ∧ FloatFormat.double.isNaN right.toNat = false
  | .numeric left, .numeric right => left.Ordered right
  | .array type left, .array other right => equals (.array type left) (.array other right)
  | .dict left, .dict right => equals (.dict left) (.dict right)
  | _, _ => True

theorem bytesLess_iff_numbers (left right : List UInt8) :
    bytesLess left right = true ↔ numbers left < numbers right := by
  unfold numbers
  induction left generalizing right with
  | nil => cases right <;> simp [bytesLess]
  | cons byte rest ih =>
    cases right with
    | nil => simp [bytesLess]
    | cons other others =>
      rw [bytesLess, List.map_cons, List.map_cons, List.cons_lt_cons_iff, Bool.or_eq_true,
        Bool.and_eq_true, decide_eq_true_eq, decide_eq_true_eq, ih, Nat.cast_lt, Nat.cast_inj,
        UInt8.toNat_inj, UInt8.lt_iff_toNat_lt]

theorem numbers_inj {left right : List UInt8} : numbers left = numbers right ↔ left = right := by
  apply (List.map_injective_iff.mpr _).eq_iff
  intro byte other same
  exact UInt8.toNat_inj.mp (Nat.cast_inj.mp same)

theorem ctorIdx_eq_of_type {left right : Value} (same : left.type = right.type)
    (leftPresent : left.isNull = false) (rightPresent : right.isNull = false) :
    left.ctorIdx = right.ctorIdx := by
  cases left with
  | string text kind =>
    cases kind <;> cases right <;> first
      | rfl
      | (cases same; done)
      | (cases rightPresent; done)
      | (rename_i tz; cases tz <;> cases same)
  | timestamp micros tz =>
    cases tz <;> cases right <;> first
      | rfl
      | (cases same; done)
      | (cases rightPresent; done)
      | (rename_i kind; cases kind <;> cases same)
  | _ =>
    cases right <;> first
      | rfl
      | (cases same; done)
      | (cases rightPresent; done)
      | (cases leftPresent; done)
      | (rename_i kind; cases kind <;> cases same)

theorem compare_data {left right : Value} (same : left.type = right.type)
    (leftPresent : left.isNull = false) (rightPresent : right.isNull = false) :
    (dataLess left right = true ↔ Comparable left right ∧ left.dataRank < right.dataRank) ∧
      (equals left right = true ↔ Comparable left right ∧ left.dataRank = right.dataRank) := by
  have kinds := ctorIdx_eq_of_type same leftPresent rightPresent
  cases left <;> cases right <;> first
    | (cases kinds; done)
    | skip
  all_goals simp only [dataLess, equals, Comparable, dataRank, decide_eq_true_eq, true_and,
    and_true, and_self, and_false, or_false, List.cons.injEq, List.cons_lt_cons_iff, List.lt_irrefl,
    bytesLess_iff_numbers, numbers_inj, Int.cast_lt, Int.cast_inj, Nat.cast_lt, Nat.cast_inj,
    Bool.and_eq_true, Bool.or_eq_true, Int16.lt_iff_toInt_lt, Int32.lt_iff_toInt_lt,
    Int64.lt_iff_toInt_lt, UInt32.lt_iff_toNat_lt, Int16.toInt_inj, Int32.toInt_inj,
    Int64.toInt_inj, UInt32.toNat_inj, FloatFormat.less, FloatFormat.equals, Bool.not_eq_true',
    and_assoc, Bool.false_eq_true]
  case null.null => cases leftPresent
  case boolean.boolean left right => cases left <;> cases right <;> simp
  case numeric.numeric left right => exact Decimal.compare_iff left right
  case string.string left leftKind right rightKind =>
    cases leftKind <;> cases rightKind <;> simp_all [type, StringKind.type]
  case timestamp.timestamp left leftTz right rightTz =>
    cases leftTz <;> cases rightTz <;> simp_all [type]
  case interval.interval left right =>
    obtain ⟨leftMonths, leftDays, leftMicros⟩ := left
    obtain ⟨rightMonths, rightDays, rightMicros⟩ := right
    simp only [Interval.less, Interval.mk.injEq, ne_eq, Int32.lt_iff_toInt_lt,
      Int64.lt_iff_toInt_lt, and_true]
    by_cases months : leftMonths = rightMonths
    · by_cases days : leftDays = rightDays <;> simp [months, days]
    · simp [months]
  case uuid.uuid left right =>
    cases left
    cases right
    simp

theorem comparable_of_type_ne {left right : Value}
    (ne : left.isNull = true ∨ right.isNull = true ∨ left.type ≠ right.type) :
    Comparable left right := by
  unfold Comparable
  split
  all_goals first
    | trivial
    | simp [isNull, type] at ne

/-- Arrays and dictionaries have no `<` on their data either. -/
theorem dataLess_of_collection {left : Value} (collection : left.type = .array ∨ left.type = .dict)
    (right : Value) : dataLess left right = false := by
  cases left with
  | null type | array type elements | dict entries => cases right <;> rfl
  | string value kind => cases kind <;> simp [type, StringKind.type] at collection
  | timestamp micros tz => cases tz <;> simp [type] at collection
  | _ => simp [type] at collection

theorem code_inj {left right : TypeID} : left.code = right.code ↔ left = right := by
  refine ⟨fun same => ?_, congrArg _⟩
  have decoded := congrArg TypeID.ofCode same
  simpa using decoded

theorem compare_rank (left right : Value) :
    (left.less right = true ↔ Comparable left right ∧ left.rank < right.rank) ∧
      (left.equals right = true ↔ Comparable left right ∧ left.rank = right.rank) := by
  unfold less rank
  cases leftNull : left.isNull with
  | true =>
    have free := @comparable_of_type_ne left right (Or.inl leftNull)
    cases left <;> cases leftNull
    cases rightNull : right.isNull <;> simp [equals, free, rightNull]
  | false =>
    cases rightNull : right.isNull with
    | true =>
      cases right <;> cases rightNull
      cases left <;> simp_all [equals, isNull]
    | false =>
      by_cases same : left.type = right.type
      · have data := compare_data same leftNull rightNull
        by_cases collection : left.type = .array ∨ left.type = .dict
        · rw [dataLess_of_collection collection] at data
          rw [same] at collection
          simpa [same, collection] using data
        · rw [same] at collection
          simpa [same, collection] using data
      · have free := @comparable_of_type_ne left right (Or.inr (Or.inr same))
        have unequal : left.equals right = false := by
          by_contra equal
          exact same (type_eq_of_equals (by simpa using equal) leftNull)
        simp [same, free, unequal, code_inj, List.cons_lt_cons_iff]

theorem Comparable.symm {left right : Value} (comparable : Comparable left right)
    (ne : left.rank ≠ right.rank) : Comparable right left := by
  cases left <;> cases right <;> first
    | trivial
    | exact ⟨comparable.2, comparable.1⟩

/-- Of two values exactly one of `<`, `==` and `>` holds, and `<` is transitive,
just where the values are comparable: arrays and dictionaries only to equal
ones, a decimal zero not to decimals with 19 or more further digits. -/
theorem ordered_iff (first second third : Value) :
    ([first.less second, first.equals second, second.less first].count true = 1 ∧
        (first.less second = true → second.less third = true → first.less third = true)) ↔
      Comparable first second ∧
        (first.less second = true → second.less third = true → Comparable first third) := by
  obtain ⟨before, equal⟩ := compare_rank first second
  have after : second.less first = true ↔ Comparable first second ∧ second.rank < first.rank := by
    rw [(compare_rank second first).1]
    exact and_congr_left fun less => ⟨fun comparable => comparable.symm less.ne,
      fun comparable => comparable.symm less.ne'⟩
  apply and_congr
  · rcases lt_trichotomy first.rank second.rank with less | same | greater
    · simp only [less, less.ne, less.not_gt, and_true, and_false, iff_false] at before equal after
      simp [equal, after, ← before, List.count_cons]
    · simp only [same, lt_irrefl, and_true, and_false, iff_false] at before equal after
      simp [before, after, ← equal, List.count_cons]
    · simp only [greater, greater.ne', greater.not_gt, and_true, and_false, iff_false]
        at before equal after
      simp [before, equal, ← after, List.count_cons]
  · refine forall_congr' fun one => forall_congr' fun two => ?_
    rw [(compare_rank first third).1]
    exact and_iff_left ((before.mp one).2.trans ((compare_rank second third).1.mp two).2)

/-- Two different arrays are not ordered either way. -/
theorem arrays_unordered :
    let first := Value.array .integer [.integer 1]
    let second := Value.array .integer [.integer 2]
    first.less second = false ∧ first.equals second = false ∧ second.less first = false := by
  decide

end Value

end KlyroDB
