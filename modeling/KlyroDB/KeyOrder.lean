import KlyroDB.IndexKeys
import KlyroDB.ValueOrder
import KlyroDB.ValueRoundTrip

/-!
# The two orders of index keys

`IndexComparator` compares the values of two keys, the nodes of the tree their
serialized bytes.  The two orders agree only for some pairs of keys.
-/

namespace KlyroDB

open IndexKey (nullLength serializeComponent serializeComponents)
open ByteMemory

/-! ## Comparisons in turn -/

def firstNonzero (first second : Int) : Int :=
  if first = 0 then second else first

def compareNat (left right : Nat) : Int :=
  if left < right then -1 else if right < left then 1 else 0

theorem compareNat_self (value : Nat) : compareNat value value = 0 := by
  simp [compareNat]

theorem compareNat_eq_zero_iff {left right : Nat} : compareNat left right = 0 ↔ left = right := by
  unfold compareNat
  split_ifs with before after
  · simp
    omega
  · simp
    omega
  · simp
    omega

theorem compareBytes_common (common left right : List UInt8) :
    compareBytes (common ++ left) (common ++ right) = compareBytes left right := by
  induction common with
  | nil => rfl
  | cons byte common induction => simp [compareBytes, induction]

theorem compareBytes_append {left right : List UInt8}
    (same : left.length = right.length) (lefts rights : List UInt8) :
    compareBytes (left ++ lefts) (right ++ rights) =
      firstNonzero (compareBytes left right) (compareBytes lefts rights) := by
  induction left generalizing right with
  | nil =>
    obtain rfl : right = [] := List.length_eq_zero_iff.mp same.symm
    simp [compareBytes, firstNonzero]
  | cons first left induction =>
    cases right with
    | nil => simp at same
    | cons second right =>
      simp only [List.length_cons, Nat.add_right_cancel_iff] at same
      simp only [List.cons_append, compareBytes, induction same]
      split_ifs <;> simp [firstNonzero]

def byteSwap : Nat → Nat → Nat
  | 0, _ => 0
  | width + 1, value => value % 256 * 256 ^ width + byteSwap width (value / 256)

theorem byteSwap_lt (width value : Nat) : byteSwap width value < 256 ^ width := by
  induction width generalizing value with
  | zero => simp [byteSwap]
  | succ width induction =>
    have lower := induction (value / 256)
    have digit := Nat.mod_lt value (by decide : 0 < 256)
    have scaled := Nat.mul_le_mul_right (256 ^ width)
      (Nat.le_of_lt_succ (show value % 256 < 255 + 1 from digit))
    rw [byteSwap, pow_succ]
    omega

theorem compareBytes_leBytes (width left right : Nat) :
    compareBytes (leBytes width left) (leBytes width right) =
      compareNat (byteSwap width left) (byteSwap width right) := by
  induction width generalizing left right with
  | zero => rfl
  | succ width induction =>
    have leftLow := byteSwap_lt width (left / 256)
    have rightLow := byteSwap_lt width (right / 256)
    have low : ∀ value, (UInt8.ofNat value).toNat = value % 256 := fun value => UInt8.toNat_ofNat'
    have digits : ∀ first second : Nat, first < second →
        first * 256 ^ width + 256 ^ width ≤ second * 256 ^ width := by
      intro first second before
      have scaled := Nat.mul_le_mul_right (256 ^ width) before
      rwa [Nat.succ_mul] at scaled
    rw [leBytes, leBytes, compareBytes, induction]
    simp only [UInt8.lt_iff_toNat_lt, low, byteSwap]
    rcases Nat.lt_trichotomy (left % 256) (right % 256) with
      before | same | after
    · have apart := digits _ _ before
      have swapped : left % 256 * 256 ^ width + byteSwap width (left / 256) < right % 256 * 256 ^
          width + byteSwap width (right / 256) := by omega
      rw [if_pos before, compareNat, if_pos swapped]
    · simp [same, compareNat]
    have apart := digits _ _ after
    have swapped : right % 256 * 256 ^ width + byteSwap width (right / 256) < left % 256 * 256 ^
        width + byteSwap width (left / 256) := by omega
    rw [if_neg (Nat.not_lt.mpr after.le), if_pos after, compareNat,
      if_neg (Nat.not_lt.mpr swapped.le), if_pos swapped]

theorem compareBytes_eq_zero {left right : List UInt8}
    (same : compareBytes left right = 0) : left = right := by
  induction left generalizing right with
  | nil =>
    cases right with
    | nil => rfl
    | cons second right => simp [compareBytes] at same
  | cons first left induction =>
    cases right with
    | nil => simp [compareBytes] at same
    | cons second right =>
      rw [compareBytes] at same
      by_cases before : first < second
      · rw [if_pos before] at same
        cases same
      by_cases after : second < first
      · rw [if_neg before, if_pos after] at same
        cases same
      rw [if_neg before, if_neg after] at same
      have heads : first = second :=
        UInt8.le_antisymm (UInt8.not_lt.mp after) (UInt8.not_lt.mp before)
      rw [heads, induction same]

theorem byteSwap_injective {width left right : Nat}
    (leftFits : left < 256 ^ width) (rightFits : right < 256 ^ width)
    (same : byteSwap width left = byteSwap width right) : left = right := by
  have bytes : compareBytes (leBytes width left) (leBytes width right) = 0 := by
    rw [compareBytes_leBytes, same, compareNat_self]
  have numbers := congrArg leNat (compareBytes_eq_zero bytes)
  rwa [leNat_leBytes, leNat_leBytes, Nat.mod_eq_of_lt leftFits,
    Nat.mod_eq_of_lt rightFits] at numbers

/-! ## Stored values -/

namespace Value

def IsScalar : Value → Prop
  | .null _ | .real _ | .double _ | .json _ | .array _ _ | .dict _ => False
  | _ => True

/-- The order of the bytes of two values of one type, each behind its length:
numbers as if their bytes were read backwards, and strings by the swapped
length first. -/
def storedCompare : Value → Value → Int
  | .boolean left, .boolean right => compareNat left.toNat right.toNat
  | .smallInt left, .smallInt right => compareNat (byteSwap 2 left.toUInt16.toNat)
      (byteSwap 2 right.toUInt16.toNat)
  | .integer left, .integer right | .date left, .date right => compareNat
      (byteSwap 4 left.toUInt32.toNat) (byteSwap 4 right.toUInt32.toNat)
  | .bigInt left, .bigInt right | .time left, .time right
  | .timestamp left _, .timestamp right _ => compareNat (byteSwap 8 left.toUInt64.toNat)
      (byteSwap 8 right.toUInt64.toNat)
  | .numeric left, .numeric right => firstNonzero (compareNat
      (byteSwap 8 left.coefficient.toUInt64.toNat) (byteSwap 8 right.coefficient.toUInt64.toNat))
      (compareNat left.scale.toNat right.scale.toNat)
  | .string left _, .string right _ | .bytea left, .bytea right => firstNonzero (compareNat
      (byteSwap 4 left.length) (byteSwap 4 right.length)) (compareBytes left right)
  | .interval left, .interval right => firstNonzero (compareNat
      (byteSwap 4 left.months.toUInt32.toNat) (byteSwap 4 right.months.toUInt32.toNat))
      (firstNonzero (compareNat (byteSwap 4 left.days.toUInt32.toNat)
      (byteSwap 4 right.days.toUInt32.toNat)) (compareNat (byteSwap 8 left.micros.toUInt64.toNat)
      (byteSwap 8 right.micros.toUInt64.toNat)))
  | .uuid left, .uuid right => compareBytes left.data right.data
  | _, _ => 0

def LengthFits : Value → Prop
  | .string value _ => value.length < nullLength
  | .bytea value => value.length < nullLength
  | _ => True

end Value

theorem compareBytes_same_length {left right : List UInt8} {length : Nat}
    (leftLength : left.length = length) (rightLength : right.length = length)
    (lefts rights : List UInt8) :
    compareBytes (leBytes 4 left.length ++ left ++ lefts)
        (leBytes 4 right.length ++ right ++ rights) =
      firstNonzero (compareBytes left right) (compareBytes lefts rights) := by
  rw [leftLength, rightLength, List.append_assoc, List.append_assoc, compareBytes_common]
  exact compareBytes_append (leftLength.trans rightLength.symm) lefts rights

theorem compareBytes_sized {left right : List UInt8} (leftFits : left.length < nullLength)
    (rightFits : right.length < nullLength) (lefts rights : List UInt8) :
    compareBytes (leBytes 4 left.length ++ left ++ lefts)
        (leBytes 4 right.length ++ right ++ rights) = firstNonzero (firstNonzero
          (compareNat (byteSwap 4 left.length) (byteSwap 4 right.length)) (compareBytes left right))
        (compareBytes lefts rights) := by
  by_cases same : left.length = right.length
  · rw [compareBytes_same_length same rfl, same, compareNat_self]
    simp [firstNonzero]
  have differ : compareNat (byteSwap 4 left.length) (byteSwap 4 right.length) ≠ 0 := by
    rw [Ne, compareNat_eq_zero_iff]
    intro swapped
    have small : nullLength < 256 ^ 4 := by decide
    exact same (byteSwap_injective (by omega) (by omega) swapped)
  rw [List.append_assoc, List.append_assoc, compareBytes_append (by simp), compareBytes_leBytes]
  simp [firstNonzero, differ]

variable {value left right : Value} {bytes : List UInt8}

theorem serializeComponent_eq_ok (present : value.isNull = false)
    (serialized : serializeComponent value = .ok bytes) :
    ∃ payload, TypeSerializer.serialize value = .ok payload ∧
      bytes = leBytes 4 payload.length ++ payload := by
  simp only [serializeComponent, present, Bool.false_eq_true, if_false] at serialized
  split at serialized
  · cases serialized
  next payload found =>
    cases serialized
    exact ⟨payload, found, rfl⟩

inductive Alike : Value → Value → Prop
  | boolean (left right : Bool) : Alike (.boolean left) (.boolean right)
  | smallInt (left right : Int16) : Alike (.smallInt left) (.smallInt right)
  | integer (left right : Int32) : Alike (.integer left) (.integer right)
  | bigInt (left right : Int64) : Alike (.bigInt left) (.bigInt right)
  | numeric (left right : Decimal) : Alike (.numeric left) (.numeric right)
  | string (left right : List UInt8) (kind : StringKind) :
      Alike (.string left kind) (.string right kind)
  | bytea (left right : List UInt8) : Alike (.bytea left) (.bytea right)
  | date (left right : Int32) : Alike (.date left) (.date right)
  | time (left right : Int64) : Alike (.time left) (.time right)
  | timestamp (left right : Int64) (withTz : Bool) :
      Alike (.timestamp left withTz) (.timestamp right withTz)
  | interval (left right : Interval) : Alike (.interval left) (.interval right)
  | uuid (left right : UUID) : Alike (.uuid left) (.uuid right)
  | enum (leftId rightId : UInt32) (left right : List UInt8) :
      Alike (.enum leftId left) (.enum rightId right)

theorem Value.IsScalar.isNull_eq (scalar : value.IsScalar) : value.isNull = false := by
  cases value <;> first | rfl | exact scalar.elim

theorem alike_of_type (leftScalar : left.IsScalar)
    (rightScalar : right.IsScalar) (sameType : left.type = right.type) : Alike left right := by
  have kinds := Value.ctorIdx_eq_of_type sameType leftScalar.isNull_eq rightScalar.isNull_eq
  cases left <;> cases right <;> first
    | (cases kinds; done)
    | exact leftScalar.elim
    | constructor
    | skip
  case string.string value kind other otherKind =>
    cases kind <;> cases otherKind <;> first | exact .string value other _ | cases sameType
  case timestamp.timestamp value zone other otherZone =>
    cases zone <;> cases otherZone <;> first | exact .timestamp value other _ | cases sameType

theorem compareBytes_payloads {first second : List UInt8}
    (alike : Alike left right) (leftFits : left.LengthFits) (rightFits : right.LengthFits)
    (leftSerialized : TypeSerializer.serialize left = .ok first)
    (rightSerialized : TypeSerializer.serialize right = .ok second) (lefts rights : List UInt8) :
    compareBytes (leBytes 4 first.length ++ first ++ lefts)
        (leBytes 4 second.length ++ second ++ rights) = firstNonzero (left.storedCompare right)
        (compareBytes lefts rights) := by
  cases alike <;> cases leftSerialized <;> cases rightSerialized
  case string | bytea =>
    exact compareBytes_sized leftFits rightFits lefts rights
  case boolean left right => cases left <;> cases right <;> rfl
  case uuid left right =>
    exact compareBytes_same_length left.size_eq right.size_eq lefts rights
  case numeric left right =>
    have scales : compareBytes [left.scale] [right.scale] =
        compareNat left.scale.toNat right.scale.toNat := by
      simp only [compareBytes, compareNat, UInt8.lt_iff_toNat_lt]
    rw [@compareBytes_same_length _ _ 9 (by simp) (by simp),
      compareBytes_append (by simp), compareBytes_leBytes, scales]
    rfl
  case interval left right =>
    rw [@compareBytes_same_length _ _ 16 (by simp) (by simp),
      compareBytes_append (by simp), compareBytes_append (by simp),
      compareBytes_leBytes, compareBytes_leBytes, compareBytes_leBytes]
    simp only [Value.storedCompare, firstNonzero]
    split_ifs <;> rfl
  case smallInt left right =>
    rw [@compareBytes_same_length _ _ 2 (by simp) (by simp), compareBytes_leBytes]
    rfl
  case integer left right | date left right =>
    rw [@compareBytes_same_length _ _ 4 (by simp) (by simp), compareBytes_leBytes]
    rfl
  case bigInt left right | time left right | timestamp left right zone =>
    rw [@compareBytes_same_length _ _ 8 (by simp) (by simp), compareBytes_leBytes]
    rfl

/-- The length that stands for `NULL` is sorted behind every other one. -/
theorem compareBytes_null {length : Nat} (fits : length < nullLength) (lefts rights : List UInt8) :
    compareBytes (leBytes 4 nullLength ++ lefts) (leBytes 4 length ++ rights) = 1 ∧
      compareBytes (leBytes 4 length ++ lefts) (leBytes 4 nullLength ++ rights) = -1 := by
  have top : byteSwap 4 nullLength = 256 ^ 4 - 1 := by decide
  have below := byteSwap_lt 4 length
  have differ : byteSwap 4 length ≠ byteSwap 4 nullLength := by
    intro same
    have small : nullLength < 256 ^ 4 := by decide
    have lengths := byteSwap_injective (by omega) small same
    omega
  have less : byteSwap 4 length < byteSwap 4 nullLength := by omega
  constructor
  · rw [compareBytes_append (by simp), compareBytes_leBytes, compareNat,
      if_neg (Nat.not_lt.mpr less.le), if_pos less]
    rfl
  · rw [compareBytes_append (by simp), compareBytes_leBytes, compareNat, if_pos less]
    rfl

/-! ## Keys -/

def Value.IsComponent (type : TypeID) (value : Value) : Prop :=
  value.isNull = true ∨ value.type = type ∧ value.IsScalar

namespace IndexKey

def Over (types : List TypeID) (key : IndexKey) : Prop :=
  List.Forall₂ Value.IsComponent types key.values

/-- Every component is shorter than the length that stands for `NULL`. -/
def LengthsFit (key : IndexKey) : Prop :=
  ∀ value ∈ key.values, value.LengthFits

/-- A value of an enumeration; the serializer does not support them. -/
def HasEnum (key : IndexKey) : Prop :=
  ∃ id label, Value.enum id label ∈ key.values

end IndexKey

def Precedes : List Value → List Value → Prop
  | left :: lefts, right :: rights => left.less right = true ∨ left.less right = false ∧ right.less
      left = false ∧ Precedes lefts rights
  | _, _ => False

def Follows : List Value → List Value → Prop
  | left :: lefts, right :: rights => left.less right = false ∧ (right.less left = true ∨ right.less
      left = false ∧ Follows lefts rights)
  | _, _ => False

/-- When the two orders agree: `NULL` stands beside `NULL` up to the component
that decides, and there the values are in the order of their bytes.  Decimal
numbers that are equal but stored with different scales decide the order of
the bytes, so that the values after them must be in the same order. -/
def SortedAlike : List Value → List Value → Prop
  | left :: lefts, right :: rights =>
      if left.isNull && right.isNull then SortedAlike lefts rights
      else if left.isNull || right.isNull then False
      else if left.less right then left.storedCompare right = -1
      else if right.less left then left.storedCompare right = 1
      else if left.storedCompare right = 0 then SortedAlike lefts rights
      else if left.storedCompare right = -1 then Precedes lefts rights
      else Follows lefts rights
  | _, _ => True

/-! ## Signs -/

def IsSign (value : Int) : Prop := value = -1 ∨ value = 0 ∨ value = 1

theorem IsSign.sign_eq {value : Int} (isSign : IsSign value) : value.sign = value := by
  rcases isSign with rfl | rfl | rfl <;> rfl

theorem isSign_compareBytes (left right : List UInt8) : IsSign (compareBytes left right) := by
  induction left generalizing right with
  | nil => cases right <;> simp [compareBytes, IsSign]
  | cons first left induction =>
    cases right with
    | nil => simp [compareBytes, IsSign]
    | cons second right =>
      rw [compareBytes]
      split_ifs
      · exact Or.inl rfl
      · exact Or.inr (Or.inr rfl)
      · exact induction right

theorem isSign_compareComponents (left right : List Value) :
    IsSign (compareComponents left right) := by
  induction left generalizing right with
  | nil => cases right <;> simp [compareComponents, IsSign]
  | cons first left induction =>
    cases right with
    | nil => simp [compareComponents, IsSign]
    | cons second right =>
      rw [compareComponents]
      split_ifs <;> first
        | exact Or.inl rfl
        | exact Or.inr (Or.inr rfl)
        | exact induction right

theorem eq_of_payload {payload : List UInt8} (alike : Alike left right)
    (leftSerialized : TypeSerializer.serialize left = .ok payload)
    (rightSerialized : TypeSerializer.serialize right = .ok payload) : left = right := by
  have same := leftSerialized.trans rightSerialized.symm
  cases alike with
  | enum leftId rightId left right => cases leftSerialized
  | timestamp left right zone =>
    have numbers := @TypeSerializer.serialize_inj (.bigInt left) (.bigInt right) trivial trivial
      rfl rfl rfl same
    cases numbers
    rfl
  | _ => exact TypeSerializer.serialize_inj trivial trivial rfl rfl rfl same

theorem Value.less_self (value : Value) : value.less value = false := by
  by_contra less
  exact lt_irrefl _ ((compare_rank value value).1.mp (by simpa using less)).2

/-- The order of the stored bytes is that of the components alone. -/
theorem storedCompare_eq {first second : List UInt8}
    (alike : Alike left right) (leftFits : left.LengthFits) (rightFits : right.LengthFits)
    (leftSerialized : TypeSerializer.serialize left = .ok first)
    (rightSerialized : TypeSerializer.serialize right = .ok second) :
    left.storedCompare right =
      compareBytes (leBytes 4 first.length ++ first) (leBytes 4 second.length ++ second) := by
  have bytes := compareBytes_payloads alike leftFits rightFits leftSerialized rightSerialized [] []
  rw [List.append_nil, List.append_nil] at bytes
  rw [bytes, firstNonzero, compareBytes]
  split_ifs with zero
  · exact zero
  · rfl

/-! ## Agreement -/

theorem compareComponents_iff {left right : List Value} (same : left.length = right.length) :
    (compareComponents left right = -1 ↔ Precedes left right) ∧
      (compareComponents left right = 1 ↔ Follows left right) := by
  induction left generalizing right with
  | nil =>
    obtain rfl : right = [] := List.length_eq_zero_iff.mp same.symm
    simp [compareComponents, Precedes, Follows]
  | cons first left induction =>
    cases right with
    | nil => simp at same
    | cons second right =>
      simp only [List.length_cons, Nat.add_right_cancel_iff] at same
      obtain ⟨precedes, follows⟩ := induction same
      rw [compareComponents, Precedes, Follows]
      cases leftNull : first.isNull <;> cases rightNull : second.isNull
      · by_cases before : first.less second = true
        · simp [before]
        · by_cases after : second.less first = true
          · simp [before, after]
          · simp [before, after, precedes, follows]
      · simp [Value.less, leftNull, rightNull]
      · simp [Value.less, leftNull, rightNull]
      · simp [Value.less, leftNull, rightNull, precedes, follows]

theorem component_length_lt {payload : List UInt8} (scalar : value.IsScalar)
    (fits : value.LengthFits) (serialized : TypeSerializer.serialize value = .ok payload) :
    payload.length < nullLength := by
  cases value with
  | string value kind | bytea value =>
    cases serialized
    exact fits
  | null _ | real _ | double _ | json _ | array _ _ | dict _ =>
    exact scalar.elim
  | enum id label => cases serialized
  | uuid value =>
    cases serialized
    rw [value.size_eq]
    decide
  | _ =>
    cases serialized
    simp [nullLength]

theorem serializeComponents_cons {rest : List Value}
    (serialized : serializeComponents (value :: rest) = .ok bytes) :
    ∃ first more, serializeComponent value = .ok first ∧
      serializeComponents rest = .ok more ∧ bytes = first ++ more := by
  rw [serializeComponents] at serialized
  split at serialized
  · cases serialized
  next first found =>
    split at serialized
    · cases serialized
    next more others =>
      cases serialized
      exact ⟨first, more, found, others, rfl⟩

theorem serializeComponent_null (isNull : value.isNull = true)
    (serialized : serializeComponent value = .ok bytes) :
    bytes = leBytes 4 nullLength := by
  rw [serializeComponent, if_pos isNull] at serialized
  cases serialized
  rfl

theorem Value.IsComponent.of_present {type : TypeID}
    (component : value.IsComponent type) (present : value.isNull = false) :
    value.type = type ∧ value.IsScalar := by
  rcases component with isNull | scalar
  · rw [present] at isNull
    cases isNull
  · exact scalar

theorem present_agree_iff {first second : Value} {left right : List Value}
    {order : Int} (isSign : IsSign (first.storedCompare second))
    (equal : first.storedCompare second = 0 → first = second)
    (same : left.length = right.length)
    (rest : compareComponents left right = order ↔ SortedAlike left right) :
    (if first.less second then -1 else if second.less first then 1
        else compareComponents left right) =
        firstNonzero (first.storedCompare second) order ↔
      (if first.less second then first.storedCompare second = -1
        else if second.less first then first.storedCompare second = 1
        else if first.storedCompare second = 0 then SortedAlike left right
        else if first.storedCompare second = -1 then Precedes left right
        else Follows left right) := by
  have differ : first.less second = true ∨ second.less first = true →
      first.storedCompare second ≠ 0 := by
    intro less stored
    simp [equal stored, Value.less_self] at less
  unfold firstNonzero
  by_cases before : first.less second = true
  · rw [if_pos before, if_pos before, if_neg (differ (Or.inl before))]
    exact eq_comm
  rw [if_neg before, if_neg before]
  by_cases after : second.less first = true
  · rw [if_pos after, if_pos after, if_neg (differ (Or.inr after))]
    exact eq_comm
  rw [if_neg after, if_neg after]
  rcases isSign with ascending | stored | descending
  · rw [ascending]
    simpa using (compareComponents_iff same).1
  · rw [if_pos stored, if_pos stored]
    exact rest
  · rw [descending]
    simpa using (compareComponents_iff same).2

theorem components_agree_iff {types : List TypeID} {left right : List Value}
    (leftOver : List.Forall₂ Value.IsComponent types left)
    (rightOver : List.Forall₂ Value.IsComponent types right)
    (leftFits : ∀ value ∈ left, value.LengthFits) (rightFits : ∀ value ∈ right, value.LengthFits)
    {leftBytes rightBytes : List UInt8}
    (leftSerialized : serializeComponents left = .ok leftBytes)
    (rightSerialized : serializeComponents right = .ok rightBytes) :
    compareComponents left right = compareBytes leftBytes rightBytes ↔ SortedAlike left right := by
  induction leftOver generalizing right leftBytes rightBytes with
  | nil =>
    cases rightOver
    cases leftSerialized
    cases rightSerialized
    simp [compareComponents, compareBytes, SortedAlike]
  | @cons type first types left leftComponent leftOver induction =>
    cases rightOver with
    | @cons _ second _ right rightComponent rightOver =>
      obtain ⟨firstBytes, lefts, firstFound, leftFound, rfl⟩ :=
        serializeComponents_cons leftSerialized
      obtain ⟨secondBytes, rights, secondFound, rightFound, rfl⟩ :=
        serializeComponents_cons rightSerialized
      have rest := induction rightOver (fun value mem => leftFits value
        (List.mem_cons_of_mem _ mem)) (fun value mem =>
          rightFits value (List.mem_cons_of_mem _ mem))
        leftFound rightFound
      have firstFits := leftFits first List.mem_cons_self
      have secondFits := rightFits second List.mem_cons_self
      have same : left.length = right.length := leftOver.length_eq.symm.trans rightOver.length_eq
      rw [compareComponents, SortedAlike]
      cases leftNull : first.isNull <;> cases rightNull : second.isNull
      · obtain ⟨firstType, firstScalar⟩ := leftComponent.of_present leftNull
        obtain ⟨secondType, secondScalar⟩ := rightComponent.of_present rightNull
        obtain ⟨payload, found, rfl⟩ := serializeComponent_eq_ok leftNull firstFound
        obtain ⟨other, otherFound, rfl⟩ := serializeComponent_eq_ok rightNull secondFound
        have alike := alike_of_type firstScalar secondScalar (firstType.trans secondType.symm)
        have stored := storedCompare_eq alike firstFits secondFits found otherFound
        rw [compareBytes_payloads alike firstFits secondFits found otherFound]
        have agree := present_agree_iff (stored ▸ isSign_compareBytes _ _) (fun zero => by
          have bytes := compareBytes_eq_zero (stored.symm.trans zero)
          rw [(List.append_inj bytes (by simp)).2] at found
          exact eq_of_payload alike found otherFound) same rest
        simpa using agree
      · obtain ⟨payload, found, rfl⟩ := serializeComponent_eq_ok leftNull firstFound
        have shorter := component_length_lt (leftComponent.of_present leftNull).2 firstFits found
        obtain rfl := serializeComponent_null rightNull secondFound
        rw [List.append_assoc, (compareBytes_null shorter _ _).2]
        simp
      · obtain ⟨payload, found, rfl⟩ := serializeComponent_eq_ok rightNull secondFound
        have shorter := component_length_lt (rightComponent.of_present rightNull).2 secondFits found
        obtain rfl := serializeComponent_null leftNull firstFound
        rw [List.append_assoc, (compareBytes_null shorter _ _).1]
        simp
      · obtain rfl := serializeComponent_null leftNull firstFound
        obtain rfl := serializeComponent_null rightNull secondFound
        rw [compareBytes_common]
        simpa using rest

theorem serializeComponent_ok {type : TypeID} (component : value.IsComponent type)
    (noEnum : ∀ id label, value ≠ .enum id label) :
    ∃ bytes, serializeComponent value = .ok bytes := by
  cases isNull : value.isNull with
  | true =>
    refine ⟨leBytes 4 nullLength, ?_⟩
    rw [serializeComponent, if_pos isNull]
  | false =>
    obtain ⟨-, scalar⟩ := component.of_present isNull
    cases value with
    | null _ | real _ | double _ | json _ | array _ _ | dict _ => exact scalar.elim
    | enum id label => exact absurd rfl (noEnum id label)
    | _ => exact ⟨_, rfl⟩

theorem serializeComponents_ok {types : List TypeID} {values : List Value}
    (typed : List.Forall₂ Value.IsComponent types values)
    (noEnum : ∀ id label, Value.enum id label ∉ values) :
    ∃ bytes, serializeComponents values = .ok bytes := by
  induction typed with
  | nil => exact ⟨[], rfl⟩
  | @cons type value types values component typed induction =>
    have headNoEnum : ∀ id label, value ≠ .enum id label := by
      rintro id label rfl
      exact noEnum id label List.mem_cons_self
    obtain ⟨first, found⟩ := serializeComponent_ok component headNoEnum
    obtain ⟨more, others⟩ := induction fun id label mem =>
      noEnum id label (List.mem_cons_of_mem _ mem)
    simp [serializeComponents, found, others]

theorem not_enum_of_serialized {values : List Value}
    (serialized : serializeComponents values = .ok bytes) (id : UInt32)
    (label : List UInt8) : Value.enum id label ∉ values := by
  induction values generalizing bytes with
  | nil => simp
  | cons value values induction =>
    obtain ⟨first, more, found, others, -⟩ := serializeComponents_cons serialized
    intro mem
    rcases List.mem_cons.mp mem with rfl | later
    · cases found
    · exact induction others later

theorem serialize_ok {key : IndexKey} (serialized : key.serialize = .ok bytes) :
    ∃ components, serializeComponents key.values = .ok components ∧
      bytes = leBytes 4 key.values.length ++ components := by
  rw [IndexKey.serialize] at serialized
  split at serialized
  · cases serialized
  next components found =>
    cases serialized
    exact ⟨components, found, rfl⟩

/-- Over the same types the order of the values is the order of the bytes
exactly when the first components that differ, read backwards and with their
lengths in front, are sorted like the values. -/
theorem key_orders_agree_iff (types : List TypeID) (left right : IndexKey)
    (leftOver : left.Over types) (rightOver : right.Over types)
    (leftFits : left.LengthsFit) (rightFits : right.LengthsFit) :
    (∃ leftBytes rightBytes, left.serialize = .ok leftBytes ∧
        right.serialize = .ok rightBytes ∧
          (IndexComparator.compare left right).sign = (compareBytes leftBytes rightBytes).sign) ↔
      ¬left.HasEnum ∧ ¬right.HasEnum ∧ SortedAlike left.values right.values := by
  have same : left.values.length = right.values.length :=
    leftOver.length_eq.symm.trans rightOver.length_eq
  have agree := fun leftBytes rightBytes =>
    @components_agree_iff types left.values right.values leftOver rightOver
      leftFits rightFits leftBytes rightBytes
  constructor
  · rintro ⟨leftBytes, rightBytes, leftFound, rightFound, signs⟩
    obtain ⟨lefts, leftSerialized, rfl⟩ := serialize_ok leftFound
    obtain ⟨rights, rightSerialized, rfl⟩ := serialize_ok rightFound
    rw [same, compareBytes_common, (isSign_compareBytes _ _).sign_eq, IndexComparator.compare,
      (isSign_compareComponents _ _).sign_eq] at signs
    refine ⟨?_, ?_, (agree _ _ leftSerialized rightSerialized).mp signs⟩
    · rintro ⟨id, label, member⟩
      exact not_enum_of_serialized leftSerialized id label member
    · rintro ⟨id, label, member⟩
      exact not_enum_of_serialized rightSerialized id label member
  rintro ⟨leftNoEnum, rightNoEnum, alike⟩
  obtain ⟨lefts, leftSerialized⟩ := serializeComponents_ok leftOver
    fun id label member => leftNoEnum ⟨id, label, member⟩
  obtain ⟨rights, rightSerialized⟩ := serializeComponents_ok rightOver
    fun id label member => rightNoEnum ⟨id, label, member⟩
  refine ⟨leBytes 4 left.values.length ++ lefts,
    leBytes 4 right.values.length ++ rights, ?_, ?_, ?_⟩
  · simp [IndexKey.serialize, leftSerialized]
  · simp [IndexKey.serialize, rightSerialized]
  · rw [same, compareBytes_common, (isSign_compareBytes _ _).sign_eq]
    exact (congrArg Int.sign ((agree _ _ leftSerialized rightSerialized).mpr alike)).trans
      (isSign_compareBytes _ _).sign_eq

/-- `NULL` and the string `b` against `NULL` and the string `c`. -/
theorem key_orders_agree_text :
    ∃ leftBytes rightBytes, IndexKey.serialize ⟨[.null .integer, .string [98] .text]⟩ =
          .ok leftBytes ∧
        IndexKey.serialize ⟨[.null .integer, .string [99] .text]⟩ = .ok rightBytes ∧
        (IndexComparator.compare ⟨[.null .integer, .string [98] .text]⟩
            ⟨[.null .integer, .string [99] .text]⟩).sign =
          (compareBytes leftBytes rightBytes).sign := by
  have component : ∀ byte, List.Forall₂ Value.IsComponent [.integer, .text]
      [.null .integer, .string [byte] .text] := fun byte =>
    .cons (Or.inl rfl) (.cons (Or.inr ⟨rfl, trivial⟩) .nil)
  have fits : ∀ byte, IndexKey.LengthsFit ⟨[.null .integer, .string [byte] .text]⟩ := by
    intro byte
    simp [IndexKey.LengthsFit, Value.LengthFits, nullLength]
  apply (key_orders_agree_iff [.integer, .text] _ _ (component 98)
    (component 99) (fits 98) (fits 99)).mpr
  refine ⟨?_, ?_, ?_⟩
  · simp [IndexKey.HasEnum]
  · simp [IndexKey.HasEnum]
  · exact (by decide : Value.storedCompare (.string [98] .text) (.string [99] .text) = -1)

/-- One is less than 256, but its first byte is greater; and `NULL` comes
before every value, but its bytes come last. -/
theorem integer_key_orders_differ :
    (IndexKey.Over [.integer] ⟨[.integer 1]⟩ ∧ IndexKey.Over [.integer] ⟨[.integer 256]⟩ ∧
      IndexComparator.compare ⟨[.integer 1]⟩ ⟨[.integer 256]⟩ = -1 ∧
      ∃ leftBytes rightBytes, IndexKey.serialize ⟨[.integer 1]⟩ = .ok leftBytes ∧
          IndexKey.serialize ⟨[.integer 256]⟩ = .ok rightBytes ∧
            compareBytes leftBytes rightBytes = 1) ∧
    (IndexComparator.compare ⟨[.null .integer]⟩ ⟨[.integer 1]⟩ = -1 ∧
      ∃ leftBytes rightBytes, IndexKey.serialize ⟨[.null .integer]⟩ = .ok leftBytes ∧
          IndexKey.serialize ⟨[.integer 1]⟩ = .ok rightBytes ∧
            compareBytes leftBytes rightBytes = 1) := by
  refine ⟨⟨?_, ?_, by decide, _, _, rfl, rfl, by decide⟩, by decide, _, _, rfl, rfl, by decide⟩
  · exact .cons (Or.inr ⟨rfl, trivial⟩) .nil
  · exact .cons (Or.inr ⟨rfl, trivial⟩) .nil

end KlyroDB
