import KlyroDB.ByteMemory

/-!
# Types and values

`types/`: type identifiers with their storage sizes, decimals, UUIDs, intervals,
JSON documents, and the tagged values.  Strings are byte strings, and
floating-point numbers are their IEEE bit patterns.
-/

namespace KlyroDB

inductive TypeID
  | null
  | boolean
  | smallInt
  | integer
  | bigInt
  | real
  | double
  | numeric
  | char
  | varChar
  | text
  | bytea
  | date
  | time
  | timestamp
  | timestampTZ
  | interval
  | uuid
  | json
  | dict
  | array
  | enum
  | invalid
  deriving DecidableEq, Repr

namespace TypeID

def all : List TypeID :=
  [.null, .boolean, .smallInt, .integer, .bigInt, .real, .double, .numeric,
    .char, .varChar, .text, .bytea, .date, .time, .timestamp, .timestampTZ,
    .interval, .uuid, .json, .dict, .array, .enum, .invalid]

def code (type : TypeID) : Nat := type.ctorIdx

/-- `static_cast<TypeID>`; a code without an enumerator has no name. -/
def ofCode (code : Nat) : Option TypeID := all[code]?

/-- The fields of `TypeInfo` that the storage format uses. -/
structure Info where
  fixedSize : Nat
  isVariableLength : Bool
  deriving DecidableEq, Repr

def info : TypeID → Info
  | .null | .invalid => ⟨0, false⟩
  | .boolean => ⟨1, false⟩
  | .smallInt => ⟨2, false⟩
  | .integer | .real | .date | .enum => ⟨4, false⟩
  | .bigInt | .double | .time | .timestamp | .timestampTZ => ⟨8, false⟩
  | .interval | .uuid => ⟨16, false⟩
  | .numeric | .char | .varChar | .text | .bytea | .json | .dict | .array => ⟨0, true⟩

end TypeID

/-- `std::string::operator<` and `memcmp`: byte by byte, unsigned, a proper
beginning is less. -/
def bytesLess : List UInt8 → List UInt8 → Bool
  | _, [] => false
  | [], _ :: _ => true
  | left :: lefts, right :: rights => left < right || left = right && bytesLess lefts rights

structure Decimal where
  coefficient : Int64
  scale : UInt8
  deriving DecidableEq

namespace Decimal

def maxCoefficient : Int := 2 ^ 63 - 1

def minCoefficient : Int := -2 ^ 63

/-- The loop of `scale_up` that computes a power of ten. -/
def multiplier : Nat → Option Int
  | 0 => some 1
  | rounds + 1 =>
      match multiplier rounds with
      | none => none
      | some power => if maxCoefficient.tdiv 10 < power then none else some (power * 10)

/-- `scale_up`; the division of the lower bound truncates towards zero. -/
def scaleUp (value : Int) (difference : Nat) : Option Int :=
  if difference = 0 then some value
  else
    match multiplier difference with
    | none => none
    | some power =>
        if 0 < value ∧ maxCoefficient.tdiv power < value then none
        else if value < 0 ∧ value < minCoefficient.tdiv power then none
        else some (value * power)

def targetScale (left right : Decimal) : Nat :=
  max left.scale.toNat right.scale.toNat

def scaled (value : Decimal) (target : Nat) : Option Int :=
  scaleUp value.coefficient.toInt (target - value.scale.toNat)

def equals (left right : Decimal) : Bool :=
  let target := targetScale left right
  match left.scaled target, right.scaled target with
  | some first, some second => first = second
  | _, _ => false

def less (left right : Decimal) : Bool :=
  let target := targetScale left right
  match left.scaled target with
  | none => left.coefficient.toInt < 0
  | some first =>
      match right.scaled target with
      | none => 0 < right.coefficient.toInt
      | some second => first < second

end Decimal

structure UUID where
  data : List UInt8
  size_eq : data.length = 16
  deriving DecidableEq

structure Interval where
  months : Int32
  days : Int32
  micros : Int64
  deriving DecidableEq

namespace Interval

def less (left right : Interval) : Bool :=
  if left.months ≠ right.months then left.months < right.months
  else if left.days ≠ right.days then left.days < right.days
  else left.micros < right.micros

end Interval

/-- The bit patterns of an IEEE format with the given number of fraction and
exponent bits. -/
structure FloatFormat where
  fraction : Nat
  exponent : Nat

namespace FloatFormat

def single : FloatFormat := ⟨23, 8⟩

def double : FloatFormat := ⟨52, 11⟩

variable (format : FloatFormat)

def magnitude (bits : Nat) : Nat :=
  bits % 2 ^ (format.fraction + format.exponent)

def isNegative (bits : Nat) : Bool :=
  bits / 2 ^ (format.fraction + format.exponent) % 2 = 1

def isNaN (bits : Nat) : Bool :=
  (2 ^ format.exponent - 1) * 2 ^ format.fraction < format.magnitude bits

/-- A number that orders the patterns as the numbers they stand for; both
zeros give zero. -/
def key (bits : Nat) : Int :=
  if format.isNegative bits then -(format.magnitude bits : Int)
  else format.magnitude bits

def equals (left right : Nat) : Bool :=
  !format.isNaN left && !format.isNaN right && format.key left = format.key right

def less (left right : Nat) : Bool :=
  !format.isNaN left && !format.isNaN right && format.key left < format.key right

end FloatFormat

def ascii (text : String) : List UInt8 :=
  text.toList.map fun letter => UInt8.ofNat letter.toNat

/-- `std::to_string(double)`, which prints six digits after the point. -/
def formatDouble (bits : Nat) : List UInt8 :=
  let format := FloatFormat.double
  let sign := if format.isNegative bits then ascii "-" else []
  let exponent := format.magnitude bits / 2 ^ format.fraction
  let fraction := format.magnitude bits % 2 ^ format.fraction
  if exponent = 2047 then
    sign ++ if fraction = 0 then ascii "inf" else ascii "nan"
  else
    let significand :=
      if exponent = 0 then fraction else 2 ^ format.fraction + fraction
    let scaled := significand * 10 ^ 6 * 2 ^ max exponent 1
    let unit := 2 ^ 1075
    let quotient := scaled / unit
    let twice := scaled % unit * 2
    let rounded :=
      if unit < twice ∨ twice = unit ∧ quotient % 2 = 1 then quotient + 1
      else quotient
    let digits := String.ofList (Nat.toDigits 10 rounded)
    let padded := String.ofList (List.replicate (7 - digits.length) '0') ++ digits
    let whole := padded.toList.take (padded.length - 6)
    let decimals := padded.toList.drop (padded.length - 6)
    sign ++ ascii (String.ofList whole) ++ ascii "." ++ ascii (String.ofList decimals)

/-- The members of an object are in the order of their keys, as in a
`std::map`. -/
inductive JsonNode
  | null
  | boolean (value : Bool)
  | number (bits : UInt64)
  | string (value : List UInt8)
  | array (elements : List JsonNode)
  | object (members : List (List UInt8 × JsonNode))

namespace JsonNode

mutual

def toText : JsonNode → List UInt8
  | .null => ascii "null"
  | .boolean value => if value then ascii "true" else ascii "false"
  | .number bits => formatDouble bits.toNat
  | .string value => ascii "\"" ++ value ++ ascii "\""
  | .array elements => ascii "[" ++ elementsText elements ++ ascii "]"
  | .object members => ascii "\x7b" ++ membersText members ++ ascii "\x7d"

def elementsText : List JsonNode → List UInt8
  | [] => []
  | element :: rest =>
      toText element ++ (if rest.isEmpty then [] else ascii ",") ++ elementsText rest

def membersText : List (List UInt8 × JsonNode) → List UInt8
  | [] => []
  | (key, value) :: rest =>
      ascii "\"" ++ key ++ ascii "\":" ++ toText value ++
        (if rest.isEmpty then [] else ascii ",") ++ membersText rest

end

/-- `Json::parse`, which does not parse but wraps the text. -/
def parse (text : List UInt8) : JsonNode := .string text

end JsonNode

/-- The types that hold a `std::string`. -/
inductive StringKind
  | char
  | varChar
  | text
  deriving DecidableEq, Repr

namespace StringKind

def type : StringKind → TypeID
  | .char => .char
  | .varChar => .varChar
  | .text => .text

end StringKind

/-- `Value`: a `NULL` of some type, or data of the type that its constructor
gives it.  The entries of a dictionary have different keys. -/
inductive Value
  | null (type : TypeID)
  | boolean (value : Bool)
  | smallInt (value : Int16)
  | integer (value : Int32)
  | bigInt (value : Int64)
  | real (bits : UInt32)
  | double (bits : UInt64)
  | numeric (value : Decimal)
  | string (value : List UInt8) (kind : StringKind)
  | bytea (value : List UInt8)
  | date (days : Int32)
  | time (micros : Int64)
  | timestamp (micros : Int64) (withTz : Bool)
  | interval (value : Interval)
  | uuid (value : UUID)
  | json (root : JsonNode)
  | array (elementType : TypeID) (elements : List Value)
  | dict (entries : List (List UInt8 × Value))
  | enum (id : UInt32) (label : List UInt8)

namespace Value

def type : Value → TypeID
  | .null type => type
  | .boolean _ => .boolean
  | .smallInt _ => .smallInt
  | .integer _ => .integer
  | .bigInt _ => .bigInt
  | .real _ => .real
  | .double _ => .double
  | .numeric _ => .numeric
  | .string _ kind => kind.type
  | .bytea _ => .bytea
  | .date _ => .date
  | .time _ => .time
  | .timestamp _ withTz => if withTz then .timestampTZ else .timestamp
  | .interval _ => .interval
  | .uuid _ => .uuid
  | .json _ => .json
  | .array _ _ => .array
  | .dict _ => .dict
  | .enum _ _ => .enum

def isNull : Value → Bool
  | .null _ => true
  | _ => false

def findEntry (key : List UInt8) : List (List UInt8 × Value) → Option Value
  | [] => none
  | (other, value) :: rest => if other = key then some value else findEntry key rest

mutual

def equals : Value → Value → Bool
  | .null _, right => right.isNull
  | .boolean left, .boolean right => left = right
  | .smallInt left, .smallInt right => left = right
  | .integer left, .integer right => left = right
  | .bigInt left, .bigInt right => left = right
  | .real left, .real right => FloatFormat.single.equals left.toNat right.toNat
  | .double left, .double right => FloatFormat.double.equals left.toNat right.toNat
  | .numeric left, .numeric right => left.equals right
  | .string left leftKind, .string right rightKind => leftKind = rightKind && left = right
  | .bytea left, .bytea right => left = right
  | .date left, .date right => left = right
  | .time left, .time right => left = right
  | .timestamp left leftTz, .timestamp right rightTz => leftTz = rightTz && left = right
  | .interval left, .interval right => left = right
  | .uuid left, .uuid right => left = right
  | .json left, .json right => left.toText = right.toText
  | .array leftType left, .array rightType right =>
      leftType = rightType && equalsElements left right
  | .dict left, .dict right => left.length = right.length && equalsEntries left right
  | .enum leftId left, .enum rightId right => leftId = rightId && left = right
  | _, _ => false

def equalsElements : List Value → List Value → Bool
  | [], [] => true
  | left :: lefts, right :: rights => equals left right && equalsElements lefts rights
  | _, _ => false

def equalsEntries : List (List UInt8 × Value) → List (List UInt8 × Value) → Bool
  | [], _ => true
  | (key, left) :: lefts, rights =>
      (match findEntry key rights with
        | none => false
        | some right => equals left right) &&
        equalsEntries lefts rights

end

/-- `m_data < other.m_data` for values of one type. -/
def dataLess : Value → Value → Bool
  | .boolean left, .boolean right => !left && right
  | .smallInt left, .smallInt right => left < right
  | .integer left, .integer right => left < right
  | .bigInt left, .bigInt right => left < right
  | .real left, .real right => FloatFormat.single.less left.toNat right.toNat
  | .double left, .double right => FloatFormat.double.less left.toNat right.toNat
  | .numeric left, .numeric right => left.less right
  | .string left _, .string right _ => bytesLess left right
  | .bytea left, .bytea right => bytesLess left right
  | .date left, .date right => left < right
  | .time left, .time right => left < right
  | .timestamp left _, .timestamp right _ => left < right
  | .interval left, .interval right => left.less right
  | .uuid left, .uuid right => bytesLess left.data right.data
  | .json left, .json right => bytesLess left.toText right.toText
  | .enum leftId left, .enum rightId right =>
      leftId < rightId || leftId = rightId && bytesLess left right
  | _, _ => false

/-- `Value::operator<`; arrays and dictionaries are not ordered. -/
def less (left right : Value) : Bool :=
  if left.isNull && right.isNull then false
  else if left.isNull then true
  else if right.isNull then false
  else if left.type ≠ right.type then left.type.code < right.type.code
  else if left.type = .array ∨ left.type = .dict then false
  else dataLess left right

end Value

end KlyroDB
