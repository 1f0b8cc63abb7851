import KlyroDB.TypeSerializer

/-!
# Index keys

`index/index_key.cpp`, `index/index_comparator.cpp`, and the comparison of
serialized keys in the nodes of the tree.  A component is stored behind its
length; the largest length stands for `NULL`.
-/

namespace KlyroDB

open ByteMemory

inductive KeyError
  | spanTooSmall
  | typeCountMismatch
  | bounds
  | payloadBounds
  | value (failure : TypeError)
  deriving DecidableEq, Repr

structure IndexKey where
  values : List Value

namespace IndexKey

def nullLength : Nat := 2 ^ 32 - 1

def serializeComponent (value : Value) : Except KeyError (List UInt8) :=
  if value.isNull then .ok (leBytes 4 nullLength)
  else
    match TypeSerializer.serialize value with
    | .error failure => .error (.value failure)
    | .ok bytes => .ok (leBytes 4 bytes.length ++ bytes)

def serializeComponents : List Value → Except KeyError (List UInt8)
  | [] => .ok []
  | value :: rest =>
      match serializeComponent value with
      | .error failure => .error failure
      | .ok bytes =>
          match serializeComponents rest with
          | .error failure => .error failure
          | .ok more => .ok (bytes ++ more)

def serialize (key : IndexKey) : Except KeyError (List UInt8) :=
  match serializeComponents key.values with
  | .error failure => .error failure
  | .ok bytes => .ok (leBytes 4 key.values.length ++ bytes)

def readComponents (bytes : List UInt8) : List TypeID → Nat → Except KeyError (List Value)
  | [], _ => .ok []
  | type :: types, offset =>
      if bytes.length < offset + 4 then .error .bounds
      else
        let length := readNat bytes offset 4
        if length = nullLength then
          match readComponents bytes types (offset + 4) with
          | .error failure => .error failure
          | .ok rest => .ok (.null type :: rest)
        else if bytes.length < offset + 4 + length then .error .payloadBounds
        else
          match TypeSerializer.deserialize (slice bytes (offset + 4) length) type with
          | .error failure => .error (.value failure)
          | .ok value =>
              match readComponents bytes types (offset + 4 + length) with
              | .error failure => .error failure
              | .ok rest => .ok (value :: rest)

def deserialize (bytes : List UInt8) (types : List TypeID) : Except KeyError IndexKey :=
  if bytes.length < 4 then .error .spanTooSmall
  else
    let count := readNat bytes 0 4
    if types.length < count then .error .typeCountMismatch
    else
      match readComponents bytes (types.take count) 4 with
      | .error failure => .error failure
      | .ok values => .ok ⟨values⟩

end IndexKey

/-- `IndexComparator::compare` on the components: `NULL` comes first, and a
key that is the beginning of another one comes before it. -/
def compareComponents : List Value → List Value → Int
  | [], [] => 0
  | [], _ :: _ => -1
  | _ :: _, [] => 1
  | left :: lefts, right :: rights =>
      if left.isNull && !right.isNull then -1
      else if !left.isNull && right.isNull then 1
      else if left.isNull && right.isNull then compareComponents lefts rights
      else if left.less right then -1
      else if right.less left then 1
      else compareComponents lefts rights

namespace IndexComparator

def compare (left right : IndexKey) : Int :=
  compareComponents left.values right.values

end IndexComparator

/-- The comparison of bytes in `find_lower_bound`, `find_child` and the
insertion into an internal node. -/
def compareBytes : List UInt8 → List UInt8 → Int
  | [], [] => 0
  | [], _ :: _ => -1
  | _ :: _, [] => 1
  | left :: lefts, right :: rights =>
      if left < right then -1
      else if right < left then 1
      else compareBytes lefts rights

end KlyroDB
