import KlyroDB.Values

/-!
# The byte format of values

`types/type_serializer.cpp`.  Arrays and dictionaries hold the type and the
size of each element before its bytes; lengths are cast to 32 bits.
-/

namespace KlyroDB

open ByteMemory

/-- The exceptions, and a nesting of collections beyond the given bound. -/
inductive TypeError
  | bufferTooSmall
  | notImplemented
  | tooDeep
  deriving DecidableEq, Repr

namespace TypeSerializer

def sizedElement (type : TypeID) (bytes : List UInt8) : List UInt8 :=
  leBytes 2 type.code ++ leBytes 4 bytes.length ++ bytes

mutual

def serialize : Value → Except TypeError (List UInt8)
  | .null _ => .ok []
  | .boolean value => .ok [if value then 1 else 0]
  | .smallInt value => .ok (leBytes 2 value.toUInt16.toNat)
  | .integer value => .ok (leBytes 4 value.toUInt32.toNat)
  | .bigInt value => .ok (leBytes 8 value.toUInt64.toNat)
  | .real bits => .ok (leBytes 4 bits.toNat)
  | .double bits => .ok (leBytes 8 bits.toNat)
  | .numeric value => .ok (leBytes 8 value.coefficient.toUInt64.toNat ++ [value.scale])
  | .string value _ => .ok value
  | .bytea value => .ok value
  | .date days => .ok (leBytes 4 days.toUInt32.toNat)
  | .time micros => .ok (leBytes 8 micros.toUInt64.toNat)
  | .timestamp micros _ => .ok (leBytes 8 micros.toUInt64.toNat)
  | .interval value => .ok (leBytes 4 value.months.toUInt32.toNat ++ leBytes 4
      value.days.toUInt32.toNat ++ leBytes 8 value.micros.toUInt64.toNat)
  | .uuid value => .ok value.data
  | .json root => .ok root.toText
  | .array _ elements =>
      match serializeElements elements with
      | .error failure => .error failure
      | .ok bytes => .ok (leBytes 4 elements.length ++ bytes)
  | .dict entries =>
      match serializeEntries entries with
      | .error failure => .error failure
      | .ok parts =>
          let sorted := parts.mergeSort fun first second =>
            !bytesLess second.1 first.1
          .ok (leBytes 4 entries.length ++ sorted.flatMap Prod.snd)
  | .enum _ _ => .error .notImplemented

def serializeElements : List Value → Except TypeError (List UInt8)
  | [] => .ok []
  | element :: rest =>
      match serialize element, serializeElements rest with
      | .ok bytes, .ok more => .ok (sizedElement element.type bytes ++ more)
      | .error failure, _ => .error failure
      | _, .error failure => .error failure

def serializeEntries : List (List UInt8 × Value) → Except TypeError (List (List UInt8 × List UInt8))
  | [] => .ok []
  | (key, value) :: rest =>
      match serialize value, serializeEntries rest with
      | .ok bytes, .ok more =>
          .ok ((key, leBytes 4 key.length ++ key ++ sizedElement value.type bytes) :: more)
      | .error failure, _ => .error failure
      | _, .error failure => .error failure

end

section Deserialize

variable (read : List UInt8 → TypeID → Except TypeError Value) (bytes : List UInt8)

def readElement (offset : Nat) : Except TypeError (Value × Nat) :=
  if bytes.length < offset + 2 then .error .bufferTooSmall
  else if bytes.length < offset + 6 then .error .bufferTooSmall
  else
    let size := readNat bytes (offset + 2) 4
    if bytes.length < offset + 6 + size then .error .bufferTooSmall
    else
      match TypeID.ofCode (readNat bytes offset 2) with
      | none => .error .notImplemented
      | some type =>
          match read (slice bytes (offset + 6) size) type with
          | .error failure => .error failure
          | .ok value => .ok (value, offset + 6 + size)

def readElements : Nat → Nat → Except TypeError (List Value)
  | 0, _ => .ok []
  | count + 1, offset =>
      match readElement read bytes offset with
      | .error failure => .error failure
      | .ok (value, next) =>
          match readElements count next with
          | .error failure => .error failure
          | .ok rest => .ok (value :: rest)

def setEntry (key : List UInt8) (value : Value) :
    List (List UInt8 × Value) → List (List UInt8 × Value)
  | [] => [(key, value)]
  | (other, old) :: rest =>
      if other = key then (key, value) :: rest
      else (other, old) :: setEntry key value rest

def readEntries : Nat → Nat → List (List UInt8 × Value) →
    Except TypeError (List (List UInt8 × Value))
  | 0, _, entries => .ok entries
  | count + 1, offset, entries =>
      if bytes.length < offset + 4 then .error .bufferTooSmall
      else
        let size := readNat bytes offset 4
        if bytes.length < offset + 4 + size then .error .bufferTooSmall
        else
          match readElement read bytes (offset + 4 + size) with
          | .error failure => .error failure
          | .ok (value, next) =>
              readEntries count next (setEntry (slice bytes (offset + 4) size) value entries)

end Deserialize

def neededSize : TypeID → Nat
  | .boolean => 1
  | .smallInt => 2
  | .integer | .real | .date | .array | .dict => 4
  | .bigInt | .double | .time | .timestamp | .timestampTZ => 8
  | .numeric => 9
  | .interval | .uuid => 16
  | _ => 0

/-- `deserialize` with a bound on the nesting of collections. -/
def deserializeWithin : Nat → List UInt8 → TypeID → Except TypeError Value
  | 0, _, _ => .error .tooDeep
  | depth + 1, bytes, type =>
      if bytes.length < neededSize type then .error .bufferTooSmall
      else
        match type with
        | .boolean => .ok (.boolean (readNat bytes 0 1 ≠ 0))
        | .smallInt =>
            .ok (.smallInt (UInt16.ofNat (readNat bytes 0 2)).toInt16)
        | .integer =>
            .ok (.integer (UInt32.ofNat (readNat bytes 0 4)).toInt32)
        | .bigInt => .ok (.bigInt (UInt64.ofNat (readNat bytes 0 8)).toInt64)
        | .real => .ok (.real (UInt32.ofNat (readNat bytes 0 4)))
        | .double => .ok (.double (UInt64.ofNat (readNat bytes 0 8)))
        | .numeric =>
            .ok (.numeric
              ⟨(UInt64.ofNat (readNat bytes 0 8)).toInt64, UInt8.ofNat (readNat bytes 8 1)⟩)
        | .char => .ok (.string bytes .char)
        | .varChar => .ok (.string bytes .varChar)
        | .text => .ok (.string bytes .text)
        | .bytea => .ok (.bytea bytes)
        | .date => .ok (.date (UInt32.ofNat (readNat bytes 0 4)).toInt32)
        | .time => .ok (.time (UInt64.ofNat (readNat bytes 0 8)).toInt64)
        | .timestamp | .timestampTZ =>
            .ok (.timestamp (UInt64.ofNat (readNat bytes 0 8)).toInt64 false)
        | .interval =>
            .ok (.interval
              ⟨(UInt32.ofNat (readNat bytes 0 4)).toInt32,
                (UInt32.ofNat (readNat bytes 4 4)).toInt32,
                (UInt64.ofNat (readNat bytes 8 8)).toInt64⟩)
        | .uuid =>
            if inside : 0 + 16 ≤ bytes.length then
              .ok (.uuid ⟨slice bytes 0 16, length_slice inside⟩)
            else .error .bufferTooSmall
        | .json => .ok (.json (JsonNode.parse bytes))
        | .array =>
            match readElements (deserializeWithin depth) bytes (readNat bytes 0 4) 4 with
            | .error failure => .error failure
            | .ok elements => .ok (.array .invalid elements)
        | .dict =>
            match readEntries (deserializeWithin depth) bytes (readNat bytes 0 4) 4 [] with
            | .error failure => .error failure
            | .ok entries => .ok (.dict entries)
        | .null | .enum | .invalid => .error .notImplemented

/-- Each level of nesting takes at least one byte. -/
def deserialize (bytes : List UInt8) (type : TypeID) : Except TypeError Value :=
  deserializeWithin (bytes.length + 1) bytes type

end TypeSerializer

end KlyroDB
