import KlyroDB.TransactionManager
import KlyroDB.TypeSerializer

/-!
# The byte format of records

`storage/tuple_layout.cpp`, `storage/record_serializer.cpp`,
`storage/record_view.cpp` and `storage/record_deserializer.cpp`: header, bitmap
of `NULL`s, fixed-length fields, offsets of the variable-length fields that are
not `NULL`, and their data.
-/

namespace KlyroDB

open ByteMemory

structure Column where
  type : TypeID
  offset : Nat
  fixedLength : Nat
  deriving DecidableEq, Repr

structure TupleLayout where
  columns : List Column := []
  fixedSize : Nat := 0
  variableCount : Nat := 0
  deriving DecidableEq, Repr

namespace TupleLayout

def addColumn (layout : TupleLayout) (type : TypeID) : TupleLayout :=
  if type.info.isVariableLength then
    { layout with
      columns := layout.columns ++ [⟨type, 0, 0⟩]
      variableCount := (layout.variableCount + 1) % 2 ^ 32 }
  else
    { layout with
      columns := layout.columns ++ [⟨type, layout.fixedSize, type.info.fixedSize⟩]
      fixedSize := (layout.fixedSize + type.info.fixedSize) % 2 ^ 32 }

/-- The layout that `add_column` builds from a list of types. -/
def ofTypes (types : List TypeID) : TupleLayout :=
  types.foldl addColumn {}

end TupleLayout

structure Record where
  fields : List Value

namespace Record

def equals (left right : Record) : Bool :=
  Value.equalsElements left.fields right.fields

end Record

structure RecordHeader where
  size : Nat := 0
  flags : Nat := 0
  mvcc : MVCCHeader := {}
  deriving DecidableEq, Repr

namespace RecordHeader

def byteSize : Nat := 40

def flagHasNulls : Nat := 2

def flagHasVarlen : Nat := 4

def toBytes (header : RecordHeader) : List UInt8 :=
  leBytes 4 header.size ++ leBytes 2 header.flags ++ leBytes 2 0 ++ leBytes 8 header.mvcc.xmin ++
    leBytes 8 header.mvcc.xmax ++ leBytes 8 header.mvcc.prevVersion.pageId ++ leBytes 4
    header.mvcc.prevVersion.slotId ++ leBytes 4 0

/-- The MVCC part of the header at the beginning of a record. -/
def readMvcc (bytes : List UInt8) : MVCCHeader where
  xmin := readNat bytes 8 8
  xmax := readNat bytes 16 8
  prevVersion := ⟨readNat bytes 24 8, readNat bytes 32 4⟩

def writeXmin (bytes : List UInt8) (id : Nat) : List UInt8 :=
  writeNat bytes 8 8 id

def writeXmax (bytes : List UInt8) (id : Nat) : List UInt8 :=
  writeNat bytes 16 8 id

def writePrevVersion (bytes : List UInt8) (id : RecordID) : List UInt8 :=
  writeNat (writeNat bytes 24 8 id.pageId) 32 4 id.slotId

end RecordHeader

/-- The exceptions of serializer and reader.  A read outside the record has no
defined result; it is kept apart here. -/
inductive RecordError
  | fieldCountMismatch
  | fixedLengthMismatch
  | spanTooSmall
  | outOfBounds
  | value (failure : TypeError)
  deriving DecidableEq, Repr

namespace RecordSerializer

def nullBitmap (fields : List Value) : List UInt8 :=
  (List.range fields.length).foldl
    (fun bitmap index =>
      if (fields[index]?.map Value.isNull).getD false then
        bitmap.modify (index / 8) (· ||| (1 <<< UInt8.ofNat (index % 8)))
      else bitmap)
    (List.replicate ((fields.length + 7) / 8) 0)

def fixedArea : List (Column × Value) → List UInt8 → Except RecordError (List UInt8)
  | [], area => .ok area
  | (column, value) :: rest, area =>
      if 0 < column.fixedLength && !value.isNull then
        match TypeSerializer.serialize value with
        | .error failure => .error (.value failure)
        | .ok bytes =>
            if bytes.length ≠ column.fixedLength then
              .error .fixedLengthMismatch
            else fixedArea rest (poke area column.offset bytes)
      else fixedArea rest area

/-- The bytes of the variable-length fields that are not `NULL`. -/
def variableParts : List (Column × Value) → Except RecordError (List (List UInt8))
  | [] => .ok []
  | (column, value) :: rest =>
      if column.fixedLength = 0 && !value.isNull then
        match TypeSerializer.serialize value, variableParts rest with
        | .error failure, _ => .error (.value failure)
        | .ok _, .error failure => .error failure
        | .ok bytes, .ok parts => .ok (bytes :: parts)
      else variableParts rest

/-- The positions of the offsets are products with 4 in 32 bits, which would
wrap around from 2^30 offsets on. -/
def offsetArray : Nat → List (List UInt8) → List UInt8
  | _, [] => []
  | offset, part :: parts => leBytes 4 offset ++ offsetArray ((offset + part.length) % 2 ^ 32) parts

def flags (hasNulls hasVarlen : Bool) : Nat :=
  (if hasNulls then RecordHeader.flagHasNulls else 0) +
    if hasVarlen then RecordHeader.flagHasVarlen else 0

def serialize (record : Record) (layout : TupleLayout) : Except RecordError (List UInt8) :=
  if record.fields.length ≠ layout.columns.length then
    .error .fieldCountMismatch
  else
    let hasNulls := record.fields.any Value.isNull
    let hasVarlen : Bool := 0 < layout.variableCount
    let bitmap := if hasNulls then nullBitmap record.fields else []
    let cells := layout.columns.zip record.fields
    match fixedArea cells (List.replicate layout.fixedSize 0) with
    | .error failure => .error failure
    | .ok fixed =>
        match (if hasVarlen then variableParts cells else .ok []) with
        | .error failure => .error failure
        | .ok parts =>
            let body := bitmap ++ fixed ++ offsetArray 0 parts ++ parts.flatten
            let header : RecordHeader :=
              { size := RecordHeader.byteSize + body.length
                flags := flags hasNulls hasVarlen }
            .ok (header.toBytes ++ body)

end RecordSerializer

structure RecordView where
  bytes : List UInt8
  layout : TupleLayout
  hasNulls : Bool
  fixedDataOffset : Nat
  varOffsetArray : Nat
  varDataOffset : Nat

namespace RecordView

def make (bytes : List UInt8) (layout : TupleLayout) : Except RecordError RecordView :=
  if bytes.length < RecordHeader.byteSize then .error .spanTooSmall
  else
    let flags := readNat bytes 4 2
    let hasNulls := flags.testBit 1
    let hasVarlen := flags.testBit 2
    let bitmapBytes := if hasNulls then (layout.columns.length + 7) / 8 else 0
    let fixedDataOffset := RecordHeader.byteSize + bitmapBytes
    let varOffsetArray := fixedDataOffset + layout.fixedSize
    let varDataOffset :=
      if hasVarlen then varOffsetArray + layout.variableCount * 4
      else varOffsetArray
    .ok ⟨bytes, layout, hasNulls, fixedDataOffset, varOffsetArray, varDataOffset⟩

section Fields

variable (view : RecordView)

def readBytes (offset length : Nat) : Except RecordError (List UInt8) :=
  if view.bytes.length < offset + length then .error .outOfBounds
  else .ok (slice view.bytes offset length)

def isNull (index : Nat) : Except RecordError Bool :=
  if !view.hasNulls then .ok false
  else
    match view.readBytes (RecordHeader.byteSize + index / 8) 1 with
    | .error failure => .error failure
    | .ok byte => .ok ((leNat byte).testBit (index % 8))

def varIndex : List (Column × Nat) → Except RecordError Nat
  | [] => .ok 0
  | (column, index) :: rest =>
      if column.fixedLength = 0 then
        match view.isNull index, varIndex rest with
        | .error failure, _ => .error failure
        | .ok _, .error failure => .error failure
        | .ok null, .ok count => .ok (if null then count else count + 1)
      else varIndex rest

def readOffset (index : Nat) : Except RecordError Nat :=
  match view.readBytes (view.varOffsetArray + index * 4) 4 with
  | .error failure => .error failure
  | .ok bytes => .ok (leNat bytes)

/-- The loop that looks for the offset of the next variable-length field.  It
steps over a `NULL` one as if that had an offset. -/
def nextOffset : Nat → List (Column × Nat) → Except RecordError Nat
  | _, [] => .ok ((view.bytes.length + 2 ^ 64 - view.varDataOffset) % 2 ^ 32)
  | next, (column, index) :: rest =>
      if column.fixedLength = 0 then
        match view.isNull index with
        | .error failure => .error failure
        | .ok false => view.readOffset next
        | .ok true => nextOffset (next + 1) rest
      else nextOffset next rest

def fieldBytes (column : Column) (index : Nat) : Except RecordError (List UInt8) :=
  if 0 < column.fixedLength then
    view.readBytes (view.fixedDataOffset + column.offset) column.fixedLength
  else
    let columns := view.layout.columns.zipIdx
    match view.varIndex (columns.take index) with
    | .error failure => .error failure
    | .ok varIndex =>
        match view.readOffset varIndex,
          view.nextOffset (varIndex + 1) (columns.drop (index + 1)) with
        | .error failure, _ => .error failure
        | .ok _, .error failure => .error failure
        | .ok current, .ok next =>
            let length := (next + 2 ^ 32 - current) % 2 ^ 32
            view.readBytes (view.varDataOffset + current) length

def field (column : Column) (index : Nat) : Except RecordError Value :=
  match view.isNull index with
  | .error failure => .error failure
  | .ok true => .ok (.null column.type)
  | .ok false =>
      match view.fieldBytes column index with
      | .error failure => .error failure
      | .ok bytes =>
          match TypeSerializer.deserialize bytes column.type with
          | .error failure => .error (.value failure)
          | .ok value => .ok value

def fields : List (Column × Nat) → Except RecordError (List Value)
  | [] => .ok []
  | (column, index) :: rest =>
      match view.field column index, fields rest with
      | .error failure, _ => .error failure
      | .ok _, .error failure => .error failure
      | .ok value, .ok values => .ok (value :: values)

end Fields

end RecordView

namespace RecordDeserializer

def deserialize (bytes : List UInt8) (layout : TupleLayout) : Except RecordError Record :=
  match RecordView.make bytes layout with
  | .error failure => .error failure
  | .ok view =>
      match view.fields layout.columns.zipIdx with
      | .error failure => .error failure
      | .ok fields => .ok ⟨fields⟩

end RecordDeserializer

end KlyroDB
