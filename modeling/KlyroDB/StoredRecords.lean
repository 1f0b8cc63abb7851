import KlyroDB.RecordFormat
import KlyroDB.SerializedValues

/-!
# The bytes of stored records

What the serializer writes for a record whose fields can be written, and what
the reader computes from it before it reads a field.
-/

namespace KlyroDB

open RecordHeader (byteSize toBytes)
open ByteMemory TypeSerializer

namespace TypeID

def isPlaceholder (type : TypeID) : Bool :=
  type.info.fixedSize = 0 && !type.info.isVariableLength

theorem fixedSize_of_variable {type : TypeID} (varying : type.info.isVariableLength = true) :
    type.info.fixedSize = 0 := by
  cases type <;> first | rfl | cases varying

theorem neededSize_of_fixed {type : TypeID} (fixed : 0 < type.info.fixedSize)
    (stored : type ≠ .enum) : type.isScalar = true ∧ neededSize type = type.info.fixedSize := by
  cases type with
  | enum => exact absurd rfl stored
  | null | invalid | numeric | char | varChar | text | bytea | json | dict
  | array => cases fixed
  | _ => exact ⟨rfl, rfl⟩

end TypeID

namespace TupleLayout

def columnAt (start : Nat) (type : TypeID) : Column :=
  ⟨type, if type.info.isVariableLength then 0 else start, type.info.fixedSize⟩

def columnsFrom : Nat → List TypeID → List Column
  | _, [] => []
  | start, type :: rest => columnAt start type :: columnsFrom (start + type.info.fixedSize) rest

def fixedTotal (types : List TypeID) : Nat :=
  (types.map fun type => type.info.fixedSize).sum

def variableTotal (types : List TypeID) : Nat :=
  types.countP fun type => type.info.isVariableLength

theorem foldl_addColumn (layout : TupleLayout) (types : List TypeID)
    (fixed : layout.fixedSize + fixedTotal types < 2 ^ 32)
    (varying : layout.variableCount + variableTotal types < 2 ^ 32) :
    types.foldl addColumn layout =
      { columns := layout.columns ++ columnsFrom layout.fixedSize types
        fixedSize := layout.fixedSize + fixedTotal types
        variableCount := layout.variableCount + variableTotal types } := by
  induction types generalizing layout with
  | nil => simp [columnsFrom, fixedTotal, variableTotal]
  | cons type rest ih =>
    simp only [fixedTotal, List.map_cons, List.sum_cons] at fixed
    simp only [variableTotal, List.countP_cons] at varying
    rw [List.foldl_cons]
    by_cases isVariable : type.info.isVariableLength = true
    · have noSize := TypeID.fixedSize_of_variable isVariable
      rw [if_pos isVariable] at varying
      have count : (layout.variableCount + 1) % 2 ^ 32 =
          layout.variableCount + 1 := Nat.mod_eq_of_lt (by omega)
      rw [addColumn, if_pos isVariable, count, ih]
      · simp [columnsFrom, columnAt, isVariable, noSize, fixedTotal, variableTotal]
        omega
      · simpa [fixedTotal, noSize] using fixed
      · simp only [variableTotal]
        omega
    rw [if_neg isVariable] at varying
    have size : (layout.fixedSize + type.info.fixedSize) % 2 ^ 32 = layout.fixedSize +
        type.info.fixedSize := Nat.mod_eq_of_lt (by omega)
    rw [addColumn, if_neg isVariable, size, ih]
    · simp [columnsFrom, columnAt, isVariable, fixedTotal, variableTotal]
      omega
    · simp only [fixedTotal]
      omega
    · simpa [variableTotal] using varying

theorem ofTypes_eq {types : List TypeID} (fixed : fixedTotal types < 2 ^ 32)
    (varying : variableTotal types < 2 ^ 32) :
    ofTypes types = ⟨columnsFrom 0 types, fixedTotal types, variableTotal types⟩ := by
  rw [ofTypes, foldl_addColumn _ _ (by simpa using fixed) (by simpa using varying)]
  simp

theorem length_columnsFrom (start : Nat) (types : List TypeID) :
    (columnsFrom start types).length = types.length := by
  induction types generalizing start with
  | nil => rfl
  | cons type rest ih => simp [columnsFrom, ih]

theorem columnsFrom_append (start : Nat) (first second : List TypeID) :
    columnsFrom start (first ++ second) = columnsFrom start first ++
        columnsFrom (start + fixedTotal first) second := by
  induction first generalizing start with
  | nil => simp [columnsFrom, fixedTotal]
  | cons type rest ih => simp [columnsFrom, ih, fixedTotal, Nat.add_assoc]

end TupleLayout

open TupleLayout (columnAt columnsFrom fixedTotal length_columnsFrom ofTypes ofTypes_eq
  variableTotal)

namespace RecordSerializer

abbrev Cell := TypeID × Value

/-- The field is `NULL`, or a value of the type of its column that is read back
from its bytes. -/
def Storable (cell : Cell) : Prop :=
  cell.2.isNull = true ∨ cell.2.type = cell.1 ∧ RoundTrips cell.2

def bytesOf (value : Value) : List UInt8 :=
  (TypeSerializer.serialize value).toOption.getD []

def inFixed (cell : Cell) : Bool :=
  0 < cell.1.info.fixedSize && !cell.2.isNull

def inVariable (cell : Cell) : Bool :=
  cell.1.info.fixedSize = 0 && !cell.2.isNull

theorem Storable.present {cell : Cell} (storable : Storable cell)
    (present : cell.2.isNull = false) :
    cell.2.type = cell.1 ∧ TypeSerializer.serialize cell.2 = .ok (bytesOf cell.2) ∧
      ∃ read, deserialize (bytesOf cell.2) cell.1 = .ok read ∧ cell.2.equals read = true := by
  rcases storable with null | ⟨type, bytes, read, written, success, equal⟩
  · rw [present] at null
    contradiction
  have same : bytesOf cell.2 = bytes := by
    rw [bytesOf, written]
    rfl
  rw [same, ← type]
  exact ⟨rfl, written, read, success, equal⟩

theorem not_placeholder {value : Value} (present : value.isNull = false) :
    value.type ≠ .null ∧ value.type ≠ .invalid := by
  cases value with
  | null type => cases present
  | string text kind => cases kind <;> exact ⟨nofun, nofun⟩
  | timestamp micros withTz => cases withTz <;> exact ⟨nofun, nofun⟩
  | _ => exact ⟨nofun, nofun⟩

theorem not_enum {value : Value} {bytes : List UInt8}
    (written : TypeSerializer.serialize value = .ok bytes)
    (present : value.isNull = false) : value.type ≠ .enum := by
  cases value with
  | null type => cases present
  | string text kind => cases kind <;> nofun
  | timestamp micros withTz => cases withTz <;> nofun
  | enum id label => cases written
  | _ => nofun

theorem Storable.length_of_inFixed {cell : Cell} (storable : Storable cell)
    (fixed : inFixed cell = true) : (bytesOf cell.2).length = cell.1.info.fixedSize := by
  obtain ⟨positive, present⟩ := Bool.and_eq_true_iff.mp fixed
  rw [Bool.not_eq_true'] at present
  obtain ⟨type, written, _⟩ := storable.present present
  obtain ⟨scalar, needed⟩ := TypeID.neededSize_of_fixed
    (of_decide_eq_true positive) (type ▸ not_enum written present)
  rw [← needed, ← type]
  exact length_serialize_scalar (type ▸ scalar) present written

/-- Only columns of variable length have data behind the offset array. -/
theorem Storable.isVariableLength {cell : Cell} (storable : Storable cell)
    (varying : inVariable cell = true) : cell.1.info.isVariableLength = true := by
  obtain ⟨noSize, present⟩ := Bool.and_eq_true_iff.mp varying
  rw [Bool.not_eq_true'] at present
  obtain ⟨type, _⟩ := storable.present present
  obtain ⟨notNull, notInvalid⟩ := not_placeholder present
  rw [type] at notNull notInvalid
  generalize cell.1 = columnType at noSize notNull notInvalid ⊢
  cases columnType with
  | null => exact absurd rfl notNull
  | invalid => exact absurd rfl notInvalid
  | numeric | char | varChar | text | bytea | json | dict | array => rfl
  | _ => cases noSize

def types (cells : List Cell) : List TypeID := cells.map Prod.fst

def values (cells : List Cell) : List Value := cells.map Prod.snd

def fixedPart (cell : Cell) : List UInt8 :=
  if inFixed cell then bytesOf cell.2
  else List.replicate cell.1.info.fixedSize 0

def fixedBytes (cells : List Cell) : List UInt8 := cells.flatMap fixedPart

def parts (cells : List Cell) : List (List UInt8) :=
  (cells.filter inVariable).map fun cell => bytesOf cell.2

theorem Storable.length_fixedPart {cell : Cell} (storable : Storable cell) :
    (fixedPart cell).length = cell.1.info.fixedSize := by
  rw [fixedPart]
  split_ifs with fixed
  · exact storable.length_of_inFixed fixed
  · exact List.length_replicate

theorem length_fixedBytes {cells : List Cell} (storable : ∀ cell ∈ cells, Storable cell) :
    (fixedBytes cells).length = fixedTotal (types cells) := by
  induction cells with
  | nil => rfl
  | cons cell rest ih =>
    have length := (storable cell (by simp)).length_fixedPart
    have tail := ih fun other mem => storable other (by simp [mem])
    simp only [fixedBytes, List.flatMap_cons, List.length_append, length]
    simp only [fixedBytes] at tail
    rw [tail]
    simp [types, fixedTotal]

section Writing

variable {cells : List Cell}

section

variable (storable : ∀ cell ∈ cells, Storable cell)

include storable

theorem fixedArea_eq (first : List UInt8) :
    fixedArea ((columnsFrom first.length (types cells)).zip (values cells))
      (first ++ List.replicate (fixedTotal (types cells)) 0) = .ok (first ++ fixedBytes cells) := by
  induction cells generalizing first with
  | nil => simp [types, values, columnsFrom, fixedArea, fixedTotal, fixedBytes]
  | cons cell rest ih =>
    have here := storable cell (by simp)
    have length := here.length_fixedPart
    have tail := ih (fun other mem => storable other (by simp [mem])) (first ++ fixedPart cell)
    rw [List.length_append, length] at tail
    have area : List.replicate (fixedTotal (types (cell :: rest))) (0 : UInt8) =
        List.replicate cell.1.info.fixedSize 0 ++ List.replicate
        (fixedTotal (types rest)) 0 := by simp [types, fixedTotal]
    have whole : first ++ fixedBytes (cell :: rest) =
        (first ++ fixedPart cell) ++ fixedBytes rest := by simp [fixedBytes]
    rw [area, whole, ← tail, List.append_assoc]
    change (if inFixed cell then _ else _) = _
    by_cases fixed : inFixed cell = true
    · obtain ⟨positive, present⟩ := Bool.and_eq_true_iff.mp fixed
      rw [Bool.not_eq_true'] at present
      have notVariable : ¬ cell.1.info.isVariableLength = true := by
        intro varying
        rw [TypeID.fixedSize_of_variable varying] at positive
        cases positive
      have offset : (columnAt first.length cell.1).offset =
          first.length := if_neg notVariable
      have same : (bytesOf cell.2).length = (columnAt first.length cell.1).fixedLength
          := here.length_of_inFixed fixed
      rw [if_pos fixed, (here.present present).2.1, fixedPart, if_pos fixed]
      dsimp only
      rw [if_neg (not_not_intro same), offset,
        poke_append_middle (by rw [same, List.length_replicate]; rfl)]
      rfl
    · rw [if_neg fixed, fixedPart, if_neg fixed]
      rfl

theorem variableParts_eq (start : Nat) :
    variableParts ((columnsFrom start (types cells)).zip (values cells)) = .ok (parts cells) := by
  induction cells generalizing start with
  | nil => rfl
  | cons cell rest ih =>
    have tail := ih (fun other mem => storable other (by simp [mem]))
      (start + cell.1.info.fixedSize)
    rw [types, values, List.map_cons, List.map_cons, columnsFrom, List.zip_cons_cons,
      variableParts, ← types, ← values, tail]
    change (if inVariable cell then _ else _) = _
    by_cases varying : inVariable cell = true
    · obtain ⟨_, present⟩ := Bool.and_eq_true_iff.mp varying
      rw [Bool.not_eq_true'] at present
      rw [if_pos varying, ((storable cell (by simp)).present present).2.1]
      simp [parts, varying]
    · rw [if_neg varying]
      simp [parts, varying]

theorem parts_eq_nil (none : variableTotal (types cells) = 0) : parts cells = [] := by
  rw [parts, List.map_eq_nil_iff, List.filter_eq_nil_iff]
  intro cell mem varying
  have isVariable := (storable cell mem).isVariableLength varying
  rw [variableTotal, List.countP_eq_zero] at none
  exact none cell.1 (List.mem_map_of_mem mem) isVariable

end

end Writing

/-- The sizes that the format holds in 32 bits, that of the offset array among
them. -/
structure Fits (cells : List Cell) : Prop where
  fixed : fixedTotal (types cells) < 2 ^ 32
  varying : 4 * variableTotal (types cells) < 2 ^ 32
  data : (parts cells).flatten.length < 2 ^ 32

def hasNulls (cells : List Cell) : Bool := (values cells).any Value.isNull

def hasVarlen (cells : List Cell) : Bool :=
  0 < variableTotal (types cells)

def bitmap (cells : List Cell) : List UInt8 :=
  if hasNulls cells then nullBitmap (values cells) else []

def body (cells : List Cell) : List UInt8 :=
  bitmap cells ++ fixedBytes cells ++ offsetArray 0 (parts cells) ++ (parts cells).flatten

def header (cells : List Cell) : RecordHeader where
  size := byteSize + (body cells).length
  flags := flags (hasNulls cells) (hasVarlen cells)

def stored (cells : List Cell) : List UInt8 :=
  (header cells).toBytes ++ body cells

def layout (cells : List Cell) : TupleLayout :=
  ⟨columnsFrom 0 (types cells), fixedTotal (types cells), variableTotal (types cells)⟩

section Stored

variable {cells : List Cell}

theorem Fits.layout_eq (fits : Fits cells) : ofTypes (types cells) = layout cells :=
  ofTypes_eq fits.fixed (by have few := fits.varying; omega)

theorem serialize_eq (storable : ∀ cell ∈ cells, Storable cell) :
    serialize ⟨values cells⟩ (layout cells) = .ok (stored cells) := by
  have sameLength : (values cells).length = (layout cells).columns.length := by
    rw [layout, length_columnsFrom, values, types, List.length_map, List.length_map]
  have fixed : fixedArea ((layout cells).columns.zip (values cells))
      (List.replicate (layout cells).fixedSize 0) = .ok (fixedBytes cells) :=
    fixedArea_eq storable []
  have varying : (if decide (0 < (layout cells).variableCount) = true then variableParts
      ((layout cells).columns.zip (values cells)) else .ok []) = .ok (parts cells) := by
    split_ifs with some
    · exact variableParts_eq storable 0
    · rw [parts_eq_nil storable]
      rw [decide_eq_true_eq] at some
      exact Nat.eq_zero_of_not_pos some
  rw [serialize, if_neg (not_not_intro sameLength)]
  dsimp only
  rw [fixed]
  rw [varying]
  rfl

theorem length_toBytes (header : RecordHeader) : header.toBytes.length = byteSize := by
  simp [toBytes, byteSize]

theorem length_stored : (stored cells).length = byteSize + (body cells).length := by
  rw [stored, List.length_append, length_toBytes]

theorem flags_lt (nulls varlen : Bool) : flags nulls varlen < 256 ^ 2 := by
  cases nulls <;> cases varlen <;> decide

theorem readNat_flags : readNat (stored cells) 4 2 = flags (hasNulls cells) (hasVarlen cells) := by
  simp only [stored, toBytes, List.append_assoc, readNat_append_of_le, length_leBytes, le_refl,
    Nat.sub_self, readNat_leBytes, header, Nat.mod_eq_of_lt (flags_lt _ _)]

end Stored

section NullBits

theorem toNat_bit : ∀ bit < 8, ((1 : UInt8) <<< UInt8.ofNat bit).toNat = 2 ^ bit := by
  decide

theorem testBit_setBit (byte : UInt8) {bit : Nat} (small : bit < 8) (other : Nat) :
    (byte ||| ((1 : UInt8) <<< UInt8.ofNat bit)).toNat.testBit other =
      (byte.toNat.testBit other || decide (bit = other)) := by
  rw [UInt8.toNat_or, Nat.testBit_or, toNat_bit bit small, Nat.testBit_two_pow]

def nullAt (fields : List Value) (index : Nat) : Bool :=
  (fields[index]?.map Value.isNull).getD false

def bitmapAfter (fields : List Value) (rounds : Nat) : List UInt8 :=
  (List.range rounds).foldl
    (fun bitmap index =>
      if nullAt fields index then
        bitmap.modify (index / 8) (· ||| (1 <<< UInt8.ofNat (index % 8)))
      else bitmap)
    (List.replicate ((fields.length + 7) / 8) 0)

theorem bitmapAfter_succ (fields : List Value) (rounds : Nat) :
    bitmapAfter fields (rounds + 1) =
      if nullAt fields rounds then
        (bitmapAfter fields rounds).modify (rounds / 8) (· ||| (1 <<< UInt8.ofNat (rounds % 8)))
      else bitmapAfter fields rounds := by
  rw [bitmapAfter, List.range_succ, List.foldl_append]
  rfl

theorem length_bitmapAfter (fields : List Value) (rounds : Nat) :
    (bitmapAfter fields rounds).length = (fields.length + 7) / 8 := by
  induction rounds with
  | zero => exact List.length_replicate
  | succ rounds ih =>
    rw [bitmapAfter_succ]
    split_ifs with null
    · rw [List.length_modify, ih]
    · exact ih

theorem testBit_bitmapAfter (fields : List Value) (rounds index : Nat)
    (inside : index < fields.length) :
    ∃ byte, (bitmapAfter fields rounds)[index / 8]? = some byte ∧
      byte.toNat.testBit (index % 8) = (decide (index < rounds) && nullAt fields index) := by
  induction rounds with
  | zero =>
    refine ⟨0, ?_, ?_⟩
    · rw [bitmapAfter, List.range_zero, List.foldl_nil, List.getElem?_replicate, if_pos (by omega)]
    · simp
  | succ rounds ih =>
    obtain ⟨byte, found, bit⟩ := ih
    rw [bitmapAfter_succ]
    split_ifs with null
    · rw [List.getElem?_modify, found]
      by_cases same : rounds / 8 = index / 8
      · refine ⟨_, congrArg some (if_pos same), ?_⟩
        rw [testBit_setBit byte (Nat.mod_lt _ (by omega)), bit]
        by_cases here : rounds = index
        · subst here
          simp [null]
        · have apart : ¬ rounds % 8 = index % 8 := by omega
          have order : index < rounds + 1 ↔ index < rounds := by omega
          simp [apart, order]
      · refine ⟨byte, congrArg some (if_neg same), ?_⟩
        have order : index < rounds + 1 ↔ index < rounds := by omega
        rw [bit]
        simp [order]
    refine ⟨byte, found, ?_⟩
    rw [bit]
    by_cases here : index = rounds
    · subst here
      simp [null]
    · have order : index < rounds + 1 ↔ index < rounds := by omega
      simp [order]

theorem length_nullBitmap (fields : List Value) :
    (nullBitmap fields).length = (fields.length + 7) / 8 :=
  length_bitmapAfter fields fields.length

theorem testBit_nullBitmap {fields : List Value} {index : Nat}
    {value : Value} (there : fields[index]? = some value) :
    ∃ byte, (nullBitmap fields)[index / 8]? = some byte ∧
      byte.toNat.testBit (index % 8) = value.isNull := by
  obtain ⟨inside, _⟩ := List.getElem?_eq_some_iff.mp there
  obtain ⟨byte, found, bit⟩ := testBit_bitmapAfter fields fields.length index inside
  refine ⟨byte, found, ?_⟩
  rw [bit, decide_eq_true inside, nullAt, there]
  rfl

end NullBits

def view (cells : List Cell) : RecordView where
  bytes := stored cells
  layout := layout cells
  hasNulls := hasNulls cells
  fixedDataOffset := byteSize + (bitmap cells).length
  varOffsetArray := byteSize + (bitmap cells).length + fixedTotal (types cells)
  varDataOffset := byteSize + (bitmap cells).length + fixedTotal (types cells) +
    variableTotal (types cells) * 4

section Reading

variable {cells : List Cell}

theorem length_bitmap : (bitmap cells).length =
    if hasNulls cells then (cells.length + 7) / 8 else 0 := by
  rw [bitmap]
  split_ifs with nulls
  · rw [length_nullBitmap, values, List.length_map]
  · rfl

theorem testBit_flags (nulls varlen : Bool) :
    (flags nulls varlen).testBit 1 = nulls ∧ (flags nulls varlen).testBit 2 = varlen := by
  cases nulls <;> cases varlen <;> decide

theorem make_eq : RecordView.make (stored cells) (layout cells) = .ok (view cells) := by
  obtain ⟨nullBit, varlenBit⟩ := testBit_flags (hasNulls cells) (hasVarlen cells)
  have columns : (layout cells).columns.length = cells.length := by
    rw [layout, length_columnsFrom, types, List.length_map]
  have long : ¬ (stored cells).length < byteSize := by
    rw [length_stored]
    omega
  rw [RecordView.make, if_neg long, readNat_flags]
  dsimp only
  rw [nullBit, varlenBit, columns, ← length_bitmap]
  have offset (start : Nat) : (if hasVarlen cells = true then start + (layout cells).variableCount *
      4 else start) = start + variableTotal (types cells) * 4 := by
    split_ifs with some
    · rfl
    · rw [hasVarlen, decide_eq_true_eq, Nat.not_lt, Nat.le_zero] at some
      rw [some]
      rfl
  rw [offset]
  rfl

theorem readBytes_middle {view : RecordView} {first middle last : List UInt8}
    (bytes : view.bytes = first ++ (middle ++ last)) :
    view.readBytes first.length middle.length = .ok middle := by
  rw [RecordView.readBytes, bytes, slice_append_middle, if_neg]
  simp only [List.length_append]
  omega

theorem exists_split {α : Type} {items : List α} {index : Nat} {item : α}
    (there : items[index]? = some item) :
    ∃ before after, items = before ++ item :: after ∧ before.length = index := by
  obtain ⟨inside, found⟩ := List.getElem?_eq_some_iff.mp there
  refine ⟨items.take index, items.drop (index + 1), ?_, ?_⟩
  · rw [← found, ← List.drop_eq_getElem_cons, List.take_append_drop]
  · rw [List.length_take]
    omega

theorem isNull_eq {index : Nat} {cell : Cell} (there : cells[index]? = some cell) :
    (view cells).isNull index = .ok cell.2.isNull := by
  have value : (values cells)[index]? = some cell.2 := by
    rw [values, List.getElem?_map, there]
    rfl
  rw [RecordView.isNull]
  by_cases nulls : hasNulls cells = true
  · obtain ⟨byte, found, bit⟩ := testBit_nullBitmap value
    have same : bitmap cells = nullBitmap (values cells) := if_pos nulls
    obtain ⟨before, after, split, length⟩ := exists_split found
    have read := @readBytes_middle (view cells) ((header cells).toBytes ++ before) [byte] (after ++
      (fixedBytes cells ++ offsetArray 0 (parts cells) ++ (parts cells).flatten)) (by
          change stored cells = _
          simp only [stored, body, same, split, List.append_assoc,
            List.cons_append, List.nil_append])
    rw [List.length_append, length_toBytes, length] at read
    have set : (view cells).hasNulls = true := nulls
    rw [set, if_neg (by decide)]
    rw [List.length_singleton] at read
    rw [read, ← bit]
    rfl
  have present : cell.2.isNull = false := by
    rw [hasNulls, List.any_eq_true] at nulls
    by_contra null
    exact nulls ⟨cell.2, List.mem_of_getElem? value, (Bool.not_eq_false _).mp null⟩
  have unset : (view cells).hasNulls = false := (Bool.not_eq_true _).mp nulls
  rw [unset, present]
  rfl

theorem length_offsetArray (start : Nat) (sections : List (List UInt8)) :
    (offsetArray start sections).length = 4 * sections.length := by
  induction sections generalizing start with
  | nil => rfl
  | cons part rest ih =>
    rw [offsetArray, List.length_append, length_leBytes, ih, List.length_cons]
    omega

theorem offsetArray_append {start : Nat} {first : List (List UInt8)} (second : List (List UInt8))
    (small : start + first.flatten.length < 2 ^ 32) :
    offsetArray start (first ++ second) = offsetArray start first ++
        offsetArray (start + first.flatten.length) second := by
  induction first generalizing start with
  | nil => simp [offsetArray]
  | cons part rest ih =>
    rw [List.flatten_cons, List.length_append] at small ⊢
    have offset : (start + part.length) % 2 ^ 32 = start + part.length :=
      Nat.mod_eq_of_lt (by omega)
    rw [List.cons_append, offsetArray, offsetArray, offset, ih (by omega),
      List.append_assoc, Nat.add_assoc]

theorem parts_append (first second : List Cell) :
    parts (first ++ second) = parts first ++ parts second := by simp [parts]

theorem parts_cons_of_inVariable {cell : Cell} (rest : List Cell)
    (varying : inVariable cell = true) : parts (cell :: rest) = bytesOf cell.2 :: parts rest := by
  simp [parts, varying]

theorem parts_eq_nil_of_not {cells : List Cell}
    (none : ∀ cell ∈ cells, inVariable cell = false) : parts cells = [] := by
  rw [parts, List.map_eq_nil_iff, List.filter_eq_nil_iff]
  intro cell mem
  rw [none cell mem]
  exact Bool.false_ne_true

theorem readOffset_eq (storable : ∀ cell ∈ cells, Storable cell)
    (fits : Fits cells) {first rest : List (List UInt8)} {part : List UInt8}
    (split : parts cells = first ++ part :: rest) :
    (view cells).readOffset first.length = .ok first.flatten.length := by
  have small : first.flatten.length < 2 ^ 32 := by
    have total := fits.data
    rw [split, List.flatten_append, List.length_append] at total
    omega
  have array : offsetArray 0 (parts cells) = offsetArray 0 first ++ (leBytes 4 first.flatten.length
      ++ offsetArray ((first.flatten.length + part.length) % 2 ^ 32) rest) := by
    rw [split, offsetArray_append _ (by omega), Nat.zero_add, offsetArray]
  have read := @readBytes_middle (view cells) ((header cells).toBytes ++ bitmap cells ++ fixedBytes
    cells ++ offsetArray 0 first) (leBytes 4 first.flatten.length) (offsetArray
    ((first.flatten.length + part.length) % 2 ^ 32) rest ++ (parts cells).flatten) (by
        change stored cells = _
        rw [stored, body, array]
        simp only [List.append_assoc])
  have position : ((header cells).toBytes ++ bitmap cells ++ fixedBytes cells ++ offsetArray 0
      first).length = (view cells).varOffsetArray + first.length * 4 := by
    simp only [List.length_append, length_toBytes, length_fixedBytes storable,
      length_offsetArray, view]
    omega
  rw [position, length_leBytes] at read
  rw [RecordView.readOffset, read]
  dsimp only
  rw [leNat_leBytes]
  exact congrArg Except.ok (Nat.mod_eq_of_lt small)

theorem columns_cons (offset start : Nat) (cell : Cell) (rest : List Cell) :
    (columnsFrom offset (types (cell :: rest))).zipIdx start = (columnAt offset cell.1, start) ::
      (columnsFrom (offset + cell.1.info.fixedSize) (types rest)).zipIdx (start + 1) :=
  rfl

theorem fixedLength_columnAt (start : Nat) (type : TypeID) :
    (columnAt start type).fixedLength = type.info.fixedSize :=
  rfl

def NullsAt (view : RecordView) (start : Nat) (segment : List Cell) : Prop :=
  ∀ index cell, segment[index]? = some cell → view.isNull (start + index) = .ok cell.2.isNull

section

variable {view : RecordView} {start : Nat} {cell : Cell} {rest : List Cell}
  (nulls : NullsAt view start (cell :: rest))

include nulls

theorem NullsAt.head : view.isNull start = .ok cell.2.isNull :=
  nulls 0 cell rfl

theorem NullsAt.tail : NullsAt view (start + 1) rest := by
  intro index other there
  have shifted := nulls (index + 1) other there
  rw [Nat.add_assoc, Nat.add_comm 1 index]
  exact shifted

end

theorem nullsAt_of_append {first second : List Cell} (split : cells = first ++ second) :
    NullsAt (view cells) first.length second := by
  intro index cell there
  apply isNull_eq
  rw [split, List.getElem?_append_right (by omega), Nat.add_sub_cancel_left]
  exact there

theorem nullsAt_zero {first second : List Cell}
    (split : cells = first ++ second) : NullsAt (view cells) 0 first := by
  intro index cell there
  rw [Nat.zero_add]
  apply isNull_eq
  obtain ⟨inside, _⟩ := List.getElem?_eq_some_iff.mp there
  rw [split, List.getElem?_append_left inside]
  exact there

section

variable {view : RecordView} {start : Nat} {segment : List Cell}
  (nulls : NullsAt view start segment)

include nulls

theorem varIndex_eq (offset : Nat) :
    view.varIndex ((columnsFrom offset (types segment)).zipIdx
      start) = .ok (parts segment).length := by
  induction segment generalizing start offset with
  | nil => rfl
  | cons cell rest ih =>
    have tail := ih nulls.tail (offset + cell.1.info.fixedSize)
    rw [columns_cons, RecordView.varIndex, fixedLength_columnAt, nulls.head, tail]
    by_cases noSize : cell.1.info.fixedSize = 0
    · rw [if_pos noSize]
      cases null : cell.2.isNull with
      | true => simp [parts, inVariable, null]
      | false => simp [parts, inVariable, null, noSize]
    · rw [if_neg noSize]
      simp [parts, inVariable, noSize]

/-- Behind the last part the reader takes the end of the record. -/
theorem nextOffset_of_none (none : ∀ cell ∈ segment, inVariable cell = false) (offset next : Nat) :
    view.nextOffset next ((columnsFrom offset (types segment)).zipIdx start) =
        .ok ((view.bytes.length + 2 ^ 64 - view.varDataOffset) % 2 ^ 32) := by
  induction segment generalizing start offset next with
  | nil => rfl
  | cons cell rest ih =>
    have tail := ih nulls.tail (fun other mem => none other (by simp [mem]))
      (offset + cell.1.info.fixedSize)
    rw [columns_cons, RecordView.nextOffset, fixedLength_columnAt]
    by_cases noSize : cell.1.info.fixedSize = 0
    · have null : cell.2.isNull = true := by
        have outside := none cell (by simp)
        rw [inVariable, noSize] at outside
        simpa using outside
      rw [if_pos noSize, nulls.head, null]
      exact tail (next + 1)
    · rw [if_neg noSize]
      exact tail next

end

theorem nextOffset_of_some {view : RecordView} {start : Nat}
    {skipped rest : List Cell} {cell : Cell} (nulls : NullsAt view start (skipped ++ cell :: rest))
    (fixed : ∀ other ∈ skipped, 0 < other.1.info.fixedSize)
    (varying : inVariable cell = true) (offset next : Nat) :
    view.nextOffset next ((columnsFrom offset
      (types (skipped ++ cell :: rest))).zipIdx start) = view.readOffset next := by
  induction skipped generalizing start offset with
  | nil =>
    obtain ⟨noSize, present⟩ := Bool.and_eq_true_iff.mp varying
    rw [Bool.not_eq_true'] at present
    rw [List.nil_append, columns_cons, RecordView.nextOffset, fixedLength_columnAt,
      if_pos (of_decide_eq_true noSize), nulls.head, present]
  | cons other skipped ih =>
    have size := fixed other (by simp)
    rw [List.cons_append, columns_cons, RecordView.nextOffset, fixedLength_columnAt,
      if_neg (by omega)]
    exact ih nulls.tail (fun later mem => fixed later (by simp [mem]))
      (offset + other.1.info.fixedSize)

theorem columns_split {before after : List Cell} {cell : Cell}
    (split : cells = before ++ cell :: after) :
    (layout cells).columns.zipIdx = (columnsFrom 0 (types before)).zipIdx ++
        (columnAt (fixedTotal (types before)) cell.1, before.length) ::
        (columnsFrom (fixedTotal (types before) +
          cell.1.info.fixedSize) (types after)).zipIdx (before.length + 1) := by
  have length : (columnsFrom 0 (types before)).length = before.length := by
    rw [length_columnsFrom, types, List.length_map]
  have all : types cells = types before ++ cell.1 :: types after := by
    rw [split]
    simp [types]
  rw [layout, all, TupleLayout.columnsFrom_append, List.zipIdx_append, length,
    Nat.zero_add, Nat.zero_add]
  rfl

end Reading

end RecordSerializer

end KlyroDB
