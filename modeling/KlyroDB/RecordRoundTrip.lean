import KlyroDB.StoredRecords

/-!
# Records that are read back

The serializer stores offsets only for the variable-length fields that are not
`NULL`; the reader counts all variable-length columns.
-/

namespace KlyroDB

open TupleLayout (columnAt columnsFrom fixedTotal ofTypes variableTotal)
open ByteMemory TypeSerializer

namespace RecordSerializer

section Reading

variable {cells : List Cell}

/-- No field of a variable-length column is `NULL`. -/
def NoVariableNull (cells : List Cell) : Prop :=
  ∀ cell ∈ cells, cell.1.info.isVariableLength = true → cell.2.isNull = false

def AllVariableNull (cells : List Cell) : Prop :=
  ∀ cell ∈ cells, cell.1.info.isVariableLength = true → cell.2.isNull = true

/-- No column without storage stands between two variable-length columns. -/
def Uninterrupted (cells : List Cell) : Prop :=
  ∀ first left middle right last, cells = first ++ left :: (middle ++ right :: last) →
    left.1.info.isVariableLength = true → right.1.info.isVariableLength = true → ∀ cell ∈ middle,
    cell.1.isPlaceholder = false

theorem length_parts_le (storable : ∀ cell ∈ cells, Storable cell) :
    (parts cells).length ≤ variableTotal (types cells) := by
  rw [parts, List.length_map, ← List.countP_eq_length_filter, variableTotal, types, List.countP_map]
  apply List.countP_mono_left
  intro cell mem varying
  exact (storable cell mem).isVariableLength varying

theorem NoVariableNull.length_parts (complete : NoVariableNull cells)
    (storable : ∀ cell ∈ cells, Storable cell) :
    (parts cells).length = variableTotal (types cells) := by
  rw [parts, List.length_map, ← List.countP_eq_length_filter, variableTotal, types, List.countP_map]
  apply List.countP_congr
  intro cell mem
  refine ⟨(storable cell mem).isVariableLength, ?_⟩
  intro varying
  have noSize : cell.1.info.fixedSize = 0 := TypeID.fixedSize_of_variable varying
  rw [inVariable, complete cell mem varying, noSize]
  rfl

/-- A `NULL` in a variable-length column takes its offset away. -/
theorem length_parts_lt (storable : ∀ cell ∈ cells, Storable cell)
    {cell : Cell} (mem : cell ∈ cells) (varying : cell.1.info.isVariableLength = true)
    (null : cell.2.isNull = true) :
    (parts cells).length < variableTotal (types cells) := by
  obtain ⟨first, last, rfl⟩ := List.append_of_mem mem
  have early : (parts first).length ≤ _ := length_parts_le
    fun other there => storable other (by simp [there])
  have late : (parts last).length ≤ _ := length_parts_le
    fun other there => storable other (by simp [there])
  have outside : inVariable cell = false := by
    rw [inVariable, null]
    exact Bool.and_false _
  have nothing : parts (cell :: last) = parts last := by simp [parts, outside]
  have total : variableTotal (types (first ++ cell :: last)) = variableTotal
      (types first) + (variableTotal (types last) + 1) := by simp [types, variableTotal, varying]
  rw [parts_append, nothing, List.length_append, total]
  omega

section Field

variable {before after : List Cell} {cell : Cell}

section

variable (storable : ∀ cell ∈ cells, Storable cell) (split : cells = before ++ cell :: after)

include storable split

theorem storable_of_split : Storable cell ∧ ∀ other ∈ before, Storable other := by
  subst split
  exact ⟨storable cell (by simp), fun other mem => storable other (by simp [mem])⟩

theorem fieldBytes_fixed (fixed : inFixed cell = true) :
    (view cells).fieldBytes (columnAt
      (fixedTotal (types before)) cell.1) before.length = .ok (bytesOf cell.2) := by
  obtain ⟨here, earlier⟩ := storable_of_split storable split
  obtain ⟨positive, _⟩ := Bool.and_eq_true_iff.mp fixed
  have size : 0 < cell.1.info.fixedSize := of_decide_eq_true positive
  have notVariable : ¬ cell.1.info.isVariableLength = true := by
    intro varying
    rw [TypeID.fixedSize_of_variable varying] at size
    omega
  have offset : (columnAt (fixedTotal (types before)) cell.1).offset =
      fixedTotal (types before) := if_neg notVariable
  have part : fixedPart cell = bytesOf cell.2 := if_pos fixed
  have read := @readBytes_middle (view cells) ((header cells).toBytes ++ bitmap cells ++ fixedBytes
    before) (bytesOf cell.2) (fixedBytes after ++ (offsetArray 0 (parts cells) ++
    (parts cells).flatten)) (by
        have area : fixedBytes cells =
            fixedBytes before ++ (bytesOf cell.2 ++ fixedBytes after) := by
          rw [← part, split]
          simp [fixedBytes]
        change stored cells = _
        rw [stored, body, area]
        simp only [List.append_assoc])
  rw [here.length_of_inFixed fixed] at read
  have position : ((header cells).toBytes ++ bitmap cells ++ fixedBytes before).length =
      (view cells).fixedDataOffset + fixedTotal (types before) := by
    simp only [List.length_append, length_toBytes, length_fixedBytes earlier, view]
  rw [position] at read
  rw [RecordView.fieldBytes, fixedLength_columnAt, if_pos size, offset]
  exact read

end

theorem parts_split (split : cells = before ++ cell :: after) (varying : inVariable cell = true) :
    parts cells = parts before ++ bytesOf cell.2 :: parts after := by
  rw [split, parts_append, parts_cons_of_inVariable after varying]

theorem fieldBytes_variable (storable : ∀ cell ∈ cells, Storable cell)
    (fits : Fits cells) (split : cells = before ++ cell :: after)
    (varying : inVariable cell = true) {next : Nat}
    (found : (view cells).nextOffset ((parts before).length + 1)
      ((columnsFrom (fixedTotal (types before) +
        cell.1.info.fixedSize) (types after)).zipIdx (before.length + 1)) = .ok next) :
    (view cells).fieldBytes (columnAt
      (fixedTotal (types before)) cell.1) before.length = (view cells).readBytes
          ((view cells).varDataOffset + (parts before).flatten.length)
          ((next + 2 ^ 32 - (parts before).flatten.length) % 2 ^ 32) := by
  obtain ⟨noSize, _⟩ := Bool.and_eq_true_iff.mp varying
  have empty : ¬ 0 < cell.1.info.fixedSize := by
    rw [of_decide_eq_true noSize]
    exact Nat.lt_irrefl 0
  have length : (columnsFrom 0 (types before)).zipIdx.length = before.length := by
    rw [List.length_zipIdx, TupleLayout.length_columnsFrom, types, List.length_map]
  have columns := columns_split split
  have taken : (layout cells).columns.zipIdx.take before.length =
      (columnsFrom 0 (types before)).zipIdx := by rw [columns, List.take_left' length]
  have dropped : (layout cells).columns.zipIdx.drop (before.length + 1) = (columnsFrom
      (fixedTotal (types before) + cell.1.info.fixedSize) (types after)).zipIdx
      (before.length + 1) := by
    rw [columns, ← List.drop_drop, List.drop_left' length]
    rfl
  have index := varIndex_eq (nullsAt_zero split) 0
  have offset := readOffset_eq storable fits (parts_split split varying)
  have columns_eq : (view cells).layout.columns = (layout cells).columns := rfl
  rw [RecordView.fieldBytes, fixedLength_columnAt, if_neg empty, columns_eq]
  dsimp only
  rw [taken, dropped, index]
  dsimp only
  rw [offset, found]

theorem length_stored_eq (storable : ∀ cell ∈ cells, Storable cell) :
    (stored cells).length + variableTotal (types cells) * 4 =
      (view cells).varDataOffset + (parts cells).length * 4 + (parts cells).flatten.length := by
  rw [length_stored, body]
  simp only [List.length_append, length_fixedBytes storable, length_offsetArray, view]
  omega

section

variable (storable : ∀ cell ∈ cells, Storable cell) (fits : Fits cells)
  (complete : NoVariableNull cells) (uninterrupted : Uninterrupted cells)
  (split : cells = before ++ cell :: after) (varying : inVariable cell = true)

include storable fits complete uninterrupted split varying

theorem nextOffset_eq (offset : Nat) :
    (view cells).nextOffset ((parts before).length + 1)
      ((columnsFrom offset (types after)).zipIdx (before.length + 1)) =
      .ok ((parts before).flatten.length + (bytesOf cell.2).length) := by
  have whole := parts_split split varying
  have regrouped : cells = (before ++ [cell]) ++ after := by
    rw [split, List.append_assoc]
    rfl
  have nulls := nullsAt_of_append regrouped
  rw [List.length_append, List.length_singleton] at nulls
  cases found : after.find? inVariable with
  | none =>
    have outside : ∀ other ∈ after, inVariable other = false := by
      intro other mem
      exact (Bool.not_eq_true _).mp (List.find?_eq_none.mp found other mem)
    rw [nextOffset_of_none nulls outside]
    have length := length_stored_eq storable
    have data := fits.data
    rw [complete.length_parts storable] at length
    rw [whole, parts_eq_nil_of_not outside, List.flatten_append,
      List.length_append, List.flatten_singleton] at length data
    change Except.ok (((stored cells).length + 2 ^ 64 - (view cells).varDataOffset) % 2 ^ 32) = _
    congr 1
    omega
  | some right =>
    obtain ⟨rightVarying, skipped, rest, rfl, none⟩ := List.find?_eq_some_iff_append.mp found
    have outside : ∀ other ∈ skipped, inVariable other = false := by
      intro other mem
      exact (Bool.not_eq_true' _).mp (none other mem)
    have fixed : ∀ other ∈ skipped, 0 < other.1.info.fixedSize := by
      intro other mem
      have inside : other ∈ cells := by
        rw [split]
        simp [mem]
      have stands := uninterrupted before cell skipped right rest split ((storable cell
        (by simp [split])).isVariableLength varying) ((storable right
        (by simp [split])).isVariableLength rightVarying) other mem
      by_contra noSize
      have size : other.1.info.fixedSize = 0 := by omega
      have otherVariable : other.1.info.isVariableLength = true := by
        rw [TypeID.isPlaceholder, size] at stands
        simpa using stands
      have absent := outside other mem
      rw [inVariable, size, complete other inside otherVariable] at absent
      contradiction
    rw [nextOffset_of_some nulls fixed rightVarying]
    have later : parts cells = (parts before ++ [bytesOf cell.2]) ++
        bytesOf right.2 :: parts rest := by
      rw [whole, parts_append, parts_eq_nil_of_not outside, List.nil_append,
        parts_cons_of_inVariable rest rightVarying, List.append_assoc]
      rfl
    have offset := readOffset_eq storable fits later
    rw [List.length_append, List.flatten_append, List.length_append,
      List.flatten_singleton] at offset
    exact offset

theorem fieldBytes_of_complete :
    (view cells).fieldBytes (columnAt
      (fixedTotal (types before)) cell.1) before.length = .ok (bytesOf cell.2) := by
  have whole := parts_split split varying
  have data := fits.data
  rw [whole, List.flatten_append, List.flatten_cons, List.length_append, List.length_append] at data
  rw [fieldBytes_variable storable fits split varying
    (nextOffset_eq storable fits complete uninterrupted split varying _)]
  have length : ((parts before).flatten.length + (bytesOf cell.2).length + 2 ^ 32 -
      (parts before).flatten.length) % 2 ^ 32 = (bytesOf cell.2).length := by omega
  have position : ((header cells).toBytes ++ bitmap cells ++ fixedBytes cells ++ offsetArray 0
      (parts cells) ++ (parts before).flatten).length = (view cells).varDataOffset +
      (parts before).flatten.length := by
    simp only [List.length_append, length_toBytes, length_fixedBytes storable,
      length_offsetArray, complete.length_parts storable, view]
    omega
  rw [length, ← position]
  refine @readBytes_middle (view cells) _ _ (parts after).flatten ?_
  change stored cells = _
  have flat : (parts cells).flatten = (parts before).flatten ++
      (bytesOf cell.2 ++ (parts after).flatten) := by
    rw [whole, List.flatten_append, List.flatten_cons]
  rw [stored, body, flat]
  simp only [List.append_assoc]

end

theorem field_of_fieldBytes (storable : Storable cell) (split : cells = before ++ cell :: after)
    (present : cell.2.isNull = false) {column : Column} (type : column.type = cell.1)
    (found : (view cells).fieldBytes column before.length = .ok (bytesOf cell.2)) :
    ∃ read, (view cells).field column before.length = .ok read ∧ cell.2.equals read = true := by
  obtain ⟨_, _, read, success, equal⟩ := storable.present present
  have null := (nullsAt_of_append split).head
  rw [present] at null
  refine ⟨read, ?_, equal⟩
  rw [RecordView.field, null]
  rw [found, type]
  dsimp only
  rw [success]

theorem field_of_null (split : cells = before ++ cell :: after)
    (null : cell.2.isNull = true) (column : Column) :
    ∃ read, (view cells).field column before.length = .ok read ∧ cell.2.equals read = true := by
  have isNull := (nullsAt_of_append split).head
  rw [null] at isNull
  refine ⟨.null column.type, ?_, ?_⟩
  · rw [RecordView.field, isNull]
  · generalize cell.2 = value at null ⊢
    cases value with
    | null type => rfl
    | _ => cases null

end Field

theorem fields_iff {view : RecordView} {start offset : Nat} {segment : List Cell} :
    (∃ found, view.fields ((columnsFrom offset (types segment)).zipIdx start) = .ok found ∧
      Value.equalsElements (values segment) found = true) ↔
    ∀ before cell after, segment = before ++ cell :: after →
      ∃ read, view.field (columnAt
          (offset + fixedTotal (types before)) cell.1)
            (start + before.length) = .ok read ∧ cell.2.equals read = true := by
  induction segment generalizing start offset with
  | nil =>
    refine iff_of_true ⟨[], rfl, rfl⟩ ?_
    intro before cell after split
    cases before <;> cases split
  | cons first rest ih =>
    have shifted (before : List Cell) : offset + first.1.info.fixedSize + fixedTotal
        (types before) = offset + fixedTotal (types (first :: before)) := by
      simp [types, fixedTotal, Nat.add_assoc]
    rw [columns_cons, RecordView.fields]
    constructor
    · rintro ⟨found, success, equal⟩ before cell after split
      cases head : view.field (columnAt offset first.1) start with
      | error failure =>
        rw [head] at success
        cases success
      | ok value =>
        rw [head] at success
        cases tail : view.fields ((columnsFrom (offset + first.1.info.fixedSize)
            (types rest)).zipIdx (start + 1)) with
        | error failure =>
          rw [tail] at success
          cases success
        | ok others =>
          rw [tail] at success
          cases success
          obtain ⟨here, later⟩ := Bool.and_eq_true_iff.mp equal
          cases before with
          | nil =>
            cases split
            exact ⟨value, head, here⟩
          | cons other before =>
            cases split
            have reads := ih.mp ⟨others, tail, later⟩ before cell after rfl
            rw [shifted] at reads
            rw [List.length_cons, Nat.add_comm before.length 1, ← Nat.add_assoc]
            exact reads
    intro all
    obtain ⟨value, head, here⟩ := all [] first rest rfl
    obtain ⟨others, tail, later⟩ := ih.mpr (by
      intro before cell after split
      have reads := all (first :: before) cell after (by rw [split]; rfl)
      rw [← shifted, List.length_cons, Nat.add_comm before.length 1, ← Nat.add_assoc] at reads
      exact reads)
    have head : view.field (columnAt offset first.1) start = .ok value := head
    refine ⟨value :: others, ?_, ?_⟩
    · rw [head, tail]
    · exact Bool.and_eq_true_iff.mpr ⟨here, later⟩

/-- The record is equal to the one that is read from its bytes. -/
def ReadBack (record : Record) (layout : TupleLayout) : Prop :=
  ∃ bytes found, serialize record layout = .ok bytes ∧ RecordDeserializer.deserialize bytes layout =
    .ok found ∧ record.equals found = true

theorem readBack_iff (storable : ∀ cell ∈ cells, Storable cell) :
    ReadBack ⟨values cells⟩ (layout cells) ↔
      ∀ before cell after, cells = before ++ cell :: after →
        ∃ read, (view cells).field (columnAt
            (fixedTotal (types before)) cell.1) before.length = .ok read ∧
          cell.2.equals read = true := by
  have read := @fields_iff (view cells) 0 0 cells
  simp only [Nat.zero_add] at read
  rw [← read]
  constructor
  · rintro ⟨bytes, found, written, success, equal⟩
    rw [serialize_eq storable] at written
    cases written
    rw [RecordDeserializer.deserialize, make_eq] at success
    dsimp only at success
    cases fields : (view cells).fields (layout cells).columns.zipIdx with
    | error failure =>
      rw [fields] at success
      cases success
    | ok values =>
      rw [fields] at success
      cases success
      exact ⟨values, fields, equal⟩
  rintro ⟨found, fields, equal⟩
  refine ⟨stored cells, ⟨found⟩, serialize_eq storable, ?_, equal⟩
  rw [RecordDeserializer.deserialize, make_eq]
  dsimp only [layout]
  rw [fields]

theorem readBack_of_condition (storable : ∀ cell ∈ cells, Storable cell) (fits : Fits cells)
    (condition : AllVariableNull cells ∨
      NoVariableNull cells ∧ Uninterrupted cells) : ReadBack ⟨values cells⟩ (layout cells) := by
  rw [readBack_iff storable]
  intro before cell after split
  have here := (storable_of_split storable split).1
  cases null : cell.2.isNull with
  | true => exact field_of_null split null _
  | false =>
    apply field_of_fieldBytes here split null rfl
    by_cases size : 0 < cell.1.info.fixedSize
    · have fixed : inFixed cell = true := by
        rw [inFixed, null, decide_eq_true size]
        rfl
      exact fieldBytes_fixed storable split fixed
    have varying : inVariable cell = true := by
      rw [inVariable, null, decide_eq_true (by omega)]
      rfl
    rcases condition with none | ⟨complete, uninterrupted⟩
    · have isNull := none cell (by simp [split]) (here.isVariableLength varying)
      rw [null] at isNull
      contradiction
    · exact fieldBytes_of_complete storable fits complete uninterrupted split varying

theorem exists_last {cell : Cell} (mem : cell ∈ cells) (varying : inVariable cell = true) :
    ∃ before last after, cells = before ++ last :: after ∧
      inVariable last = true ∧ ∀ other ∈ after, inVariable other = false := by
  cases found : cells.reverse.find? inVariable with
  | none =>
    exact absurd varying (List.find?_eq_none.mp found cell (List.mem_reverse.mpr mem))
  | some last =>
    obtain ⟨lastVarying, later, earlier, split, none⟩ := List.find?_eq_some_iff_append.mp found
    refine ⟨earlier.reverse, last, later.reverse, ?_, lastVarying, ?_⟩
    · rw [← List.reverse_reverse cells, split]
      simp
    · intro other there
      exact (Bool.not_eq_true' _).mp (none other (List.mem_reverse.mp there))

/-- The bytes of the last field behind the offset array begin at its offset
and lie within the record, if they are found. -/
theorem exists_readBytes {before after : List Cell} {last : Cell}
    (storable : ∀ cell ∈ cells, Storable cell) (fits : Fits cells)
    (split : cells = before ++ last :: after) (varying : inVariable last = true)
    (none : ∀ other ∈ after, inVariable other = false) :
    ∃ length, (view cells).fieldBytes (columnAt
      (fixedTotal (types before)) last.1) before.length =
        (view cells).readBytes ((view cells).varDataOffset +
          (parts before).flatten.length) length := by
  have regrouped : cells = (before ++ [last]) ++ after := by
    rw [split, List.append_assoc]
    rfl
  have nulls := nullsAt_of_append regrouped
  rw [List.length_append, List.length_singleton] at nulls
  exact ⟨_, fieldBytes_variable storable fits split varying (nextOffset_of_none nulls none _ _)⟩

theorem fieldBytes_of_field {view : RecordView} {column : Column}
    {index : Nat} {read : Value} (present : view.isNull index = .ok false)
    (success : view.field column index = .ok read) :
    ∃ bytes, view.fieldBytes column index = .ok bytes ∧
      deserialize bytes column.type = .ok read := by
  rw [RecordView.field, present] at success
  cases found : view.fieldBytes column index with
  | error failure =>
    rw [found] at success
    cases success
  | ok bytes =>
    rw [found] at success
    dsimp only at success
    cases parsed : deserialize bytes column.type with
    | error failure =>
      rw [parsed] at success
      cases success
    | ok value =>
      rw [parsed] at success
      cases success
      exact ⟨bytes, rfl, parsed⟩

theorem readBytes_eq_ok {view : RecordView} {offset length : Nat}
    {bytes : List UInt8} (found : view.readBytes offset length = .ok bytes) :
    offset + bytes.length ≤ view.bytes.length := by
  rw [RecordView.readBytes] at found
  by_cases outside : view.bytes.length < offset + length
  · rw [if_pos outside] at found
    cases found
  · rw [if_neg outside] at found
    cases found
    rw [length_slice (Nat.le_of_not_lt outside)]
    exact Nat.le_of_not_lt outside

/-- With a `NULL` in a variable-length column, the reader looks for the data of
the last field too far behind, and finds too few bytes. -/
theorem not_readBack (storable : ∀ cell ∈ cells, Storable cell)
    (fits : Fits cells) {absent present : Cell} (absentMem : absent ∈ cells)
    (absentVariable : absent.1.info.isVariableLength = true)
    (null : absent.2.isNull = true) (presentMem : present ∈ cells)
    (varying : inVariable present = true) : ¬ ReadBack ⟨values cells⟩ (layout cells) := by
  rw [readBack_iff storable]
  intro all
  obtain ⟨before, last, after, split, lastVarying, none⟩ := exists_last presentMem varying
  obtain ⟨read, success, equal⟩ := all before last after split
  obtain ⟨_, presentBit⟩ := Bool.and_eq_true_iff.mp lastVarying
  rw [Bool.not_eq_true'] at presentBit
  have isNull := (nullsAt_of_append split).head
  rw [presentBit] at isNull
  obtain ⟨bytes, found, parsed⟩ := fieldBytes_of_field isNull success
  obtain ⟨length, located⟩ := exists_readBytes storable fits split lastVarying none
  rw [located] at found
  have inside := readBytes_eq_ok found
  obtain ⟨type, written, own, ownRead, ownEqual⟩ :=
    (storable_of_split storable split).1.present presentBit
  have whole := parts_split split lastVarying
  rw [parts_eq_nil_of_not none] at whole
  have total : (parts cells).flatten.length =
      (parts before).flatten.length + (bytesOf last.2).length := by
    rw [whole, List.flatten_append, List.flatten_singleton, List.length_append]
  have data := fits.data
  rw [← type] at ownRead
  have enough := readsWhole_of_read written (by omega) ownRead ownEqual _ _ _ _ parsed equal
  have length := length_stored_eq storable
  have fewer := length_parts_lt storable absentMem absentVariable null
  change _ ≤ (stored cells).length at inside
  omega

end Reading

section Records

variable {columnTypes : List TypeID} {fields : List Value}

theorem types_zip (same : columnTypes.length = fields.length) :
    types (columnTypes.zip fields) = columnTypes :=
  List.map_fst_zip (Nat.le_of_eq same)

theorem values_zip (same : columnTypes.length = fields.length) :
    values (columnTypes.zip fields) = fields :=
  List.map_snd_zip (Nat.le_of_eq same.symm)

theorem uninterrupted_of_no_placeholder {cells : List Cell}
    (none : ∀ cell ∈ cells, cell.1.isPlaceholder = false) : Uninterrupted cells := by
  intro first left middle right last split _ _ cell mem
  exact none cell (by simp [split, mem])

/-- Records of a layout whose fields are `NULL` or read back on their own.
Such a record is read back if the fields of its variable-length columns are all
`NULL`, or if none of them is and no column without storage stands between
them.  It is not read back if some of them are `NULL` and some are not. -/
theorem record_read_back (columnTypes : List TypeID) (record : Record)
    (storable : List.Forall₂ (fun type value => Storable (type, value)) columnTypes record.fields)
    (fits : Fits (columnTypes.zip record.fields)) :
    (AllVariableNull (columnTypes.zip record.fields) ∨
        NoVariableNull (columnTypes.zip record.fields) ∧
          Uninterrupted (columnTypes.zip record.fields) →
      ReadBack record (ofTypes columnTypes)) ∧
    (ReadBack record (ofTypes columnTypes) →
      AllVariableNull (columnTypes.zip record.fields) ∨
        NoVariableNull (columnTypes.zip record.fields)) := by
  obtain ⟨fields⟩ := record
  have same := storable.length_eq
  have layout_eq := fits.layout_eq
  rw [types_zip same] at layout_eq
  have each : ∀ cell ∈ columnTypes.zip fields, Storable cell :=
    fun cell member => (List.forall₂_iff_zip.mp storable).2 member
  have value_eq := values_zip same
  rw [layout_eq]
  constructor
  · intro condition
    have read := readBack_of_condition each fits condition
    rwa [value_eq] at read
  intro read
  by_contra mixed
  rw [not_or] at mixed
  obtain ⟨notAll, notNone⟩ := mixed
  rw [NoVariableNull] at notNone
  push Not at notNone
  obtain ⟨absent, absentMem, absentVariable, null⟩ := notNone
  rw [AllVariableNull] at notAll
  push Not at notAll
  obtain ⟨present, presentMem, presentVariable, nonNull⟩ := notAll
  have varying : inVariable present = true := by
    rw [inVariable, TypeID.fixedSize_of_variable presentVariable]
    simpa using nonNull
  refine not_readBack each fits absentMem absentVariable ?_ presentMem varying ?_
  · simpa using null
  · rwa [value_eq]

/-- A record with a `NULL` in a fixed-length column. -/
theorem record_read_back_mixed :
    ReadBack ⟨[.integer 5, .string [97] .text, .null .boolean, .string [98, 99] .varChar]⟩
      (ofTypes [.integer, .text, .boolean, .varChar]) := by
  refine (record_read_back [.integer, .text, .boolean, .varChar] ⟨[.integer 5, .string [97] .text,
    .null .boolean, .string [98, 99] .varChar]⟩ ?_ ?_).1 (Or.inr ⟨?_, ?_⟩)
  · refine .cons (Or.inr ⟨rfl, leBytes 4 5, .integer 5, rfl, rfl, rfl⟩) (.cons (Or.inr ⟨rfl, [97],
      .string [97] .text, rfl, rfl, rfl⟩) (.cons (Or.inl rfl) (.cons (Or.inr ⟨rfl, [98, 99], .string
      [98, 99] .varChar, rfl, rfl, rfl⟩) .nil)))
  · exact ⟨by decide, by decide, by decide⟩
  · intro cell member
    simp only [List.zip_cons_cons, List.zip_nil_left, List.mem_cons,
      List.not_mem_nil, or_false] at member
    rcases member with rfl | rfl | rfl | rfl
    · exact fun varying => rfl
    · exact fun varying => rfl
    · exact fun varying => by cases varying
    · exact fun varying => rfl
  · exact uninterrupted_of_no_placeholder (by decide)

/-- The first of two texts is `NULL`. -/
theorem text_not_read_back :
    List.Forall₂ (fun type value => Storable (type, value)) [.text, .text]
        [.null .text, .string [120] .text] ∧
      ¬ ReadBack ⟨[.null .text, .string [120] .text]⟩ (ofTypes [.text, .text]) := by
  have present : Storable (.text, .string [120] .text) :=
    Or.inr ⟨rfl, [120], .string [120] .text, rfl, rfl, rfl⟩
  have absent : Storable (.text, .null .text) := Or.inl rfl
  refine ⟨.cons absent (.cons present .nil), ?_⟩
  refine @not_readBack [(.text, .null .text), (.text, .string [120] .text)]
    ?_ ⟨by decide, by decide, by decide⟩ (.text, .null .text)
    (.text, .string [120] .text) (by simp) rfl rfl (by simp) rfl
  intro cell member
  rcases List.mem_cons.mp member with rfl | member
  · exact absent
  · rw [List.mem_singleton.mp member]
    exact present

end Records

end RecordSerializer

end KlyroDB
