import KlyroDB.TableHeapCalls
import KlyroDB.VersionStore

/-!
# The versions in a table heap

The bytes of a stored record carry its creator, its deleter and the version it
replaced.  Every heap call is a sequence of writes to a store of versions.
-/

namespace KlyroDB

open RecordHeader (byteSize readMvcc writePrevVersion writeXmax writeXmin)
open ByteMemory

namespace RecordHeader

variable {bytes : List UInt8}

theorem readMvcc_writeXmax (size : byteSize ≤ bytes.length) {id : Nat} (small : id < 2 ^ 64) :
    readMvcc (writeXmax bytes id) = { readMvcc bytes with xmax := id } := by
  rw [byteSize] at size
  rw [readMvcc, writeXmax, readMvcc, readNat_writeNat _ (by omega), Nat.mod_eq_of_lt (by omega)]
  simp (disch := omega) only [readNat_writeNat_of_disjoint]

@[simp]
theorem length_writeXmax (bytes : List UInt8) (id : Nat) :
    (writeXmax bytes id).length = bytes.length :=
  length_writeNat ..

end RecordHeader

namespace TableHeap

theorem readMvcc_stampVersion {bytes : List UInt8}
    (size : byteSize ≤ bytes.length) {creator : Nat}
    (small : creator < 2 ^ 64) {prev : RecordID}
    (smallPage : prev.pageId < 2 ^ 64) (smallSlot : prev.slotId < 2 ^ 32) :
    readMvcc (stampVersion bytes creator prev) =
      ⟨creator, invalidTransactionID, prev⟩ := by
  rw [stampVersion, if_pos size]
  rw [byteSize] at size
  simp only [readMvcc, writePrevVersion,
    writeXmax, writeXmin]
  simp (disch := omega) only [readNat_writeNat_of_disjoint]
  rw [readNat_writeNat _ (by omega), readNat_writeNat _ (by simp only [length_writeNat]; omega),
    readNat_writeNat _ (by simp only [length_writeNat]; omega), readNat_writeNat _
    (by simp only [length_writeNat]; omega), invalidTransactionID, Nat.zero_mod, Nat.mod_eq_of_lt
    (by omega), Nat.mod_eq_of_lt (by omega), Nat.mod_eq_of_lt (by omega)]

theorem length_stampVersion (bytes : List UInt8) (creator : Nat) (prev : RecordID) :
    (stampVersion bytes creator prev).length = bytes.length := by
  rw [stampVersion]
  split_ifs
  · simp [writePrevVersion, writeXmin]
  · rfl

end TableHeap

namespace RecordHeader

theorem length_toBytes (header : RecordHeader) : header.toBytes.length = byteSize := by
  simp [toBytes, byteSize]

end RecordHeader

theorem RecordSerializer.byteSize_le_of_serialize {record : Record}
    {layout : TupleLayout} {bytes : List UInt8} (serialized : serialize record layout = .ok bytes) :
    byteSize ≤ bytes.length := by
  unfold serialize at serialized
  split_ifs at serialized with mismatch
  dsimp only at serialized
  split at serialized
  · contradiction
  split at serialized
  · contradiction
  · cases serialized
    rw [List.length_append, RecordHeader.length_toBytes]
    exact Nat.le_add_right _ _

namespace RecordView

structure SameBody (view other : RecordView) : Prop where
  layout_eq : other.layout = view.layout
  hasNulls_eq : other.hasNulls = view.hasNulls
  fixed_eq : other.fixedDataOffset = view.fixedDataOffset
  array_eq : other.varOffsetArray = view.varOffsetArray
  data_eq : other.varDataOffset = view.varDataOffset
  fixed_le : byteSize ≤ view.fixedDataOffset
  array_le : byteSize ≤ view.varOffsetArray
  data_le : byteSize ≤ view.varDataOffset
  length_eq : other.bytes.length = view.bytes.length
  bytes_eq : ∀ address, byteSize ≤ address →
    other.bytes[address]? = view.bytes[address]?

section Reads

variable {view other : RecordView}

section

variable (same : SameBody view other)

include same

theorem SameBody.readBytes_eq {offset : Nat} (above : byteSize ≤ offset) (length : Nat) :
    other.readBytes offset length = view.readBytes offset length := by
  rw [readBytes, readBytes, same.length_eq]
  split_ifs with outside
  · rfl
  · rw [slice_congr fun address low _ => same.bytes_eq address (by omega)]

theorem SameBody.isNull_eq (index : Nat) : other.isNull index = view.isNull index := by
  rw [isNull, isNull, same.hasNulls_eq, same.readBytes_eq (Nat.le_add_right _ _)]

theorem SameBody.varIndex_eq (columns : List (Column × Nat)) :
    other.varIndex columns = view.varIndex columns := by
  induction columns with
  | nil => rfl
  | cons cell rest ih => rw [varIndex, varIndex, same.isNull_eq, ih]

theorem SameBody.readOffset_eq (index : Nat) : other.readOffset index = view.readOffset index := by
  have above := same.array_le
  rw [readOffset, readOffset, same.array_eq, same.readBytes_eq (by omega)]

theorem SameBody.nextOffset_eq (next : Nat) (columns : List (Column × Nat)) :
    other.nextOffset next columns = view.nextOffset next columns := by
  induction columns generalizing next with
  | nil => rw [nextOffset, nextOffset, same.length_eq, same.data_eq]
  | cons cell rest ih => rw [nextOffset, nextOffset, same.isNull_eq, same.readOffset_eq, ih, ih]

theorem SameBody.fieldBytes_eq (column : Column) (index : Nat) :
    other.fieldBytes column index = view.fieldBytes column index := by
  have fixed (offset length : Nat) : other.readBytes (view.fixedDataOffset + offset) length =
      view.readBytes (view.fixedDataOffset + offset) length := same.readBytes_eq
      (le_trans same.fixed_le (Nat.le_add_right _ _)) length
  have data (offset length : Nat) : other.readBytes (view.varDataOffset + offset) length =
      view.readBytes (view.varDataOffset + offset) length := same.readBytes_eq
      (le_trans same.data_le (Nat.le_add_right _ _)) length
  simp only [fieldBytes, same.fixed_eq, same.layout_eq, same.varIndex_eq,
    same.data_eq, same.readOffset_eq, same.nextOffset_eq, fixed, data]

theorem SameBody.fields_eq (columns : List (Column × Nat)) :
    other.fields columns = view.fields columns := by
  induction columns with
  | nil => rfl
  | cons cell rest ih => rw [fields, fields, ih, field, field, same.isNull_eq, same.fieldBytes_eq]

end

end Reads

end RecordView

theorem RecordDeserializer.deserialize_writeXmax (bytes : List UInt8) (id : Nat)
    (layout : TupleLayout) :
    deserialize (writeXmax bytes id) layout = deserialize bytes layout := by
  have flags : readNat (writeXmax bytes id) 4 2 =
      readNat bytes 4 2 := readNat_writeNat_of_disjoint _ (by omega)
  rw [deserialize, deserialize, RecordView.make, RecordView.make, flags,
    RecordHeader.length_writeXmax]
  by_cases small : bytes.length < byteSize
  · rw [if_pos small, if_pos small]
  rw [if_neg small, if_neg small]
  dsimp only
  rw [RecordView.SameBody.fields_eq]
  constructor
  case layout_eq | hasNulls_eq | fixed_eq | array_eq | data_eq => rfl
  case fixed_le => exact Nat.le_add_right _ _
  case array_le => exact le_trans (Nat.le_add_right _ _) (Nat.le_add_right _ _)
  case data_le =>
    dsimp only
    split_ifs <;> omega
  case length_eq => exact RecordHeader.length_writeXmax bytes id
  case bytes_eq =>
    intro address above
    rw [byteSize] at above
    exact getElem?_poke_outside (by rw [length_leBytes]; omega)

namespace RecordID

def link (id : RecordID) : Option RecordID :=
  if id.isValid then some id else none

theorem link_of_isValid {id : RecordID} (valid : id.isValid = true) : id.link = some id :=
  if_pos valid

theorem eq_of_link_eq_some {id first : RecordID} (linked : id.link = some first) : id = first := by
  rw [link] at linked
  split_ifs at linked with valid
  exact Option.some.inj linked

theorem link_default : link {} = none := by
  rw [link, if_neg]
  rw [isValid, Bool.and_eq_true, PageID.isValid_iff]
  exact fun valid => valid.1 rfl

end RecordID

namespace TableHeap

abbrev Reading := TupleLayout → Except RecordError Record

abbrev HeapVersion := VersionStore.Version RecordID Nat Reading

def version (bytes : List UInt8) : HeapVersion where
  creator := (readMvcc bytes).xmin
  deleter :=
    if (readMvcc bytes).xmax = invalidTransactionID then none
    else some (readMvcc bytes).xmax
  previous := (readMvcc bytes).prevVersion.link
  body := RecordDeserializer.deserialize bytes

def versions (heap : TableHeap) : VersionStore.Store RecordID Nat Reading :=
  fun id => (heap.stored id).map version

variable {id : RecordID}

theorem versions_of_stored {heap : TableHeap} {bytes : List UInt8}
    (present : heap.stored id = some bytes) : heap.versions id = some (version bytes) := by
  rw [versions, present, Option.map_some]

theorem versions_update (heap after : TableHeap) (id : RecordID) (bytes : List UInt8)
    (changed : after.stored = Function.update heap.stored id (some bytes)) :
    after.versions = Function.update heap.versions id (some (version bytes)) := by
  funext other
  rw [versions, changed]
  by_cases same : other = id
  · rw [same, Function.update_self, Function.update_self, Option.map_some]
  · rw [Function.update_of_ne same, Function.update_of_ne same, versions]

theorem version_writeXmax {bytes : List UInt8}
    (size : byteSize ≤ bytes.length) {writer : Nat}
    (small : writer < 2 ^ 64) (issued : writer ≠ invalidTransactionID) :
    version (writeXmax bytes writer) =
      { version bytes with deleter := some writer } := by
  have body : RecordDeserializer.deserialize (writeXmax bytes writer) =
      RecordDeserializer.deserialize bytes := funext (RecordDeserializer.deserialize_writeXmax bytes
      writer)
  rw [version, RecordHeader.readMvcc_writeXmax size small, body]
  rw [if_neg issued]
  rfl

theorem version_stampVersion {bytes : List UInt8}
    (size : byteSize ≤ bytes.length) {creator : Nat}
    (small : creator < 2 ^ 64) {prev : RecordID}
    (smallPage : prev.pageId < 2 ^ 64) (smallSlot : prev.slotId < 2 ^ 32) :
    version (stampVersion bytes creator prev) =
      ⟨creator, none, prev.link, RecordDeserializer.deserialize
        (stampVersion bytes creator prev)⟩ := by
  rw [version, readMvcc_stampVersion size small smallPage smallSlot]
  rfl

/-- Every version holds a header. -/
def Sized (heap : TableHeap) : Prop :=
  ∀ id bytes, heap.stored id = some bytes → byteSize ≤ bytes.length

theorem Sized.update {heap after : TableHeap} (sized : Sized heap)
    {bytes : List UInt8} (size : byteSize ≤ bytes.length)
    (changed : after.stored = Function.update heap.stored id (some bytes)) : Sized after := by
  intro other found present
  rw [changed] at present
  by_cases same : other = id
  · rw [same, Function.update_self] at present
    cases present
    exact size
  · rw [Function.update_of_ne same] at present
    exact sized other found present

/-- The transactions whose writes the visibility rule shows to a reader. -/
def Sees (registry : TransactionRegistry) (snapshot : Snapshot) (reader : Nat) (id : Nat) : Prop :=
  id = reader ∨ snapshot.isActive id = false ∧ registry.isCommitted id = true

theorem sees_iff (registry : TransactionRegistry) (snapshot : Snapshot) (reader id : Nat) :
    (if id = reader then true
      else if snapshot.isActive id then false
      else registry.isCommitted id) = true ↔
      Sees registry snapshot reader id := by
  rw [Sees]
  by_cases own : id = reader
  · simp [own]
  · cases snapshot.isActive id with
    | true | false => simp [own]

theorem isVisible_iff_visible (registry : TransactionRegistry)
    (snapshot : Snapshot) (reader : Nat) (bytes : List UInt8) :
    isVisible registry (readMvcc bytes) snapshot reader = true ↔
      (version bytes).Visible (Sees registry snapshot reader) := by
  rw [isVisible, VersionStore.Version.Visible, version]
  generalize readMvcc bytes = mvcc
  have created := sees_iff registry snapshot reader mvcc.xmin
  have deleted := sees_iff registry snapshot reader mvcc.xmax
  generalize (if mvcc.xmin = reader then true else if snapshot.isActive mvcc.xmin then false else
    registry.isCommitted mvcc.xmin) = createdVisible at created ⊢
  generalize (if mvcc.xmax = reader then true else if snapshot.isActive mvcc.xmax then false else
    registry.isCommitted mvcc.xmax) = deleterVisible at deleted ⊢
  rw [← created]
  by_cases unmarked : mvcc.xmax = invalidTransactionID
  · rw [if_pos unmarked, if_pos unmarked]
    cases createdVisible <;> simp
  rw [if_neg unmarked, if_neg unmarked]
  cases createdVisible with
  | false => simp
  | true =>
    simp [← deleted]

def report (layout : TupleLayout) : Option Reading → Except HeapError Record
  | none => .error (.status .notFound)
  | some reading => (reading layout).mapError HeapError.thrown

theorem WellFormed.visitRecord_of_stored {supply : PageSupply}
    {heap : TableHeap} (wf : WellFormed supply heap) (sized : Sized heap)
    (layout : TupleLayout) (registry : TransactionRegistry)
    (snapshot : Snapshot) (reader : Nat) {bytes : List UInt8}
    (present : heap.stored id = some bytes) :
    visitRecord layout registry snapshot reader heap id =
      if isVisible registry (readMvcc bytes) snapshot reader then
        .done (report layout (some (version bytes).body))
      else .again (readMvcc bytes).prevVersion := by
  rw [visitRecord, if_pos (wf.isValid_of_stored present), wf.getBytes_of_stored present,
    visitVersion, if_pos (sized id bytes present)]
  rfl

theorem stored_of_versions {heap : TableHeap} {found : HeapVersion}
    (present : heap.versions id = some found) :
    ∃ bytes, heap.stored id = some bytes ∧ version bytes = found :=
  Option.map_eq_some_iff.mp present

/-- `get` returns the first visible version along the chain. -/
theorem WellFormed.get_of_reads {supply : PageSupply} {heap : TableHeap}
    (wf : WellFormed supply heap) (sized : Sized heap) (layout : TupleLayout)
    (registry : TransactionRegistry) (snapshot : Snapshot) (reader : Nat)
    {start : Option RecordID} {result : Option Reading}
    (reads : VersionStore.Reads (Sees registry snapshot reader) heap.versions
      start result) (starts : id.link = start) :
    ∃ rounds, TableHeap.get layout registry snapshot reader heap rounds id =
      some (report layout result) := by
  induction reads generalizing id with
  | exhausted =>
    have invalid : ¬ id.isValid = true := by
      intro valid
      rw [RecordID.link_of_isValid valid] at starts
      contradiction
    have ends : visitRecord layout registry snapshot reader heap id =
        .done (.error (.status .notFound)) := by rw [visitRecord, if_neg invalid]
    exact ⟨1, BoundedLoop.run_succ_of_done ends⟩
  | @found first found present visible =>
    obtain ⟨bytes, stored, rfl⟩ := stored_of_versions present
    obtain rfl := RecordID.eq_of_link_eq_some starts
    refine ⟨1, BoundedLoop.run_succ_of_done ?_⟩
    rw [wf.visitRecord_of_stored sized layout registry snapshot reader stored,
      if_pos ((isVisible_iff_visible _ _ _ _).mpr visible)]
  | @skipped first found result present hidden _ ih =>
    obtain ⟨bytes, stored, rfl⟩ := stored_of_versions present
    obtain rfl := RecordID.eq_of_link_eq_some starts
    obtain ⟨rounds, rest⟩ := ih rfl
    refine ⟨rounds + 1, ?_⟩
    rw [TableHeap.get, BoundedLoop.run_succ_of_again]
    · exact rest
    · rw [wf.visitRecord_of_stored sized layout registry snapshot reader stored, if_neg]
      exact fun visible => hidden ((isVisible_iff_visible _ _ _ _).mp visible)

structure Wrote (supply : PageSupply) (writer : Nat) (heap after : TableHeap) : Prop where
  wellFormed : WellFormed supply after
  sized : Sized after
  writes : VersionStore.Writes writer heap.versions after.versions

section Calls

variable {supply : PageSupply} {heap after : TableHeap} {writer : Nat}

theorem Kept.wrote (kept : Kept supply heap after) (sized : Sized heap) :
    Wrote supply writer heap after := by
  have same : after.versions = heap.versions := by
    funext id
    rw [versions, versions, kept.stored_eq]
  refine ⟨kept.wellFormed, ?_, ?_⟩
  · intro id bytes present
    rw [kept.stored_eq] at present
    exact sized id bytes present
  · rw [same]
    exact .refl

variable {id : RecordID} {layout : TupleLayout} {record : Record}

section

variable {bytes : List UInt8} {prev : RecordID}
  (added : Added supply heap (stampVersion bytes writer prev) id after)

include added

theorem Added.write (size : byteSize ≤ bytes.length) (small : writer < 2 ^ 64)
    (smallPage : prev.pageId < 2 ^ 64) (smallSlot : prev.slotId < 2 ^ 32)
    (handed : ∀ old, prev.link = some old → ∃ replaced,
      heap.versions old = some replaced ∧ replaced.deleter = some writer) :
    VersionStore.Write writer heap.versions after.versions := by
  rw [versions_update heap after id _ added.stored_eq,
    version_stampVersion size small smallPage smallSlot]
  refine .add id _ ?_ rfl rfl handed
  rw [versions, added.free, Option.map_none]

theorem Added.wrote (sized : Sized heap) (size : byteSize ≤ bytes.length)
    (write : VersionStore.Write writer heap.versions after.versions) :
    Wrote supply writer heap after := by
  refine ⟨added.wellFormed, sized.update ?_ added.stored_eq, Relation.ReflTransGen.single write⟩
  rw [length_stampVersion]
  exact size

end

section

variable {bytes : List UInt8} (marked : Marked supply heap writer id bytes after)

include marked

theorem Marked.write (small : writer < 2 ^ 64) (issued : writer ≠ invalidTransactionID) :
    VersionStore.Write writer heap.versions after.versions := by
  rw [versions_update heap after id _ marked.stored_eq,
    version_writeXmax marked.size_le small issued]
  refine .mark id (version bytes) (versions_of_stored marked.present) ?_
  rw [version]
  rcases marked.unclaimed with unmarked | own
  · rw [if_pos unmarked]
    exact Or.inl rfl
  · rw [own, if_neg issued]
    exact Or.inr rfl

theorem Marked.wrote (sized : Sized heap) (small : writer < 2 ^ 64)
    (issued : writer ≠ invalidTransactionID) : Wrote supply writer heap after := by
  refine ⟨marked.wellFormed, sized.update ?_ marked.stored_eq,
    Relation.ReflTransGen.single (marked.write small issued)⟩
  rw [RecordHeader.length_writeXmax]
  exact marked.size_le

end

theorem Wrote.trans {middle : TableHeap} (first : Wrote supply writer heap middle)
    (second : Wrote supply writer middle after) : Wrote supply writer heap after :=
  ⟨second.wellFormed, second.sized, Relation.ReflTransGen.trans first.writes second.writes⟩

theorem Marked.handed {bytes : List UInt8} (marked : Marked supply heap writer id bytes after)
    (small : writer < 2 ^ 64) (issued : writer ≠ invalidTransactionID)
    {old : RecordID} (linked : id.link = some old) :
    ∃ replaced, after.versions old = some replaced ∧ replaced.deleter = some writer := by
  obtain rfl := RecordID.eq_of_link_eq_some linked
  refine ⟨version (writeXmax bytes writer), ?_, ?_⟩
  · rw [versions_update heap after id _ marked.stored_eq, Function.update_self]
  · rw [version_writeXmax marked.size_le small issued]

theorem Marked.replacement {middle : TableHeap} {bytes newBytes : List UInt8}
    {newId : RecordID} (marked : Marked supply heap writer id bytes middle)
    (wf : WellFormed supply heap)
    (added : Added supply middle (stampVersion newBytes writer id) newId after)
    (serialized : RecordSerializer.serialize record layout = .ok newBytes)
    (small : writer < 2 ^ 64) (issued : writer ≠ invalidTransactionID) :
    VersionStore.Write writer middle.versions after.versions := by
  have bounds := wf.stored_bounds marked.present
  rw [PageID.invalid, RecordID.invalidSlot] at bounds
  exact added.write (RecordSerializer.byteSize_le_of_serialize serialized)
    small (by omega) (by omega) fun old => marked.handed small issued

theorem Added.unlinked {bytes : List UInt8}
    (added : Added supply heap (stampVersion bytes writer {}) id after)
    (serialized : RecordSerializer.serialize record layout = .ok bytes) (small : writer < 2 ^ 64) :
    VersionStore.Write writer heap.versions after.versions := by
  refine added.write (RecordSerializer.byteSize_le_of_serialize serialized) small ?_ ?_ ?_
  · exact Nat.sub_lt (by omega) (by omega)
  · exact Nat.sub_lt (by omega) (by omega)
  · intro old linked
    contradiction

theorem UpdateEffect.wrote (effect : UpdateEffect supply layout heap writer id record after)
    (wf : WellFormed supply heap) (sized : Sized heap) (small : writer < 2 ^ 64)
    (issued : writer ≠ invalidTransactionID) : Wrote supply writer heap after := by
  cases effect with
  | kept same => exact same.wrote sized
  | marked bytes first => exact first.wrote sized small issued
  | replaced middle bytes newBytes newId first serialized second =>
    have marked := first.wrote sized small issued
    exact marked.trans (second.wrote marked.sized (RecordSerializer.byteSize_le_of_serialize
      serialized) (first.replacement wf second serialized small issued))

theorem WellFormed.insert_wrote (wf : WellFormed supply heap)
    (sized : Sized heap) (layout : TupleLayout) (txn : Transaction)
    (record : Record) (order : DescendingSort TablePage.SlotRef.offset)
    (lsn : Option Nat) (small : txn.id < 2 ^ 64) :
    let result := TableHeap.insert supply layout heap txn record order lsn
    SameOwner txn result.2.transaction ∧
      Wrote supply txn.id heap result.2.heap := by
  obtain ⟨owner, effect⟩ := wf.insert layout txn record order lsn
  refine ⟨owner, ?_⟩
  rcases effect with kept | ⟨id, bytes, serialized, added⟩
  · exact kept.wrote sized
  · exact added.wrote sized (RecordSerializer.byteSize_le_of_serialize serialized)
      (added.unlinked serialized small)

theorem WellFormed.erase_wrote (wf : WellFormed supply heap)
    (sized : Sized heap) (txn : Transaction) (id : RecordID)
    (lsn : Option Nat) (small : txn.id < 2 ^ 64)
    (issued : txn.id ≠ invalidTransactionID) :
    let result := TableHeap.erase heap txn id lsn
    SameOwner txn result.2.transaction ∧
      Wrote supply txn.id heap result.2.heap := by
  have outcome := wf.markDeleted .delete txn id lsn
  rw [TableHeap.erase]
  generalize TableHeap.markDeleted .delete heap txn id lsn = result at outcome
  obtain ⟨returned, call⟩ := result
  obtain ⟨owner, done⟩ := outcome
  refine ⟨owner, ?_⟩
  cases returned with
  | error failure => exact done.1.wrote sized
  | ok value =>
    obtain ⟨bytes, marked⟩ := done
    exact marked.wrote sized small issued

end Calls

end TableHeap

end KlyroDB
