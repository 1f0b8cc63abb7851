import KlyroDB.VersionUniqueness
import KlyroDB.RecordIdentity

/-!
# Reading updated rows

`update` marks the old version before it looks for room for the new one.  `get`
follows the links between versions backwards only: under the identifier of the
old version it never finds the record of the update.
-/

namespace KlyroDB

open TableHeap (stampVersion version_writeXmax)
open RecordHeader (byteSize readMvcc writeXmax)
open HeapHistory (flagUpdate)

namespace TableHeap

/-- The version is stored and nobody has marked it. -/
def Unmarked (heap : TableHeap) (id : RecordID) : Prop :=
  ∃ bytes, heap.stored id = some bytes ∧ byteSize ≤ bytes.length ∧
    (readMvcc bytes).xmax = invalidTransactionID

/-- All versions are as before, and the given one is visible to the same
readers. -/
structure LeftAlone (heap after : TableHeap) (id : RecordID) : Prop where
  stored_eq : after.stored = heap.stored
  visible_eq : ∀ registry snapshot reader,
    (after.stored id).map (fun bytes =>
        isVisible registry (readMvcc bytes) snapshot reader) =
      (heap.stored id).map (fun bytes =>
        isVisible registry (readMvcc bytes) snapshot reader)

section Failure

variable {supply : PageSupply} {heap after : TableHeap} {id : RecordID}

theorem leftAlone_of_stored_eq (same : after.stored = heap.stored) : LeftAlone heap after id :=
  ⟨same, fun _ _ _ => by rw [same]⟩

/-- A mark changes a version exactly if it had none. -/
theorem Marked.leftAlone_iff {writer : Nat} {bytes : List UInt8}
    (marked : Marked supply heap writer id bytes after)
    (small : writer < 2 ^ 64) (issued : writer ≠ invalidTransactionID) :
    LeftAlone heap after id ↔ ¬ Unmarked heap id := by
  constructor
  · rintro ⟨same, -⟩ ⟨found, present, -, unmarked⟩
    rw [marked.present] at present
    cases present
    have here := congrFun same id
    rw [marked.stored_eq, Function.update_self, marked.present] at here
    have xmax := congrArg MVCCHeader.xmax (RecordHeader.readMvcc_writeXmax marked.size_le small)
    rw [Option.some.inj here, unmarked] at xmax
    exact issued xmax.symm
  intro claimed
  rcases marked.unclaimed with unmarked | own
  · exact absurd ⟨bytes, marked.present, marked.size_le, unmarked⟩ claimed
  · apply leftAlone_of_stored_eq
    rw [marked.stored_eq, RecordHeader.writeXmax_of_xmax marked.size_le own]
    exact Function.update_eq_self_iff.mpr marked.present.symm

end Failure

/-- An update that fails has left the heap alone exactly if the old version was
not there or had a mark. -/
theorem failed_update_leaves_heap_iff (supply : PageSupply)
    (heap : TableHeap) (wf : WellFormed supply heap)
    (transaction : Transaction) (small : transaction.id < 2 ^ 64)
    (issued : transaction.id ≠ invalidTransactionID) (layout : TupleLayout)
    (id : RecordID) (record : Record) (markLsn insertLsn : Option Nat) (failure : HeapError)
    (failed : (update layout heap transaction id record markLsn insertLsn).1 = .error failure) :
    LeftAlone heap (update layout heap transaction id record markLsn insertLsn).2.heap id ↔
      ¬ Unmarked heap id := by
  obtain ⟨-, outcome⟩ := wf.update_outcome layout transaction id record markLsn insertLsn
  rw [failed] at outcome
  rcases outcome with ⟨kept, notMarkable, -⟩ | ⟨-, bytes, marked⟩
  · apply iff_of_true (leftAlone_of_stored_eq kept.stored_eq)
    rintro ⟨bytes, present, size, unmarked⟩
    exact notMarkable ⟨bytes, present, size, Or.inl unmarked⟩
  · exact marked.leftAlone_iff small issued

/-- One page of 128 bytes: room for one record of 41 bytes. -/
def narrowPage : PageSupply where
  first := ⟨1, List.replicate 128 0⟩
  rest := []
  exhausted := .ioError
  distinct := by decide
  valid := by decide +kernel
  large := by decide +kernel

theorem failed_update_leaves_heap_missing :
    LeftAlone (create narrowPage)
      (update TransactionalHeap.flagLayout (create narrowPage) { id := 2 }
        ⟨9, 0⟩ TransactionalHeap.flagRecord none none).2.heap ⟨9, 0⟩ := by
  obtain ⟨wf, empty⟩ := create_wellFormed narrowPage
  have missing : (create narrowPage).pages 9 = none := rfl
  have failed : (update TransactionalHeap.flagLayout (create narrowPage) { id := 2 } ⟨9, 0⟩
      TransactionalHeap.flagRecord none none).1 = .error (.status .ioError) := by
    rfl
  rw [failed_update_leaves_heap_iff narrowPage _ wf _ (by decide) (by decide) _ _ _ _ _ _ failed]
  rintro ⟨bytes, present, -⟩
  rw [empty] at present
  cases present

open TransactionalHeap (firstInsert firstWriter flagLayout flagRecord flagBytes
  serialize_flagRecord readMvcc_flagVersion byteSize_le_flagBytes)

theorem run_narrowPage :
    ∃ heap, TransactionalHeap.run narrowPage
        (firstInsert flagLayout flagRecord) = ⟨firstWriter, heap⟩ ∧
      Roomy narrowPage heap 1 7 ∧ heap.firstPageId = 1 ∧
      heap.stored ⟨1, 0⟩ = some (stampVersion flagBytes 1 {}) := by
  have limit : narrowPage.first.limit = 132 := by decide +kernel
  have length : flagBytes.length = 41 := by decide +kernel
  have room : 132 - 72 - (41 + TablePage.sizeofSlot) = 7 := by decide
  have small : narrowPage.first.pageSize < 2 ^ 32 := by decide +kernel
  have page : narrowPage.first.pageId = 1 := rfl
  obtain ⟨heap, ran, added, first, roomy⟩ := TransactionalHeap.run_firstInsert small
    serialize_flagRecord (by rw [limit, length]; decide)
  rw [limit, length, room] at roomy
  rw [page] at added first
  have present := congrFun added.stored_eq ⟨1, 0⟩
  rw [Function.update_self] at present
  exact ⟨heap, ran, roomy, first, present⟩

/-- The second transaction marks the record and finds no room for its
successor. -/
theorem failed_update_marks :
    ∃ heap call status, TransactionalHeap.run narrowPage
        (firstInsert flagLayout flagRecord) = ⟨firstWriter, heap⟩ ∧
      update flagLayout heap { id := 2 } ⟨1, 0⟩ flagRecord none none =
        (.error (.status status), call) ∧
      ¬ LeftAlone heap call.heap ⟨1, 0⟩ := by
  obtain ⟨heap, ran, roomy, first, present⟩ := run_narrowPage
  have unmarked : (readMvcc (stampVersion flagBytes 1 {})).xmax =
      invalidTransactionID := by rw [readMvcc_flagVersion]
  have size : byteSize ≤ (stampVersion flagBytes 1 {}).length := by
    exact byteSize_le_flagBytes
  obtain ⟨call, status, failed, marked⟩ := roomy.update_full { id := 2 } first.symm present
    (Or.inl unmarked) serialize_flagRecord rfl (by decide +kernel)
  refine ⟨heap, call, status, ran, failed, ?_⟩
  rw [marked.leftAlone_iff (by decide) (by decide), not_not]
  exact ⟨_, present, size, unmarked⟩

/-- `get` returns the record, if it may make enough rounds. -/
def Returns (layout : TupleLayout) (registry : TransactionRegistry) (snapshot : Snapshot)
    (reader : Nat) (heap : TableHeap) (id : RecordID) (found : Record) : Prop :=
  ∃ enough, ∀ rounds, enough ≤ rounds →
    get layout registry snapshot reader heap rounds id = some (.ok found)

/-- The first version before the given one that the reader sees holds the
record. -/
def OlderReads (layout : TupleLayout) (sees : Nat → Prop) (heap : TableHeap)
    (id : RecordID) (found : Record) : Prop :=
  ∃ bytes reading, heap.stored id = some bytes ∧ VersionStore.Reads sees heap.versions
    (version bytes).previous (some reading) ∧ reading layout = .ok found

section Reading

variable {supply : PageSupply} {heap : TableHeap} {layout : TupleLayout}
  {id : RecordID} {bytes : List UInt8} {result : Option Reading}

theorem report_eq_ok_iff {found : Record} :
    report layout result = .ok found ↔
      ∃ reading, result = some reading ∧ reading layout = .ok found := by
  cases result with
  | none => simp [report]
  | some reading =>
    cases answer : reading layout with
    | ok record | error failure => simp [report, answer, Except.mapError]

theorem olderReads_iff_report {sees : Nat → Prop} (present : heap.stored id = some bytes)
    (reads : VersionStore.Reads sees heap.versions (version bytes).previous
      result) {found : Record} :
    OlderReads layout sees heap id found ↔ report layout result = .ok found := by
  rw [report_eq_ok_iff]
  constructor
  · rintro ⟨again, reading, presentAgain, readsAgain, holds⟩
    rw [present] at presentAgain
    cases presentAgain
    exact ⟨reading, reads.unique readsAgain, holds⟩
  · rintro ⟨reading, rfl, holds⟩
    exact ⟨bytes, reading, present, reads, holds⟩

/-- A version that the reader does not see is passed over. -/
theorem WellFormed.returns_iff_report (wf : WellFormed supply heap)
    (sized : Sized heap) {registry : TransactionRegistry} {snapshot : Snapshot} {reader : Nat}
    (present : heap.stored id = some bytes)
    (hidden : ¬ (version bytes).Visible (Sees registry snapshot reader))
    (reads : VersionStore.Reads (Sees registry snapshot reader) heap.versions
      (version bytes).previous result) {found : Record} :
    Returns layout registry snapshot reader heap id found ↔ report layout result = .ok found := by
  have whole := VersionStore.Reads.skipped (versions_of_stored present) hidden reads
  obtain ⟨needed, answer⟩ := wf.get_of_reads sized layout registry snapshot
    reader whole (RecordID.link_of_isValid (wf.isValid_of_stored present))
  constructor
  · rintro ⟨enough, returned⟩
    have last := returned (max enough needed) (le_max_left _ _)
    rw [get, BoundedLoop.run_of_le (le_max_right _ _) answer] at last
    exact Option.some.inj last
  · intro same
    rw [same] at answer
    exact ⟨needed, fun rounds enough => BoundedLoop.run_of_le enough answer⟩

end Reading

end TableHeap

namespace TransactionalHeap

open TableHeap (Sees Returns OlderReads version versions_of_stored stored_of_versions)

variable {supply : PageSupply}

structure Superseded (state after : TransactionalHeap) (writer : Nat) (id : RecordID) : Prop where
  registry_eq : after.manager.registry = state.manager.registry
  exists_stored : ∃ bytes later, state.heap.stored id = some bytes ∧
    after.heap.stored id = some later ∧
    version later = { version bytes with deleter := some writer }
  others : ∀ other found, other ≠ id → state.heap.versions other = some found →
    after.heap.versions other = some found

variable {writer : Nat}

theorem Sound.superseded {state : TransactionalHeap}
    (sound : Sound supply state) (fits : state.Fits) {txn : Transaction}
    (found : state.manager.transactions.lookup writer = some txn)
    (active : txn.state = .active) {layout : TupleLayout}
    {id : RecordID} {record : Record} {markLsn insertLsn : Option Nat}
    (updated : (TableHeap.update layout state.heap txn id record markLsn insertLsn).1 = .ok ()) :
    Superseded state (TransactionalHeap.step supply state
      (.update writer layout id record markLsn insertLsn)) writer id := by
  obtain ⟨sameId, registered⟩ := sound.consistent.object_state writer txn found
  obtain ⟨positive, below⟩ := (sound.consistent.registered_iff writer).mp
    (TransactionManager.mem_registry_of_lookup registered)
  have small : writer < 2 ^ 64 := lt_of_lt_of_le below fits
  have issued : writer ≠ invalidTransactionID := by
    rw [invalidTransactionID]
    omega
  obtain ⟨-, outcome⟩ := sound.wellFormed.update_outcome layout txn id record markLsn insertLsn
  rw [updated] at outcome
  obtain ⟨middle, bytes, newBytes, newId, marked, -, added⟩ := outcome
  rw [sameId] at marked added
  rw [TransactionalHeap.step, write_of_active found active]
  have kept : ∀ other, other ≠ newId → (TableHeap.update layout state.heap txn id record
      markLsn insertLsn).2.heap.stored other = middle.stored other := by
    intro other ne
    rw [added.stored_eq, Function.update_of_ne ne]
  have fresh : ∀ other, middle.stored other ≠ none → other ≠ newId := by
    rintro other present rfl
    exact present added.free
  have here : middle.stored id = some (writeXmax bytes writer) := by
    rw [marked.stored_eq, Function.update_self]
  refine ⟨rfl, ⟨bytes, writeXmax bytes writer, marked.present,
    ?_, version_writeXmax marked.size_le small issued⟩, ?_⟩
  · rw [kept id (fresh id (by rw [here]; simp)), here]
  intro other older ne present
  obtain ⟨data, stored, rfl⟩ := stored_of_versions present
  have unmarked : middle.stored other = some data := by
    rw [marked.stored_eq, Function.update_of_ne ne, stored]
  apply versions_of_stored
  rw [kept other (fresh other (by rw [unmarked]; simp)), unmarked]

theorem not_visible_of_deleter {sees : Nat → Prop}
    {found : TableHeap.HeapVersion} (deleted : found.deleter = some writer)
    (seen : sees writer) : ¬ found.Visible sees :=
  fun visible => visible.2 writer deleted seen

/-- Right after the update, its transaction finds under the old identifier what
versions before that one hold. -/
theorem Sound.returns_own_iff {state after : TransactionalHeap}
    (sound : Sound supply state) (soundAfter : Sound supply after)
    {id : RecordID} (superseded : Superseded state after writer id)
    (layout : TupleLayout) (snapshot : Snapshot) (found : Record) :
    Returns layout after.manager.registry snapshot writer after.heap id found ↔
      OlderReads layout (Sees state.manager.registry snapshot writer) state.heap id found := by
  obtain ⟨bytes, later, present, presentLater, marked⟩ := superseded.exists_stored
  have stored := versions_of_stored present
  obtain ⟨result, reads⟩ := sound.chained.exists_reads_previous
    (Sees state.manager.registry snapshot writer) stored
  obtain ⟨rank, descends⟩ := sound.chained.rank
  have below : ∀ old, (version bytes).previous = some old → rank old < rank id := fun old linked =>
      descends old id ⟨_, stored, linked⟩
  have agree : ∀ other older, rank other < rank id → state.heap.versions other = some older →
      after.heap.versions other = some older := by
    intro other older lower there
    apply superseded.others other older _ there
    rintro rfl
    exact Nat.lt_irrefl _ lower
  have readsLater := reads.of_agree_below descends agree below
  have samePrevious : (version later).previous = (version bytes).previous := by rw [marked]
  rw [← samePrevious, ← superseded.registry_eq] at readsLater
  rw [TableHeap.olderReads_iff_report present reads]
  apply soundAfter.wellFormed.returns_iff_report soundAfter.sized presentLater _ readsLater
  exact not_visible_of_deleter (by rw [marked]) (Or.inl rfl)

theorem Sound.returns_later_iff {after middle final : TransactionalHeap}
    (soundMiddle : Sound supply middle) (soundFinal : Sound supply final)
    (progress : Progress middle final) {id : RecordID} {later : List UInt8}
    (present : after.heap.stored id = some later) (marked : (version later).deleter = some writer)
    (extended : VersionStore.Extends (fun _ => True) after.heap.versions final.heap.versions)
    (committed : middle.manager.registry.isCommitted writer = true)
    (layout : TupleLayout) (reader : Nat) (found : Record) :
    Returns layout final.manager.registry middle.manager.createSnapshot reader final.heap id found ↔
      OlderReads layout (Sees final.manager.registry
        middle.manager.createSnapshot reader) final.heap id found := by
  obtain ⟨aged, there, old⟩ := extended id _ (versions_of_stored present)
  obtain ⟨bytes, stored, rfl⟩ := stored_of_versions there
  obtain ⟨result, reads⟩ := soundFinal.chained.exists_reads_previous
    (Sees final.manager.registry middle.manager.createSnapshot reader) there
  have seen := (sees_iff_committed soundMiddle soundFinal progress reader
    writer).mpr (Or.inr committed)
  rw [TableHeap.olderReads_iff_report stored reads]
  apply soundFinal.wellFormed.returns_iff_report soundFinal.sized stored _ reads
  exact not_visible_of_deleter (old.deleter_of_marked marked) seen

/-- After a successful update, `get` under the identifier that was updated
returns exactly what versions before that one hold: to the transaction itself,
and, once it has committed, under every later snapshot. -/
theorem get_after_update (supply : PageSupply) (steps : List HeapStep)
    (writer : Nat) (transaction : Transaction)
    (known : (run supply steps).manager.transactions.lookup writer = some transaction)
    (active : transaction.state = .active) (layout : TupleLayout)
    (id : RecordID) (record : Record) (markLsn insertLsn : Option Nat)
    (updated : (TableHeap.update layout (run supply steps).heap transaction id
      record markLsn insertLsn).1 = .ok ()) (before : List HeapStep) (ends : before = steps ++
      [.update writer layout id record markLsn insertLsn]) (between further : List HeapStep)
    (fits : (run supply (before ++ between ++ further)).Fits) :
    (∀ snapshot found, Returns layout (run supply before).manager.registry snapshot writer
        (run supply before).heap id found ↔
      OlderReads layout (Sees (run supply steps).manager.registry snapshot writer)
        (run supply steps).heap id found) ∧
    ((run supply (before ++ between)).manager.registry.isCommitted writer = true →
      ∀ reader found, Returns layout (run supply (before ++ between ++ further)).manager.registry
          (run supply (before ++ between)).manager.createSnapshot reader
          (run supply (before ++ between ++ further)).heap id found ↔
        OlderReads layout (Sees (run supply (before ++ between ++ further)).manager.registry
            (run supply (before ++ between)).manager.createSnapshot reader)
          (run supply (before ++ between ++ further)).heap id found) := by
  have fitsMiddle := fits_of_append fits
  have fitsBefore := fits_of_append fitsMiddle
  have stepped : run supply before = step supply (run supply steps)
      (.update writer layout id record markLsn insertLsn) := by
    rw [ends]
    exact run_append supply steps _
  have fitsStart : (run supply steps).Fits := by
    rw [ends] at fitsBefore
    exact fits_of_append fitsBefore
  have start := sound_run fitsStart
  have superseded := start.superseded fitsStart known active updated
  rw [← stepped] at superseded
  have soundBefore := sound_run fitsBefore
  constructor
  · exact start.returns_own_iff soundBefore superseded layout
  intro committed reader found
  obtain ⟨bytes, later, -, present, marked⟩ := superseded.exists_stored
  have extended := soundBefore.versions_run (between ++ further)
    (by rw [← run_append, ← List.append_assoc]; exact fits)
  rw [← run_append, ← List.append_assoc] at extended
  exact (sound_run fitsMiddle).returns_later_iff (sound_run fits) (progress_run fits) present
    (by rw [marked]) extended committed layout reader found

theorem not_olderReads_of_first {layout : TupleLayout} {sees : Nat → Prop}
    {heap : TableHeap} {id : RecordID} {bytes : List UInt8} (present : heap.stored id = some bytes)
    (unlinked : (version bytes).previous = none) (found : Record) :
    ¬ OlderReads layout sees heap id found := by
  rintro ⟨again, reading, presentAgain, reads, -⟩
  rw [present] at presentAgain
  cases presentAgain
  rw [unlinked] at reads
  cases reads

theorem flagRecord_updated :
    ∃ heap, run onePage (firstInsert flagLayout flagRecord) = ⟨firstWriter, heap⟩ ∧
      heap.stored ⟨1, 0⟩ = some (stampVersion flagBytes 1 {}) ∧
      (TableHeap.update flagLayout heap
        { id := 1, isoLevel := .repeatableRead } ⟨1, 0⟩ flagRecord none
        none).1 = .ok () := by
  obtain ⟨heap, ran, added, first, roomy⟩ := run_flagRecord
  have length : flagBytes.length = 41 := by decide +kernel
  have present : heap.stored ⟨1, 0⟩ = some (stampVersion flagBytes 1 {}) := by
    rw [added.stored_eq, Function.update_self]
  obtain ⟨call, middle, updated, -⟩ := roomy.update { id := 1, isoLevel := .repeatableRead }
    first.symm present (Or.inl (by rw [readMvcc_flagVersion])) serialize_flagRecord
    (by rw [length]; decide)
  exact ⟨heap, ran, present, by rw [updated]⟩

theorem previous_flagVersion :
    (version (stampVersion flagBytes 1 {})).previous = none := by
  exact RecordID.link_default

def updateCommitted : List HeapStep := [.call (.commit (some 1) .absent)]

theorem run_updateCommitted :
    ∃ manager heap, run onePage (firstInsert flagLayout flagRecord ++
        [flagUpdate] ++ updateCommitted) = ⟨manager, heap⟩ ∧
      manager.registry.isCommitted 1 = true ∧
      heap.stored ⟨1, 0⟩ = some (writeXmax (stampVersion flagBytes 1 {}) 1) := by
  obtain ⟨object, heap, ran, sameId, active, -, -, old, -⟩ := HeapHistory.run_flagUpdate
  have registered : firstWriter.registry.lookup 1 = some .active := rfl
  generalize managerEq : ({ firstWriter with
    transactions := firstWriter.transactions.insert 1 object } :
      TransactionManager) = manager at ran
  have found : manager.transactions.lookup 1 = some object := by
    rw [← managerEq]
    exact AList.lookup_insert _
  have committed : manager.step (.commit (some 1) .absent) = manager.finish object .committed := by
    rw [TransactionManager.step, TransactionManager.commit,
      TransactionManager.target, Option.bind_some, found]
    dsimp only
    rw [if_neg (not_not_intro active)]
  refine ⟨manager.finish object .committed, heap, ?_, ?_, old⟩
  · rw [run_append, ran, ← committed]
    rfl
  · rw [TransactionManager.finish, sameId, TransactionRegistry.isCommitted,
      TransactionRegistry.getState, ← managerEq,
      TransactionRegistry.lookup_updateState _ _ registered]
    rfl

/-- The transaction commits, and a second one begins to read. -/
theorem get_after_update_committed :
    ∃ before, before = firstInsert flagLayout flagRecord ++ [flagUpdate] ∧
      (∀ snapshot, ¬ Returns flagLayout (run onePage before).manager.registry
        snapshot 1 (run onePage before).heap ⟨1, 0⟩ flagRecord) ∧
      ¬ Returns flagLayout (run onePage (before ++ updateCommitted ++ writerBegun)).manager.registry
        (run onePage (before ++ updateCommitted)).manager.createSnapshot 2
        (run onePage (before ++ updateCommitted ++ writerBegun)).heap ⟨1, 0⟩ flagRecord := by
  obtain ⟨heap, ran, present, updated⟩ := flagRecord_updated
  obtain ⟨manager, last, ranLast, committed, old⟩ := run_updateCommitted
  have known : (run onePage (firstInsert flagLayout flagRecord)).manager.transactions.lookup 1 =
      some { id := 1, isoLevel := .repeatableRead } := by
    rw [ran]
    exact AList.lookup_insert _
  rw [← show (run onePage (firstInsert flagLayout flagRecord)).heap = heap by
    rw [ran]] at present updated
  obtain ⟨own, later⟩ := get_after_update onePage _ 1 _ known rfl flagLayout ⟨1, 0⟩ flagRecord none
    none updated (firstInsert flagLayout flagRecord ++ [flagUpdate]) rfl updateCommitted
    writerBegun (fits_of_length (by decide))
  refine ⟨_, rfl, fun snapshot => ?_, ?_⟩
  · rw [own]
    exact not_olderReads_of_first present previous_flagVersion flagRecord
  have size : byteSize ≤ (stampVersion flagBytes 1 {}).length := by
    rw [TableHeap.length_stampVersion]
    exact byteSize_le_flagBytes
  have unlinked : (version (writeXmax
      (stampVersion flagBytes 1 {}) 1)).previous = none := by
    rw [version_writeXmax size (by decide) (by decide)]
    exact previous_flagVersion
  rw [later (by rw [ranLast]; exact committed), run_append, ranLast]
  exact not_olderReads_of_first old unlinked flagRecord

/-- The transaction does not find the record that it has written. -/
theorem updated_row_not_found :
    ∃ heap, run onePage (firstInsert flagLayout flagRecord) = ⟨firstWriter, heap⟩ ∧
      (TableHeap.update flagLayout heap
        { id := 1, isoLevel := .repeatableRead } ⟨1, 0⟩ flagRecord none
        none).1 = .ok () ∧
      ∀ snapshot, ¬ Returns flagLayout
        (step onePage ⟨firstWriter, heap⟩ flagUpdate).manager.registry snapshot 1
        (step onePage ⟨firstWriter, heap⟩ flagUpdate).heap ⟨1, 0⟩
        flagRecord := by
  obtain ⟨heap, ran, present, updated⟩ := flagRecord_updated
  have fits : (run onePage (firstInsert flagLayout flagRecord)).Fits := fits_of_length (by decide)
  have sound := sound_run fits
  rw [ran] at fits sound
  refine ⟨heap, ran, updated, fun snapshot => ?_⟩
  have known : firstWriter.transactions.lookup 1 = some { id := 1, isoLevel := .repeatableRead } :=
      AList.lookup_insert _
  have superseded := sound.superseded fits known rfl updated
  rw [flagUpdate, sound.returns_own_iff (sound.step fits _) superseded]
  exact not_olderReads_of_first present previous_flagVersion flagRecord

end TransactionalHeap

end KlyroDB
