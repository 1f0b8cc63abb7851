import KlyroDB.TransactionalHeap

/-!
# Record identifiers

Over every run a record identifier keeps its version: its bytes change in the
deleter only, and that at most once.
-/

namespace KlyroDB

open RecordHeader (readMvcc)
open RecordSerializer (byteSize_le_of_serialize)
open ByteMemory

/-- A call on a table heap, on behalf of a transaction. -/
inductive HeapCall
  | insert (transaction : Transaction) (layout : TupleLayout) (record : Record)
      (order : DescendingSort TablePage.SlotRef.offset) (lsn : Option Nat)
  | update (transaction : Transaction) (layout : TupleLayout)
      (id : RecordID) (record : Record) (markLsn insertLsn : Option Nat)
  | erase (transaction : Transaction) (id : RecordID) (lsn : Option Nat)

namespace HeapCall

def writer : HeapCall → Nat
  | .insert transaction _ _ _ _ => transaction.id
  | .update transaction _ _ _ _ _ => transaction.id
  | .erase transaction _ _ => transaction.id

def apply (supply : PageSupply) (heap : TableHeap) : HeapCall → TableHeap
  | .insert transaction layout record order lsn =>
      (TableHeap.insert supply layout heap transaction record order lsn).2.heap
  | .update transaction layout id record markLsn insertLsn => (TableHeap.update layout heap
      transaction id record markLsn insertLsn).2.heap
  | .erase transaction id lsn => (TableHeap.erase heap transaction id lsn).2.heap

/-- The identifier of the version that an `update` has created is in the last
undo record of the transaction. -/
def replacement : Except HeapError Unit × TableHeap.Call → Option RecordID
  | (.ok _, call) => call.transaction.undoRecords.getLast?.map UndoRecord.recordId
  | (.error _, _) => none

/-- The identifier that a call returns, or creates. -/
def handsOut (supply : PageSupply) (heap : TableHeap) : HeapCall → Option RecordID
  | .insert transaction layout record order lsn => (TableHeap.insert supply layout heap transaction
      record order lsn).1.toOption
  | .update transaction layout id record markLsn insertLsn => replacement (TableHeap.update layout
      heap transaction id record markLsn insertLsn)
  | .erase _ _ _ => none

def run (supply : PageSupply) (calls : List HeapCall) : TableHeap :=
  GuardedRuns.run (fun heap call => call.apply supply heap) (TableHeap.create supply) calls

end HeapCall

namespace RecordHeader

/-- What later calls may do to the bytes of a version: a version without a
deleter may get one of the writers. -/
def Claimed (writers : Nat → Prop) (bytes later : List UInt8) : Prop :=
  later = bytes ∨ (readMvcc bytes).xmax = invalidTransactionID ∧ ∃ writer, writers writer ∧ writer ≠
    invalidTransactionID ∧ later = writeXmax bytes writer

theorem Claimed.mono {writers more : Nat → Prop}
    {bytes later : List UInt8} (claimed : Claimed writers bytes later)
    (included : ∀ writer, writers writer → more writer) : Claimed more bytes later := by
  rcases claimed with same | ⟨unmarked, writer, among, issued, marked⟩
  · exact .inl same
  · exact .inr ⟨unmarked, writer, included writer among, issued, marked⟩

/-- A deleter stays. -/
theorem Claimed.trans {writers : Nat → Prop} (small : ∀ writer, writers writer → writer < 2 ^ 64)
    {first second third : List UInt8} (size : byteSize ≤ first.length)
    (early : Claimed writers first second)
    (late : Claimed writers second third) : Claimed writers first third := by
  rcases early with rfl | ⟨unmarked, writer, among, issued, marked⟩
  · exact late
  · rcases late with rfl | ⟨stillUnmarked, _⟩
    · exact .inr ⟨unmarked, writer, among, issued, marked⟩
    · rw [marked, readMvcc_writeXmax size (small writer among)] at stillUnmarked
      exact absurd stillUnmarked issued

theorem writeXmax_of_xmax {bytes : List UInt8} (size : byteSize ≤ bytes.length) {id : Nat}
    (same : (readMvcc bytes).xmax = id) : writeXmax bytes id = bytes := by
  rw [byteSize] at size
  exact writeNat_eq_self (by omega) same

theorem claimed_writeXmax {bytes : List UInt8} (size : byteSize ≤ bytes.length) {writer : Nat}
    (unclaimed : (readMvcc bytes).xmax = invalidTransactionID ∨ (readMvcc bytes).xmax = writer) :
    Claimed (fun other => other = writer) bytes (writeXmax bytes writer) := by
  rcases unclaimed with unmarked | own
  · by_cases issued : writer = invalidTransactionID
    · exact .inl (writeXmax_of_xmax size (unmarked.trans issued.symm))
    · exact .inr ⟨unmarked, writer, rfl, issued, rfl⟩
  · exact .inl (writeXmax_of_xmax size own)

end RecordHeader

namespace TableHeap

/-- Every stored version is still there, up to its deleter. -/
def Lasting (writers : Nat → Prop) (heap later : TableHeap) : Prop :=
  ∀ id bytes, heap.stored id = some bytes → ∃ kept, later.stored id = some kept ∧
    RecordHeader.Claimed writers bytes kept

/-- The links from the version lead over readable versions to an end. -/
inductive ChainEnds (heap : TableHeap) : RecordID → Prop
  | first {id : RecordID} {bytes : List UInt8} (read : heap.getBytes id = .ok bytes) (unlinked :
      (readMvcc bytes).prevVersion.isValid = false) : ChainEnds heap id
  | replaced {id : RecordID} {bytes : List UInt8} (read : heap.getBytes id = .ok bytes) (linked :
      (readMvcc bytes).prevVersion.isValid = true) (rest : ChainEnds heap
      (readMvcc bytes).prevVersion) : ChainEnds heap id

structure Steady (supply : PageSupply) (heap : TableHeap) : Prop where
  wellFormed : WellFormed supply heap
  sized : Sized heap
  grounded : VersionStore.Grounded heap.versions

structure Stepped (supply : PageSupply) (writer : Nat) (heap after : TableHeap) : Prop where
  steady : Steady supply after
  lasting : Lasting (fun other => other = writer) heap after

section Calls

variable {supply : PageSupply} {heap after : TableHeap} {writer : Nat}

theorem Lasting.refl (writers : Nat → Prop) (heap : TableHeap) : Lasting writers heap heap :=
  fun _ bytes present => ⟨bytes, present, .inl rfl⟩

theorem Lasting.trans {writers : Nat → Prop} (small : ∀ writer, writers writer → writer < 2 ^ 64)
    {middle : TableHeap} (sized : Sized heap) (early : Lasting writers heap middle)
    (late : Lasting writers middle after) : Lasting writers heap after := by
  intro id bytes present
  obtain ⟨kept, there, claimed⟩ := early id bytes present
  obtain ⟨last, found, claimedLater⟩ := late id kept there
  exact ⟨last, found, claimed.trans small (sized id bytes present) claimedLater⟩

theorem Kept.stepped (kept : Kept supply heap after)
    (steady : Steady supply heap) : Stepped supply writer heap after := by
  have same : after.versions = heap.versions := by
    funext id
    rw [versions, versions, kept.stored_eq]
  refine ⟨⟨kept.wellFormed, ?_, same ▸ steady.grounded⟩, ?_⟩
  · intro id bytes present
    rw [kept.stored_eq] at present
    exact steady.sized id bytes present
  · intro id bytes present
    exact ⟨bytes, kept.stored_eq ▸ present, .inl rfl⟩

variable {id : RecordID} {bytes : List UInt8}

theorem Marked.stepped (marked : Marked supply heap writer id bytes after)
    (steady : Steady supply heap) (small : writer < 2 ^ 64) : Stepped supply writer heap after := by
  have size := marked.size_le
  refine ⟨⟨marked.wellFormed, steady.sized.update ?_ marked.stored_eq, ?_⟩, ?_⟩
  · rw [RecordHeader.length_writeXmax]
    exact size
  · rw [versions_update heap after id _ marked.stored_eq]
    refine steady.grounded.rewrite (versions_of_stored marked.present) ?_
    rw [version, version, RecordHeader.readMvcc_writeXmax size small]
  intro other found present
  rw [marked.stored_eq]
  by_cases same : other = id
  · subst same
    rw [marked.present] at present
    cases present
    rw [Function.update_self]
    exact ⟨_, rfl, RecordHeader.claimed_writeXmax size marked.unclaimed⟩
  · rw [Function.update_of_ne same]
    exact ⟨found, present, .inl rfl⟩

theorem Added.stepped {prev : RecordID}
    (added : Added supply heap (stampVersion bytes writer prev) id after)
    (steady : Steady supply heap) (size : RecordHeader.byteSize ≤ bytes.length)
    (small : writer < 2 ^ 64) (smallPage : prev.pageId < 2 ^ 64)
    (smallSlot : prev.slotId < 2 ^ 32) (linked : ∀ old, prev.link = some old →
      ∃ replaced, heap.stored old = some replaced) : Stepped supply writer heap after := by
  refine ⟨⟨added.wellFormed, steady.sized.update ?_ added.stored_eq, ?_⟩, ?_⟩
  · rw [length_stampVersion]
    exact size
  · rw [versions_update heap after id _ added.stored_eq,
      version_stampVersion size small smallPage smallSlot]
    refine steady.grounded.add ?_ ?_
    · rw [versions, added.free, Option.map_none]
    · intro old link
      obtain ⟨replaced, present⟩ := linked old link
      exact ⟨version replaced, versions_of_stored present⟩
  intro other found present
  have ne : other ≠ id := by
    rintro rfl
    rw [added.free] at present
    contradiction
  rw [added.stored_eq, Function.update_of_ne ne]
  exact ⟨found, present, .inl rfl⟩

theorem UpdateEffect.stepped {layout : TupleLayout} {record : Record}
    (effect : UpdateEffect supply layout heap writer id record after)
    (steady : Steady supply heap) (small : writer < 2 ^ 64) : Stepped supply writer heap after := by
  cases effect with
  | kept same => exact same.stepped steady
  | marked bytes first => exact first.stepped steady small
  | replaced middle bytes newBytes newId first serialized second =>
    have marked := first.stepped steady small
    have bounds := steady.wellFormed.stored_bounds first.present
    rw [PageID.invalid, RecordID.invalidSlot] at bounds
    have added : Stepped supply writer middle after := by
      refine second.stepped marked.steady (byteSize_le_of_serialize serialized)
        small (by omega) (by omega) ?_
      intro old link
      obtain rfl := RecordID.eq_of_link_eq_some link
      exact ⟨_, first.stored_eq ▸ Function.update_self ..⟩
    refine ⟨added.steady, marked.lasting.trans ?_ steady.sized added.lasting⟩
    rintro other rfl
    exact small

theorem Steady.apply (steady : Steady supply heap) (call : HeapCall)
    (small : call.writer < 2 ^ 64) : Stepped supply call.writer heap (call.apply supply heap) := by
  cases call with
  | insert txn layout record order lsn =>
    obtain ⟨_, effect⟩ := steady.wellFormed.insert layout txn record order lsn
    rcases effect with kept | ⟨id, bytes, serialized, added⟩
    · exact kept.stepped steady
    refine added.stepped steady (byteSize_le_of_serialize serialized) small ?_ ?_ ?_
    · exact Nat.sub_lt (by omega) (by omega)
    · exact Nat.sub_lt (by omega) (by omega)
    · intro old link
      contradiction
  | update txn layout id record markLsn insertLsn =>
    obtain ⟨_, _, effect⟩ := steady.wellFormed.update layout txn id record markLsn insertLsn
    exact effect.stepped steady small
  | erase txn id lsn =>
    have outcome := (steady.wellFormed.markDeleted .delete txn id lsn).2
    change Stepped supply txn.id heap (TableHeap.markDeleted .delete heap txn id lsn).2.heap
    generalize TableHeap.markDeleted .delete heap txn id lsn = result at outcome
    obtain ⟨returned, call⟩ := result
    cases returned with
    | error failure => exact outcome.1.stepped steady
    | ok value =>
      obtain ⟨bytes, marked⟩ := outcome
      exact marked.stepped steady small

/-- A finished search for room has added a version, under the identifier of
the last undo record. -/
theorem WellFormed.successor_ok {call : Call} (wf : WellFormed supply call.heap)
    (bytes : List UInt8) (lsn : Option Nat) (created : HeapCall.replacement (call.successor lsn
      (TableHeap.findRoom none bytes call.heap)) = some id) :
    Added supply call.heap bytes id
      (call.successor lsn (TableHeap.findRoom none bytes call.heap)).2.heap := by
  have path := wf.successorPath bytes lsn
  generalize call.successor lsn (TableHeap.findRoom none bytes call.heap) = result at path created ⊢
  cases path with
  | failed fails => cases created
  | @stored page after newId there here free after_wf afterId links map =>
    simp only [HeapCall.replacement, Call.addUndoRecord, List.getLast?_concat, Option.map_some,
      Option.some.injEq] at created
    subst created
    exact (wf.successor_added there here free after_wf afterId links map lsn).1

theorem WellFormed.update_replacement (wf : WellFormed supply heap)
    (layout : TupleLayout) (txn : Transaction) (id : RecordID)
    (record : Record) (markLsn insertLsn : Option Nat) {newId : RecordID}
    (created : HeapCall.replacement (TableHeap.update layout heap txn
      id record markLsn insertLsn) = some newId) :
    ∃ middle bytes newBytes, Marked supply heap txn.id id bytes middle ∧
      RecordSerializer.serialize record layout = .ok newBytes ∧
      Added supply middle (stampVersion newBytes txn.id id) newId
        (TableHeap.update layout heap txn id record markLsn insertLsn).2.heap := by
  have mark := wf.markDeleted .update txn id markLsn
  rw [TableHeap.update] at created ⊢
  generalize TableHeap.markDeleted .update heap txn id markLsn = result at mark created
  obtain ⟨outcome, call⟩ := result
  obtain ⟨owner, mark⟩ := mark
  cases outcome with
  | error failure => cases created
  | ok done =>
    obtain ⟨bytes, marked⟩ := mark
    dsimp only [replaceMarked] at created ⊢
    cases serialized : RecordSerializer.serialize record layout with
    | error failure =>
      rw [serialized] at created
      cases created
    | ok newBytes =>
      rw [serialized] at created
      dsimp only [Call.replace] at created ⊢
      have sameId : call.transaction.id = txn.id := owner.id_eq
      rw [sameId] at created ⊢
      exact ⟨call.heap, bytes, newBytes, marked, rfl,
        marked.wellFormed.successor_ok _ insertLsn created⟩

/-- A call hands out an identifier without a version, and leaves a version
without a deleter there. -/
theorem Steady.handsOut (steady : Steady supply heap) {call : HeapCall}
    (small : call.writer < 2 ^ 64) (handed : call.handsOut supply heap = some id) :
    heap.stored id = none ∧ ∃ bytes, (call.apply supply heap).stored id = some bytes ∧
        (readMvcc bytes).xmax = invalidTransactionID := by
  have stamped {bytes : List UInt8} {record : Record} {layout : TupleLayout}
      (serialized : RecordSerializer.serialize record layout = .ok bytes)
      {prev : RecordID} (smallPage : prev.pageId < 2 ^ 64)
      (smallSlot : prev.slotId < 2 ^ 32) :
      (readMvcc (stampVersion bytes call.writer prev)).xmax =
        invalidTransactionID := by
    rw [readMvcc_stampVersion (byteSize_le_of_serialize serialized) small smallPage smallSlot]
  cases call with
  | insert txn layout record order lsn =>
    dsimp only [HeapCall.handsOut, HeapCall.apply] at handed ⊢
    rw [TableHeap.insert] at handed ⊢
    cases serialized : RecordSerializer.serialize record layout with
    | error failure =>
      rw [serialized] at handed
      cases handed
    | ok bytes =>
      rw [serialized] at handed
      have outcome := steady.wellFormed.insertBytes txn order lsn bytes
      generalize TableHeap.insertBytes supply heap txn order lsn
        (.ok bytes) = result at outcome handed
      obtain ⟨returned, call⟩ := result
      cases returned with
      | error failure => cases handed
      | ok newId =>
        cases handed
        have added : Added supply heap (stampVersion bytes txn.id {}) id call.heap :=
          outcome.2
        refine ⟨added.free, _, added.stored_eq ▸ Function.update_self .., stamped serialized ?_ ?_⟩
        · exact Nat.sub_lt (by omega) (by omega)
        · exact Nat.sub_lt (by omega) (by omega)
  | update txn layout oldId record markLsn insertLsn =>
    obtain ⟨middle, bytes, newBytes, marked, serialized, added⟩ :=
      steady.wellFormed.update_replacement layout txn oldId record markLsn insertLsn handed
    have bounds := steady.wellFormed.stored_bounds marked.present
    rw [PageID.invalid, RecordID.invalidSlot] at bounds
    exact ⟨added.free_before marked, _, added.stored_eq ▸ Function.update_self .., stamped
      serialized (by omega) (by omega)⟩
  | erase txn oldId lsn => cases handed

theorem Steady.chainEnds (steady : Steady supply heap)
    (present : heap.stored id = some bytes) : ChainEnds heap id := by
  have ends := steady.grounded.ends (versions_of_stored present)
  clear present
  induction ends with
  | @first id version stored unlinked =>
    obtain ⟨bytes, present, rfl⟩ := stored_of_versions stored
    refine .first (steady.wellFormed.getBytes_of_stored present) ?_
    by_contra valid
    rw [Bool.not_eq_false] at valid
    have linked := RecordID.link_of_isValid valid
    dsimp only [version] at unlinked
    rw [linked] at unlinked
    cases unlinked
  | @replaced id old version stored linked rest ih =>
    obtain ⟨bytes, present, rfl⟩ := stored_of_versions stored
    have same := RecordID.eq_of_link_eq_some linked
    refine .replaced (steady.wellFormed.getBytes_of_stored present) ?_ (same ▸ ih)
    by_contra invalid
    dsimp only [version] at linked
    rw [RecordID.link, if_neg invalid] at linked
    cases linked

end Calls

end TableHeap

namespace HeapCall

open TableHeap

theorem steady_create (supply : PageSupply) : Steady supply (create supply) := by
  obtain ⟨wellFormed, nothing⟩ := create_wellFormed supply
  refine ⟨wellFormed, ?_, ?_⟩
  · intro id bytes present
    rw [nothing] at present
    contradiction
  have empty : (create supply).versions = fun _ => none := by
    funext id
    rw [versions, nothing, Option.map_none]
  rw [empty]
  exact VersionStore.grounded_empty

/-- The transaction identifiers of the calls are 64-bit numbers. -/
def Typed (calls : List HeapCall) : Prop :=
  ∀ call ∈ calls, call.writer < 2 ^ 64

theorem run_append (supply : PageSupply) (first second : List HeapCall) :
    run supply (first ++ second) = GuardedRuns.run (fun heap call => call.apply supply heap)
        (run supply first) second :=
  GuardedRuns.run_append first second

theorem steady_run {supply : PageSupply} {heap : TableHeap}
    (steady : Steady supply heap) {calls : List HeapCall} (typed : Typed calls) :
    Steady supply (GuardedRuns.run (fun heap call => call.apply supply heap) heap calls) ∧
      Lasting (fun writer => ∃ call ∈ calls, call.writer = writer) heap
        (GuardedRuns.run (fun heap call => call.apply supply heap) heap calls) := by
  induction calls generalizing heap with
  | nil => exact ⟨steady, Lasting.refl _ heap⟩
  | cons call calls ih =>
    have stepped := steady.apply call (typed call (by simp))
    obtain ⟨later, lasting⟩ := ih stepped.steady
      (fun other mem => typed other (List.mem_cons_of_mem _ mem))
    refine ⟨later, ?_⟩
    have among : ∀ writer, (∃ other ∈ call :: calls, other.writer = writer) → writer < 2 ^ 64 := by
      rintro writer ⟨other, mem, rfl⟩
      exact typed other mem
    refine @Lasting.trans heap _ _ among (call.apply supply heap) steady.sized ?_ ?_
    · intro id bytes present
      obtain ⟨kept, there, claimed⟩ := stepped.lasting id bytes present
      refine ⟨kept, there, claimed.mono ?_⟩
      rintro writer rfl
      exact ⟨call, by simp, rfl⟩
    intro id bytes present
    obtain ⟨kept, there, claimed⟩ := lasting id bytes present
    refine ⟨kept, there, claimed.mono ?_⟩
    rintro writer ⟨other, mem, rfl⟩
    exact ⟨other, List.mem_cons_of_mem _ mem, rfl⟩

/-- An identifier that a call has handed out, read after any calls and after
any more of them.  Its bytes stay but for the deleter, which is set at most
once; it is never handed out again, and its chain of versions ends. -/
theorem record_id_lasts (supply : PageSupply) (first : List HeapCall)
    (call : HeapCall) (second third : List HeapCall)
    (typed : Typed (first ++ call :: (second ++ third))) (id : RecordID)
    (handed : call.handsOut supply (run supply first) = some id) :
    ∃ bytes now later, (run supply (first ++ [call])).getBytes id = .ok bytes ∧
      (readMvcc bytes).xmax = invalidTransactionID ∧
      (run supply (first ++ call :: second)).getBytes id = .ok now ∧
      RecordHeader.Claimed (fun writer => ∃ other ∈ second, other.writer = writer) bytes now ∧
      (run supply (first ++ call :: (second ++ third))).getBytes id = .ok later ∧
      RecordHeader.Claimed (fun writer => ∃ other ∈ third, other.writer = writer) now later ∧
      (∀ next : HeapCall, next.writer < 2 ^ 64 → next.handsOut supply
        (run supply (first ++ call :: (second ++ third))) ≠ some id) ∧
      ChainEnds (run supply (first ++ call :: (second ++ third))) id := by
  have typedFirst : Typed first := fun other member => typed other (by simp [member])
  have typedCall : call.writer < 2 ^ 64 := typed call (by simp)
  have typedSecond : Typed second := fun other member => typed other (by simp [member])
  have typedThird : Typed third := fun other member => typed other (by simp [member])
  have steady : Steady supply (run supply first) := (steady_run (steady_create supply) typedFirst).1
  have created : run supply (first ++ [call]) =
      call.apply supply (run supply first) := run_append supply first [call]
  have middle : run supply (first ++ call :: second) = GuardedRuns.run
      (fun heap call => call.apply supply heap) (run supply (first ++ [call])) second := by
    rw [← run_append, List.append_assoc, List.singleton_append]
  have final : run supply (first ++ call :: (second ++ third)) = GuardedRuns.run
      (fun heap call => call.apply supply heap) (run supply (first ++ call :: second)) third := by
    rw [← run_append, List.append_assoc, List.cons_append]
  obtain ⟨_, bytes, present, unmarked⟩ := steady.handsOut typedCall handed
  have steadyCreated : Steady supply (run supply (first ++ [call])) :=
    created ▸ (steady.apply call typedCall).steady
  obtain ⟨steadyMiddle, early⟩ := steady_run steadyCreated typedSecond
  rw [← middle] at steadyMiddle early
  obtain ⟨steadyFinal, late⟩ := steady_run steadyMiddle typedThird
  rw [← final] at steadyFinal late
  rw [← created] at present
  obtain ⟨now, presentNow, claimed⟩ := early id bytes present
  obtain ⟨later, presentLater, claimedLater⟩ := late id now presentNow
  refine ⟨bytes, now, later, steadyCreated.wellFormed.getBytes_of_stored present, unmarked,
    steadyMiddle.wellFormed.getBytes_of_stored presentNow, claimed,
    steadyFinal.wellFormed.getBytes_of_stored presentLater, claimedLater, ?_, steadyFinal.chainEnds
    presentLater⟩
  intro next small again
  have free := (steadyFinal.handsOut small again).1
  rw [presentLater] at free
  cases free

open TransactionalHeap in
theorem insert_flagRecord (txn : Transaction) (lsn : Option Nat) :
    ∃ heap, TableHeap.insert onePage flagLayout (create onePage) txn
        flagRecord (DescendingSort.merge _) lsn = (.ok ⟨1, 0⟩, ⟨heap, txn, []⟩) ∧
      Added onePage (create onePage) (stampVersion flagBytes txn.id {}) ⟨1, 0⟩ heap := by
  have limit : onePage.first.limit = 516 := by decide +kernel
  have length : flagBytes.length = 41 := by decide +kernel
  have small : onePage.first.pageSize < 2 ^ 32 := by decide +kernel
  obtain ⟨heap, inserted, added, _⟩ := (roomy_create small).insert txn
    (DescendingSort.merge _) lsn serialize_flagRecord (by rw [limit, length]; decide)
  exact ⟨heap, inserted, added⟩

open TransactionalHeap in
/-- The identifier of an inserted record, which is erased. -/
theorem record_id_lasts_erased :
    ∃ bytes now later,
      (run onePage [.insert { id := 1 } flagLayout flagRecord
        (DescendingSort.merge _) none]).getBytes ⟨1, 0⟩ = .ok bytes ∧
      (readMvcc bytes).xmax = invalidTransactionID ∧
      (run onePage [.insert { id := 1 } flagLayout flagRecord
        (DescendingSort.merge _) none]).getBytes ⟨1, 0⟩ = .ok now ∧
      RecordHeader.Claimed (fun writer =>
        ∃ other ∈ ([] : List HeapCall), other.writer = writer) bytes now ∧
      (run onePage [.insert { id := 1 } flagLayout flagRecord (DescendingSort.merge _) none, .erase
        { id := 2 } ⟨1, 0⟩ none]).getBytes ⟨1, 0⟩ = .ok later ∧
      RecordHeader.Claimed (fun writer =>
        ∃ other ∈ [HeapCall.erase { id := 2 } ⟨1, 0⟩ none], other.writer = writer) now later ∧
      (∀ next : HeapCall, next.writer < 2 ^ 64 → next.handsOut onePage
        (run onePage [.insert { id := 1 } flagLayout flagRecord (DescendingSort.merge _) none,
          .erase { id := 2 } ⟨1, 0⟩ none]) ≠ some ⟨1, 0⟩) ∧
      ChainEnds (run onePage [.insert { id := 1 } flagLayout flagRecord (DescendingSort.merge _)
        none, .erase { id := 2 } ⟨1, 0⟩ none]) ⟨1, 0⟩ := by
  obtain ⟨heap, inserted, _⟩ := insert_flagRecord { id := 1 } none
  refine record_id_lasts onePage []
    (.insert { id := 1 } flagLayout flagRecord (DescendingSort.merge _) none)
    [] [.erase { id := 2 } ⟨1, 0⟩ none] ?_ ⟨1, 0⟩ ?_
  · intro call member
    rcases List.mem_cons.mp member with rfl | member
    · change 1 < 2 ^ 64
      decide
    · rw [List.mem_singleton.mp member]
      decide
  · change (TableHeap.insert onePage flagLayout (create onePage) { id := 1 }
      flagRecord (DescendingSort.merge _) none).1.toOption = some ⟨1, 0⟩
    rw [inserted]
    rfl

end HeapCall

end KlyroDB
