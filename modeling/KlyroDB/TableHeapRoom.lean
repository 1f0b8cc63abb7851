import KlyroDB.HeapVersions

/-!
# Insertions that succeed

As long as the first page of a heap has no dead slots and has room, `insert` and
`update` store the new version there.
-/

namespace KlyroDB

open TablePage (sizeofSlot)
open RecordHeader (length_writeXmax readMvcc writeXmax)
open ByteMemory

namespace TablePage

structure Packed (page : TablePage) (count room : Nat) : Prop where
  wellFormed : page.WellFormed
  small : page.pageSize < 2 ^ 32
  count_eq : page.slotCount = count
  live : ∀ slot, slot < count → page.isLive slot = true
  room_eq : page.freeSpace = room

variable {page : TablePage} {count room : Nat}

theorem packed_init (ordered : 72 ≤ page.limit) (small : page.pageSize < 2 ^ 32) :
    Packed page.init 0 (page.limit - 72) := by
  obtain ⟨wellFormed, _, length⟩ := init_wellFormed ordered
  obtain ⟨count, lower, upper⟩ := init_fields ordered
  refine ⟨wellFormed, ?_, count, ?_, ?_⟩
  · rw [pageSize, length]
    exact small
  · intro slot impossible
    exact absurd impossible (Nat.not_lt_zero slot)
  · rw [wellFormed.toBounded.freeSpace_eq, lower, upper]

theorem Packed.findFreeSlot_eq_none (packed : Packed page count room) :
    page.findFreeSlot = none := by
  rw [findFreeSlot, List.find?_eq_none]
  intro slot mem
  rw [List.mem_range, packed.count_eq] at mem
  simp [packed.live slot mem]

theorem liveAt_of_contents {page : TablePage} {slot : Nat}
    (present : page.contents slot ≠ none) : page.LiveAt slot := by
  by_contra dead
  exact present (if_neg dead)

theorem Packed.insert_full (packed : Packed page count room)
    {bytes : List UInt8} (short : room < bytes.length + sizeofSlot) :
    ∃ status, (page.insert bytes).1 = .error status := by
  rw [TablePage.insert, packed.findFreeSlot_eq_none]
  dsimp only
  rw [packed.room_eq, if_pos short]
  split_ifs
  · exact ⟨_, rfl⟩
  · exact ⟨_, rfl⟩

theorem Packed.insert (packed : Packed page count room) {bytes : List UInt8}
    (fits : bytes.length + sizeofSlot ≤ room) :
    (page.insert bytes).1 = .ok ⟨page.pageId, count⟩ ∧
      Packed (page.insert bytes).2 (count + 1) (room - (bytes.length + sizeofSlot)) := by
  have wf := packed.wellFormed
  obtain ⟨lower, order, upper, -⟩ := wf.toBounded.bounds
  have free := packed.room_eq
  have size := packed.small
  have limit : page.limit = page.pageSize := Nat.mod_eq_of_lt size
  have spec := wf.insert_spec bytes
  rw [sizeofSlot] at fits
  have notLarge : ¬ (page.pageSize + 2 ^ 64 - sizeofPageHeader -
      sizeofTablePageHeader - sizeofSlot) % 2 ^ 64 < bytes.length := by
    rw [wf.toBounded.freeSpace_eq] at free
    rw [sizeofPageHeader, sizeofTablePageHeader, sizeofSlot]
    omega
  have enough : ¬ page.freeSpace < bytes.length + sizeofSlot := by
    rw [free, sizeofSlot]
    omega
  have room12 : 12 + bytes.length ≤ page.freeSpace := by omega
  have more := appendSlot_appended wf.toBounded (by omega)
  have bounded := more.bounded wf.toBounded (by omega)
  have place := placeRecord_placed bounded
    (by rw [more.slotCount_eq, packed.count_eq]; exact Nat.lt_succ_self count)
    (more.fits wf.toBounded room12)
  generalize placedEq : page.appendSlot.placeRecord count bytes = placed at place
  have sameId : placed.pageId = page.pageId := place.pageId_eq.trans more.pageId_eq
  have result : page.insert bytes = (.ok ⟨page.pageId, count⟩, (placed.setSlotFlags count
      flagLive).setLiveRecordCount ((placed.setSlotFlags count flagLive).liveRecordCount + 1)) := by
    rw [TablePage.insert, if_neg notLarge, packed.findFreeSlot_eq_none]
    dsimp only
    rw [if_neg enough, packed.count_eq, placedEq, ← sameId]
    rfl
  generalize (placed.setSlotFlags count flagLive).liveRecordCount + 1 = live at result
  rw [result] at spec ⊢
  obtain ⟨_, _, after_wf, map, length, _⟩ := spec
  have slots : ((placed.setSlotFlags count flagLive).setLiveRecordCount
      live).slotCount = count + 1 := by
    simp (disch := omega) only [slotCount, setLiveRecordCount, setSlotFlags,
      position_eq, readNat_writeNat_of_disjoint]
    rw [← packed.count_eq, ← more.slotCount_eq]
    exact place.slotCount_eq
  have top : ((placed.setSlotFlags count flagLive).setLiveRecordCount
      live).freeSpaceUpperBound = page.freeSpaceUpperBound - bytes.length := by
    simp (disch := omega) only [freeSpaceUpperBound, setLiveRecordCount,
      setSlotFlags, position_eq, readNat_writeNat_of_disjoint]
    have placedTop := place.upper_eq
    rw [more.upper_eq] at placedTop
    exact placedTop
  generalize (placed.setSlotFlags count flagLive).setLiveRecordCount live =
    after at after_wf map length slots top ⊢
  refine ⟨rfl, after_wf, ?_, slots, ?_, ?_⟩
  · rw [pageSize, length]
    exact size
  · intro slot bound
    have present : after.contents slot ≠ none := by
      rw [map]
      by_cases same : slot = count
      · rw [same, Function.update_self]
        exact Option.some_ne_none _
      · have old : page.LiveAt slot := ⟨by rw [packed.count_eq]; omega, packed.live slot (by omega)⟩
        rw [Function.update_of_ne same, contents_of_liveAt old]
        exact Option.some_ne_none _
    exact (liveAt_of_contents present).2
  · have newLower := after_wf.lower_eq
    rw [after_wf.toBounded.freeSpace_eq, newLower, slots, top, sizeofSlot]
    rw [wf.toBounded.freeSpace_eq, lower, packed.count_eq] at free
    omega

theorem Packed.update (packed : Packed page count room) {id : RecordID}
    {bytes : List UInt8} (here : id.pageId = page.pageId) (live : page.LiveAt id.slotId)
    (fits : bytes.length ≤ page.slotLength id.slotId) :
    (page.update id bytes).1 = .ok () ∧ Packed (page.update id bytes).2 count room := by
  have wf := packed.wellFormed
  have spec := wf.update_spec id bytes
  have overwrite := wf.overwritten live fits
  have result : page.update id bytes = (.ok (), (({ page with
        data := poke page.data (page.slotOffset id.slotId - format.shift)
          bytes } : TablePage).setSlotLength id.slotId bytes.length)) := by
    rw [TablePage.update, checkSlot_eq_none_iff.mpr ⟨here, live⟩]
    rw [if_pos fits]
  rw [result] at spec ⊢
  obtain ⟨_, _, after_wf, _, length, _⟩ := spec
  generalize (({ page with
    data := poke page.data (page.slotOffset id.slotId - format.shift) bytes } :
      TablePage).setSlotLength id.slotId bytes.length) = after at overwrite after_wf length ⊢
  refine ⟨rfl, after_wf, ?_, overwrite.slotCount_eq.trans packed.count_eq, ?_, ?_⟩
  · rw [pageSize, length]
    exact packed.small
  · intro slot bound
    rw [isLive_eq_of_flags (overwrite.flags_eq slot (by rw [packed.count_eq]; exact bound))]
    exact packed.live slot bound
  · rw [after_wf.toBounded.freeSpace_eq, overwrite.upper_eq, overwrite.lower_eq,
      ← wf.toBounded.freeSpace_eq]
    exact packed.room_eq

end TablePage

namespace TableHeap

structure Roomy (supply : PageSupply) (heap : TableHeap) (count room : Nat) : Prop where
  wellFormed : WellFormed supply heap
  sized : Sized heap
  packed : ∃ page : TablePage, page.pageId = heap.firstPageId ∧
    heap.pages page.pageId = some page.data ∧ page.Packed count room

theorem roomy_create {supply : PageSupply} (small : supply.first.pageSize < 2 ^ 32) :
    Roomy supply (create supply) 0 (supply.first.limit - 72) := by
  obtain ⟨wellFormed, empty⟩ := create_wellFormed supply
  have large := supply.large supply.first (List.mem_cons_self ..)
  refine ⟨wellFormed, ?_, supply.first.init, rfl, ?_, TablePage.packed_init large small⟩
  · intro id bytes present
    rw [empty] at present
    contradiction
  · rw [pages_create]
    exact Function.update_self ..

section Calls

variable {supply : PageSupply} {heap : TableHeap} {count room : Nat}

variable {bytes : List UInt8} {layout : TupleLayout} {record : Record} {id : RecordID}

section

variable (roomy : Roomy supply heap count room)

include roomy

theorem Roomy.findRoom (compaction : Option (DescendingSort TablePage.SlotRef.offset))
    (size : RecordHeader.byteSize ≤ bytes.length)
    (fits : bytes.length + sizeofSlot ≤ room) :
    ∃ after, TableHeap.findRoom compaction bytes heap =
        (.inserted ⟨heap.firstPageId, count⟩, after) ∧
      Added supply heap bytes ⟨heap.firstPageId, count⟩ after ∧
      after.firstPageId = heap.firstPageId ∧
      Roomy supply after (count + 1) (room - (bytes.length + sizeofSlot)) := by
  obtain ⟨page, sameId, there, packed⟩ := roomy.packed
  have wf := roomy.wellFormed
  obtain ⟨answer, packedAfter⟩ := packed.insert fits
  have ready : makeRoom compaction bytes page = page := by
    cases compaction with
    | none => rfl
    | some order =>
      rw [makeRoom, if_neg]
      rw [packed.room_eq]
      exact Nat.not_lt.mpr fits
  have round : tryPage compaction bytes ⟨PageID.invalid, heap.firstPageId, heap⟩ = .done (.inserted
      ⟨heap.firstPageId, count⟩, heap.putPage (page.insert bytes).2) := by
    have valid : PageID.isValid heap.firstPageId = true := by
      rw [PageID.isValid_iff, ← sameId]
      exact (wf.pageId_lt there).ne
    have fetched : heap.fetchPage heap.firstPageId = .ok page := by rw [fetchPage, ← sameId, there]
    rw [tryPage, if_pos valid, fetched]
    dsimp only
    rw [ready, ← sameId]
    generalize page.insert bytes = outcome at answer
    obtain ⟨value, after⟩ := outcome
    have same : value = .ok ⟨page.pageId, count⟩ := answer
    rw [same]
    rfl
  have result : TableHeap.findRoom compaction bytes heap = (.inserted ⟨heap.firstPageId, count⟩,
      heap.putPage (page.insert bytes).2) := by
    rw [TableHeap.findRoom, BoundedLoop.run_succ_of_done round]
    rfl
  obtain ⟨chain, linked, _, short⟩ := wf.chain
  have found := wf.findRoom compaction bytes linked short
  rw [result] at found
  have done : Inserted supply heap bytes ⟨heap.firstPageId, count⟩
      (heap.putPage (page.insert bytes).2) := found
  have spec := packed.wellFormed.insert_spec bytes
  generalize page.insert bytes = outcome at *
  obtain ⟨value, after⟩ := outcome
  have same : value = .ok ⟨page.pageId, count⟩ := answer
  subst same
  obtain ⟨_, _, _, _, _, afterId⟩ := spec
  refine ⟨_, result, ⟨done.wellFormed, done.free, done.stored_eq⟩, rfl,
    done.wellFormed, roomy.sized.update size done.stored_eq, after,
    afterId.trans sameId, pages_putPage heap after, packedAfter⟩

theorem Roomy.insert (txn : Transaction) (order : DescendingSort TablePage.SlotRef.offset)
    (lsn : Option Nat) (serialized : RecordSerializer.serialize record layout = .ok bytes)
    (fits : bytes.length + sizeofSlot ≤ room) :
    ∃ after, TableHeap.insert supply layout heap txn record order lsn =
        (.ok ⟨heap.firstPageId, count⟩, ⟨after, txn, []⟩) ∧
      Added supply heap (stampVersion bytes txn.id {}) ⟨heap.firstPageId, count⟩ after ∧
      after.firstPageId = heap.firstPageId ∧
      Roomy supply after (count + 1) (room - (bytes.length + sizeofSlot)) := by
  have size := RecordSerializer.byteSize_le_of_serialize serialized
  rw [← length_stampVersion bytes txn.id {}] at size fits ⊢
  obtain ⟨after, found, rest⟩ := roomy.findRoom (some order) size fits
  refine ⟨after, ?_, rest⟩
  rw [TableHeap.insert, serialized, insertBytes, found]
  rfl

variable (txn : Transaction) (here : id.pageId = heap.firstPageId)
  (present : heap.stored id = some bytes)
  (unclaimed : (readMvcc bytes).xmax = invalidTransactionID ∨ (readMvcc bytes).xmax = txn.id)

include here present unclaimed

theorem Roomy.markDeleted (type : LogRecordType) :
    ∃ call, TableHeap.markDeleted type heap txn id none = (.ok (), call) ∧
      SameOwner txn call.transaction ∧
      Marked supply heap txn.id id bytes call.heap ∧ Roomy supply call.heap count room := by
  have wf := roomy.wellFormed
  obtain ⟨page, sameId, there, packed⟩ := roomy.packed
  have samePage : id.pageId = page.pageId := here.trans sameId.symm
  have size := roomy.sized id bytes present
  have contents : page.contents id.slotId = some bytes :=
    (stored_of_page there samePage).symm.trans present
  have live : page.LiveAt id.slotId := TablePage.liveAt_of_contents (by
    rw [contents]
    exact Option.some_ne_none bytes)
  have short : (writeXmax bytes txn.id).length ≤
      page.slotLength id.slotId := by
    rw [TablePage.contents_of_liveAt live] at contents
    cases contents
    rw [length_writeXmax]
    exact List.length_take_le _ _
  have outcome := wf.markDeleted type txn id none
  have spec := packed.wellFormed.update_spec id (writeXmax bytes txn.id)
  obtain ⟨answer, packedAfter⟩ := packed.update samePage live short
  have result : TableHeap.markDeleted type heap txn id none = Call.marked
      ⟨heap, txn, []⟩ type id none (page.update id (writeXmax bytes
      txn.id)) := by
    have fetched : heap.fetchPage id.pageId = .ok page := by rw [fetchPage, samePage, there]
    have free : ¬ ((readMvcc bytes).xmax ≠ invalidTransactionID ∧
        (readMvcc bytes).xmax ≠ txn.id) := by tauto
    rw [TableHeap.markDeleted, fetched]
    dsimp only
    rw [packed.wellFormed.get_eq, TablePage.readMap, if_neg (not_not_intro samePage), contents]
    dsimp only [Call.markBytes]
    rw [if_neg (Nat.not_lt.mpr size), if_neg free]
  rw [result] at outcome
  generalize page.update id (writeXmax bytes txn.id) =
    updated at outcome spec answer packedAfter result
  obtain ⟨value, after⟩ := updated
  have same : value = .ok () := answer
  subst same
  obtain ⟨_, _, _, _, _, afterId⟩ := spec
  obtain ⟨owner, found, marked⟩ := outcome
  obtain rfl : found = bytes := by
    have twice := marked.present
    rw [present] at twice
    exact (Option.some.inj twice).symm
  refine ⟨_, result, owner, marked, marked.wellFormed, ?_, after,
    afterId.trans sameId, pages_putPage heap after, packedAfter⟩
  refine roomy.sized.update ?_ marked.stored_eq
  rw [length_writeXmax]
  exact size

variable {newBytes : List UInt8}
  (serialized : RecordSerializer.serialize record layout = .ok newBytes)

include serialized

theorem Roomy.update (fits : newBytes.length + sizeofSlot ≤ room) :
    ∃ call middle, TableHeap.update layout heap txn id record none none = (.ok (), call) ∧
      SameOwner txn call.transaction ∧
      Marked supply heap txn.id id bytes middle ∧
      Added supply middle (stampVersion newBytes txn.id id) ⟨heap.firstPageId, count⟩ call.heap ∧
      call.heap.firstPageId = heap.firstPageId ∧
      Roomy supply call.heap (count + 1) (room - (newBytes.length + sizeofSlot)) := by
  obtain ⟨call, marking, owner, marked, middle⟩ :=
    roomy.markDeleted txn here present unclaimed .update
  have size := RecordSerializer.byteSize_le_of_serialize serialized
  rw [← length_stampVersion newBytes txn.id id] at size fits ⊢
  obtain ⟨after, found, added, first, last⟩ := middle.findRoom none size fits
  rw [marked.shape.first_eq] at found added first
  obtain ⟨page, sameId, there, _⟩ := last.packed
  have fetched : after.fetchPage heap.firstPageId = .ok page := by
    rw [fetchPage, ← first, ← sameId, there]
  refine ⟨({ call with heap := after } : Call).addUndoRecord .insert ⟨heap.firstPageId, count⟩,
    call.heap, ?_, ⟨owner.id_eq, owner.state_eq⟩, marked, added, first, last⟩
  rw [TableHeap.update, marking, replaceMarked, serialized, Call.replace,
    owner.id_eq, found, Call.successor, fetched]
  rfl

theorem Roomy.update_full (single : supply.rest = [])
    (short : room < newBytes.length + sizeofSlot) :
    ∃ call failure, TableHeap.update layout heap txn id record none
        none = (.error (.status failure), call) ∧
      Marked supply heap txn.id id bytes call.heap := by
  obtain ⟨call, marking, owner, marked, middle⟩ :=
    roomy.markDeleted txn here present unclaimed .update
  rw [← length_stampVersion newBytes txn.id id] at short
  have search := middle.wellFormed.findRoom_uncompacted (stampVersion newBytes txn.id id)
  rw [TableHeap.update, marking, replaceMarked, serialized, Call.replace, owner.id_eq]
  generalize TableHeap.findRoom none (stampVersion newBytes txn.id id) call.heap = result at search
  obtain ⟨outcome, after⟩ := result
  cases outcome with
  | failed status =>
    obtain rfl : after = call.heap := search
    exact ⟨_, status, rfl, marked⟩
  | full last =>
    obtain rfl : after = call.heap := search
    exact ⟨_, .internalError, rfl, marked⟩
  | inserted newId =>
    obtain ⟨page, there, inserted, -⟩ := search
    obtain ⟨packedPage, -, packedThere, packed⟩ := middle.packed
    have only {pageId : Nat} {data : List UInt8} (found : call.heap.pages pageId = some data) :
        pageId = supply.first.pageId := by
      obtain ⟨index, -, source, supplied, rfl⟩ := middle.wellFormed.known pageId data found
      rw [PageSupply.page, single] at supplied
      rw [List.mem_singleton.mp (List.mem_of_getElem? supplied)]
    have sameId : page.pageId = packedPage.pageId := (only there).trans (only packedThere).symm
    rw [sameId, packedThere] at there
    have samePage : page = packedPage := by
      cases page
      cases packedPage
      rw [TablePage.mk.injEq]
      exact ⟨sameId, (Option.some.inj there).symm⟩
    obtain ⟨status, refused⟩ := packed.insert_full short
    rw [samePage, refused] at inserted
    cases inserted

end

end Calls

end TableHeap

end KlyroDB
