import KlyroDB.TableHeap

/-!
# The page chain and the records of a table page

The links of a page and its log sequence number lie below the fields that
describe its records, and neither kind of write touches the other.
-/

namespace KlyroDB

open ByteMemory

namespace TablePage

def SameLinks (page after : TablePage) : Prop :=
  ∀ address, address < 52 → after.data[address]? = page.data[address]?

structure SameRecords (page after : TablePage) : Prop where
  length_eq : after.data.length = page.data.length
  bytes_eq : ∀ address, 52 ≤ address → after.data[address]? = page.data[address]?

theorem SameLinks.refl (page : TablePage) : SameLinks page page :=
  fun _ _ => rfl

theorem SameLinks.trans {first second third : TablePage}
    (early : SameLinks first second) (late : SameLinks second third) : SameLinks first third :=
  fun address below => (late address below).trans (early address below)

theorem SameLinks.nextPageId_eq {page after : TablePage}
    (same : SameLinks page after) : after.nextPageId = page.nextPageId :=
  readNat_congr fun address _ above => same address (by omega)

theorem sameLinks_poke {page : TablePage} {offset : Nat} (bytes : List UInt8)
    (above : 52 ≤ offset) :
    SameLinks page { page with data := poke page.data offset bytes } :=
  fun _ _ => getElem?_poke_outside (by omega)

section

variable (page : TablePage)

include page

theorem sameLinks_setSlotCount (count : Nat) : SameLinks page (page.setSlotCount count) :=
  sameLinks_poke _ (by omega)

theorem sameLinks_setFreeSpaceLowerBound (bound : Nat) :
    SameLinks page (page.setFreeSpaceLowerBound bound) :=
  sameLinks_poke _ (by omega)

theorem sameLinks_setFreeSpaceUpperBound (bound : Nat) :
    SameLinks page (page.setFreeSpaceUpperBound bound) :=
  sameLinks_poke _ (by omega)

theorem sameLinks_setLiveRecordCount (count : Nat) :
    SameLinks page (page.setLiveRecordCount count) :=
  sameLinks_poke _ (by omega)

theorem sameLinks_setSlotOffset (slot offset : Nat) :
    SameLinks page (page.setSlotOffset slot offset) :=
  sameLinks_poke _ (by rw [position_eq]; omega)

theorem sameLinks_setSlotLength (slot length : Nat) :
    SameLinks page (page.setSlotLength slot length) :=
  sameLinks_poke _ (by rw [position_eq]; omega)

theorem sameLinks_setSlotFlags (slot flags : Nat) : SameLinks page (page.setSlotFlags slot flags) :=
  sameLinks_poke _ (by rw [position_eq]; omega)

theorem sameLinks_appendSlot : SameLinks page page.appendSlot :=
  (sameLinks_setSlotCount page _).trans (sameLinks_setFreeSpaceLowerBound _ _)

end

theorem Bounded.sameLinks_placeRecord {page : TablePage}
    (bounded : page.Bounded) (slot : Nat) {bytes : List UInt8}
    (fits : bytes.length ≤ page.freeSpace) : SameLinks page (page.placeRecord slot bytes) := by
  obtain ⟨lower, order, upper, small, -⟩ := bounded.bounds
  rw [bounded.freeSpace_eq] at fits
  have above : 52 ≤ sub32 page.freeSpaceUpperBound bytes.length - format.shift := by
    rw [sub32_eq (by omega) (by omega)]
    change 52 ≤ _ - 4
    omega
  exact (((sameLinks_setFreeSpaceUpperBound page _).trans (sameLinks_poke bytes above)).trans
    (sameLinks_setSlotOffset _ _ _)).trans (sameLinks_setSlotLength _ _ _)

theorem WellFormed.sameLinks_insert {page : TablePage} (wf : page.WellFormed)
    (bytes : List UInt8) : SameLinks page (page.insert bytes).2 := by
  rw [insert]
  by_cases tooLarge : (page.pageSize + 2 ^ 64 - sizeofPageHeader -
      sizeofTablePageHeader - sizeofSlot) % 2 ^ 64 < bytes.length
  · rw [if_pos tooLarge]
    exact SameLinks.refl page
  rw [if_neg tooLarge]
  cases found : page.findFreeSlot with
  | some slot =>
    dsimp only
    by_cases full : page.freeSpace < bytes.length
    · rw [if_pos full]
      exact SameLinks.refl page
    · rw [if_neg full]
      exact ((wf.toBounded.sameLinks_placeRecord slot (Nat.le_of_not_lt full)).trans
        (sameLinks_setSlotFlags _ _ _)).trans (sameLinks_setLiveRecordCount _ _)
  | none =>
    by_cases full : page.freeSpace < bytes.length + sizeofSlot
    · rw [if_pos full]
      exact SameLinks.refl page
    rw [if_neg full]
    have room : 12 + bytes.length ≤ page.freeSpace := by
      rw [sizeofSlot] at full
      omega
    have more := appendSlot_appended wf.toBounded (by omega)
    have bounded := more.bounded wf.toBounded (by omega)
    have fits := more.fits wf.toBounded room
    exact (((sameLinks_appendSlot page).trans (bounded.sameLinks_placeRecord page.slotCount
      fits)).trans (sameLinks_setSlotFlags _ _ _)).trans (sameLinks_setLiveRecordCount _ _)

theorem WellFormed.sameLinks_update {page : TablePage} (wf : page.WellFormed)
    (id : RecordID) (bytes : List UInt8) : SameLinks page (page.update id bytes).2 := by
  unfold update
  cases checked : page.checkSlot id with
  | some status => exact SameLinks.refl page
  | none =>
    obtain ⟨_, live⟩ := checkSlot_eq_none_iff.mp checked
    split_ifs with fits full
    · have low : page.freeSpaceUpperBound ≤ page.slotOffset id.slotId := wf.laid.low_le _ live
      have lower := wf.lower_eq
      have order := wf.lower_le
      have above : 52 ≤ page.slotOffset id.slotId - format.shift := by
        change 52 ≤ _ - 4
        omega
      exact (sameLinks_poke bytes above).trans (sameLinks_setSlotLength _ _ _)
    · exact SameLinks.refl page
    · exact wf.toBounded.sameLinks_placeRecord _ (Nat.le_of_not_lt full)

theorem sameLinks_dropTrailing (rounds : Nat) (page : TablePage) :
    SameLinks page (dropTrailing rounds page) := by
  induction rounds generalizing page with
  | zero => exact SameLinks.refl page
  | succ rounds ih =>
    rw [dropTrailing]
    split_ifs with trailing
    · exact ((sameLinks_setSlotCount page _).trans
        (sameLinks_setFreeSpaceLowerBound _ _)).trans (ih _)
    · exact SameLinks.refl page

theorem WellFormed.sameLinks_compact {page : TablePage} (wf : page.WellFormed)
    (order : DescendingSort SlotRef.offset) : SameLinks page (page.compact order) := by
  obtain ⟨lower, bounds, -⟩ := wf.toBounded.bounds
  obtain ⟨-, loop⟩ := wf.repacking order
  have cursor := loop.low_le
  have packed : SameLinks page { page with data :=
      (format.repack (compactionOrder order page) page.limit page.data).1 } := by
    intro address below
    refine loop.frame address (by change address + 4 < _; omega) ?_
    intro slot _
    rw [position_eq]
    omega
  exact (packed.trans (sameLinks_setFreeSpaceUpperBound _ _)).trans (sameLinks_dropTrailing _ _)

section Records

variable {page after : TablePage}

theorem SameRecords.readNat_eq (same : SameRecords page after)
    {offset width : Nat} (above : 52 ≤ offset) :
    readNat after.data offset width = readNat page.data offset width :=
  readNat_congr fun address low _ => same.bytes_eq address (by omega)

theorem SameRecords.liveAt_eq (same : SameRecords page after) : after.LiveAt = page.LiveAt := by
  funext slot
  have count : after.slotCount = page.slotCount := same.readNat_eq (by omega)
  have flags : after.slotFlags slot = page.slotFlags slot :=
    same.readNat_eq (by rw [position_eq]; omega)
  rw [LiveAt, LiveAt, count, isLive_eq_of_flags flags]

theorem WellFormed.sameRecords (wf : page.WellFormed) (same : SameRecords page after) :
    after.WellFormed ∧ after.contents = page.contents := by
  have upper : after.freeSpaceUpperBound = page.freeSpaceUpperBound := same.readNat_eq (by omega)
  have bounded : after.Bounded := wf.toBounded.congr same.length_eq (same.readNat_eq (by omega))
    (same.readNat_eq (by omega)) upper
  have offsets (slot : Nat) : format.offsetAt after.data slot = format.offsetAt page.data slot :=
      same.readNat_eq (by rw [position_eq]; omega)
  have lengths (slot : Nat) : format.lengthAt after.data slot = format.lengthAt page.data slot :=
      same.readNat_eq (by
      rw [position_eq]
      omega)
  apply wf.rearranged same.length_eq bounded _ same.liveAt_eq (same.readNat_eq (by omega))
  · intro slot used
    have low : page.freeSpaceUpperBound ≤ format.offsetAt page.data slot := wf.laid.low_le slot used
    obtain ⟨first, order, -⟩ := wf.toBounded.bounds
    rw [SlotFormat.recordAt, SlotFormat.recordAt, offsets, lengths]
    refine slice_congr fun address above _ => same.bytes_eq address ?_
    change _ - 4 ≤ _ at above
    omega
  · rw [upper]
    exact wf.laid.shorten fun slot used => ⟨used, offsets slot, le_of_eq (lengths slot)⟩

theorem sameRecords_writeNat {offset width : Nat} (page : TablePage)
    (value : Nat) (below : offset + width ≤ 52) :
    SameRecords page { page with data := writeNat page.data offset width value } := by
  refine ⟨length_writeNat .., fun address above => ?_⟩
  exact getElem?_poke_outside (by rw [length_leBytes]; omega)

theorem sameRecords_setNextPageId (page : TablePage) (pageId : Nat) :
    SameRecords page (page.setNextPageId pageId) :=
  sameRecords_writeNat page pageId (by omega)

theorem sameRecords_setPrevPageId (page : TablePage) (pageId : Nat) :
    SameRecords page (page.setPrevPageId pageId) :=
  sameRecords_writeNat page pageId (by omega)

theorem WellFormed.size_le (wf : page.WellFormed) : 68 ≤ page.data.length := by
  have bounds := wf.toBounded.bounds
  omega

theorem WellFormed.setLsn_eq (wf : page.WellFormed) (lsn : Nat) :
    page.setLsn lsn = { page with data := writeNat page.data 12 8 lsn } := by
  have size := wf.size_le
  rw [setLsn, PageHeader.serialize_deserialize_lsn (by rw [PageHeader.size]; omega) lsn]

theorem WellFormed.setLsn (wf : page.WellFormed) (lsn : Nat) :
    (page.setLsn lsn).WellFormed ∧ (page.setLsn lsn).contents = page.contents ∧
      (page.setLsn lsn).nextPageId = page.nextPageId := by
  rw [wf.setLsn_eq]
  obtain ⟨wellFormed, map⟩ := wf.sameRecords
    (sameRecords_writeNat page lsn (by omega : 12 + 8 ≤ 52))
  exact ⟨wellFormed, map, readNat_writeNat_of_disjoint _ (by omega)⟩

end Records

end TablePage

end KlyroDB
