import KlyroDB.TablePageRecords

/-!
# Table pages refine a map from slots to records

Every operation acts on the map of live slots as its result says, whatever
operations came before.
-/

namespace KlyroDB

open ByteMemory

namespace TablePage

/-- `get` reads the map. -/
def readMap (pageId : Nat) (map : Nat → Option (List UInt8)) (id : RecordID) :
    Except Status (List UInt8) :=
  if id.pageId ≠ pageId then .error .invalidArgument
  else
    match map id.slotId with
    | some bytes => .ok bytes
    | none => .error .notFound

theorem checkSlot_eq_none_iff {page : TablePage} {id : RecordID} :
    page.checkSlot id = none ↔ id.pageId = page.pageId ∧ page.LiveAt id.slotId := by
  unfold checkSlot LiveAt
  split_ifs with wrongPage outside dead
  · simp [wrongPage]
  · have notInside : ¬ id.slotId < page.slotCount := by omega
    simp [notInside]
  · simp only [Bool.not_eq_true'] at dead
    simp [dead]
  · simp only [Bool.not_eq_true', Bool.not_eq_false] at dead
    have here : id.pageId = page.pageId := by tauto
    simp [here, dead]
    omega

theorem WellFormed.get_eq {page : TablePage} (wf : page.WellFormed)
    (id : RecordID) : page.get id = readMap page.pageId page.contents id := by
  unfold get readMap
  by_cases here : id.pageId = page.pageId
  · rw [if_neg (not_not.mpr here)]
    by_cases live : page.LiveAt id.slotId
    · have ending : page.slotOffset id.slotId + page.slotLength id.slotId ≤
          page.limit := wf.laid.end_le _ live
      have small := page.limit_lt
      have bound : page.limit ≤ page.pageSize := Nat.mod_le _ _
      rw [checkSlot_eq_none_iff.mpr ⟨here, live⟩, contents_of_liveAt live]
      rw [Nat.mod_eq_of_lt (by omega), if_neg (by omega)]
    have missing : page.checkSlot id = some .notFound := by
      unfold checkSlot
      rw [if_neg (not_not.mpr here)]
      split_ifs with outside dead
      · rfl
      · rfl
      · exact absurd ⟨by omega, by simpa using dead⟩ live
    rw [missing, contents, if_neg live]
  · rw [if_pos here, checkSlot, if_pos here]

theorem data_init (page : TablePage) :
    page.init.data = writeNat (writeNat (writeNat (writeNat (writeNat
      (writeNat page.data 36 8 PageID.invalid) 44 8 PageID.invalid) 52 4 0)
      56 4 72) 60 4 page.pageSize) 64 4 0 := by
  simp [init, setLiveRecordCount, setFreeSpaceUpperBound, setFreeSpaceLowerBound, setSlotCount,
    setPrevPageId, setNextPageId, pageSize, sizeofPageHeader, sizeofTablePageHeader]

section

variable {page : TablePage}

theorem init_fields (ordered : 72 ≤ page.limit) :
    page.init.slotCount = 0 ∧ page.init.freeSpaceLowerBound = 72 ∧
      page.init.freeSpaceUpperBound = page.limit := by
  have size := pageSize_of_limit ordered
  have data := data_init page
  refine ⟨?_, ?_, ?_⟩
  · rw [slotCount, data]
    simp (disch := omega) only [readNat_writeNat_of_disjoint]
    rw [readNat_writeNat _ (by simp; omega), Nat.zero_mod]
  · rw [freeSpaceLowerBound, data]
    simp (disch := omega) only [readNat_writeNat_of_disjoint]
    rw [readNat_writeNat _ (by simp; omega)]
    omega
  · rw [freeSpaceUpperBound, data]
    simp (disch := omega) only [readNat_writeNat_of_disjoint]
    rw [readNat_writeNat _ (by simp; omega), limit]
    omega

theorem init_wellFormed (ordered : sizeofPageHeader + sizeofTablePageHeader ≤ page.limit) :
    page.init.WellFormed ∧ page.init.contents = (fun _ => none) ∧
      page.init.data.length = page.data.length := by
  have some : 72 ≤ page.limit := ordered
  have size := pageSize_of_limit some
  have data := data_init page
  have length : page.init.data.length = page.data.length := by simp [data]
  have sameLimit : page.init.limit = page.limit := limit_eq_of_length_eq length
  obtain ⟨count, lower, upper⟩ := init_fields some
  have live : page.init.liveRecordCount = 0 := by
    rw [liveRecordCount, data, readNat_writeNat _ (by simp; omega), Nat.zero_mod]
  have dead : ∀ slot, ¬ page.init.LiveAt slot := by
    intro slot now
    have bound := now.1
    omega
  refine ⟨⟨⟨?_, ?_, ?_⟩, ⟨?_, ?_, ?_⟩, ?_⟩, ?_, length⟩
  · rw [lower, count]
  · rw [lower, upper]
    exact some
  · rw [upper, sameLimit]
  · intro slot now
    exact absurd now (dead slot)
  · intro slot now
    exact absurd now (dead slot)
  · intro slot _ now
    exact absurd now (dead slot)
  · have empty : {slot | page.init.LiveAt slot} = ∅ := Set.eq_empty_iff_forall_notMem.mpr dead
    rw [live, empty, Set.ncard_empty]
  · funext slot
    exact if_neg (dead slot)

theorem findFreeSlot_some {slot : Nat} (found : page.findFreeSlot = some slot) :
    slot < page.slotCount ∧ ¬ page.LiveAt slot := by
  have mem := List.mem_of_find?_eq_some found
  have dead := List.find?_some found
  refine ⟨List.mem_range.mp mem, fun live => ?_⟩
  rw [live.2] at dead
  contradiction

/-- A successful `insert` fills a slot that was free; a failed one changes
nothing. -/
theorem WellFormed.insert_spec (wf : page.WellFormed) (bytes : List UInt8) :
    match page.insert bytes with
    | (.ok id, after) =>
      id.pageId = page.pageId ∧ page.contents id.slotId = none ∧ after.WellFormed ∧
        after.contents = Function.update page.contents id.slotId (some bytes) ∧
        after.data.length = page.data.length ∧ after.pageId = page.pageId
    | (.error _, after) => after = page := by
  rw [insert]
  by_cases tooLarge : (page.pageSize + 2 ^ 64 - sizeofPageHeader -
      sizeofTablePageHeader - sizeofSlot) % 2 ^ 64 < bytes.length
  · rw [if_pos tooLarge]
  rw [if_neg tooLarge]
  cases found : page.findFreeSlot with
  | some slot =>
    dsimp only
    by_cases full : page.freeSpace < bytes.length
    · rw [if_pos full]
    rw [if_neg full]
    obtain ⟨bound, free⟩ := findFreeSlot_some found
    have prepared : Prepared page slot page := ⟨wf.toBounded, rfl, rfl, rfl, rfl, bound, fun _ _
      => Iff.rfl, fun _ _ _ => rfl, free⟩
    have done := wf.inserted prepared (Nat.le_of_not_lt full)
    exact ⟨rfl, if_neg free, done⟩
  | none =>
    by_cases full : page.freeSpace < bytes.length + sizeofSlot
    · rw [if_pos full]
    rw [if_neg full]
    have room : 12 + bytes.length ≤ page.freeSpace := by
      rw [sizeofSlot] at full
      omega
    have more := appendSlot_appended wf.toBounded (by omega)
    have bounded := more.bounded wf.toBounded (by omega)
    have free : ¬ page.LiveAt page.slotCount := fun live => absurd live.1 (lt_irrefl _)
    have prepared : Prepared page page.slotCount page.appendSlot := by
      refine ⟨bounded, more.pageId_eq, more.length_eq, more.upper_eq,
        more.live_eq, ?_, ?_, more.kept, free⟩
      · rw [more.slotCount_eq]
        omega
      · intro other ne
        rw [more.slotCount_eq]
        omega
    have done := wf.inserted prepared (more.fits wf.toBounded room)
    exact ⟨more.pageId_eq, if_neg free, done⟩

theorem WellFormed.update_spec (wf : page.WellFormed) (id : RecordID) (bytes : List UInt8) :
    match page.update id bytes with
    | (.ok _, after) =>
      id.pageId = page.pageId ∧ page.LiveAt id.slotId ∧ after.WellFormed ∧
        after.contents = Function.update page.contents id.slotId (some bytes) ∧
        after.data.length = page.data.length ∧ after.pageId = page.pageId
    | (.error _, after) => after = page := by
  unfold update
  cases checked : page.checkSlot id with
  | some status => rfl
  | none =>
    obtain ⟨here, live⟩ := checkSlot_eq_none_iff.mp checked
    split_ifs with fits full
    · have overwrite := wf.overwritten live fits
      obtain ⟨wellFormed, map⟩ := overwrite.refines wf live fits
      exact ⟨here, live, wellFormed, map, overwrite.length_eq, rfl⟩
    · rfl
    have room := Nat.le_of_not_lt full
    have place := placeRecord_placed wf.toBounded live.1 room
    have lower := wf.lower_le
    have sameLive : ∀ other, (page.placeRecord id.slotId bytes).LiveAt other ↔
        page.LiveAt other := by
      intro other
      rw [LiveAt, LiveAt, place.slotCount_eq]
      exact and_congr_right fun bound => by
        rw [isLive_eq_of_flags (place.flags_eq other bound)]
    have free := room
    rw [wf.toBounded.freeSpace_eq] at free
    obtain ⟨wellFormed, map⟩ := wf.stored (place.bounded wf.toBounded room) place.length_eq
      (by rw [place.upper_eq]; omega) (fun other => by
        rw [sameLive other]
        refine ⟨Or.inr, fun either => ?_⟩
        rcases either with rfl | old
        · exact live
        · exact old)
      (fun other old ne => place.others other old.1 ne)
      (by rw [place.offset_eq, place.upper_eq]) place.slotLength_eq
      place.record place.kept (by rw [place.live_eq, if_pos live, Nat.add_zero])
    exact ⟨here, live, wellFormed, map, place.length_eq, place.pageId_eq⟩

theorem WellFormed.erase_spec (wf : page.WellFormed) (id : RecordID) :
    match page.erase id with
    | (.ok _, after) =>
      id.pageId = page.pageId ∧ page.LiveAt id.slotId ∧ after.WellFormed ∧
        after.contents = Function.update page.contents id.slotId none ∧
        after.data.length = page.data.length ∧ after.pageId = page.pageId
    | (.error _, after) => after = page := by
  unfold erase
  cases checked : page.checkSlot id with
  | some status => rfl
  | none =>
    obtain ⟨here, live⟩ := checkSlot_eq_none_iff.mp checked
    dsimp only
    have mem : id.slotId ∈ {slot | page.LiveAt slot} := live
    have counted := wf.count_eq
    have small : page.liveRecordCount < 2 ^ 32 := readNat_lt 64 4
    have positive : 0 < page.liveRecordCount := by
      rw [counted]
      exact (Set.ncard_pos page.finite_liveAt).mpr ⟨_, mem⟩
    have sameLive : (page.setSlotFlags id.slotId flagDeleted).liveRecordCount =
        page.liveRecordCount := by
      simp (disch := omega) only [liveRecordCount, setSlotFlags, position_eq,
        readNat_writeNat_of_disjoint]
    rw [sameLive, sub32_eq positive small]
    have mark := @marked_of_bounded page wf.toBounded id.slotId live.1
      flagDeleted (page.liveRecordCount - 1) (by decide) (by omega)
    generalize (page.setSlotFlags id.slotId flagDeleted).setLiveRecordCount
      (page.liveRecordCount - 1) = after at mark ⊢
    have nowLive : ∀ other, after.LiveAt other ↔ page.LiveAt other ∧ other ≠ id.slotId := by
      intro other
      rw [LiveAt, LiveAt, mark.slotCount_eq]
      by_cases same : other = id.slotId
      · subst same
        simp [isLive, mark.flag_eq, flagDeleted, flagLive]
      · rw [isLive_eq_of_flags (mark.flags_eq other same)]
        tauto
    have lower := wf.lower_eq
    have order := wf.lower_le
    refine ⟨here, live, ⟨mark.bounded wf.toBounded, ?_, ?_⟩, ?_, mark.length_eq, mark.pageId_eq⟩
    · rw [mark.upper_eq, limit_eq_of_length_eq mark.length_eq]
      exact wf.laid.shorten fun other now =>
        ⟨((nowLive other).mp now).1, mark.offset_eq other, le_of_eq (mark.slotLength_eq other)⟩
    · have removed : {other | after.LiveAt other} = {other | page.LiveAt other} \ {id.slotId} := by
        ext other
        exact nowLive other
      rw [removed, Set.ncard_sdiff_singleton_of_mem mem, ← counted, mark.live_eq]
    funext other
    by_cases same : other = id.slotId
    · subst same
      rw [Function.update_self]
      exact if_neg fun now => ((nowLive _).mp now).2 rfl
    rw [Function.update_of_ne same]
    apply contents_congr
    · rw [nowLive other]
      exact and_iff_left same
    · intro old
      have low : page.freeSpaceUpperBound ≤ page.slotOffset other := wf.laid.low_le other old
      rw [recordAt_eq, recordAt_eq, mark.offset_eq, mark.slotLength_eq]
      exact mark.kept _ _ (by omega)

def liveLength (page : TablePage) : Nat :=
  (((List.range page.slotCount).filter page.isLive).map page.slotLength).sum

def Tight (page : TablePage) : Prop :=
  page.freeSpaceUpperBound + page.liveLength = page.limit

theorem WellFormed.drop_last (wf : page.WellFormed) (positive : 0 < page.slotCount)
    (dead : page.isLive (page.slotCount - 1) = false) :
    let shorter := page.setSlotCount (page.slotCount - 1)
    let after := shorter.setFreeSpaceLowerBound (sub32 shorter.freeSpaceLowerBound sizeofSlot)
    after.WellFormed ∧ after.contents = page.contents ∧ after.data.length = page.data.length ∧
      after.slotCount = page.slotCount - 1 ∧ (page.Tight → after.Tight) := by
  intro shorter after
  obtain ⟨lower, order, upper, small, inside⟩ := wf.toBounded.bounds
  have sameLower : shorter.freeSpaceLowerBound = page.freeSpaceLowerBound := by
    simp (disch := omega) only [shorter, freeSpaceLowerBound, setSlotCount,
      readNat_writeNat_of_disjoint]
  have data : after.data = writeNat (writeNat page.data 52 4
      (page.slotCount - 1)) 56 4 (page.freeSpaceLowerBound - 12) := by
    have lowered : sub32 shorter.freeSpaceLowerBound sizeofSlot =
        page.freeSpaceLowerBound - 12 := by
      rw [sameLower]
      exact sub32_eq (by rw [sizeofSlot]; omega) (by omega)
    simp only [after, lowered]
    rfl
  have length : after.data.length = page.data.length := by simp [data]
  have newCount : after.slotCount = page.slotCount - 1 := by
    rw [slotCount, data, readNat_writeNat_of_disjoint _ (by omega), readNat_writeNat _ (by omega)]
    omega
  have newLower : after.freeSpaceLowerBound = page.freeSpaceLowerBound - 12 := by
    rw [freeSpaceLowerBound, data, readNat_writeNat _ (by simp; omega)]
    omega
  have kept : ∀ start size, 60 ≤ start →
      slice after.data start size = slice page.data start size := by
    intro start size above
    rw [data]
    simp (disch := omega) only [slice_writeNat_of_disjoint]
  have sameUpper : after.freeSpaceUpperBound = page.freeSpaceUpperBound :=
    congrArg leNat (kept _ _ (by omega))
  have offsets (other : Nat) : after.slotOffset other = page.slotOffset other :=
    congrArg leNat (kept (68 + 12 * other) 4 (by omega))
  have lengths (other : Nat) : after.slotLength other = page.slotLength other :=
    congrArg leNat (kept (68 + 12 * other + 4) 4 (by omega))
  have flags : after.isLive = page.isLive := funext fun other =>
    isLive_eq_of_flags (congrArg leNat (kept (68 + 12 * other + 8) 2 (by omega)))
  have liveAt : after.LiveAt = page.LiveAt := by
    funext other
    rw [LiveAt, LiveAt, flags, newCount]
    refine propext ⟨fun now => ⟨by omega, now.2⟩, fun old => ⟨?_, old.2⟩⟩
    have notLast : other ≠ page.slotCount - 1 := by
      rintro rfl
      rw [dead] at old
      exact absurd old.2 (by decide)
    omega
  have bounded : after.Bounded :=
    ⟨by omega, by omega, by rw [sameUpper, limit_eq_of_length_eq length]; exact upper⟩
  obtain ⟨wellFormed, map⟩ := wf.rearranged length bounded (by
      rw [sameUpper]
      exact wf.laid.shorten fun other old => ⟨old, offsets other, le_of_eq (lengths other)⟩)
    liveAt (congrArg leNat (kept _ _ (by omega))) (fun other old => by
      have low : page.freeSpaceUpperBound ≤ page.slotOffset other := wf.laid.low_le other old
      rw [recordAt_eq, recordAt_eq, offsets, lengths]
      exact kept _ _ (by omega))
  refine ⟨wellFormed, map, length, newCount, fun tight => ?_⟩
  have counted : page.slotCount = page.slotCount - 1 + 1 := by omega
  rw [Tight, liveLength, counted, List.range_succ, List.filter_append,
    List.filter_singleton, dead] at tight
  rw [Tight, liveLength, newCount, flags, funext lengths, sameUpper, limit_eq_of_length_eq length]
  simpa using tight

end

theorem WellFormed.dropTrailing_spec (rounds : Nat) {page : TablePage} (wf : page.WellFormed) :
    (dropTrailing rounds page).WellFormed ∧ (dropTrailing rounds page).contents = page.contents ∧
      (dropTrailing rounds page).data.length = page.data.length ∧
      (dropTrailing rounds page).pageId = page.pageId ∧
      (page.Tight → (dropTrailing rounds page).Tight) ∧
      (page.slotCount ≤ rounds → (dropTrailing rounds page).slotCount ≠ 0 →
        (dropTrailing rounds page).isLive ((dropTrailing rounds page).slotCount - 1) = true) := by
  induction rounds generalizing page with
  | zero => exact ⟨wf, rfl, rfl, rfl, id, fun none some => absurd (Nat.le_zero.mp none) some⟩
  | succ rounds ih =>
    by_cases trailing : 0 < page.slotCount ∧ (!page.isLive (page.slotCount - 1)) = true
    · obtain ⟨wellFormed, map, length, count, tight⟩ :=
        wf.drop_last trailing.1 (by simpa using trailing.2)
      obtain ⟨last, lastMap, lastLength, lastId, lastTight, live⟩ := ih wellFormed
      rw [dropTrailing, if_pos trailing]
      exact ⟨last, lastMap.trans map, lastLength.trans length, lastId, lastTight ∘ tight,
        fun enough => live (by omega)⟩
    · rw [dropTrailing, if_neg trailing]
      refine ⟨wf, rfl, rfl, rfl, id, fun _ some => ?_⟩
      simpa [Nat.pos_of_ne_zero some] using trailing

section Compaction

variable (order : DescendingSort SlotRef.offset) (page : TablePage)

def compactionOrder : List Nat := (order.sort page.liveSlots).map SlotRef.id

theorem compactionOrder_perm :
    (compactionOrder order page).Perm ((List.range page.slotCount).filter page.isLive) := by
  have sorted := (order.perm page.liveSlots).map SlotRef.id
  rw [liveSlots, List.map_map] at sorted
  have names : (SlotRef.id ∘ fun slot => SlotRef.mk slot (page.slotOffset slot)) = id := rfl
  rw [names, List.map_id] at sorted
  exact sorted

theorem mem_compactionOrder (slot : Nat) :
    slot ∈ compactionOrder order page ↔ page.LiveAt slot := by
  rw [(compactionOrder_perm order page).mem_iff, List.mem_filter, List.mem_range]
  rfl

theorem nodup_compactionOrder : (compactionOrder order page).Nodup :=
  (compactionOrder_perm order page).nodup_iff.mpr (List.nodup_range.filter page.isLive)

theorem sorted_compactionOrder :
    (compactionOrder order page).Pairwise fun first second =>
      page.slotOffset second ≤ page.slotOffset first := by
  have offsets : ∀ slot ∈ order.sort page.liveSlots, slot.offset = page.slotOffset slot.id := by
    intro slot mem
    have listed := (order.perm page.liveSlots).mem_iff.mp mem
    obtain ⟨index, _, rfl⟩ := List.mem_map.mp listed
    rfl
  rw [compactionOrder, List.pairwise_map]
  refine (order.sorted page.liveSlots).imp_of_mem ?_
  intro first second firstMember secondMember descending
  rw [offsets first firstMember, offsets second secondMember] at descending
  exact descending

end Compaction

def repacked (page : TablePage) (order : DescendingSort SlotRef.offset) : TablePage :=
  let packed := format.repack (compactionOrder order page) page.limit page.data
  ({ page with data := packed.1 } : TablePage).setFreeSpaceUpperBound packed.2

section

variable {page : TablePage} (wf : page.WellFormed) (order : DescendingSort SlotRef.offset)

include wf order

theorem WellFormed.repacking :
    format.Room page.data page.slotCount page.freeSpaceUpperBound page.limit ∧
      format.Repacking page.data (compactionOrder order page).reverse [] page.freeSpaceUpperBound
        page.limit (format.repack (compactionOrder order page) page.limit page.data) := by
  obtain ⟨lower, bounds, upper, small, inside⟩ := wf.toBounded.bounds
  have room : format.Room page.data page.slotCount page.freeSpaceUpperBound page.limit := by
    refine ⟨?_, inside, small⟩
    change 68 + 12 * page.slotCount + 4 ≤ _
    omega
  exact ⟨room, SlotFormat.repack_repacking room upper (wf.laid.shorten fun slot mem =>
      ⟨(mem_compactionOrder order page slot).mp mem, rfl, le_rfl⟩)
    (fun slot mem => ((mem_compactionOrder order page slot).mp mem).1)
    (nodup_compactionOrder order page) (sorted_compactionOrder order page)⟩

theorem WellFormed.repacked_spec :
    (page.repacked order).WellFormed ∧ (page.repacked order).contents = page.contents ∧
      (page.repacked order).data.length = page.data.length ∧ (page.repacked order).Tight := by
  obtain ⟨lower, bounds, upper, small, inside⟩ := wf.toBounded.bounds
  obtain ⟨room, loop⟩ := wf.repacking order
  have moved : ∀ slot, slot ∈ (compactionOrder order page).reverse ↔ page.LiveAt slot := by
    intro slot
    rw [List.mem_reverse, mem_compactionOrder]
  have lengths : ∀ slot, slot < page.slotCount → format.lengthAt (format.repack
      (compactionOrder order page) page.limit page.data).1 slot = page.slotLength slot := fun slot
      bound => loop.lengthAt_eq room bound
  have data : (page.repacked order).data = writeNat (format.repack
      (compactionOrder order page) page.limit page.data).1 60 4 (format.repack
      (compactionOrder order page) page.limit page.data).2 := rfl
  have ordered := ((List.reverse_perm _).trans (compactionOrder_perm order page)).map
    page.slotLength
  obtain ⟨sameSize, cursorLow, total, frame, laid, records, _⟩ := loop
  change _ + (List.map page.slotLength _).sum = _ at total
  rw [ordered.sum_eq] at total
  generalize format.repack (compactionOrder order page) page.limit page.data = packed at *
  have length : (page.repacked order).data.length = page.data.length := by
    rw [data, length_writeNat, sameSize]
  generalize page.repacked order = after at *
  have sameLimit : after.limit = page.limit := limit_eq_of_length_eq length
  have header : ∀ start width, start + width ≤ 68 →
      readNat packed.1 start width = readNat page.data start width := by
    intro start width below
    apply readNat_congr
    intro address _ before
    refine frame address (by change address + 4 < _; omega) ?_
    intro slot _
    rw [position_eq]
    omega
  have kept : ∀ start width, start + width ≤ 60 ∨ 64 ≤ start ∧ start + width ≤ 68 →
      readNat after.data start width = readNat page.data start width := by
    intro start width apart
    rw [data, readNat_writeNat_of_disjoint _ (by omega), header _ _ (by omega)]
  have count : after.slotCount = page.slotCount := kept _ _ (by omega)
  have newLower : after.freeSpaceLowerBound = page.freeSpaceLowerBound := kept _ _ (by omega)
  have newUpper : after.freeSpaceUpperBound = packed.2 := by
    rw [freeSpaceUpperBound, data, readNat_writeNat _ (by omega)]
    omega
  have flags : ∀ slot, slot < page.slotCount → after.isLive slot = page.isLive slot := by
    intro slot bound
    apply isLive_eq_of_flags
    rw [slotFlags_eq, data, readNat_writeNat_of_disjoint _ (by omega)]
    apply readNat_congr
    intro address _ before
    refine frame address (by change address + 4 < _; omega) ?_
    intro other _
    rw [position_eq]
    change address < 68 + 12 * other ∨ 68 + 12 * other + 4 ≤ address
    omega
  have liveAt : after.LiveAt = page.LiveAt := by
    funext slot
    rw [LiveAt, LiveAt, count]
    exact propext (and_congr_right fun bound => by rw [flags slot bound])
  have offsetEq : ∀ slot, format.offsetAt after.data slot = format.offsetAt packed.1 slot := by
    intro slot
    change readNat _ (68 + 12 * slot) 4 = readNat _ (68 + 12 * slot) 4
    rw [data, readNat_writeNat_of_disjoint _ (by omega)]
  have lengthEq : ∀ slot, format.lengthAt after.data slot = format.lengthAt packed.1 slot := by
    intro slot
    change readNat _ (68 + 12 * slot + 4) 4 = readNat _ (68 + 12 * slot + 4) 4
    rw [data, readNat_writeNat_of_disjoint _ (by omega)]
  have bounded : after.Bounded := ⟨by omega, by omega, by omega⟩
  obtain ⟨wellFormed, map⟩ := wf.rearranged length bounded (by
      rw [newUpper]
      exact laid.shorten fun slot old =>
        ⟨(moved slot).mpr old, offsetEq slot, le_of_eq (lengthEq slot)⟩)
    liveAt (kept _ _ (by omega)) (fun slot old => by
      have low := laid.low_le slot ((moved slot).mpr old)
      rw [← records slot ((moved slot).mpr old), SlotFormat.recordAt,
        SlotFormat.recordAt, offsetEq, lengthEq, data]
      apply slice_writeNat_of_disjoint
      change _ ∨ _ ≤ _ - 4
      omega)
  refine ⟨wellFormed, map, length, ?_⟩
  have sameLive : (List.range page.slotCount).filter after.isLive =
      (List.range page.slotCount).filter page.isLive :=
    List.filter_congr fun slot mem => flags slot (List.mem_range.mp mem)
  have sameLengths : ((List.range page.slotCount).filter page.isLive).map after.slotLength =
      ((List.range page.slotCount).filter page.isLive).map page.slotLength :=
    List.map_congr_left fun slot mem => (lengthEq slot).trans
      (lengths slot (List.mem_range.mp (List.mem_of_mem_filter mem)))
  rw [Tight, liveLength, count, sameLive, sameLengths, newUpper, sameLimit]
  exact total

theorem WellFormed.compacted :
    (page.compact order).WellFormed ∧ (page.compact order).contents = page.contents ∧
      (page.compact order).data.length = page.data.length ∧
      (page.compact order).pageId = page.pageId ∧ (page.compact order).Tight ∧
      ((page.compact order).slotCount ≠ 0 →
        (page.compact order).isLive ((page.compact order).slotCount - 1) = true) := by
  obtain ⟨packed, packedMap, packedLength, packedTight⟩ := wf.repacked_spec order
  obtain ⟨wellFormed, map, length, pageId, tight, live⟩ :=
    packed.dropTrailing_spec (page.repacked order).slotCount
  exact ⟨wellFormed, map.trans packedMap, length.trans packedLength, pageId, tight packedTight,
    live le_rfl⟩

theorem WellFormed.compact_spec :
    (page.compact order).WellFormed ∧ (page.compact order).contents = page.contents ∧
      (page.compact order).data.length = page.data.length ∧
      (page.compact order).pageId = page.pageId := by
  obtain ⟨wellFormed, map, length, pageId, _⟩ := wf.compacted order
  exact ⟨wellFormed, map, length, pageId⟩

end

inductive Operation
  | insert (bytes : List UInt8)
  | update (id : RecordID) (bytes : List UInt8)
  | erase (id : RecordID)
  | compact (order : DescendingSort SlotRef.offset)

def track {α : Type} (map : Nat → Option (List UInt8)) (change : α → Nat → Option (List UInt8)) :
    Except Status α × TablePage → TablePage × (Nat → Option (List UInt8))
  | (.ok answer, page) => (page, change answer)
  | (.error _, page) => (page, map)

def step (state : TablePage × (Nat → Option (List UInt8))) :
    Operation → TablePage × (Nat → Option (List UInt8))
  | .insert bytes =>
      track state.2 (fun id => Function.update state.2 id.slotId (some bytes))
        (state.1.insert bytes)
  | .update id bytes =>
      track state.2 (fun _ => Function.update state.2 id.slotId (some bytes))
        (state.1.update id bytes)
  | .erase id =>
      track state.2 (fun _ => Function.update state.2 id.slotId none) (state.1.erase id)
  | .compact order => (state.1.compact order, state.2)

def run (page : TablePage) (operations : List Operation) :
    TablePage × (Nat → Option (List UInt8)) :=
  operations.foldl step (page.init, fun _ => none)

structure Refines (pageId : Nat) (state : TablePage × (Nat → Option (List UInt8))) : Prop where
  wellFormed : state.1.WellFormed
  contents_eq : state.1.contents = state.2
  pageId_eq : state.1.pageId = pageId

section

variable {pageId : Nat} {state : TablePage × (Nat → Option (List UInt8))}
  (refines : Refines pageId state)

include refines

theorem Refines.step (operation : Operation) : Refines pageId (step state operation) := by
  obtain ⟨page, map⟩ := state
  obtain ⟨wf, contents, rfl⟩ := refines
  dsimp only at wf contents
  subst contents
  cases operation with
  | insert bytes =>
    have spec := wf.insert_spec bytes
    change Refines page.pageId (track _ _ (page.insert bytes))
    generalize page.insert bytes = result at spec ⊢
    rcases result with ⟨status | id, after⟩
    · subst spec
      exact ⟨wf, rfl, rfl⟩
    · obtain ⟨_, _, wellFormed, contents, _, pageId⟩ := spec
      exact ⟨wellFormed, contents, pageId⟩
  | update id bytes =>
    have spec := wf.update_spec id bytes
    change Refines page.pageId (track _ _ (page.update id bytes))
    generalize page.update id bytes = result at spec ⊢
    rcases result with ⟨status | done, after⟩
    · subst spec
      exact ⟨wf, rfl, rfl⟩
    · obtain ⟨_, _, wellFormed, contents, _, pageId⟩ := spec
      exact ⟨wellFormed, contents, pageId⟩
  | erase id =>
    have spec := wf.erase_spec id
    change Refines page.pageId (track _ _ (page.erase id))
    generalize page.erase id = result at spec ⊢
    rcases result with ⟨status | done, after⟩
    · subst spec
      exact ⟨wf, rfl, rfl⟩
    · obtain ⟨_, _, wellFormed, contents, _, pageId⟩ := spec
      exact ⟨wellFormed, contents, pageId⟩
  | compact order =>
    obtain ⟨wellFormed, contents, _, pageId⟩ := wf.compact_spec order
    exact ⟨wellFormed, contents, pageId⟩

theorem Refines.foldl (operations : List Operation) :
    Refines pageId (operations.foldl TablePage.step state) := by
  induction operations generalizing state with
  | nil => exact refines
  | cons operation operations ih => exact ih (refines.step operation)

end

theorem refines_run {page : TablePage}
    (ordered : sizeofPageHeader + sizeofTablePageHeader ≤ page.limit)
    (operations : List Operation) : Refines page.pageId (run page operations) := by
  have start : Refines page.pageId (page.init, fun _ => none) := by
    obtain ⟨wellFormed, contents, _⟩ := init_wellFormed ordered
    exact ⟨wellFormed, contents, rfl⟩
  exact start.foldl operations

/-- After any calls on a page whose two initial bounds are in order, `get`
reads the map built by the successful calls, the live record count is the
number of live slots, the live slots are those of the map, and `insert` only
names free slots of this page. -/
theorem run_refines_map (page : TablePage)
    (ordered : sizeofPageHeader + sizeofTablePageHeader ≤ page.pageSize % 2 ^ 32)
    (operations : List Operation) :
    let state := run page operations
    (∀ id, state.1.get id = readMap page.pageId state.2 id) ∧ state.1.liveRecordCount = Set.ncard
      {slot | state.1.LiveAt slot} ∧ (∀ slot, state.1.LiveAt slot ↔ state.2 slot ≠ none) ∧ ∀ bytes
      id, (state.1.insert bytes).1 = .ok id → id.pageId = page.pageId ∧ state.2 id.slotId = none :=
      by
  intro state
  have refines : Refines page.pageId state := refines_run ordered operations
  clear_value state
  obtain ⟨wf, contents, pageId⟩ := refines
  refine ⟨fun id => ?_, wf.count_eq, fun slot => ?_, fun bytes id stored => ?_⟩
  · rw [← contents, ← pageId]
    exact wf.get_eq id
  · rw [← contents]
    by_cases live : state.1.LiveAt slot
    · simp [contents_of_liveAt live, live]
    · simp [TablePage.contents, live]
  have spec := wf.insert_spec bytes
  rw [← contents, ← pageId]
  generalize state.1.insert bytes = result at spec stored
  obtain ⟨answer, after⟩ := result
  subst stored
  exact ⟨spec.1, spec.2.1⟩

theorem run_refines_map_erase_compact :
    let page : TablePage := ⟨7, List.replicate 100 0⟩
    let state := run page [.insert [1, 2], .insert [3], .erase ⟨7, 0⟩,
      .compact (DescendingSort.merge SlotRef.offset)]
    ∀ id, state.1.get id = readMap 7 state.2 id :=
  (run_refines_map ⟨7, List.replicate 100 0⟩ (by decide) _).1

end TablePage

end KlyroDB
