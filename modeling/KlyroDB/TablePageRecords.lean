import KlyroDB.TablePage
import Mathlib.Data.Set.Card

/-!
# The records of a table page

The live slots of a page form a finite map to byte strings.  Each way to write
a record keeps the page well formed and changes one entry of the map.
-/

namespace KlyroDB

open ByteMemory

namespace TablePage

def limit (page : TablePage) : Nat := page.pageSize % 2 ^ 32

def LiveAt (page : TablePage) (slot : Nat) : Prop :=
  slot < page.slotCount ∧ page.isLive slot = true

instance (page : TablePage) (slot : Nat) : Decidable (page.LiveAt slot) :=
  inferInstanceAs (Decidable (_ ∧ _))

/-- The map a page stands for. -/
def contents (page : TablePage) (slot : Nat) : Option (List UInt8) :=
  if page.LiveAt slot then some (format.recordAt page.data slot) else none

theorem contents_of_liveAt {page : TablePage} {slot : Nat} (live : page.LiveAt slot) :
    page.contents slot = some (format.recordAt page.data slot) :=
  if_pos live

theorem contents_congr {page after : TablePage} {slot : Nat}
    (sameLive : after.LiveAt slot ↔ page.LiveAt slot) (sameRecord : page.LiveAt slot →
      format.recordAt after.data slot = format.recordAt page.data slot) :
    after.contents slot = page.contents slot := by
  by_cases live : page.LiveAt slot
  · rw [contents_of_liveAt live, contents_of_liveAt (sameLive.mpr live), sameRecord live]
  · rw [contents, contents, if_neg live, if_neg fun now => live (sameLive.mp now)]

structure Bounded (page : TablePage) : Prop where
  lower_eq : page.freeSpaceLowerBound = 72 + 12 * page.slotCount
  lower_le : page.freeSpaceLowerBound ≤ page.freeSpaceUpperBound
  upper_le : page.freeSpaceUpperBound ≤ page.limit

/-- The live records lie apart from each other between the upper bound and the
end of the page, and the header counts them. -/
structure WellFormed (page : TablePage) : Prop extends Bounded page where
  laid : format.Laid page.data page.LiveAt page.freeSpaceUpperBound page.limit
  count_eq : page.liveRecordCount = Set.ncard {slot | page.LiveAt slot}

theorem position_eq (slot : Nat) : format.position slot = 68 + 12 * slot := rfl

theorem slotOffset_eq (page : TablePage) (slot : Nat) :
    page.slotOffset slot = readNat page.data (68 + 12 * slot) 4 := rfl

theorem slotLength_eq (page : TablePage) (slot : Nat) :
    page.slotLength slot = readNat page.data (68 + 12 * slot + 4) 4 := rfl

theorem slotFlags_eq (page : TablePage) (slot : Nat) :
    page.slotFlags slot = readNat page.data (68 + 12 * slot + 8) 2 := rfl

theorem recordAt_eq (page : TablePage) (slot : Nat) :
    format.recordAt page.data slot =
      slice page.data (page.slotOffset slot - 4) (page.slotLength slot) := rfl

theorem limit_lt (page : TablePage) : page.limit < 2 ^ 32 :=
  Nat.mod_lt _ (by decide)

theorem limit_eq_of_length_eq {first second : TablePage}
    (same : first.data.length = second.data.length) : first.limit = second.limit := by
  rw [limit, limit, pageSize, pageSize, same]

theorem pageSize_of_limit {page : TablePage} (some : 72 ≤ page.limit) :
    page.pageSize = page.data.length + 4 ∧ 68 ≤ page.data.length := by
  have bound : page.limit ≤ page.pageSize := Nat.mod_le _ _
  simp only [pageSize, PageHeader.size, sizeofPageHeader] at bound ⊢
  omega

namespace Bounded

variable {page : TablePage}

/-- The order of the numbers that positions are computed from. -/
theorem bounds (bounded : page.Bounded) :
    page.freeSpaceLowerBound = 72 + 12 * page.slotCount ∧
      page.freeSpaceLowerBound ≤ page.freeSpaceUpperBound ∧
      page.freeSpaceUpperBound ≤ page.limit ∧ page.limit < 2 ^ 32 ∧
      page.limit ≤ page.data.length + 4 := by
  obtain ⟨lower, order, upper⟩ := bounded
  have size := @pageSize_of_limit page (by omega)
  have inside : page.limit ≤ page.pageSize := Nat.mod_le _ _
  exact ⟨lower, order, upper, page.limit_lt, by omega⟩

theorem congr {after : TablePage} (bounded : page.Bounded)
    (length_eq : after.data.length = page.data.length) (slotCount_eq : after.slotCount =
      page.slotCount) (lower_eq : after.freeSpaceLowerBound = page.freeSpaceLowerBound)
    (upper_eq : after.freeSpaceUpperBound = page.freeSpaceUpperBound) : after.Bounded where
  lower_eq := by rw [lower_eq, slotCount_eq, bounded.lower_eq]
  lower_le := by rw [lower_eq, upper_eq]; exact bounded.lower_le
  upper_le := by rw [upper_eq, limit_eq_of_length_eq length_eq]; exact bounded.upper_le

theorem freeSpace_eq (bounded : page.Bounded) :
    page.freeSpace = page.freeSpaceUpperBound - page.freeSpaceLowerBound :=
  if_pos bounded.lower_le

end Bounded

theorem WellFormed.rearranged {page after : TablePage} (wf : page.WellFormed)
    (length_eq : after.data.length = page.data.length) (bounded : after.Bounded)
    (laid : format.Laid after.data page.LiveAt after.freeSpaceUpperBound page.limit)
    (liveAt_eq : after.LiveAt = page.LiveAt)
    (live_eq : after.liveRecordCount = page.liveRecordCount)
    (records : ∀ slot, page.LiveAt slot →
      format.recordAt after.data slot = format.recordAt page.data slot) :
    after.WellFormed ∧ after.contents = page.contents := by
  refine ⟨⟨bounded, ?_, ?_⟩, ?_⟩
  · rwa [limit_eq_of_length_eq length_eq, liveAt_eq]
  · rw [live_eq, liveAt_eq]
    exact wf.count_eq
  · funext slot
    exact contents_congr (by rw [liveAt_eq]) (records slot)

structure Placed (page : TablePage) (slot : Nat) (bytes : List UInt8)
    (placed : TablePage) : Prop where
  pageId_eq : placed.pageId = page.pageId
  length_eq : placed.data.length = page.data.length
  slotCount_eq : placed.slotCount = page.slotCount
  lower_eq : placed.freeSpaceLowerBound = page.freeSpaceLowerBound
  upper_eq : placed.freeSpaceUpperBound = page.freeSpaceUpperBound - bytes.length
  live_eq : placed.liveRecordCount = page.liveRecordCount
  flags_eq : ∀ other, other < page.slotCount → placed.slotFlags other = page.slotFlags other
  offset_eq : placed.slotOffset slot = page.freeSpaceUpperBound - bytes.length
  slotLength_eq : placed.slotLength slot = bytes.length
  others : ∀ other, other < page.slotCount → other ≠ slot → placed.slotOffset other =
    page.slotOffset other ∧ placed.slotLength other = page.slotLength other
  record : format.recordAt placed.data slot = bytes
  kept : ∀ start size, page.freeSpaceUpperBound ≤ start →
    format.bytesAt placed.data start size = format.bytesAt page.data start size

theorem sub32_eq {left right : Nat} (fits : right ≤ left)
    (small : left < 2 ^ 32) : sub32 left right = left - right := by
  unfold sub32
  omega

variable {slot : Nat} {bytes : List UInt8}

theorem placeRecord_placed {page : TablePage} (bounded : page.Bounded)
    (inDirectory : slot < page.slotCount) (fits : bytes.length ≤ page.freeSpace) :
    Placed page slot bytes (page.placeRecord slot bytes) := by
  obtain ⟨lower, order, upper, small, inside⟩ := bounded.bounds
  rw [bounded.freeSpace_eq] at fits
  have lowered : sub32 page.freeSpaceUpperBound bytes.length = page.freeSpaceUpperBound -
      bytes.length := sub32_eq (by omega) (by omega)
  generalize upperEq : page.freeSpaceUpperBound = upperBound at *
  generalize offsetEq : upperBound - bytes.length = offset at *
  have data : (page.placeRecord slot bytes).data = writeNat (writeNat (poke
      (writeNat page.data 60 4 offset) (offset - 4) bytes) (68 + 12 * slot) 4 offset)
      (68 + 12 * slot + 4) 4 bytes.length := by
    simp only [placeRecord, upperEq, lowered]
    rfl
  have same : ∀ start size, (start + size ≤ 60 ∨ 64 ≤ start) ∧
      (start + size ≤ offset - 4 ∨ upperBound - 4 ≤ start) ∧
      (start + size ≤ 68 + 12 * slot ∨ 68 + 12 * slot + 8 ≤ start) →
      slice (page.placeRecord slot bytes).data start size = slice page.data start size := by
    intro start size apart
    rw [data]
    simp (disch := omega) only [slice_writeNat_of_disjoint, slice_poke_of_disjoint]
  have place : (page.placeRecord slot bytes).slotOffset slot = offset := by
    rw [slotOffset_eq, data, readNat_writeNat_of_disjoint _ (by omega),
      readNat_writeNat _ (by simp; omega)]
    omega
  have size : (page.placeRecord slot bytes).slotLength slot = bytes.length := by
    rw [slotLength_eq, data, readNat_writeNat _ (by simp; omega)]
    omega
  constructor
  case pageId_eq => rfl
  case length_eq => simp [data]
  case slotCount_eq | lower_eq | live_eq => exact congrArg leNat (same _ _ (by omega))
  case upper_eq =>
    rw [upperEq, offsetEq, freeSpaceUpperBound, data]
    simp (disch := omega) only [readNat_writeNat_of_disjoint,
      readNat_poke_of_disjoint, readNat_writeNat]
    omega
  case flags_eq =>
    intro other bound
    exact congrArg leNat (same (68 + 12 * other + 8) 2 (by omega))
  case offset_eq => rw [upperEq, offsetEq, place]
  case slotLength_eq => exact size
  case others =>
    intro other bound ne
    exact ⟨congrArg leNat (same (68 + 12 * other) 4 (by omega)),
      congrArg leNat (same (68 + 12 * other + 4) 4 (by omega))⟩
  case kept =>
    intro start size above
    exact same (start - 4) size (by omega)
  case record =>
    rw [recordAt_eq, place, size, data]
    simp (disch := omega) only [slice_writeNat_of_disjoint]
    exact slice_poke_same (by simp; omega)

theorem liveAt_subset (page : TablePage) :
    {slot | page.LiveAt slot} ⊆ (Finset.range page.slotCount : Set Nat) := by
  intro slot live
  exact Finset.mem_coe.mpr (Finset.mem_range.mpr live.1)

theorem finite_liveAt (page : TablePage) : {slot | page.LiveAt slot}.Finite :=
  (Finset.range page.slotCount).finite_toSet.subset page.liveAt_subset

theorem ncard_liveAt_le (page : TablePage) :
    Set.ncard {slot | page.LiveAt slot} ≤ page.slotCount := by
  have bound := Set.ncard_le_ncard page.liveAt_subset (Finset.range page.slotCount).finite_toSet
  rwa [Set.ncard_coe_finset, Finset.card_range] at bound

theorem WellFormed.stored {page after : TablePage} (wf : page.WellFormed)
    (bounded : after.Bounded) (length_eq : after.data.length = page.data.length)
    (upper : after.freeSpaceUpperBound + bytes.length ≤ page.freeSpaceUpperBound)
    (live : ∀ other, after.LiveAt other ↔ other = slot ∨ page.LiveAt other)
    (others : ∀ other, page.LiveAt other → other ≠ slot →
      after.slotOffset other = page.slotOffset other ∧
        after.slotLength other = page.slotLength other)
    (offset_eq : after.slotOffset slot = after.freeSpaceUpperBound)
    (slotLength_eq : after.slotLength slot = bytes.length)
    (record : format.recordAt after.data slot = bytes)
    (kept : ∀ start size, page.freeSpaceUpperBound ≤ start →
      format.bytesAt after.data start size =
        format.bytesAt page.data start size) (count : after.liveRecordCount =
      page.liveRecordCount + if page.LiveAt slot then 0 else 1) :
    after.WellFormed ∧ after.contents = Function.update page.contents slot (some bytes) := by
  have limits := limit_eq_of_length_eq length_eq
  constructor
  · refine ⟨bounded, ?_, ?_⟩
    · rw [limits]
      apply wf.laid.push _ offset_eq _ wf.upper_le
      · intro other mem ne
        have old := ((live other).mp mem).resolve_left ne
        exact ⟨old, others other old ne⟩
      · change after.freeSpaceUpperBound + after.slotLength slot ≤ _
        rw [slotLength_eq]
        exact upper
    have added : {other | after.LiveAt other} = Insert.insert slot {other | page.LiveAt other} := by
      ext other
      exact live other
    rw [added, count, wf.count_eq]
    split_ifs with old
    · have mem : slot ∈ {other | page.LiveAt other} := old
      rw [Set.insert_eq_of_mem mem, Nat.add_zero]
    · have fresh : slot ∉ {other | page.LiveAt other} := old
      rw [Set.ncard_insert_of_notMem fresh page.finite_liveAt]
  funext other
  by_cases same : other = slot
  · subst same
    rw [Function.update_self, contents_of_liveAt ((live other).mpr (Or.inl rfl)), record]
  rw [Function.update_of_ne same]
  apply contents_congr
  · rw [live other]
    exact or_iff_right same
  · intro old
    rw [recordAt_eq, recordAt_eq, (others other old same).1, (others other old same).2]
    exact kept _ _ (wf.laid.low_le other old)

structure Marked (page : TablePage) (slot flags count : Nat) (marked : TablePage) : Prop where
  pageId_eq : marked.pageId = page.pageId
  length_eq : marked.data.length = page.data.length
  slotCount_eq : marked.slotCount = page.slotCount
  lower_eq : marked.freeSpaceLowerBound = page.freeSpaceLowerBound
  upper_eq : marked.freeSpaceUpperBound = page.freeSpaceUpperBound
  live_eq : marked.liveRecordCount = count
  flag_eq : marked.slotFlags slot = flags
  flags_eq : ∀ other, other ≠ slot → marked.slotFlags other = page.slotFlags other
  offset_eq : ∀ other, marked.slotOffset other = page.slotOffset other
  slotLength_eq : ∀ other, marked.slotLength other = page.slotLength other
  kept : ∀ start size, 72 + 12 * page.slotCount ≤ start →
    format.bytesAt marked.data start size = format.bytesAt page.data start size

theorem marked_of_bounded {page : TablePage} (bounded : page.Bounded)
    {slot : Nat} (inDirectory : slot < page.slotCount) {flags count : Nat}
    (smallFlags : flags < 2 ^ 16) (smallCount : count < 2 ^ 32) :
    Marked page slot flags count ((page.setSlotFlags slot flags).setLiveRecordCount count) := by
  obtain ⟨lower, order, upper, small, inside⟩ := bounded.bounds
  have data : ((page.setSlotFlags slot flags).setLiveRecordCount count).data = writeNat
      (writeNat page.data (68 + 12 * slot + 8) 2 flags) 64 4 count := rfl
  have same : ∀ start size, (start + size ≤ 64 ∨ 68 ≤ start) ∧
      (start + size ≤ 68 + 12 * slot + 8 ∨ 68 + 12 * slot + 10 ≤ start) →
      slice ((page.setSlotFlags slot flags).setLiveRecordCount count).data start size =
        slice page.data start size := by
    intro start size apart
    rw [data]
    simp (disch := omega) only [slice_writeNat_of_disjoint]
  constructor
  case pageId_eq => rfl
  case length_eq => simp [data]
  case slotCount_eq | lower_eq | upper_eq => exact congrArg leNat (same _ _ (by omega))
  case live_eq =>
    rw [liveRecordCount, data, readNat_writeNat _ (by simp; omega)]
    omega
  case flag_eq =>
    rw [slotFlags_eq, data, readNat_writeNat_of_disjoint _ (by omega),
      readNat_writeNat _ (by omega)]
    omega
  case flags_eq =>
    intro other ne
    exact congrArg leNat (same (68 + 12 * other + 8) 2 (by omega))
  case offset_eq =>
    intro other
    exact congrArg leNat (same (68 + 12 * other) 4 (by omega))
  case slotLength_eq =>
    intro other
    exact congrArg leNat (same (68 + 12 * other + 4) 4 (by omega))
  case kept =>
    intro start size above
    exact same (start - 4) size (by omega)

theorem Marked.bounded {page marked : TablePage} {flags count : Nat}
    (mark : Marked page slot flags count marked) (bounded : page.Bounded) : marked.Bounded :=
  bounded.congr mark.length_eq mark.slotCount_eq mark.lower_eq mark.upper_eq

theorem Placed.bounded {page placed : TablePage}
    (place : Placed page slot bytes placed) (bounded : page.Bounded)
    (fits : bytes.length ≤ page.freeSpace) : placed.Bounded where
  lower_eq := by
    rw [place.lower_eq, place.slotCount_eq]
    exact bounded.lower_eq
  lower_le := by
    have order := bounded.lower_le
    rw [bounded.freeSpace_eq] at fits
    rw [place.lower_eq, place.upper_eq]
    omega
  upper_le := by
    have upper := bounded.upper_le
    rw [place.upper_eq, limit_eq_of_length_eq place.length_eq]
    omega

structure Appended (page appended : TablePage) : Prop where
  pageId_eq : appended.pageId = page.pageId
  length_eq : appended.data.length = page.data.length
  slotCount_eq : appended.slotCount = page.slotCount + 1
  lower_eq : appended.freeSpaceLowerBound = page.freeSpaceLowerBound + 12
  upper_eq : appended.freeSpaceUpperBound = page.freeSpaceUpperBound
  live_eq : appended.liveRecordCount = page.liveRecordCount
  kept : ∀ start size, 68 ≤ start → slice appended.data start size = slice page.data start size

theorem appendSlot_appended {page : TablePage} (bounded : page.Bounded)
    (fits : 12 ≤ page.freeSpace) : Appended page page.appendSlot := by
  obtain ⟨lower, order, upper, small, inside⟩ := bounded.bounds
  rw [bounded.freeSpace_eq] at fits
  have sameLower : (page.setSlotCount (page.slotCount + 1)).freeSpaceLowerBound =
      page.freeSpaceLowerBound := by
    simp (disch := omega) only [freeSpaceLowerBound, setSlotCount, readNat_writeNat_of_disjoint]
  have data : page.appendSlot.data = writeNat (writeNat page.data 52 4 (page.slotCount + 1)) 56 4
      (page.freeSpaceLowerBound + 12) := by
    simp only [appendSlot, sameLower]
    rfl
  have same : ∀ start size, 60 ≤ start →
      slice page.appendSlot.data start size = slice page.data start size := by
    intro start size above
    rw [data]
    simp (disch := omega) only [slice_writeNat_of_disjoint]
  constructor
  case pageId_eq => rfl
  case length_eq => simp [data]
  case slotCount_eq =>
    rw [slotCount, data, readNat_writeNat_of_disjoint _ (by omega), readNat_writeNat _ (by omega)]
    omega
  case lower_eq =>
    rw [freeSpaceLowerBound, data, readNat_writeNat _ (by simp; omega)]
    omega
  case upper_eq | live_eq => exact congrArg leNat (same _ _ (by omega))
  case kept => exact fun start size above => same start size (by omega)

theorem Appended.bounded {page appended : TablePage}
    (more : Appended page appended) (bounded : page.Bounded)
    (room : 12 ≤ page.freeSpace) : appended.Bounded := by
  have lower := bounded.lower_eq
  have order := bounded.lower_le
  rw [bounded.freeSpace_eq] at room
  refine ⟨?_, ?_, ?_⟩
  · rw [more.lower_eq, more.slotCount_eq]
    omega
  · rw [more.lower_eq, more.upper_eq]
    omega
  · rw [more.upper_eq, limit_eq_of_length_eq more.length_eq]
    exact bounded.upper_le

theorem Appended.fits {page appended : TablePage}
    (more : Appended page appended) (bounded : page.Bounded) {size : Nat}
    (room : 12 + size ≤ page.freeSpace) : size ≤ appended.freeSpace := by
  rw [(more.bounded bounded (by omega)).freeSpace_eq, more.upper_eq, more.lower_eq]
  rw [bounded.freeSpace_eq] at room
  omega

structure Prepared (page : TablePage) (slot : Nat) (base : TablePage) : Prop where
  bounded : base.Bounded
  pageId_eq : base.pageId = page.pageId
  length_eq : base.data.length = page.data.length
  upper_eq : base.freeSpaceUpperBound = page.freeSpaceUpperBound
  live_eq : base.liveRecordCount = page.liveRecordCount
  inDirectory : slot < base.slotCount
  others : ∀ other, other ≠ slot → (other < base.slotCount ↔ other < page.slotCount)
  kept : ∀ start size, 68 ≤ start → slice base.data start size = slice page.data start size
  free : ¬ page.LiveAt slot

theorem Prepared.slot_eq {page base : TablePage}
    (prepared : Prepared page slot base) (other : Nat) :
    base.slotOffset other = page.slotOffset other ∧ base.slotLength other = page.slotLength other ∧
      base.slotFlags other = page.slotFlags other := by
  simp only [slotOffset_eq, slotLength_eq, slotFlags_eq, readNat]
  rw [prepared.kept _ _ (by omega), prepared.kept _ _ (by omega), prepared.kept _ _ (by omega)]
  exact ⟨rfl, rfl, rfl⟩

theorem isLive_eq_of_flags {first second : TablePage}
    (same : first.slotFlags slot = second.slotFlags slot) :
    first.isLive slot = second.isLive slot := by rw [isLive, isLive, same]

theorem WellFormed.inserted {page base : TablePage} (wf : page.WellFormed)
    (prepared : Prepared page slot base) (fits : bytes.length ≤ base.freeSpace) :
    let placed := (base.placeRecord slot bytes).setSlotFlags slot flagLive
    let after := placed.setLiveRecordCount (placed.liveRecordCount + 1)
    after.WellFormed ∧ after.contents = Function.update page.contents slot (some bytes) ∧
      after.data.length = page.data.length ∧ after.pageId = page.pageId := by
  intro placed after
  have place := placeRecord_placed prepared.bounded prepared.inDirectory fits
  have placeBounded := place.bounded prepared.bounded fits
  have slots : page.slotCount < 2 ^ 32 := readNat_lt 52 4
  have some := page.ncard_liveAt_le
  have counted := wf.count_eq
  obtain ⟨lower, order, upper, small, -⟩ := wf.toBounded.bounds
  have room := prepared.bounded.lower_le
  rw [prepared.bounded.freeSpace_eq] at fits
  have sameLive : placed.liveRecordCount = page.liveRecordCount := by
    have unchanged : placed.liveRecordCount = (base.placeRecord slot bytes).liveRecordCount := by
      simp (disch := omega) only [placed, liveRecordCount, setSlotFlags,
        position_eq, readNat_writeNat_of_disjoint]
    rw [unchanged, place.live_eq, prepared.live_eq]
  have mark : Marked (base.placeRecord slot bytes) slot flagLive (placed.liveRecordCount + 1) after
      := marked_of_bounded placeBounded (by rw [place.slotCount_eq]; exact prepared.inDirectory)
      (by decide) (by rw [sameLive]; omega)
  have baseLower := prepared.bounded.lower_eq
  have baseUpper := prepared.upper_eq
  have placeUpper := place.upper_eq
  have live : ∀ other, after.LiveAt other ↔ other = slot ∨ page.LiveAt other := by
    intro other
    rw [LiveAt, mark.slotCount_eq, place.slotCount_eq]
    by_cases same : other = slot
    · subst same
      simp [prepared.inDirectory, isLive, mark.flag_eq, flagLive]
    have flags : other < base.slotCount → after.isLive other = page.isLive other := by
      intro bound
      apply isLive_eq_of_flags
      rw [mark.flags_eq other same, place.flags_eq other bound]
      exact (prepared.slot_eq other).2.2
    rw [or_iff_right same, LiveAt, ← prepared.others other same]
    exact and_congr_right fun bound => by rw [flags bound]
  have others : ∀ other, page.LiveAt other → other ≠ slot → after.slotOffset other = page.slotOffset
      other ∧ after.slotLength other = page.slotLength other := by
    intro other old ne
    have bound := (prepared.others other ne).mpr old.1
    rw [mark.offset_eq, mark.slotLength_eq, (place.others other bound ne).1,
      (place.others other bound ne).2]
    exact ⟨(prepared.slot_eq other).1, (prepared.slot_eq other).2.1⟩
  have record : format.recordAt after.data slot = bytes := by
    rw [recordAt_eq, mark.offset_eq, mark.slotLength_eq]
    refine Eq.trans (mark.kept _ _ ?_) place.record
    rw [place.offset_eq, place.slotCount_eq]
    omega
  have kept : ∀ start size, page.freeSpaceUpperBound ≤ start → format.bytesAt after.data start size
      = format.bytesAt page.data start size := by
    intro start size above
    rw [mark.kept start size (by rw [place.slotCount_eq]; omega), place.kept start size (by omega)]
    exact prepared.kept _ _ (by change 68 ≤ start - 4; omega)
  have result := wf.stored (mark.bounded placeBounded)
    (by rw [mark.length_eq, place.length_eq, prepared.length_eq]) (by rw [mark.upper_eq]; omega)
    live others (by rw [mark.offset_eq, place.offset_eq, mark.upper_eq, place.upper_eq])
    (by rw [mark.slotLength_eq, place.slotLength_eq]) record kept
    (by rw [mark.live_eq, sameLive, if_neg prepared.free])
  exact ⟨result.1, result.2, by rw [mark.length_eq, place.length_eq, prepared.length_eq], by rw
    [mark.pageId_eq, place.pageId_eq, prepared.pageId_eq]⟩

structure Overwritten (page : TablePage) (slot : Nat) (bytes : List UInt8)
    (after : TablePage) : Prop where
  length_eq : after.data.length = page.data.length
  slotCount_eq : after.slotCount = page.slotCount
  lower_eq : after.freeSpaceLowerBound = page.freeSpaceLowerBound
  upper_eq : after.freeSpaceUpperBound = page.freeSpaceUpperBound
  live_eq : after.liveRecordCount = page.liveRecordCount
  flags_eq : ∀ other, other < page.slotCount → after.slotFlags other = page.slotFlags other
  offset_eq : ∀ other, other < page.slotCount → after.slotOffset other = page.slotOffset other
  slotLength_eq : after.slotLength slot = bytes.length
  others : ∀ other, other < page.slotCount → other ≠ slot →
    after.slotLength other = page.slotLength other
  record : format.recordAt after.data slot = bytes
  kept : ∀ start size, page.freeSpaceUpperBound ≤ start → start + size ≤ page.slotOffset slot ∨
    page.slotOffset slot + page.slotLength slot ≤ start → format.bytesAt after.data start size =
    format.bytesAt page.data start size

theorem WellFormed.overwritten {page : TablePage} (wf : page.WellFormed)
    (live : page.LiveAt slot) (fits : bytes.length ≤ page.slotLength slot) :
    Overwritten page slot bytes
      (({ page with
        data := poke page.data (page.slotOffset slot - format.shift) bytes } :
          TablePage).setSlotLength slot bytes.length) := by
  generalize result : (({ page with
    data := poke page.data (page.slotOffset slot - format.shift) bytes } :
      TablePage).setSlotLength slot bytes.length) = after
  obtain ⟨lower, order, upper, small, inside⟩ := wf.toBounded.bounds
  have lowOffset : page.freeSpaceUpperBound ≤ page.slotOffset slot := wf.laid.low_le slot live
  have highOffset : page.slotOffset slot + page.slotLength slot ≤ page.limit :=
    wf.laid.end_le slot live
  have inDirectory := live.1
  have data : after.data = writeNat (poke page.data (page.slotOffset slot - 4)
      bytes) (68 + 12 * slot + 4) 4 bytes.length := by
    rw [← result]
    rfl
  have same : ∀ start size, (start + size ≤ page.slotOffset slot - 4 ∨
        page.slotOffset slot - 4 + bytes.length ≤ start) ∧
      (start + size ≤ 68 + 12 * slot + 4 ∨ 68 + 12 * slot + 8 ≤ start) →
      slice after.data start size = slice page.data start size := by
    intro start size apart
    rw [data, slice_writeNat_of_disjoint _ (by omega), slice_poke_of_disjoint (by omega)]
  have newLength : after.slotLength slot = bytes.length := by
    rw [slotLength_eq, data, readNat_writeNat _ (by simp; omega)]
    omega
  have offsets : ∀ other, other < page.slotCount → after.slotOffset other = page.slotOffset other :=
    fun other bound => congrArg leNat (same (68 + 12 * other) 4 (by omega))
  constructor
  case length_eq => simp [data]
  case slotCount_eq | lower_eq | upper_eq | live_eq => exact congrArg leNat (same _ _ (by omega))
  case flags_eq =>
    intro other bound
    exact congrArg leNat (same (68 + 12 * other + 8) 2 (by omega))
  case offset_eq => exact offsets
  case slotLength_eq => exact newLength
  case others =>
    intro other bound ne
    exact congrArg leNat (same (68 + 12 * other + 4) 4 (by omega))
  case record =>
    rw [recordAt_eq, offsets slot inDirectory, newLength, data,
      slice_writeNat_of_disjoint _ (by omega)]
    exact slice_poke_same (by omega)
  case kept =>
    intro start size above apart
    exact same (start - 4) size (by omega)

theorem Overwritten.refines {page after : TablePage}
    (overwrite : Overwritten page slot bytes after) (wf : page.WellFormed)
    (live : page.LiveAt slot) (fits : bytes.length ≤ page.slotLength slot) :
    after.WellFormed ∧ after.contents = Function.update page.contents slot (some bytes) := by
  have sameLimit : after.limit = page.limit := limit_eq_of_length_eq overwrite.length_eq
  have sameLiveAt : after.LiveAt = page.LiveAt := by
    funext other
    rw [LiveAt, LiveAt, overwrite.slotCount_eq]
    exact propext (and_congr_right fun bound => by
      rw [isLive_eq_of_flags (overwrite.flags_eq other bound)])
  have shorter : ∀ other, page.LiveAt other → after.slotLength other ≤ page.slotLength other := by
    intro other old
    by_cases same : other = slot
    · subst same
      rw [overwrite.slotLength_eq]
      exact fits
    · exact le_of_eq (overwrite.others other old.1 same)
  refine ⟨⟨wf.toBounded.congr overwrite.length_eq overwrite.slotCount_eq overwrite.lower_eq
    overwrite.upper_eq, ?_, ?_⟩, ?_⟩
  · rw [overwrite.upper_eq, sameLimit, sameLiveAt]
    exact wf.laid.shorten fun other old =>
      ⟨old, overwrite.offset_eq other old.1, shorter other old⟩
  · rw [overwrite.live_eq, sameLiveAt]
    exact wf.count_eq
  funext other
  by_cases same : other = slot
  · subst same
    rw [Function.update_self, contents_of_liveAt (sameLiveAt ▸ live), overwrite.record]
  rw [Function.update_of_ne same]
  apply contents_congr
  · rw [sameLiveAt]
  · intro old
    rw [recordAt_eq, recordAt_eq, overwrite.offset_eq other old.1,
      overwrite.others other old.1 same]
    exact overwrite.kept _ _ (wf.laid.low_le other old) (wf.laid.apart other slot old live same)

end TablePage

end KlyroDB
