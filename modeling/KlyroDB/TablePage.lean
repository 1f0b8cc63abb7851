import KlyroDB.CoreTypes
import KlyroDB.PageLayout
import KlyroDB.SlotDirectory

/-!
# Slotted table pages

`storage/table_page.cpp` over the bytes of a page.  The in-memory
`sizeof(PageHeader)` is 40 although the serialized header has 36 bytes: the
header of a table page starts at byte 36, and record offsets count from four
bytes before the page.
-/

namespace KlyroDB

open ByteMemory

structure TablePage where
  pageId : Nat
  data : List UInt8
  deriving DecidableEq, Repr

namespace TablePage

/-- `sizeof(PageHeader)`, with the padding before its LSN. -/
def sizeofPageHeader : Nat := 40

def sizeofTablePageHeader : Nat := 32

def sizeofSlot : Nat := 12

def format : SlotFormat where
  base := 68
  stride := 12
  width := 4
  shift := 4
  fields_le := by decide

def flagLive : Nat := 1

def flagDeleted : Nat := 2

def pageSize (page : TablePage) : Nat :=
  page.data.length - PageHeader.size + sizeofPageHeader

def nextPageId (page : TablePage) : Nat := readNat page.data 36 8

def slotCount (page : TablePage) : Nat := readNat page.data 52 4

def freeSpaceLowerBound (page : TablePage) : Nat := readNat page.data 56 4

def freeSpaceUpperBound (page : TablePage) : Nat := readNat page.data 60 4

def liveRecordCount (page : TablePage) : Nat := readNat page.data 64 4

def setNextPageId (page : TablePage) (pageId : Nat) : TablePage :=
  { page with data := writeNat page.data 36 8 pageId }

def setPrevPageId (page : TablePage) (pageId : Nat) : TablePage :=
  { page with data := writeNat page.data 44 8 pageId }

def setSlotCount (page : TablePage) (count : Nat) : TablePage :=
  { page with data := writeNat page.data 52 4 count }

def setFreeSpaceLowerBound (page : TablePage) (bound : Nat) : TablePage :=
  { page with data := writeNat page.data 56 4 bound }

def setFreeSpaceUpperBound (page : TablePage) (bound : Nat) : TablePage :=
  { page with data := writeNat page.data 60 4 bound }

def setLiveRecordCount (page : TablePage) (count : Nat) : TablePage :=
  { page with data := writeNat page.data 64 4 count }

def slotOffset (page : TablePage) (slot : Nat) : Nat :=
  format.offsetAt page.data slot

def slotLength (page : TablePage) (slot : Nat) : Nat :=
  format.lengthAt page.data slot

def slotFlags (page : TablePage) (slot : Nat) : Nat :=
  readNat page.data (format.position slot + 8) 2

def setSlotOffset (page : TablePage) (slot offset : Nat) : TablePage :=
  { page with data := writeNat page.data (format.position slot) 4 offset }

def setSlotLength (page : TablePage) (slot length : Nat) : TablePage :=
  { page with data := writeNat page.data (format.position slot + 4) 4 length }

def setSlotFlags (page : TablePage) (slot flags : Nat) : TablePage :=
  { page with data := writeNat page.data (format.position slot + 8) 2 flags }

def isLive (page : TablePage) (slot : Nat) : Bool :=
  page.slotFlags slot % 2 = flagLive

def sub32 (left right : Nat) : Nat := (left + 2 ^ 32 - right % 2 ^ 32) % 2 ^ 32

def init (page : TablePage) : TablePage :=
  let page := page.setNextPageId PageID.invalid
  let page := page.setPrevPageId PageID.invalid
  let page := page.setSlotCount 0
  let page := page.setFreeSpaceLowerBound (sizeofPageHeader + sizeofTablePageHeader)
  let page := page.setFreeSpaceUpperBound page.pageSize
  page.setLiveRecordCount 0

def freeSpace (page : TablePage) : Nat :=
  if page.freeSpaceLowerBound ≤ page.freeSpaceUpperBound then
    page.freeSpaceUpperBound - page.freeSpaceLowerBound
  else 0

def findFreeSlot (page : TablePage) : Option Nat :=
  (List.range page.slotCount).find? fun slot => !page.isLive slot

/-- Allocates space below the upper bound, copies the record there and points
the slot to it, as `insert` and a growing `update` do. -/
def placeRecord (page : TablePage) (slot : Nat) (bytes : List UInt8) : TablePage :=
  let offset := sub32 page.freeSpaceUpperBound bytes.length
  let page := page.setFreeSpaceUpperBound offset
  let page := { page with data := poke page.data (offset - format.shift) bytes }
  (page.setSlotOffset slot offset).setSlotLength slot bytes.length

def appendSlot (page : TablePage) : TablePage :=
  let page := page.setSlotCount (page.slotCount + 1)
  page.setFreeSpaceLowerBound (page.freeSpaceLowerBound + sizeofSlot)

def insert (page : TablePage) (bytes : List UInt8) : Except Status RecordID × TablePage :=
  if (page.pageSize + 2 ^ 64 - sizeofPageHeader - sizeofTablePageHeader -
      sizeofSlot) % 2 ^ 64 < bytes.length then
    (.error .invalidArgument, page)
  else
    match page.findFreeSlot with
    | some slot =>
        if page.freeSpace < bytes.length then (.error .internalError, page)
        else
          let page := (page.placeRecord slot bytes).setSlotFlags slot flagLive
          (.ok ⟨page.pageId, slot⟩, page.setLiveRecordCount (page.liveRecordCount + 1))
    | none =>
        if page.freeSpace < bytes.length + sizeofSlot then
          (.error .internalError, page)
        else
          let slot := page.slotCount
          let page := (page.appendSlot.placeRecord slot bytes).setSlotFlags slot flagLive
          (.ok ⟨page.pageId, slot⟩, page.setLiveRecordCount (page.liveRecordCount + 1))

/-- The checks that `get`, `erase` and `update` share. -/
def checkSlot (page : TablePage) (id : RecordID) : Option Status :=
  if id.pageId ≠ page.pageId then some .invalidArgument
  else if page.slotCount ≤ id.slotId then some .notFound
  else if !page.isLive id.slotId then some .notFound
  else none

def get (page : TablePage) (id : RecordID) : Except Status (List UInt8) :=
  match page.checkSlot id with
  | some status => .error status
  | none =>
      if page.pageSize < (page.slotOffset id.slotId + page.slotLength id.slotId) % 2 ^ 32 then
        .error .internalError
      else .ok (format.recordAt page.data id.slotId)

def erase (page : TablePage) (id : RecordID) : Except Status Unit × TablePage :=
  match page.checkSlot id with
  | some status => (.error status, page)
  | none =>
      let page := page.setSlotFlags id.slotId flagDeleted
      (.ok (), page.setLiveRecordCount (sub32 page.liveRecordCount 1))

def update (page : TablePage) (id : RecordID) (bytes : List UInt8) :
    Except Status Unit × TablePage :=
  match page.checkSlot id with
  | some status => (.error status, page)
  | none =>
      if bytes.length ≤ page.slotLength id.slotId then
        let data := poke page.data (page.slotOffset id.slotId - format.shift) bytes
        (.ok (),
          ({ page with data := data } : TablePage).setSlotLength id.slotId bytes.length)
      else if page.freeSpace < bytes.length then (.error .internalError, page)
      else (.ok (), page.placeRecord id.slotId bytes)

structure SlotRef where
  id : Nat
  offset : Nat
  deriving DecidableEq, Repr

def liveSlots (page : TablePage) : List SlotRef :=
  ((List.range page.slotCount).filter page.isLive).map fun slot =>
    ⟨slot, page.slotOffset slot⟩

/-- The loop that gives trailing dead slots back.  Each round lowers the slot
count, which bounds the number of rounds. -/
def dropTrailing : Nat → TablePage → TablePage
  | 0, page => page
  | rounds + 1, page =>
      if 0 < page.slotCount ∧ !page.isLive (page.slotCount - 1) then
        let page := page.setSlotCount (page.slotCount - 1)
        dropTrailing rounds
          (page.setFreeSpaceLowerBound (sub32 page.freeSpaceLowerBound sizeofSlot))
      else page

/-- The order in which `std::sort` leaves slots of equal offset is open. -/
def compact (page : TablePage) (order : DescendingSort SlotRef.offset) : TablePage :=
  let indices := (order.sort page.liveSlots).map SlotRef.id
  let packed := format.repack indices (page.pageSize % 2 ^ 32) page.data
  let page := ({ page with data := packed.1 } : TablePage)
  let page := page.setFreeSpaceUpperBound packed.2
  dropTrailing page.slotCount page

/-! ## Corrupt pages -/

/-- A range of memory; positions count from the first byte of the page. -/
structure Span where
  start : Int
  length : Nat
  deriving DecidableEq, Repr

def Span.Inside (page : TablePage) (span : Span) : Prop :=
  0 ≤ span.start ∧ span.start + span.length ≤ page.data.length

instance (page : TablePage) (span : Span) : Decidable (span.Inside page) :=
  inferInstanceAs (Decidable (_ ∧ _))

/-- The span that `get` returns. -/
def getSpan (page : TablePage) (id : RecordID) : Except Status Span :=
  match page.checkSlot id with
  | some status => .error status
  | none =>
      if page.pageSize < (page.slotOffset id.slotId + page.slotLength id.slotId) % 2 ^ 32 then
        .error .internalError
      else .ok ⟨page.slotOffset id.slotId - format.shift, page.slotLength id.slotId⟩

/-- The slot entries that `get` reads. -/
def slotsRead (page : TablePage) (id : RecordID) : List Span :=
  if id.pageId = page.pageId ∧ id.slotId < page.slotCount then
    [⟨format.position id.slotId, sizeofSlot⟩]
  else []

/-- Of the slot array, `get` depends on nothing but these entries. -/
theorem getSpan_congr {page other : TablePage} {id : RecordID}
    (samePage : other.pageId = page.pageId)
    (sameSize : other.data.length = page.data.length) (sameCount : other.slotCount = page.slotCount)
    (same : ∀ entry ∈ page.slotsRead id, slice other.data entry.start.toNat entry.length =
      slice page.data entry.start.toNat entry.length) : other.getSpan id = page.getSpan id := by
  by_cases read : id.pageId = page.pageId ∧ id.slotId < page.slotCount
  · have entry : slice other.data (format.position id.slotId) sizeofSlot =
        slice page.data (format.position id.slotId) sizeofSlot :=
      same ⟨format.position id.slotId, sizeofSlot⟩ (by simp [slotsRead, read])
    have field : ∀ {start length}, start + length ≤ sizeofSlot →
        readNat other.data (format.position id.slotId + start) length =
          readNat page.data (format.position id.slotId + start) length := by
      intro start length inside
      rw [readNat, readNat, ← slice_slice inside, ← slice_slice inside, entry]
    have offset : other.slotOffset id.slotId = page.slotOffset id.slotId :=
      @field 0 4 (by decide)
    have length : other.slotLength id.slotId = page.slotLength id.slotId :=
      @field 4 4 (by decide)
    have live : other.isLive id.slotId = page.isLive id.slotId := by
      rw [isLive, slotFlags, @field 8 2 (by decide)]
      rfl
    simp only [getSpan, checkSlot, samePage, sameCount, live, offset, length, pageSize, sameSize]
    rfl
  · have unread : id.pageId ≠ page.pageId ∨ page.slotCount ≤ id.slotId := by
      by_contra known
      exact read (by simpa [not_or] using known)
    rcases unread with elsewhere | unknown
    · simp [getSpan, checkSlot, samePage, elsewhere]
    · by_cases here : id.pageId = page.pageId <;>
        simp [getSpan, checkSlot, samePage, sameCount, unknown, here]

/-- The bytes of a record whose offset lies in the page are those of the span. -/
theorem get_of_getSpan {page : TablePage} {id : RecordID} {span : Span}
    (returned : page.getSpan id = .ok span) :
    page.get id = .ok (slice page.data span.start.toNat span.length) := by
  unfold getSpan at returned
  unfold get
  cases checked : page.checkSlot id with
  | some status =>
    rw [checked] at returned
    cases returned
  | none =>
    simp only [checked] at returned ⊢
    split_ifs at returned ⊢
    cases returned
    simp only [Int.toNat_sub]
    rfl

/-- `get` stays inside the page exactly when the slot entry lies in the page
and a live record that passes the check starts in the page and ends in it.  The
check cuts the end of the record to 32 bits. -/
theorem get_inside_iff (page : TablePage) (slot : Nat) :
    ((∀ entry ∈ page.slotsRead ⟨page.pageId, slot⟩, entry.Inside page) ∧
        ∀ span, page.getSpan ⟨page.pageId, slot⟩ = .ok span → span.Inside page) ↔
      (slot < page.slotCount → format.position slot + sizeofSlot ≤ page.data.length ∧
        (page.isLive slot = true →
          page.pageSize < (page.slotOffset slot + page.slotLength slot) % 2 ^ 32 ∨
            format.shift ≤ page.slotOffset slot ∧
              page.slotOffset slot + page.slotLength slot ≤ page.data.length + format.shift)) := by
  by_cases known : slot < page.slotCount
  · by_cases live : page.isLive slot = true
    · have checked : page.checkSlot ⟨page.pageId, slot⟩ = none := by simp [checkSlot, known, live]
      rw [slotsRead, if_pos ⟨rfl, known⟩, getSpan, checked]
      by_cases rejected : page.pageSize < (page.slotOffset slot + page.slotLength slot) % 2 ^ 32
      · simp only [if_pos rejected, Span.Inside, known, live]
        simp
        omega
      · simp only [if_neg rejected, Span.Inside, known, live]
        simp
        omega
    · simp [slotsRead, getSpan, checkSlot, known, live, Span.Inside]
      omega
  · simp [slotsRead, getSpan, checkSlot, known, Nat.le_of_not_lt known]

/-- A page of 100 bytes with the number 7.  Its header counts five slots, and
the first one is a live record of 32 bytes at offset `2 ^ 32 - 16`. -/
def corruptPage : TablePage where
  pageId := 7
  data := List.replicate 52 0 ++ leBytes 4 5 ++ List.replicate 12 0 ++
    leBytes 4 (2 ^ 32 - 16) ++ leBytes 4 32 ++ leBytes 2 flagLive ++ List.replicate 22 0

/-- The end of the first record is cut to 16, and the entry of slot 3 lies
behind the page. -/
theorem get_leaves_page :
    (∃ span, corruptPage.getSpan ⟨7, 0⟩ = .ok span ∧ ¬span.Inside corruptPage) ∧
      ∃ entry ∈ corruptPage.slotsRead ⟨7, 3⟩, ¬entry.Inside corruptPage := by
  constructor
  · exact ⟨⟨2 ^ 32 - 20, 32⟩, by decide, by decide⟩
  · exact ⟨⟨104, 12⟩, by decide, by decide⟩

end TablePage

end KlyroDB
