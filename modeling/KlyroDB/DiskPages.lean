import KlyroDB.DiskManager

/-!
# Pages on disk

Writing a page stamps it with a checksum that the reader finds again, and
different pages do not overlap in the file.
-/

namespace KlyroDB

open ByteMemory

namespace PageImage

theorem data_stampChecksum (page : PageImage) :
    page.stampChecksum.data = writeNat (writeNat page.data 32 4 0) 32 4
        (Checksum.calculateChecksum (writeNat page.data 32 4 0)).toNat := by
  have cleared := sameUpToChecksum_setChecksum page 0
  have clearedData := data_setChecksum page 0
  unfold stampChecksum
  dsimp only
  generalize page.writeHeader { page.readHeader with checksum := 0 } = middle
    at cleared clearedData ⊢
  rw [cleared.symm.header_eq, data_setChecksum, clearedData]

theorem cleared_stampChecksum (page : PageImage) :
    writeNat page.stampChecksum.data 32 4 0 = writeNat page.data 32 4 0 := by
  rw [data_stampChecksum, writeNat_writeNat, writeNat_writeNat]

theorem readHeader_checksum (page : PageImage) :
    page.readHeader.checksum = readNat page.data 32 4 :=
  rfl

theorem readHeader_stampChecksum (page : PageImage) :
    page.stampChecksum.readHeader.checksum =
      (Checksum.calculateChecksum (writeNat page.data 32 4 0)).toNat := by
  have bound : 36 ≤ page.data.length := page.size_le
  rw [readHeader_checksum, data_stampChecksum]
  generalize Checksum.calculateChecksum (writeNat page.data 32 4 0) = checksum
  have small := checksum.toNat_lt
  rw [readNat_writeNat _ (by rw [length_writeNat]; omega)]
  omega

end PageImage

namespace DiskManager

theorem verifyChecksum_stampChecksum (page : PageImage) :
    ∃ verified, verifyChecksum page.stampChecksum = some verified ∧
      PageImage.SameUpToChecksum verified page := by
  have cleared : (page.stampChecksum.writeHeader { page.stampChecksum.readHeader with checksum := 0
      }).data = writeNat page.data 32 4 0 := by
    rw [PageImage.data_setChecksum, PageImage.cleared_stampChecksum]
  cases passed : verifyChecksum page.stampChecksum with
  | none =>
    unfold verifyChecksum at passed
    dsimp only at passed
    rw [cleared, PageImage.readHeader_stampChecksum] at passed
    simp at passed
  | some verified =>
    exact ⟨verified, rfl, (sameUpToChecksum_verifyChecksum passed).trans
      (PageImage.sameUpToChecksum_stampChecksum page)⟩

def writePages (disk : DiskManager) (pages : List Page) : DiskManager :=
  pages.foldl (fun disk page => (disk.writePage page).2.2) disk

/-- The device works and the file is open. -/
structure Ready (disk : DiskManager) : Prop where
  isOpen_eq : disk.isOpen = true
  faults_eq : disk.faults = []

section WritePages

variable {disk : DiskManager} {page : Page}

variable {pageId : Nat} {image : PageImage}

section

variable (ready : disk.Ready)

include ready

theorem Ready.addressable_iff : disk.Addressable pageId ↔
      PageID.isValid pageId = true ∧ pageId * disk.pageSize < 2 ^ 64 := by
  rw [DiskManager.addressable_iff]
  simp [ready.isOpen_eq]

theorem Ready.writePage_eq_of_not (unaddressable : ¬ disk.Addressable page.id) :
    disk.writePage page = (.error .invalidArgument, page, disk) := by
  rw [ready.addressable_iff] at unaddressable
  rw [writePage, if_neg (by simp [ready.isOpen_eq]), calculateOffset_eq, if_neg unaddressable]

theorem Ready.writePage (page : Page) :
    (disk.writePage page).2.2.Ready ∧ (disk.writePage page).2.2.pageSize = disk.pageSize := by
  by_cases addressable : disk.Addressable page.id
  · rw [writePage_eq ready.faults_eq addressable]
    exact ⟨⟨ready.isOpen_eq, ready.faults_eq⟩, rfl⟩
  · rw [ready.writePage_eq_of_not addressable]
    exact ⟨ready, rfl⟩

theorem Ready.stored_writePage_self (addressable : disk.Addressable page.id)
    (fits : page.image.data.length = disk.pageSize) :
    (disk.writePage page).2.2.stored page.id = some (page.image.storedPage page.id) := by
  rw [writePage_eq ready.faults_eq addressable]
  refine @stored_writeFile_self disk _ page.id (page.image.storedPage page.id)
    ((length_storedPage _ _).trans fits) ?_ ?_
  · rfl
  · rfl

theorem Ready.stored_writePage_of_ne (fits : page.image.data.length = disk.pageSize) {other : Nat}
    (held : disk.stored other = some image) (ne : other ≠ page.id) :
    (disk.writePage page).2.2.stored other = some image := by
  by_cases addressable : disk.Addressable page.id
  · rw [writePage_eq ready.faults_eq addressable]
    refine stored_writeFile_elsewhere held
      (le_of_eq ((length_storedPage page.image page.id).trans fits)) ?_ ?_ ne
    · rfl
    · rfl
  · rw [ready.writePage_eq_of_not addressable]
    exact held

theorem Ready.writePages (pages : List Page) :
    (disk.writePages pages).Ready ∧ (disk.writePages pages).pageSize = disk.pageSize := by
  induction pages generalizing disk with
  | nil => exact ⟨ready, rfl⟩
  | cons page pages ih =>
    obtain ⟨readyNext, sameSize⟩ := ready.writePage page
    obtain ⟨readyLast, sameSizeLast⟩ := ih readyNext
    exact ⟨readyLast, sameSizeLast.trans sameSize⟩

theorem Ready.stored_writePages {pages : List Page}
    (sizes : ∀ page ∈ pages, page.image.data.length = disk.pageSize) {other : Nat}
    (held : disk.stored other = some image) (elsewhere : ∀ page ∈ pages, page.id ≠ other) :
    (disk.writePages pages).stored other = some image := by
  induction pages generalizing disk with
  | nil => exact held
  | cons page pages ih =>
    obtain ⟨readyNext, sameSize⟩ := ready.writePage page
    rw [List.forall_mem_cons] at sizes elsewhere
    apply ih readyNext
    · rw [sameSize]
      exact sizes.2
    · exact ready.stored_writePage_of_ne sizes.1 held elsewhere.1.symm
    · exact elsewhere.2

theorem Ready.readPage_storedPage (addressable : disk.Addressable pageId)
    (held : disk.stored pageId = some (image.storedPage pageId)) :
    ∃ read, (disk.readPage pageId).1 = .ok read ∧ read.id = pageId ∧
      PageImage.SameUpToChecksum read.image image := by
  have found : disk.imageAt (pageId * disk.pageSize) = some (image.storedPage pageId) := held
  rw [readPage, if_neg (by simp [ready.isOpen_eq]), addressable.2, nextFault_eq ready.faults_eq]
  dsimp only
  rw [found]
  dsimp only
  by_cases metadata : pageId = 0
  · rw [if_pos metadata]
    exact ⟨_, rfl, rfl, (PageImage.SameUpToChecksum.refl image).storedPage pageId⟩
  have stamped : image.storedPage pageId = image.stampChecksum := by
    rw [PageImage.storedPage, if_neg metadata]
  obtain ⟨verified, passed, same⟩ := verifyChecksum_stampChecksum image
  rw [if_neg metadata, stamped, passed]
  exact ⟨_, rfl, rfl, same⟩

theorem Ready.addressable_writePages_iff (pages : List Page) :
    (disk.writePages pages).Addressable pageId ↔ disk.Addressable pageId := by
  obtain ⟨readyLast, sameSize⟩ := ready.writePages pages
  rw [readyLast.addressable_iff, ready.addressable_iff, sameSize]

theorem Ready.readPage_writePages {before after : List Page}
    (sizes : ∀ written ∈ before ++ page :: after, written.image.data.length = disk.pageSize)
    (lastWrite : ∀ later ∈ after, later.id ≠ page.id) (addressable : disk.Addressable page.id) :
    ∃ read, ((disk.writePages (before ++ page :: after)).readPage page.id).1 =
        .ok read ∧ read.id = page.id ∧ PageImage.SameUpToChecksum read.image page.image := by
  obtain ⟨readyBefore, sizeBefore⟩ := ready.writePages before
  obtain ⟨readyAfter, sizeAfter⟩ := readyBefore.writePage page
  simp only [List.mem_append, List.mem_cons] at sizes
  have held := readyBefore.stored_writePage_self ((ready.addressable_writePages_iff before).mpr
    addressable) (by rw [sizeBefore]; exact sizes page (by simp))
  have kept := readyAfter.stored_writePages (fun later mem => by
      rw [sizeAfter, sizeBefore]
      exact sizes later (Or.inr (Or.inr mem))) held lastWrite
  have folded : disk.writePages (before ++ page :: after) =
      ((disk.writePages before).writePage page).2.2.writePages after := by
    simp [DiskManager.writePages]
  rw [← folded] at kept
  exact (ready.writePages _).1.readPage_storedPage
    ((ready.addressable_writePages_iff _).mpr addressable) kept

theorem Ready.not_addressable_iff :
    ¬ disk.Addressable pageId ↔
      PageID.isValid pageId = false ∨ 2 ^ 64 ≤ pageId * disk.pageSize := by
  rw [ready.addressable_iff, not_and_or, Bool.not_eq_true, not_lt]

theorem Ready.writePage_invalid_iff (page : Page) :
    (disk.writePage page).1 = .error .invalidArgument ↔
      PageID.isValid page.id = false ∨ 2 ^ 64 ≤ page.id * disk.pageSize := by
  rw [← ready.not_addressable_iff]
  by_cases addressable : disk.Addressable page.id
  · rw [writePage_eq ready.faults_eq addressable]
    simp [addressable]
  · rw [ready.writePage_eq_of_not addressable]
    simp [addressable]

theorem Ready.readPage_invalid_iff (pageId : Nat) :
    (disk.readPage pageId).1 = .error .invalidArgument ↔
      PageID.isValid pageId = false ∨ 2 ^ 64 ≤ pageId * disk.pageSize := by
  rw [← ready.not_addressable_iff, readPage, if_neg (by simp [ready.isOpen_eq])]
  by_cases addressable : disk.Addressable pageId
  · rw [addressable.2, nextFault_eq ready.faults_eq]
    simp only [addressable, not_true_eq_false, iff_false]
    split
    · simp
    split
    · simp
    · split
      · simp
      · simp
  have refused : disk.calculateOffset pageId = .error .invalidArgument := by
    rw [calculateOffset_eq, if_neg]
    rwa [ready.addressable_iff] at addressable
  rw [refused]
  simp [addressable]

end

end WritePages

/-- Every page is read back as it was last written, and the identifiers that
are refused are those without a place in the file. -/
theorem written_pages_read_back (disk : DiskManager) (ready : disk.Ready) (pages : List Page)
    (sizes : ∀ page ∈ pages, page.image.data.length = disk.pageSize) :
    (∀ before page after, pages = before ++ page :: after → (∀ later ∈ after, later.id ≠ page.id) →
      ((disk.writePages before).writePage page).1 = .ok () →
      ∃ read, ((disk.writePages pages).readPage page.id).1 = .ok read ∧ read.id = page.id ∧
        PageImage.SameUpToChecksum read.image page.image) ∧
    (∀ page, ((disk.writePages pages).writePage page).1 = .error .invalidArgument ↔
      PageID.isValid page.id = false ∨ 2 ^ 64 ≤ page.id * disk.pageSize) ∧
    ∀ pageId, ((disk.writePages pages).readPage pageId).1 = .error .invalidArgument ↔
      PageID.isValid pageId = false ∨ 2 ^ 64 ≤ pageId * disk.pageSize := by
  obtain ⟨readyLast, sameSize⟩ := ready.writePages pages
  refine ⟨?_, ?_, ?_⟩
  · rintro before page after rfl lastWrite success
    apply ready.readPage_writePages sizes lastWrite
    rw [← ready.addressable_writePages_iff before]
    by_contra unaddressable
    rw [(ready.writePages before).1.writePage_eq_of_not unaddressable] at success
    cases success
  · intro page
    rw [readyLast.writePage_invalid_iff, sameSize]
  · intro pageId
    rw [readyLast.readPage_invalid_iff, sameSize]

def emptyFile : DiskManager where
  pageSize := 36
  pageSize_le := by decide
  file := []
  nextPageId := 1
  freePages := []
  isOpen := true
  faults := []

theorem written_pages_read_back_two_pages :
    ∃ read, ((emptyFile.writePages [emptyFile.emptyPage 3,
        emptyFile.emptyPage 1]).readPage 3).1 = .ok read ∧
      PageImage.SameUpToChecksum read.image (emptyFile.emptyPage 3).image := by
  have sizes : ∀ page ∈ [emptyFile.emptyPage 3, emptyFile.emptyPage 1],
      page.image.data.length = emptyFile.pageSize := by
    intro page member
    rcases List.mem_cons.mp member with rfl | member
    · exact length_emptyPage _ _
    · rw [List.mem_singleton.mp member]
      exact length_emptyPage _ _
  have addressable : emptyFile.Addressable 3 := by
    rw [addressable_iff]
    decide
  obtain ⟨read, success, -, same⟩ := (written_pages_read_back emptyFile ⟨rfl, rfl⟩
    [emptyFile.emptyPage 3, emptyFile.emptyPage 1] sizes).1 [] (emptyFile.emptyPage 3)
    [emptyFile.emptyPage 1] rfl (by
        intro later member
        rw [List.mem_singleton.mp member]
        decide)
      (by
        have written := @writePage_eq emptyFile (emptyFile.emptyPage 3) rfl addressable
        rw [writePages, List.foldl_nil, written])
  exact ⟨read, success, same⟩

end DiskManager

end KlyroDB
