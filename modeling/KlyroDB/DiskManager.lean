import KlyroDB.PageLayout

/-!
# The disk manager

`storage/disk_manager.cpp` over one growing file, with the in-memory stack of
`storage/free_page_manager.cpp`.  File operations fail as told by a list of
coming faults.
-/

namespace KlyroDB

open ByteMemory

@[ext] structure Page where
  id : Nat
  image : PageImage

structure DiskManager where
  pageSize : Nat
  pageSize_le : PageHeader.size ≤ pageSize
  file : List UInt8
  nextPageId : Nat
  freePages : List Nat
  isOpen : Bool
  /-- The ends of the coming file operations: a failure after some bytes, or
  success. -/
  faults : List (Option Nat)

namespace DiskManager

def calculateOffset (disk : DiskManager) (pageId : Nat) : Except Status Nat :=
  if !PageID.isValid pageId then .error .invalidArgument
  else
    let offset := pageId * disk.pageSize % 2 ^ 64
    if offset / disk.pageSize ≠ pageId then .error .invalidArgument
    else .ok offset

def nextFault (disk : DiskManager) : Option Nat × DiskManager :=
  match disk.faults with
  | [] => (none, disk)
  | fault :: faults => (fault, { disk with faults := faults })

def imageAt (disk : DiskManager) (offset : Nat) : Option PageImage :=
  if inside : offset + disk.pageSize ≤ disk.file.length then
    some
      { data := slice disk.file offset disk.pageSize
        size_le := by
          rw [length_slice inside]
          exact disk.pageSize_le }
  else none

/-- The checksum verification of `read_page`: the field is cleared for the
computation and restored afterwards. -/
def verifyChecksum (image : PageImage) : Option PageImage :=
  let header := image.readHeader
  let cleared := image.writeHeader { header with checksum := 0 }
  if header.checksum ≠ (Checksum.calculateChecksum cleared.data).toNat then
    none
  else some (cleared.writeHeader header)

def readPage (disk : DiskManager) (pageId : Nat) : Except Status Page × DiskManager :=
  if !disk.isOpen then (.error .invalidState, disk)
  else
    match disk.calculateOffset pageId with
    | .error status => (.error status, disk)
    | .ok offset =>
        match disk.nextFault with
        | (some _, disk) => (.error .ioError, disk)
        | (none, disk) =>
            match disk.imageAt offset with
            | none => (.error .ioError, disk)
            | some image =>
                if pageId = 0 then (.ok ⟨pageId, image⟩, disk)
                else
                  match verifyChecksum image with
                  | none => (.error .corruption, disk)
                  | some image => (.ok ⟨pageId, image⟩, disk)

/-- The file grows to the end of a write; the gap is filled with zeros. -/
def writeFile (file : List UInt8) (offset : Nat) (bytes : List UInt8) : List UInt8 :=
  poke (file ++ List.replicate (offset + bytes.length - file.length) 0) offset bytes

/-- The page that is passed in gets its checksum before the file is
written. -/
def writePage (disk : DiskManager) (page : Page) : Except Status Unit × Page × DiskManager :=
  if !disk.isOpen then (.error .invalidState, page, disk)
  else
    match disk.calculateOffset page.id with
    | .error status => (.error status, page, disk)
    | .ok offset =>
        let stamped := { page with image := page.image.storedPage page.id }
        match disk.nextFault with
        | (some count, disk) =>
            (.error .ioError, stamped,
              { disk with
                file := writeFile disk.file offset (stamped.image.data.take count) })
        | (none, disk) =>
            (.ok (), stamped,
              { disk with
                file := writeFile disk.file offset stamped.image.data })

def emptyPage (disk : DiskManager) (pageId : Nat) : Page where
  id := pageId
  image :=
    PageImage.writeHeader
      { data := List.replicate disk.pageSize 0
        size_le := by
          rw [List.length_replicate]
          exact disk.pageSize_le }
      { pageId := pageId
        pageType := 0
        flags := 0
        headerVersion := 0
        lsn := 0
        generation := 0
        payloadSize := 0
        checksum := 0 }

def allocatePage (disk : DiskManager) : Except Status Nat × DiskManager :=
  if !disk.isOpen then (.error .invalidState, disk)
  else
    match disk.freePages with
    | pageId :: freePages => (.ok pageId, { disk with freePages := freePages })
    | [] =>
        let pageId := disk.nextPageId
        let disk := { disk with nextPageId := (pageId + 1) % 2 ^ 64 }
        match disk.writePage (disk.emptyPage pageId) with
        | (.error status, _, disk) => (.error status, disk)
        | (.ok (), _, disk) => (.ok pageId, disk)

def deallocatePage (disk : DiskManager) (pageId : Nat) : Except Status Unit × DiskManager :=
  if !disk.isOpen then (.error .invalidState, disk)
  else if pageId = 0 then (.error .invalidArgument, disk)
  else if !PageID.isValid pageId then (.error .invalidArgument, disk)
  else if pageId ∈ disk.freePages then (.error .invalidState, disk)
  else (.ok (), { disk with freePages := pageId :: disk.freePages })

/-- The page with the given identifier as the file holds it. -/
def stored (disk : DiskManager) (pageId : Nat) : Option PageImage :=
  disk.imageAt (pageId * disk.pageSize)

/-- The file ends after the last page handed out. -/
def Aligned (disk : DiskManager) : Prop :=
  disk.file.length = disk.nextPageId * disk.pageSize

/-- A device that works, with a file that ends after the last page handed
out. -/
structure Consistent (disk : DiskManager) : Prop where
  aligned : disk.Aligned
  faults_eq : disk.faults = []

structure SameFile (disk after : DiskManager) : Prop where
  file_eq : after.file = disk.file
  pageSize_eq : after.pageSize = disk.pageSize
  nextPageId_eq : after.nextPageId = disk.nextPageId
  isOpen_eq : after.isOpen = disk.isOpen
  freePages_eq : after.freePages = disk.freePages
  faults_eq : disk.faults = [] → after.faults = []

theorem SameFile.refl (disk : DiskManager) : SameFile disk disk :=
  ⟨rfl, rfl, rfl, rfl, rfl, id⟩

theorem calculateOffset_eq_ok {disk : DiskManager} {pageId offset : Nat}
    (valid : disk.calculateOffset pageId = .ok offset) : offset = pageId * disk.pageSize := by
  unfold calculateOffset at valid
  dsimp only at valid
  split_ifs at valid with invalid overflow
  have quotient : pageId * disk.pageSize % 2 ^ 64 / disk.pageSize = pageId := by
    simpa using overflow
  have value : pageId * disk.pageSize % 2 ^ 64 = offset := by simpa using valid
  have upper : offset ≤ pageId * disk.pageSize := by
    rw [← value]
    exact Nat.mod_le _ _
  have lower : pageId * disk.pageSize ≤ offset := by
    rw [value] at quotient
    rw [← quotient]
    exact Nat.div_mul_le_self _ _
  omega

theorem pageSize_pos (disk : DiskManager) : 0 < disk.pageSize :=
  lt_of_lt_of_le (by decide) disk.pageSize_le

/-- The overflow test by division is exact. -/
theorem calculateOffset_eq (disk : DiskManager) (pageId : Nat) :
    disk.calculateOffset pageId =
      if PageID.isValid pageId ∧ pageId * disk.pageSize < 2 ^ 64 then
        .ok (pageId * disk.pageSize)
      else .error .invalidArgument := by
  cases located : disk.calculateOffset pageId with
  | ok offset =>
    have position := calculateOffset_eq_ok located
    unfold calculateOffset at located
    dsimp only at located
    split_ifs at located with invalid overflow
    have remainder : pageId * disk.pageSize % 2 ^ 64 = offset := by simpa using located
    have valid : PageID.isValid pageId = true := by simpa using invalid
    have small := Nat.mod_lt (pageId * disk.pageSize) (show 0 < 2 ^ 64 by norm_num)
    rw [if_pos ⟨valid, by omega⟩, position]
  | error status =>
    unfold calculateOffset at located
    dsimp only at located
    split_ifs at located with invalid overflow
    · cases located
      rw [if_neg (by simp_all)]
    cases located
    rw [if_neg]
    rintro ⟨valid, small⟩
    apply overflow
    rw [Nat.mod_eq_of_lt small, Nat.mul_div_cancel _ disk.pageSize_pos]

theorem nextFault_eq {disk : DiskManager} (faultless : disk.faults = []) :
    disk.nextFault = (none, disk) := by
  unfold nextFault
  split
  · rfl
  · rename_i head
    rw [faultless] at head
    contradiction

theorem sameFile_nextFault (disk : DiskManager) : SameFile disk disk.nextFault.2 := by
  unfold nextFault
  split
  · exact SameFile.refl disk
  · rename_i head
    refine ⟨rfl, rfl, rfl, rfl, rfl, fun faultless => ?_⟩
    rw [faultless] at head
    contradiction

theorem map_data_stored (disk : DiskManager) (pageId : Nat) :
    (disk.stored pageId).map PageImage.data =
      if pageId * disk.pageSize + disk.pageSize ≤ disk.file.length then
        some (slice disk.file (pageId * disk.pageSize) disk.pageSize)
      else none := by
  unfold stored imageAt
  split_ifs with inside
  · rfl
  · rfl

theorem map_data_injective : Function.Injective (Option.map PageImage.data) :=
  Option.map_injective fun _ _ same => PageImage.ext same

theorem page_le_iff (disk : DiskManager) (first second : Nat) :
    first * disk.pageSize + disk.pageSize ≤ second * disk.pageSize ↔ first < second := by
  rw [← Nat.succ_mul, Nat.mul_le_mul_right_iff disk.pageSize_pos]
  exact Nat.succ_le_iff

theorem stored_isSome_iff {disk : DiskManager} (aligned : disk.Aligned) (pageId : Nat) :
    (disk.stored pageId).isSome ↔ pageId < disk.nextPageId := by
  have order := disk.page_le_iff pageId disk.nextPageId
  rw [← show disk.file.length = _ from aligned] at order
  rw [← order, ← Option.isSome_map, map_data_stored]
  split_ifs with inside
  · simp [inside]
  · simp [inside]

theorem length_stored {disk : DiskManager} {pageId : Nat} {image : PageImage}
    (here : disk.stored pageId = some image) : image.data.length = disk.pageSize := by
  unfold stored imageAt at here
  split_ifs at here with inside
  cases here
  exact length_slice inside

theorem sameUpToChecksum_verifyChecksum {image verified : PageImage}
    (passed : verifyChecksum image = some verified) :
    PageImage.SameUpToChecksum verified image := by
  unfold verifyChecksum at passed
  dsimp only at passed
  split_ifs at passed with mismatch
  cases passed
  have cleared := PageImage.sameUpToChecksum_setChecksum image 0
  generalize image.writeHeader { image.readHeader with checksum := 0 } = middle at cleared ⊢
  have restored : middle.writeHeader image.readHeader = middle.writeHeader { middle.readHeader with
        checksum := image.readHeader.checksum } := by rw [cleared.header_eq]
  rw [restored]
  exact (PageImage.sameUpToChecksum_setChecksum _ _).trans cleared

/-- The page can be read and written as far as its identifier goes. -/
def Addressable (disk : DiskManager) (pageId : Nat) : Prop :=
  disk.isOpen = true ∧ disk.calculateOffset pageId = .ok (pageId * disk.pageSize)

theorem SameFile.stored_eq {disk after : DiskManager}
    (same : SameFile disk after) : after.stored = disk.stored := by
  funext pageId
  apply map_data_injective
  rw [map_data_stored, map_data_stored, same.file_eq, same.pageSize_eq]

theorem SameFile.aligned {disk after : DiskManager}
    (same : SameFile disk after) (aligned : disk.Aligned) : after.Aligned := by
  rw [Aligned, same.file_eq, same.nextPageId_eq, same.pageSize_eq]
  exact aligned

theorem sameFile_readPage (disk : DiskManager) (pageId : Nat) :
    SameFile disk (disk.readPage pageId).2 := by
  have same := disk.sameFile_nextFault
  unfold readPage
  generalize disk.nextFault = next at same ⊢
  obtain ⟨fault, after⟩ := next
  split
  · exact SameFile.refl disk
  split
  · exact SameFile.refl disk
  cases fault with
  | some count => exact same
  | none =>
    dsimp only
    split
    · exact same
    split
    · exact same
    · split
      · exact same
      · exact same

variable {page : Page} {status : Status}

theorem readPage_ok {disk after : DiskManager} {pageId : Nat}
    (read : disk.readPage pageId = (.ok page, after)) :
    page.id = pageId ∧ disk.Addressable pageId ∧
      ∃ image, disk.stored pageId = some image ∧ PageImage.SameUpToChecksum page.image image := by
  have same := disk.sameFile_nextFault
  unfold readPage at read
  generalize disk.nextFault = next at same read
  obtain ⟨fault, rest⟩ := next
  by_cases opened : disk.isOpen = true
  · simp only [opened, Bool.not_true, Bool.false_eq_true, if_false] at read
    cases located : disk.calculateOffset pageId with
    | error status => simp [located] at read
    | ok offset =>
      have position := calculateOffset_eq_ok located
      subst position
      have addressable : disk.Addressable pageId := ⟨opened, located⟩
      cases fault with
      | some count => simp [located] at read
      | none =>
        simp only [located] at read
        rw [← same.stored_eq, stored, same.pageSize_eq]
        cases here : rest.imageAt (pageId * disk.pageSize) with
        | none => simp [here] at read
        | some image =>
          simp only [here] at read
          split_ifs at read with metadata
          · cases read
            exact ⟨rfl, addressable, image, rfl, PageImage.SameUpToChecksum.refl image⟩
          cases checked : verifyChecksum image with
          | none => simp [checked] at read
          | some verified =>
            simp only [checked] at read
            cases read
            exact ⟨rfl, addressable, image, rfl, sameUpToChecksum_verifyChecksum checked⟩
  · simp [opened] at read

theorem calculateOffset_eq_error {disk : DiskManager} {pageId : Nat}
    (invalid : disk.calculateOffset pageId = .error status) : status = .invalidArgument := by
  unfold calculateOffset at invalid
  dsimp only at invalid
  split_ifs at invalid
  · cases invalid
    rfl
  · cases invalid
    rfl

/-- The pool's own status for a missing frame never comes from the disk. -/
theorem readPage_error {disk after : DiskManager} {pageId : Nat}
    (read : disk.readPage pageId = (.error status, after)) : status ≠ .internalError := by
  unfold readPage at read
  split at read
  · cases read
    decide
  split at read
  · rename_i located
    cases read
    rw [calculateOffset_eq_error located]
    decide
  split at read
  · cases read
    decide
  split at read
  · cases read
    decide
  split at read
  · cases read
  · split at read
    · cases read
      decide
    · cases read

theorem writePage_error {disk after : DiskManager} {stamped : Page}
    (written : disk.writePage page = (.error status, stamped, after)) :
    status ≠ .internalError := by
  unfold writePage at written
  split at written
  · cases written
    decide
  split at written
  · rename_i located
    cases written
    rw [calculateOffset_eq_error located]
    decide
  split at written
  · cases written
    decide
  · cases written

theorem allocatePage_error {disk after : DiskManager}
    (allocated : disk.allocatePage = (.error status, after)) : status ≠ .internalError := by
  unfold allocatePage at allocated
  split at allocated
  · cases allocated
    decide
  split at allocated
  · cases allocated
  dsimp only at allocated
  split at allocated
  · rename_i written
    cases allocated
    exact writePage_error written
  · cases allocated

theorem length_storedPage (page : PageImage) (pageId : Nat) :
    (page.storedPage pageId).data.length = page.data.length :=
  ((PageImage.SameUpToChecksum.refl page).storedPage pageId).1

theorem length_writeFile (file bytes : List UInt8) (offset : Nat) :
    (writeFile file offset bytes).length = max file.length (offset + bytes.length) := by
  simp [writeFile]
  omega

section WriteFile

variable {disk after : DiskManager} {pageId : Nat} {bytes : List UInt8}

theorem stored_writeFile_elsewhere {other : Nat} {image : PageImage}
    (held : disk.stored other = some image) (fits : bytes.length ≤ disk.pageSize)
    (sameSize : after.pageSize = disk.pageSize) (written : after.file =
      writeFile disk.file (pageId * disk.pageSize) bytes) (ne : other ≠ pageId) :
    after.stored other = some image := by
  have length := length_writeFile disk.file bytes (pageId * disk.pageSize)
  have first := disk.page_le_iff other pageId
  have second := disk.page_le_iff pageId other
  have data := map_data_stored disk other
  rw [held] at data
  by_cases inside : other * disk.pageSize + disk.pageSize ≤ disk.file.length
  · apply map_data_injective
    rw [data, map_data_stored, sameSize, written, length, if_pos inside,
      if_pos (by omega), writeFile, slice_poke_of_disjoint (by omega)]
    congr 1
    apply slice_congr
    intro index _ before
    rw [List.getElem?_append_left (by omega)]
  · rw [if_neg inside] at data
    cases data

theorem stored_writeFile_of_ne (aligned : disk.Aligned) (fits : bytes.length ≤ disk.pageSize)
    (sameSize : after.pageSize = disk.pageSize) (bound : pageId ≤ disk.nextPageId)
    (written : after.file = writeFile disk.file (pageId * disk.pageSize) bytes)
    {other : Nat} (ne : other ≠ pageId) : after.stored other = disk.stored other := by
  cases held : disk.stored other with
  | some image => exact stored_writeFile_elsewhere held fits sameSize written ne
  | none =>
    have inside := Nat.mul_le_mul_right disk.pageSize bound
    have fileLength : disk.file.length = disk.nextPageId * disk.pageSize := aligned
    have beyond := (stored_isSome_iff aligned other).not
    have order := disk.page_le_iff other disk.nextPageId
    have apart := disk.page_le_iff pageId other
    apply map_data_injective
    rw [map_data_stored, sameSize, written, length_writeFile, if_neg]
    · rfl
    · simp [held] at beyond
      omega

theorem stored_writeFile_self {image : PageImage} (fits : image.data.length = disk.pageSize)
    (sameSize : after.pageSize = disk.pageSize) (written : after.file =
      writeFile disk.file (pageId * disk.pageSize) image.data) :
    after.stored pageId = some image := by
  have length := length_writeFile disk.file image.data (pageId * disk.pageSize)
  rw [← written, fits] at length
  apply map_data_injective
  rw [map_data_stored, sameSize, if_pos (by omega), written, writeFile, ← fits, slice_poke_same]
  · rfl
  · simp
    omega

end WriteFile

theorem Addressable.congr {disk after : DiskManager} {pageId : Nat}
    (addressable : disk.Addressable pageId) (sameSize : after.pageSize = disk.pageSize)
    (sameOpen : after.isOpen = disk.isOpen) : after.Addressable pageId := by
  obtain ⟨opened, located⟩ := addressable
  refine ⟨sameOpen.trans opened, ?_⟩
  rw [calculateOffset, sameSize]
  exact located

theorem addressable_iff {disk : DiskManager} {pageId : Nat} :
    disk.Addressable pageId ↔ disk.isOpen = true ∧
      PageID.isValid pageId = true ∧ pageId * disk.pageSize < 2 ^ 64 := by
  rw [Addressable, calculateOffset_eq]
  split_ifs with located
  · exact ⟨fun found => ⟨found.1, located⟩, fun found => ⟨found.1, rfl⟩⟩
  · simp only [and_false, false_iff, not_and]
    exact fun _ valid small => located ⟨valid, small⟩

theorem Addressable.succ_lt {disk : DiskManager} {pageId : Nat}
    (addressable : disk.Addressable pageId) : pageId + 1 < 2 ^ 64 := by
  obtain ⟨-, valid, small⟩ := addressable_iff.mp addressable
  have bound := Nat.le_mul_of_pos_right pageId disk.pageSize_pos
  have ne : pageId ≠ 2 ^ 64 - 1 := by simpa [PageID.isValid, PageID.invalid] using valid
  omega

/-- What a write of a page, whole or torn, leaves behind. -/
structure Written (disk : DiskManager) (pageId : Nat) (image : PageImage)
    (after : DiskManager) : Prop where
  aligned : after.Aligned
  stored_eq : after.stored = Function.update disk.stored pageId (some image)
  pageSize_eq : after.pageSize = disk.pageSize
  isOpen_eq : after.isOpen = disk.isOpen
  faults_eq : disk.faults = [] → after.faults = []

theorem writePage_eq {disk : DiskManager} {page : Page}
    (faultless : disk.faults = []) (addressable : disk.Addressable page.id) :
    disk.writePage page =
      (.ok (), { page with image := page.image.storedPage page.id },
        { disk with
          file := writeFile disk.file (page.id * disk.pageSize)
            (page.image.storedPage page.id).data }) := by
  obtain ⟨opened, located⟩ := addressable
  rw [writePage, if_neg (by simp [opened]), located, nextFault_eq faultless]

theorem addressable_of_writePage_ok {disk after : DiskManager} {stamped : Page}
    (written : disk.writePage page = (.ok (), stamped, after)) : disk.Addressable page.id := by
  unfold writePage at written
  by_cases opened : disk.isOpen = true
  · rw [if_neg (by simp [opened])] at written
    cases located : disk.calculateOffset page.id with
    | error status => simp [located] at written
    | ok offset =>
      rw [calculateOffset_eq_ok located] at located
      exact ⟨opened, located⟩
  · simp [opened] at written

theorem Aligned.writeFile {disk after : DiskManager} {id : Nat} {bytes : List UInt8}
    (aligned : disk.Aligned) (inside : id < disk.nextPageId) (short : bytes.length ≤ disk.pageSize)
    (file : after.file = DiskManager.writeFile disk.file (id * disk.pageSize) bytes)
    (sameSize : after.pageSize = disk.pageSize) (sameNext : after.nextPageId = disk.nextPageId) :
    after.Aligned ∧ ∃ image, after.stored id = some image ∧
      after.stored = Function.update disk.stored id (some image) := by
  have newAligned : after.Aligned := by
    have fileLength : disk.file.length = disk.nextPageId * disk.pageSize := aligned
    have within := (disk.page_le_iff id disk.nextPageId).mpr inside
    rw [Aligned, file, length_writeFile, sameSize, sameNext]
    omega
  have there := (stored_isSome_iff newAligned id).mpr (sameNext ▸ inside)
  obtain ⟨image, onDisk⟩ := Option.isSome_iff_exists.mp there
  refine ⟨newAligned, image, onDisk, ?_⟩
  funext other
  by_cases same : other = id
  · rw [same, Function.update_self, onDisk]
  · rw [Function.update_of_ne same]
    exact stored_writeFile_of_ne aligned short sameSize (Nat.le_of_lt inside) file same

/-- A page that exists is written, whole or up to some byte. -/
theorem writePage_addressable {disk : DiskManager} (aligned : disk.Aligned)
    (addressable : disk.Addressable page.id)
    (fits : page.image.data.length = disk.pageSize)
    (exists_ : page.id < disk.nextPageId) :
    ∃ outcome image after, disk.writePage page =
        (outcome, { page with image := page.image.storedPage page.id }, after) ∧
      Written disk page.id image after ∧
      after.nextPageId = disk.nextPageId ∧
      (outcome = .ok () ∧ image = page.image.storedPage page.id ∨
        outcome = .error .ioError ∧ disk.faults ≠ []) := by
  have length := length_storedPage page.image page.id
  obtain ⟨opened, located⟩ := addressable
  rw [writePage, if_neg (by simp [opened]), located]
  unfold nextFault
  dsimp only
  split
  · rename_i count rest fault
    split at fault
    · cases fault
    rename_i faults head
    cases fault
    have short : ((page.image.storedPage page.id).data.take count).length ≤ disk.pageSize := by
      rw [List.length_take]
      omega
    obtain ⟨newAligned, image, -, stores⟩ := @Aligned.writeFile disk { disk with
      file := writeFile disk.file (page.id * disk.pageSize)
        ((page.image.storedPage page.id).data.take count)
      faults := faults } page.id _ aligned exists_ short rfl rfl rfl
    refine ⟨_, image, _, rfl, ⟨newAligned, stores, rfl, rfl, fun none => ?_⟩, rfl, Or.inr ⟨rfl, ?_⟩⟩
    · rw [none] at head
      contradiction
    · rw [head]
      exact List.cons_ne_nil _ _
  rename_i rest fault
  have same := disk.sameFile_nextFault
  rw [show disk.nextFault = (none, rest) from fault] at same
  have file : writeFile rest.file (page.id * disk.pageSize) (page.image.storedPage page.id).data =
      writeFile disk.file (page.id * disk.pageSize) (page.image.storedPage page.id).data := by
    rw [same.file_eq]
  obtain ⟨newAligned, image, onDisk, stores⟩ := @Aligned.writeFile disk { rest with
    file := writeFile rest.file (page.id * disk.pageSize)
      (page.image.storedPage page.id).data } page.id _ aligned exists_ (by omega) file
    same.pageSize_eq same.nextPageId_eq
  have whole := onDisk.symm.trans (stored_writeFile_self (length.trans fits) same.pageSize_eq file)
  cases whole
  exact ⟨_, _, _, rfl, ⟨newAligned, stores, same.pageSize_eq, same.isOpen_eq, same.faults_eq⟩,
    same.nextPageId_eq, Or.inl ⟨rfl, rfl⟩⟩

theorem length_emptyPage (disk : DiskManager) (pageId : Nat) :
    (disk.emptyPage pageId).image.data.length = disk.pageSize := by
  rw [emptyPage]
  rw [PageImage.writeHeader]
  rw [PageImage.length_serialize, List.length_replicate]

theorem allocatePage_ok {disk after : DiskManager} {pageId : Nat} (consistent : disk.Consistent)
    (allocated : disk.allocatePage = (.ok pageId, after)) :
    (∃ freePages, disk.freePages = pageId :: freePages ∧
        after = { disk with freePages := freePages }) ∨
      disk.freePages = [] ∧ pageId = disk.nextPageId ∧ Written disk pageId
        ((disk.emptyPage pageId).image.storedPage pageId) after ∧ after.nextPageId = pageId + 1 :=
        by
  unfold allocatePage at allocated
  by_cases opened : disk.isOpen = true
  · rw [if_neg (by simp [opened])] at allocated
    split at allocated
    · rename_i free
      cases allocated
      exact Or.inl ⟨_, free, rfl⟩
    rename_i free
    dsimp only at allocated
    generalize grownEq : ({ disk with nextPageId := (disk.nextPageId + 1) % 2 ^ 64 } : DiskManager)
      = grown at allocated
    generalize writeEq : grown.writePage (grown.emptyPage disk.nextPageId) = result at allocated
    obtain ⟨status | done, stamped, last⟩ := result
    · simp at allocated
    cases allocated
    have addressable := addressable_of_writePage_ok writeEq
    have noWrap := addressable.succ_lt
    have faultless : grown.faults = [] := by
      rw [← grownEq]
      exact consistent.faults_eq
    rw [writePage_eq faultless addressable] at writeEq
    have lastEq := (Prod.mk.inj (Prod.mk.inj writeEq).2).2
    subst grownEq lastEq
    have empty := length_emptyPage disk disk.nextPageId
    have length := length_storedPage (disk.emptyPage disk.nextPageId).image disk.nextPageId
    have fileLength : disk.file.length = disk.nextPageId * disk.pageSize := consistent.aligned
    have next : (disk.nextPageId + 1) % 2 ^ 64 = disk.nextPageId + 1 := Nat.mod_eq_of_lt noWrap
    refine Or.inr ⟨free, rfl, ⟨?_, ?_, rfl, rfl, fun none => none⟩, next⟩
    · change (writeFile disk.file (disk.nextPageId * disk.pageSize) ((disk.emptyPage
        disk.nextPageId).image.storedPage disk.nextPageId).data).length = (disk.nextPageId + 1)
        % 2 ^ 64 * disk.pageSize
      rw [length_writeFile, length, empty, fileLength, next, Nat.succ_mul]
      omega
    funext other
    by_cases same : other = disk.nextPageId
    · subst same
      rw [Function.update_self]
      exact stored_writeFile_self (length.trans empty) rfl rfl
    rw [Function.update_of_ne same]
    refine stored_writeFile_of_ne consistent.aligned
      (le_of_eq (length.trans empty)) ?_ le_rfl ?_ same
    · rfl
    · rfl
  · simp [opened] at allocated

end DiskManager

end KlyroDB
