import KlyroDB.PageAllocation

/-!
# Creating, closing and opening a database file

The 76-byte header of `storage/database_header.cpp` on page 0, and `create`,
`open` and `close` of `storage/disk_manager.cpp`.  `create` writes page 0 before
it marks the manager as open, so that the write is refused.
-/

namespace KlyroDB

open ByteMemory

@[ext] structure DatabaseHeader where
  magic : List UInt8
  magic_size : magic.length = 8
  formatVersion : UInt32
  pageSize : UInt32
  databaseId : List UInt8
  databaseId_size : databaseId.length = 16
  creationTimestamp : UInt64
  catalogRootPage : UInt64
  freePageRoot : UInt64
  nextPageId : UInt64
  flags : UInt64
  checksum : UInt32

namespace DatabaseHeader

def size : Nat := 76

def magicBytes : List UInt8 := [75, 76, 89, 82, 79, 68, 66, 0]

def serialize (header : DatabaseHeader) (buffer : List UInt8) : List UInt8 :=
  let buffer := poke buffer 0 header.magic
  let buffer := writeNat buffer 8 4 header.formatVersion.toNat
  let buffer := writeNat buffer 12 4 header.pageSize.toNat
  let buffer := poke buffer 16 header.databaseId
  let buffer := writeNat buffer 32 8 header.creationTimestamp.toNat
  let buffer := writeNat buffer 40 8 header.catalogRootPage.toNat
  let buffer := writeNat buffer 48 8 header.freePageRoot.toNat
  let buffer := writeNat buffer 56 8 header.nextPageId.toNat
  let buffer := writeNat buffer 64 8 header.flags.toNat
  writeNat buffer 72 4 header.checksum.toNat

def deserialize (buffer : List UInt8) (inside : size ≤ buffer.length) : DatabaseHeader where
  magic := slice buffer 0 8
  magic_size := length_slice (by unfold size at inside; omega)
  formatVersion := UInt32.ofNat (readNat buffer 8 4)
  pageSize := UInt32.ofNat (readNat buffer 12 4)
  databaseId := slice buffer 16 16
  databaseId_size := length_slice (by unfold size at inside; omega)
  creationTimestamp := UInt64.ofNat (readNat buffer 32 8)
  catalogRootPage := UInt64.ofNat (readNat buffer 40 8)
  freePageRoot := UInt64.ofNat (readNat buffer 48 8)
  nextPageId := UInt64.ofNat (readNat buffer 56 8)
  flags := UInt64.ofNat (readNat buffer 64 8)
  checksum := UInt32.ofNat (readNat buffer 72 4)

@[simp] theorem length_serialize (header : DatabaseHeader) (buffer : List UInt8) :
    (header.serialize buffer).length = buffer.length := by simp [serialize]

variable {buffer : List UInt8}

def toBytes (header : DatabaseHeader) : List UInt8 :=
  header.magic ++ leBytes 4 header.formatVersion.toNat ++ leBytes 4 header.pageSize.toNat ++
    header.databaseId ++ leBytes 8 header.creationTimestamp.toNat ++ leBytes 8
    header.catalogRootPage.toNat ++ leBytes 8 header.freePageRoot.toNat ++ leBytes 8
    header.nextPageId.toNat ++ leBytes 8 header.flags.toNat ++ leBytes 4 header.checksum.toNat

@[simp] theorem length_toBytes (header : DatabaseHeader) : header.toBytes.length = size := by
  simp [toBytes, header.magic_size, header.databaseId_size, size]

theorem serialize_eq (header : DatabaseHeader) (inside : size ≤ buffer.length) :
    header.serialize buffer = header.toBytes ++ buffer.drop size := by
  have bound : 76 ≤ buffer.length := inside
  have magicSize := header.magic_size
  have idSize := header.databaseId_size
  have first := @poke_behind [] buffer header.magic 0 rfl (by omega)
  simp only [List.nil_append] at first
  simp only [serialize, writeNat]
  rw [first, magicSize]
  iterate 9 rw [poke_behind (by simp [magicSize, idSize]) (by simp; omega)]
  simp only [toBytes, length_leBytes, idSize, List.drop_drop, size]

theorem deserialize_serialize (header : DatabaseHeader)
    (inside : size ≤ buffer.length) : deserialize (header.serialize buffer)
      (by rw [length_serialize]; exact inside) = header := by
  have four (number : UInt32) : UInt32.ofNat (number.toNat % 256 ^ 4) = number := by
    rw [show 256 ^ 4 = 2 ^ 32 from rfl, Nat.mod_eq_of_lt number.toNat_lt, UInt32.ofNat_toNat]
  have eight (number : UInt64) : UInt64.ofNat (number.toNat % 256 ^ 8) = number := by
    rw [show 256 ^ 8 = 2 ^ 64 from rfl, Nat.mod_eq_of_lt number.toNat_lt, UInt64.ofNat_toNat]
  apply DatabaseHeader.ext
  all_goals
    simp only [deserialize, header.serialize_eq inside, toBytes, List.append_assoc,
      readNat_append_of_le, slice_append_of_le, length_leBytes, header.magic_size,
      header.databaseId_size, Nat.reduceLeDiff, Nat.reduceSub, readNat_leBytes, slice_append_left,
      le_refl, four, eight]

theorem serialize_deserialize (inside : size ≤ buffer.length) :
    (deserialize buffer inside).serialize buffer = buffer := by
  have bound : 76 ≤ buffer.length := inside
  have four (offset : Nat) : (UInt32.ofNat (readNat buffer offset 4)).toNat =
      readNat buffer offset 4 := UInt32.toNat_ofNat_of_lt' (readNat_lt offset 4)
  have eight (offset : Nat) : (UInt64.ofNat (readNat buffer offset 8)).toNat =
      readNat buffer offset 8 := UInt64.toNat_ofNat_of_lt' (readNat_lt offset 8)
  simp only [serialize, deserialize, four, eight]
  rw [poke_slice_self (by omega)]
  iterate 2 rw [writeNat_eq_self (by omega) rfl]
  rw [poke_slice_self (by omega)]
  iterate 6 rw [writeNat_eq_self (by omega) rfl]

theorem serialize_serialize (first second : DatabaseHeader) (inside : size ≤ buffer.length) :
    second.serialize (first.serialize buffer) = second.serialize buffer := by
  rw [serialize_eq second (by simpa using inside), serialize_eq first inside,
    serialize_eq second inside, ← length_toBytes first, List.drop_left]

end DatabaseHeader

/-- Headers are read back as they were written, writing back what was read
changes nothing, and a header takes the place of exactly its own bytes. -/
theorem headers_survive (page : PageHeader) (typed : page.Representable)
    (database : DatabaseHeader) (buffer : List UInt8) :
    (36 ≤ buffer.length →
      PageHeader.deserialize (page.serialize buffer) = page ∧
      (PageHeader.deserialize buffer).serialize buffer = buffer ∧
      page.serialize buffer = page.toBytes ++ buffer.drop 36 ∧ page.toBytes.length = 36) ∧
    ∀ inside : 76 ≤ buffer.length,
      DatabaseHeader.deserialize (database.serialize buffer)
        (inside.trans_eq (database.length_serialize buffer).symm) = database ∧
      (DatabaseHeader.deserialize buffer inside).serialize buffer = buffer ∧
      database.serialize buffer = database.toBytes ++ buffer.drop 76 ∧
      database.toBytes.length = 76 := by
  constructor
  · intro inside
    exact ⟨typed.deserialize_serialize inside, PageHeader.serialize_deserialize inside,
      PageHeader.serialize_eq inside, by simp [PageHeader.toBytes]⟩
  · intro inside
    exact ⟨database.deserialize_serialize inside, DatabaseHeader.serialize_deserialize inside,
      database.serialize_eq inside, database.length_toBytes⟩

/-- The largest identifiers, on a page of the file header. -/
theorem headers_survive_largest :
    PageHeader.deserialize (PageHeader.serialize
      ⟨2 ^ 64 - 1, 1, 0, 1, 2 ^ 64 - 1, 0, 0, 2 ^ 32 - 1⟩ (List.replicate 76 0)) =
        ⟨2 ^ 64 - 1, 1, 0, 1, 2 ^ 64 - 1, 0, 0, 2 ^ 32 - 1⟩ :=
  ((headers_survive _
    ⟨by decide, by decide, by decide, by decide, by decide, by decide, by decide, by decide⟩
    (DatabaseHeader.deserialize (List.replicate 76 0) (by decide)) _).1 (by decide)).1

namespace DiskManager

def attach (pageSize : Nat) (large : DatabaseHeader.size ≤ pageSize)
    (file : List UInt8) (nextPageId : Nat) : DiskManager where
  pageSize := pageSize
  pageSize_le := le_trans (by decide) large
  file := file
  nextPageId := nextPageId
  freePages := []
  isOpen := false
  faults := []

/-- Page 0 with the given header: the checksum is computed over the header with
a checksum field of zero. -/
def headerPage (disk : DiskManager) (header : DatabaseHeader) : Page where
  id := 0
  image :=
    { data :=
        let cleared := DatabaseHeader.serialize { header with checksum := 0 }
          (List.replicate disk.pageSize 0)
        DatabaseHeader.serialize
          { header with
            checksum := Checksum.calculateChecksum (cleared.take DatabaseHeader.size) } cleared
      size_le := by
        simp only [DatabaseHeader.length_serialize, List.length_replicate]
        exact disk.pageSize_le }

end DiskManager

/-- A disk manager with its header.  The next page identifier of the header is
the one that the manager counts. -/
structure Database where
  disk : DiskManager
  header : DatabaseHeader

namespace Database

def currentHeader (database : Database) : DatabaseHeader :=
  { database.header with
    nextPageId := UInt64.ofNat database.disk.nextPageId }

def newHeader (pageSize : Nat) (databaseId : List UInt8)
    (idSize : databaseId.length = 16) : DatabaseHeader where
  magic := DatabaseHeader.magicBytes
  magic_size := rfl
  formatVersion := 1
  pageSize := UInt32.ofNat pageSize
  databaseId := databaseId
  databaseId_size := idSize
  creationTimestamp := 0
  catalogRootPage := 0
  freePageRoot := 0
  nextPageId := 1
  flags := 0
  checksum := 0

/-- `DiskManager::create`, with what is at the path before and afterwards.  The
random identifier is an argument, and the file system does not fail. -/
def create (pageSize : Nat) (large : DatabaseHeader.size ≤ pageSize) (databaseId : List UInt8)
    (idSize : databaseId.length = 16) (existing : Option (List UInt8)) : Except Status Database ×
    Option (List UInt8) :=
  match existing with
  | some file => (.error .alreadyExists, some file)
  | none =>
      let disk := DiskManager.attach pageSize large [] 1
      let header := newHeader pageSize databaseId idSize
      match disk.writePage (disk.headerPage header) with
      | (.error status, _, disk) => (.error status, some disk.file)
      | (.ok (), _, disk) => (.ok ⟨{ disk with isOpen := true }, header⟩, some disk.file)

/-- `DiskManager::open` on an existing file. -/
def loadExistingDatabase (pageSize : Nat) (large : DatabaseHeader.size ≤ pageSize)
    (file : List UInt8) : Except Status Database :=
  if file.length % pageSize ≠ 0 then .error .corruption
  else if file.length < pageSize then .error .corruption
  else
    let disk : DiskManager :=
      { DiskManager.attach pageSize large file 0 with isOpen := true }
    match disk.readPage 0 with
    | (.error status, _) => .error status
    | (.ok page, disk) =>
        if inside : DatabaseHeader.size ≤ page.image.data.length then
          let header := DatabaseHeader.deserialize page.image.data inside
          if header.magic ≠ DatabaseHeader.magicBytes then .error .corruption
          else if header.formatVersion ≠ 1 then .error .unsupported
          else if header.pageSize.toNat ≠ pageSize then .error .corruption
          else
            let data := DatabaseHeader.serialize { header with checksum := 0 } page.image.data
            if header.checksum ≠ Checksum.calculateChecksum
              (data.take DatabaseHeader.size) then .error .corruption
            else
              -- The page has a zero checksum by now.
              let header := DatabaseHeader.deserialize data
                (by rw [DatabaseHeader.length_serialize]; exact inside)
              .ok ⟨{ disk with nextPageId := header.nextPageId.toNat }, header⟩
        else .error .corruption

def close (database : Database) : Database :=
  if !database.disk.isOpen then database
  else
    let written := database.disk.writePage (database.disk.headerPage database.currentHeader)
    { database with disk := { written.2.2 with isOpen := false } }

end Database

inductive DiskCall
  | allocatePage
  | writePage (page : Page)

namespace DiskManager

def call (disk : DiskManager) : DiskCall → DiskManager
  | .allocatePage => disk.allocatePage.2
  | .writePage page => (disk.writePage page).2.2

def writes (disk : DiskManager) : DiskCall → List Page
  | .allocatePage =>
      if disk.freePages = [] then [disk.emptyPage disk.nextPageId] else []
  | .writePage page => [page]

def callAll (disk : DiskManager) (calls : List DiskCall) : DiskManager :=
  calls.foldl call disk

def writesOf : DiskManager → List DiskCall → List Page
  | _, [] => []
  | disk, next :: calls => disk.writes next ++ writesOf (disk.call next) calls

structure SameBytes (first second : DiskManager) : Prop where
  file_eq : first.file = second.file
  pageSize_eq : first.pageSize = second.pageSize
  first_ready : first.Ready
  second_ready : second.Ready

namespace SameBytes

variable {first second : DiskManager}

section

variable (same : SameBytes first second)

include same

theorem addressable_iff {pageId : Nat} : first.Addressable pageId ↔ second.Addressable pageId := by
  rw [same.first_ready.addressable_iff, same.second_ready.addressable_iff, same.pageSize_eq]

theorem writePage (page : Page) :
    SameBytes (first.writePage page).2.2 (second.writePage page).2.2 := by
  have firstReady := (same.first_ready.writePage page).1
  have secondReady := (same.second_ready.writePage page).1
  by_cases addressable : first.Addressable page.id
  · rw [writePage_eq same.first_ready.faults_eq addressable] at firstReady ⊢
    rw [writePage_eq same.second_ready.faults_eq
      (same.addressable_iff.mp addressable)] at secondReady ⊢
    refine ⟨?_, same.pageSize_eq, firstReady, secondReady⟩
    simp only [same.file_eq, same.pageSize_eq]
  · rw [same.first_ready.writePage_eq_of_not addressable]
    rw [same.addressable_iff] at addressable
    rw [same.second_ready.writePage_eq_of_not addressable]
    exact same

theorem writePages (pages : List Page) :
    SameBytes (first.writePages pages) (second.writePages pages) := by
  induction pages generalizing first second with
  | nil => exact same
  | cons page pages ih => exact ih (same.writePage page)

theorem readPage (pageId : Nat) : (first.readPage pageId).1 = (second.readPage pageId).1 := by
  have offsets : first.calculateOffset pageId = second.calculateOffset pageId := by
    rw [calculateOffset_eq, calculateOffset_eq, same.pageSize_eq]
  have images : ∀ offset, first.imageAt offset = second.imageAt offset := by
    intro offset
    unfold imageAt
    simp only [same.file_eq, same.pageSize_eq]
  unfold DiskManager.readPage
  rw [if_neg (by simp [same.first_ready.isOpen_eq]), if_neg (by simp [same.second_ready.isOpen_eq]),
    offsets, nextFault_eq same.first_ready.faults_eq, nextFault_eq same.second_ready.faults_eq]
  cases second.calculateOffset pageId with
  | error status => rfl
  | ok offset =>
    dsimp only
    rw [images]
    cases second.imageAt offset with
    | none => rfl
    | some image =>
      dsimp only
      split_ifs
      · rfl
      · cases verifyChecksum image with
        | none | some verified => rfl

end

end SameBytes

variable {disk : DiskManager}

theorem allocatePage_counter_snd (opened : disk.isOpen = true)
    (noFree : disk.freePages = []) : disk.allocatePage.2 =
      (DiskManager.writePage { disk with nextPageId := (disk.nextPageId + 1) % 2 ^ 64 }
        (disk.emptyPage disk.nextPageId)).2.2 := by
  rw [allocatePage_eq_counter opened noFree]
  have empty : DiskManager.emptyPage { disk with
      nextPageId := (disk.nextPageId + 1) % 2 ^ 64 } disk.nextPageId =
        disk.emptyPage disk.nextPageId := rfl
  rw [empty]
  generalize DiskManager.writePage { disk with
    nextPageId := (disk.nextPageId + 1) % 2 ^ 64 }
    (disk.emptyPage disk.nextPageId) = result
  obtain ⟨status | done, stamped, after⟩ := result
  · rfl
  · rfl

theorem Ready.sameBytes_call (ready : disk.Ready) (next : DiskCall) :
    SameBytes (disk.call next) (disk.writePages (disk.writes next)) := by
  cases next with
  | writePage page =>
    have after := (ready.writePage page).1
    exact ⟨rfl, rfl, after, after⟩
  | allocatePage =>
    rw [writes]
    split_ifs with noFree
    · rw [call, allocatePage_counter_snd ready.isOpen_eq noFree]
      have start : SameBytes { disk with
          nextPageId := (disk.nextPageId + 1) % 2 ^ 64 } disk :=
        ⟨rfl, rfl, ⟨ready.isOpen_eq, ready.faults_eq⟩, ready⟩
      exact start.writePage _
    · obtain ⟨pageId, rest, free⟩ := List.exists_cons_of_ne_nil noFree
      rw [call, allocatePage_free ready.isOpen_eq free]
      exact ⟨rfl, rfl, ⟨ready.isOpen_eq, ready.faults_eq⟩, ready⟩

theorem Ready.sameBytes_callAll (ready : disk.Ready) (calls : List DiskCall) :
    SameBytes (disk.callAll calls) (disk.writePages (disk.writesOf calls)) := by
  induction calls generalizing disk with
  | nil => exact ⟨rfl, rfl, ready, ready⟩
  | cons next calls ih =>
    have first := ready.sameBytes_call next
    have later := ih first.first_ready
    have moved := first.writePages (writesOf (disk.call next) calls)
    have split : disk.writePages (disk.writesOf (next :: calls)) =
        (disk.writePages (disk.writes next)).writePages (writesOf (disk.call next) calls) := by
      simp [DiskManager.writePages, writesOf]
    rw [split]
    exact ⟨later.file_eq.trans moved.file_eq, later.pageSize_eq.trans moved.pageSize_eq,
      later.first_ready, moved.second_ready⟩

theorem Ready.addressable_zero (ready : disk.Ready) : disk.Addressable 0 := by
  rw [ready.addressable_iff, Nat.zero_mul]
  exact ⟨by decide, by norm_num⟩

theorem length_headerPage (disk : DiskManager) (header : DatabaseHeader) :
    (disk.headerPage header).image.data.length = disk.pageSize := by
  simp only [headerPage, DatabaseHeader.length_serialize, List.length_replicate]

theorem data_headerPage (disk : DiskManager) (header : DatabaseHeader)
    (large : DatabaseHeader.size ≤ disk.pageSize) :
    (disk.headerPage header).image.data =
      DatabaseHeader.serialize
        { header with
          checksum := Checksum.calculateChecksum
            ((DatabaseHeader.serialize { header with checksum := 0 }
              (List.replicate disk.pageSize 0)).take DatabaseHeader.size) }
        (List.replicate disk.pageSize 0) := by
  simp only [headerPage]
  rw [DatabaseHeader.serialize_serialize _ _ (by rw [List.length_replicate]; exact large)]

/-- Page 0 is not stamped by the disk manager. -/
theorem Ready.stored_headerPage (ready : disk.Ready) (header : DatabaseHeader) :
    (disk.writePage (disk.headerPage header)).2.2.stored 0 = some (disk.headerPage header).image :=
  @Ready.stored_writePage_self disk (disk.headerPage header) ready
    ready.addressable_zero (length_headerPage disk header)

theorem headerPage_congr {first second : DiskManager}
    (sameSize : first.pageSize = second.pageSize) (header : DatabaseHeader) :
    first.headerPage header = second.headerPage header := by
  apply Page.ext
  · rfl
  · apply PageImage.ext
    simp only [headerPage, sameSize]

theorem Ready.whole_writePages (ready : disk.Ready) {pages : List Page}
    (sizes : ∀ page ∈ pages, page.image.data.length = disk.pageSize)
    (whole : disk.file.length % disk.pageSize = 0) :
    (disk.writePages pages).file.length % disk.pageSize = 0 := by
  induction pages generalizing disk with
  | nil => exact whole
  | cons page pages ih =>
    obtain ⟨readyNext, sameSize⟩ := ready.writePage page
    rw [List.forall_mem_cons] at sizes
    rw [← sameSize]
    apply ih readyNext
    · rw [sameSize]
      exact sizes.2
    rw [sameSize]
    by_cases addressable : disk.Addressable page.id
    · rw [writePage_eq ready.faults_eq addressable]
      dsimp only
      rw [length_writeFile, length_storedPage, sizes.1, ← Nat.succ_mul]
      rcases le_total disk.file.length (page.id.succ * disk.pageSize) with before | after
      · rw [max_eq_right before, Nat.mul_mod_left]
      · rw [max_eq_left after, whole]
    · rw [ready.writePage_eq_of_not addressable]
      exact whole

theorem sizes_writesOf (ready : disk.Ready) {calls : List DiskCall}
    (sizes : ∀ page, .writePage page ∈ calls → page.image.data.length = disk.pageSize) :
    ∀ page ∈ disk.writesOf calls, page.image.data.length = disk.pageSize := by
  induction calls generalizing disk with
  | nil => simp [writesOf]
  | cons next calls ih =>
    have after := ready.sameBytes_call next
    have sameSize : (disk.call next).pageSize = disk.pageSize :=
      after.pageSize_eq.trans (ready.writePages _).2
    intro page mem
    rw [writesOf, List.mem_append] at mem
    rcases mem with here | later
    · cases next with
      | writePage written =>
        rw [writes, List.mem_singleton] at here
        rw [here]
        exact sizes written (by simp)
      | allocatePage =>
        rw [writes] at here
        split_ifs at here
        · rw [List.mem_singleton.mp here]
          exact length_emptyPage _ _
        · cases here
    rw [← sameSize]
    apply ih after.first_ready _ page later
    intro other inside
    rw [sameSize]
    exact sizes other (List.mem_cons_of_mem _ inside)

end DiskManager

namespace Database

open DiskManager

section Load

variable {pageSize : Nat} {large : DatabaseHeader.size ≤ pageSize}

theorem readPage_zero {disk : DiskManager} (sameSize : disk.pageSize = pageSize)
    {image : PageImage} (first : disk.stored 0 = some image) :
    DiskManager.readPage { DiskManager.attach pageSize large disk.file 0 with isOpen := true } 0 =
      (.ok ⟨0, image⟩, { DiskManager.attach pageSize large disk.file 0 with
          isOpen := true }) := by
  generalize openedEq : ({ DiskManager.attach pageSize large disk.file 0 with
    isOpen := true } : DiskManager) = opened
  have ready : opened.Ready := by
    rw [← openedEq]
    exact ⟨rfl, rfl⟩
  have held : opened.imageAt (0 * opened.pageSize) = some image := by
    change opened.stored 0 = some image
    rw [← first]
    apply map_data_injective
    rw [map_data_stored, map_data_stored, sameSize, ← openedEq]
    rfl
  rw [readPage, if_neg (by simp [ready.isOpen_eq]), ready.addressable_zero.2,
    nextFault_eq ready.faults_eq]
  dsimp only
  rw [held]
  rfl

theorem load_headerPage {disk : DiskManager} {header : DatabaseHeader}
    (sameSize : disk.pageSize = pageSize)
    (whole : disk.file.length % pageSize = 0)
    (first : disk.stored 0 = some (disk.headerPage header).image)
    (magic : header.magic = DatabaseHeader.magicBytes)
    (version : header.formatVersion = 1)
    (recorded : header.pageSize.toNat = pageSize) :
    loadExistingDatabase pageSize large disk.file =
      .ok ⟨{ DiskManager.attach pageSize large disk.file
          header.nextPageId.toNat with isOpen := true },
        { header with checksum := 0 }⟩ := by
  have data := data_headerPage disk header (by rw [sameSize]; exact large)
  have length := length_headerPage disk header
  have zeros : DatabaseHeader.size ≤ (List.replicate disk.pageSize (0 : UInt8)).length := by
    rw [List.length_replicate, sameSize]
    exact large
  have room : ¬ disk.file.length < pageSize := by
    have held := map_data_stored disk 0
    rw [first] at held
    by_contra short
    rw [if_neg (by rw [sameSize]; omega)] at held
    cases held
  generalize checksumEq : Checksum.calculateChecksum
    ((DatabaseHeader.serialize { header with checksum := 0 }
      (List.replicate disk.pageSize 0)).take DatabaseHeader.size) = checksum at data
  have stamped := DatabaseHeader.deserialize_serialize { header with checksum := checksum } zeros
  have replaced := DatabaseHeader.serialize_serialize
    { header with checksum := checksum } { header with checksum := 0 } zeros
  unfold loadExistingDatabase
  rw [if_neg (by simp [whole]), if_neg room]
  dsimp only
  rw [readPage_zero sameSize first]
  generalize (disk.headerPage header).image = image at data length
  obtain ⟨bytes, size_le⟩ := image
  dsimp only at data length ⊢
  subst data
  rw [dif_pos (by rw [length, sameSize]; exact large)]
  rw [if_neg (by rw [stamped]; exact not_not_intro magic),
    if_neg (by rw [stamped]; exact not_not_intro version),
    if_neg (by rw [stamped]; exact not_not_intro recorded),
    if_neg (by rw [stamped, replaced]; exact not_not_intro checksumEq.symm)]
  rw [DatabaseHeader.deserialize_serialize _ (by rw [length, sameSize]; exact large), stamped]
  rfl

end Load

end Database

end KlyroDB
