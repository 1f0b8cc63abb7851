import KlyroDB.DatabaseFile

/-!
# The lifetimes of a database file

A file is restored by `open` after a `close`.  After a crash, `open` finds the
next page identifier that page 0 was written with, so that pages are handed out
again.
-/

namespace KlyroDB

open ByteMemory GuardedRuns

namespace Database

open DiskManager

/-- An open database as `create` is meant to leave it, and as it is from then
on. -/
structure Formatted (database : Database) : Prop where
  ready : database.disk.Ready
  header_le : DatabaseHeader.size ≤ database.disk.pageSize
  whole : database.disk.file.length % database.disk.pageSize = 0
  magic_eq : database.header.magic = DatabaseHeader.magicBytes
  version_eq : database.header.formatVersion = 1
  pageSize_eq : database.header.pageSize.toNat = database.disk.pageSize
  counter_lt : database.disk.nextPageId < 2 ^ 64

def callAll (database : Database) (calls : List DiskCall) : Database :=
  { database with disk := database.disk.callAll calls }

/-- What is written from now on until the database is closed. -/
def writesUntilClose (database : Database) (calls : List DiskCall) : List Page :=
  database.disk.writesOf calls ++ [database.disk.headerPage (database.callAll calls).currentHeader]

theorem writePages_writesUntilClose (database : Database) (calls : List DiskCall) :
    database.disk.writePages (database.writesUntilClose calls) =
      ((database.disk.writePages (database.disk.writesOf calls)).writePage (database.disk.headerPage
          (database.callAll calls).currentHeader)).2.2 := by
  simp [DiskManager.writePages, writesUntilClose]

/-- The manager is not open when page 0 is written. -/
theorem create_fails (pageSize : Nat)
    (large : DatabaseHeader.size ≤ pageSize) (databaseId : List UInt8)
    (idSize : databaseId.length = 16) :
    create pageSize large databaseId idSize none = (.error .invalidState, some []) := by
  have refused : ∀ page, DiskManager.writePage (DiskManager.attach pageSize large [] 1) page =
      (.error .invalidState, page, DiskManager.attach pageSize large [] 1) := by
    intro page
    rw [writePage, if_pos (by rfl)]
  simp only [create, refused]
  rfl

def createOpened (pageSize : Nat) (large : DatabaseHeader.size ≤ pageSize)
    (databaseId : List UInt8) (idSize : databaseId.length = 16) : Database :=
  let disk : DiskManager :=
    { DiskManager.attach pageSize large [] 1 with isOpen := true }
  let header := newHeader pageSize databaseId idSize
  ⟨(disk.writePage (disk.headerPage header)).2.2, header⟩

theorem Ready.whole_headerPage {disk : DiskManager} (ready : disk.Ready)
    (empty : disk.file = []) (header : DatabaseHeader) :
    (disk.writePage (disk.headerPage header)).2.2.file.length %
      (disk.writePage (disk.headerPage header)).2.2.pageSize = 0 := by
  have sizes : ∀ page ∈ [disk.headerPage header], page.image.data.length = disk.pageSize := by
    intro page mem
    rw [List.mem_singleton.mp mem]
    exact length_headerPage disk header
  rw [(ready.writePage _).2]
  exact ready.whole_writePages sizes (by simp [empty])

theorem formatted_createOpened {pageSize : Nat}
    {large : DatabaseHeader.size ≤ pageSize} {databaseId : List UInt8}
    {idSize : databaseId.length = 16} (small : pageSize < 2 ^ 32) :
    (createOpened pageSize large databaseId idSize).Formatted := by
  unfold createOpened
  dsimp only
  generalize diskEq : ({ DiskManager.attach pageSize large [] 1 with
    isOpen := true } : DiskManager) = disk
  have ready : disk.Ready := by
    rw [← diskEq]
    exact ⟨rfl, rfl⟩
  have diskSize : disk.pageSize = pageSize := by
    rw [← diskEq]
    rfl
  generalize headerEq : newHeader pageSize databaseId idSize = header
  obtain ⟨readyNext, sameSize⟩ := ready.writePage (disk.headerPage header)
  have whole := Ready.whole_headerPage ready (by rw [← diskEq]; rfl) header
  have counter := (disk.writePage_fields (disk.headerPage header)).1
  constructor
  · exact readyNext
  · dsimp only
    rw [sameSize, diskSize]
    exact large
  · exact whole
  · rw [← headerEq]
    rfl
  · rw [← headerEq]
    rfl
  · dsimp only
    rw [sameSize, diskSize, ← headerEq]
    exact Nat.mod_eq_of_lt small
  · dsimp only
    rw [counter, ← diskEq]
    exact Nat.one_lt_two_pow (by norm_num)

theorem Ready.counter_lt_call {disk : DiskManager} (ready : disk.Ready)
    (small : disk.nextPageId < 2 ^ 64) (next : DiskCall) :
    (disk.call next).nextPageId < 2 ^ 64 := by
  cases next with
  | writePage page =>
    rw [call, (disk.writePage_fields page).1]
    exact small
  | allocatePage =>
    rw [call]
    cases freePages : disk.freePages with
    | nil =>
      rw [(allocatePage_counter ready.isOpen_eq freePages).1]
      exact Nat.mod_lt _ (by norm_num)
    | cons pageId rest =>
      rw [allocatePage_free ready.isOpen_eq freePages]
      exact small

theorem Ready.counter_lt_callAll {disk : DiskManager} (ready : disk.Ready)
    (small : disk.nextPageId < 2 ^ 64) (calls : List DiskCall) :
    (disk.callAll calls).nextPageId < 2 ^ 64 := by
  induction calls generalizing disk with
  | nil => exact small
  | cons next calls ih =>
    exact ih (ready.sameBytes_call next).first_ready (Ready.counter_lt_call ready small next)

namespace Formatted

variable {database : Database}

theorem sizes_writesUntilClose (formatted : database.Formatted) {calls : List DiskCall}
    (sizes : ∀ page, .writePage page ∈ calls → page.image.data.length = database.disk.pageSize) :
    ∀ page ∈ database.writesUntilClose calls, page.image.data.length = database.disk.pageSize := by
  intro page mem
  rw [writesUntilClose, List.mem_append, List.mem_singleton] at mem
  rcases mem with earlier | rfl
  · exact sizes_writesOf formatted.ready sizes page earlier
  · exact length_headerPage _ _

theorem file_close (formatted : database.Formatted) (calls : List DiskCall) :
    (database.callAll calls).close.disk.file =
      (database.disk.writePages (database.writesUntilClose calls)).file := by
  have same := formatted.ready.sameBytes_callAll calls
  have sameSize := same.pageSize_eq.trans (formatted.ready.writePages _).2
  have header : (database.callAll calls).disk.headerPage (database.callAll calls).currentHeader =
      database.disk.headerPage (database.callAll calls).currentHeader := headerPage_congr sameSize _
  have opened : (database.callAll calls).disk.isOpen = true := same.first_ready.isOpen_eq
  rw [close, if_neg (by simp [opened]), writePages_writesUntilClose, header]
  exact (same.writePage _).file_eq

theorem load_close (formatted : database.Formatted) {calls : List DiskCall}
    (sizes : ∀ page, .writePage page ∈ calls → page.image.data.length = database.disk.pageSize) :
    loadExistingDatabase database.disk.pageSize formatted.header_le
        (database.callAll calls).close.disk.file =
      .ok ⟨{ DiskManager.attach database.disk.pageSize formatted.header_le
          (database.callAll calls).close.disk.file
          (database.disk.callAll calls).nextPageId with isOpen := true },
        { (database.callAll calls).currentHeader with checksum := 0 }⟩ := by
  have ready := (formatted.ready.writePages (database.disk.writesOf calls)).1
  have sameSize := (formatted.ready.writePages (database.disk.writesOf calls)).2
  have first := ready.stored_headerPage (database.callAll calls).currentHeader
  have lastSize := (formatted.ready.writePages (database.writesUntilClose calls)).2
  rw [headerPage_congr sameSize, ← writePages_writesUntilClose,
    ← headerPage_congr lastSize] at first
  have whole := formatted.ready.whole_writePages
    (formatted.sizes_writesUntilClose sizes) formatted.whole
  have counter := Ready.counter_lt_callAll formatted.ready formatted.counter_lt calls
  have restored : (database.callAll calls).currentHeader.nextPageId.toNat =
      (database.disk.callAll calls).nextPageId := UInt64.toNat_ofNat_of_lt' counter
  have loaded := @load_headerPage database.disk.pageSize formatted.header_le _ _ lastSize whole
    first formatted.magic_eq formatted.version_eq formatted.pageSize_eq
  rw [restored, ← formatted.file_close calls] at loaded
  exact loaded

end Formatted

/-- No database is made by `create`.  From a database with a page 0, whatever
is allocated and written until it is closed, `open` restores the header and
every page as it was last written. -/
theorem created_database_reopens (database : Database)
    (formatted : database.Formatted) (calls : List DiskCall)
    (sizes : ∀ page, .writePage page ∈ calls → page.image.data.length = database.disk.pageSize) :
    (∀ pageSize large databaseId idSize, create pageSize large databaseId idSize none =
        (.error .invalidState, some [])) ∧
    ∃ reopened, loadExistingDatabase database.disk.pageSize
        formatted.header_le (database.callAll calls).close.disk.file = .ok reopened ∧
      reopened.header.magic = database.header.magic ∧
      reopened.header.formatVersion = database.header.formatVersion ∧
      reopened.header.pageSize = database.header.pageSize ∧
      reopened.header.databaseId = database.header.databaseId ∧
      reopened.disk.nextPageId = (database.disk.callAll calls).nextPageId ∧
      ∀ before page after, database.writesUntilClose calls = before ++ page :: after →
        (∀ later ∈ after, later.id ≠ page.id) →
        database.disk.Addressable page.id →
        ∃ read, (reopened.disk.readPage page.id).1 = .ok read ∧
          read.id = page.id ∧ PageImage.SameUpToChecksum read.image page.image := by
  refine ⟨create_fails, ?_⟩
  refine ⟨_, formatted.load_close sizes, rfl, rfl, rfl, rfl, rfl, ?_⟩
  intro before page after writes lastWrite addressable
  have sizesAll := formatted.sizes_writesUntilClose sizes
  rw [writes] at sizesAll
  have file := formatted.file_close calls
  rw [writes] at file
  obtain ⟨ready, sameSize⟩ := formatted.ready.writePages (before ++ page :: after)
  have same : SameBytes
      { DiskManager.attach database.disk.pageSize formatted.header_le
          (database.callAll calls).close.disk.file
          (database.disk.callAll calls).nextPageId with isOpen := true }
      (database.disk.writePages (before ++ page :: after)) :=
      ⟨file, sameSize.symm, ⟨rfl, rfl⟩, ready⟩
  rw [same.readPage]
  exact formatted.ready.readPage_writePages sizesAll lastWrite addressable

def onePage : Database :=
  createOpened 76 le_rfl (List.replicate 16 7) rfl

theorem formatted_onePage : onePage.Formatted :=
  formatted_createOpened (by decide)

theorem pageSize_onePage : onePage.disk.pageSize = 76 :=
  (Ready.writePage ⟨rfl, rfl⟩ _).2

theorem created_database_reopens_one_page :
    ∃ reopened, loadExistingDatabase onePage.disk.pageSize formatted_onePage.header_le
        (onePage.callAll [.allocatePage]).close.disk.file = .ok reopened ∧
      reopened.header.databaseId = List.replicate 16 7 := by
  obtain ⟨reopened, loaded, -, -, -, sameId, -⟩ := (created_database_reopens onePage
    formatted_onePage [.allocatePage] (by simp)).2
  exact ⟨reopened, loaded, sameId⟩

theorem database_not_created :
    ¬ ∃ database, (create 4096 (by decide) (List.replicate 16 7) rfl none).1 = .ok database := by
  rintro ⟨database, created⟩
  rw [create_fails] at created
  cases created

end Database

namespace DiskManager

def handedOut : DiskManager → List DiskCall → List Nat
  | _, [] => []
  | disk, .allocatePage :: calls =>
      match disk.allocatePage.1 with
      | .ok pageId => pageId :: handedOut (disk.call .allocatePage) calls
      | .error _ => handedOut (disk.call .allocatePage) calls
  | disk, .writePage page :: calls => handedOut (disk.call (.writePage page)) calls

theorem mem_handedOut_cons {disk : DiskManager} {next : DiskCall}
    {calls : List DiskCall} {pageId : Nat} :
    pageId ∈ disk.handedOut (next :: calls) ↔
      next = .allocatePage ∧ disk.allocatePage.1 = .ok pageId ∨
        pageId ∈ (disk.call next).handedOut calls := by
  cases next with
  | writePage page => simp [handedOut]
  | allocatePage =>
    cases allocated : disk.allocatePage.1 with
    | ok other => simp [handedOut, allocated, eq_comm]
    | error status => simp [handedOut, allocated]

def savedCounter (disk : DiskManager) : Nat :=
  match disk.stored 0 with
  | some image => readNat image.data 56 8
  | none => 0

/-- Only pages below the counter in page 0 are handed out, and that counter is
not set back. -/
def WithinSaved (disk : DiskManager) : DiskCall → Prop
  | .allocatePage =>
      match disk.freePages with
      | pageId :: _ => pageId < disk.savedCounter
      | [] => 0 < disk.nextPageId ∧ disk.nextPageId < disk.savedCounter
  | .writePage page => page.id = 0 → disk.savedCounter ≤ readNat page.image.data 56 8

/-- The counter is not at its end. -/
def BelowEnd (disk : DiskManager) : DiskCall → Prop
  | .allocatePage => disk.freePages = [] → disk.nextPageId + 1 < 2 ^ 64
  | .writePage _ => True

section Saved

variable {disk : DiskManager} {calls : List DiskCall}

theorem savedCounter_eq {image : PageImage} (held : disk.stored 0 = some image) :
    disk.savedCounter = readNat image.data 56 8 := by rw [savedCounter, held]

/-- Page 0 as it was written, with the manager that is left behind. -/
theorem Ready.stored_headerPage_self (ready : disk.Ready) (header : DatabaseHeader) :
    (disk.writePage (disk.headerPage header)).2.2.stored 0 =
      some ((disk.writePage (disk.headerPage header)).2.2.headerPage header).image := by
  rw [ready.stored_headerPage, headerPage_congr (ready.writePage (disk.headerPage header)).2]

theorem savedCounter_headerPage {header : DatabaseHeader}
    (large : DatabaseHeader.size ≤ disk.pageSize)
    (held : disk.stored 0 = some (disk.headerPage header).image) :
    disk.savedCounter = header.nextPageId.toNat := by
  rw [savedCounter_eq held, data_headerPage disk header large]
  generalize Checksum.calculateChecksum _ = checksum
  have read := congrArg (fun parsed => parsed.nextPageId.toNat)
    (DatabaseHeader.deserialize_serialize { header with checksum := checksum } (show
    DatabaseHeader.size ≤ (List.replicate disk.pageSize 0).length by
        rw [List.length_replicate]
        exact large))
  rw [← read]
  exact (UInt64.toNat_ofNat_of_lt' (readNat_lt 56 8)).symm

theorem Ready.savedCounter_writePage (ready : disk.Ready) {page : Page}
    (held : (disk.stored 0).isSome) (size : page.image.data.length = disk.pageSize)
    (larger : page.id = 0 → disk.savedCounter ≤ readNat page.image.data 56 8) :
    ((disk.writePage page).2.2.stored 0).isSome ∧
      disk.savedCounter ≤ (disk.writePage page).2.2.savedCounter := by
  obtain ⟨image, held⟩ := Option.isSome_iff_exists.mp held
  by_cases metadata : page.id = 0
  · have kept := ready.stored_writePage_self (by rw [metadata]; exact ready.addressable_zero) size
    have unstamped : page.image.storedPage page.id = page.image := by
      rw [PageImage.storedPage, if_pos metadata]
    rw [unstamped, metadata] at kept
    rw [kept, savedCounter_eq kept]
    exact ⟨rfl, larger metadata⟩
  · have kept := ready.stored_writePage_of_ne size held (fun same => metadata same.symm)
    rw [kept, savedCounter_eq kept, savedCounter_eq held]
    exact ⟨rfl, le_rfl⟩

theorem Ready.savedCounter_call (ready : disk.Ready) {next : DiskCall}
    (held : (disk.stored 0).isSome) (sizes : ∀ page, next = .writePage page →
      page.image.data.length = disk.pageSize) (within : disk.WithinSaved next) :
    ((disk.call next).stored 0).isSome ∧ disk.savedCounter ≤ (disk.call next).savedCounter := by
  cases next with
  | writePage page =>
    exact ready.savedCounter_writePage held (sizes page rfl) within
  | allocatePage =>
    rw [call]
    rw [WithinSaved] at within
    cases freePages : disk.freePages with
    | cons pageId rest =>
      rw [allocatePage_free ready.isOpen_eq freePages]
      exact ⟨held, le_rfl⟩
    | nil =>
      rw [freePages] at within
      rw [allocatePage_counter_snd ready.isOpen_eq freePages]
      have grown : DiskManager.Ready { disk with
          nextPageId := (disk.nextPageId + 1) % 2 ^ 64 } :=
        ⟨ready.isOpen_eq, ready.faults_eq⟩
      have size := length_emptyPage disk disk.nextPageId
      have behind : (disk.emptyPage disk.nextPageId).id ≠ 0 := Nat.pos_iff_ne_zero.mp within.1
      generalize disk.emptyPage disk.nextPageId = page at size behind ⊢
      exact grown.savedCounter_writePage held size (fun metadata => absurd metadata behind)

theorem Ready.allocatePage_lt (ready : disk.Ready)
    (within : disk.WithinSaved .allocatePage) {pageId : Nat}
    (allocated : disk.allocatePage.1 = .ok pageId) : pageId < disk.savedCounter := by
  rw [WithinSaved] at within
  cases freePages : disk.freePages with
  | cons free rest =>
    rw [freePages] at within
    rw [allocatePage_free ready.isOpen_eq freePages] at allocated
    cases allocated
    exact within
  | nil =>
    rw [freePages] at within
    rw [(allocatePage_counter ready.isOpen_eq freePages).2.2.2 pageId allocated]
    exact within.2

theorem Ready.handedOut_lt (ready : disk.Ready) (held : (disk.stored 0).isSome)
    (sizes : ∀ page, .writePage page ∈ calls →
      page.image.data.length = disk.pageSize) (within : Along call WithinSaved disk calls) :
    disk.savedCounter ≤ (disk.callAll calls).savedCounter ∧
      ∀ pageId ∈ disk.handedOut calls, pageId < (disk.callAll calls).savedCounter := by
  induction calls generalizing disk with
  | nil => exact ⟨le_rfl, by simp [handedOut]⟩
  | cons next calls ih =>
    obtain ⟨first, rest⟩ := within
    have after := ready.sameBytes_call next
    have sameSize : (disk.call next).pageSize = disk.pageSize :=
      after.pageSize_eq.trans (ready.writePages _).2
    obtain ⟨heldNext, grows⟩ := ready.savedCounter_call held
      (fun page same => sizes page (by simp [same])) first
    obtain ⟨growsOn, below⟩ := ih after.first_ready heldNext (fun page mem => by
        rw [sameSize]
        exact sizes page (List.mem_cons_of_mem _ mem)) rest
    refine ⟨grows.trans growsOn, fun pageId mem => ?_⟩
    rcases mem_handedOut_cons.mp mem with ⟨rfl, allocated⟩ | later
    · have small := ready.allocatePage_lt first allocated
      exact lt_of_lt_of_le small (grows.trans growsOn)
    · exact below pageId later

theorem handedOut_ge (opened : disk.isOpen = true) (noFree : disk.freePages = [])
    (belowEnd : Along call BelowEnd disk calls) :
    ∀ pageId ∈ disk.handedOut calls, disk.nextPageId ≤ pageId := by
  induction calls generalizing disk with
  | nil => simp [handedOut]
  | cons next calls ih =>
    obtain ⟨first, rest⟩ := belowEnd
    intro pageId mem
    cases next with
    | writePage page =>
      obtain ⟨counter, free, stillOpen⟩ := disk.writePage_fields page
      rcases mem_handedOut_cons.mp mem with ⟨same, -⟩ | later
      · cases same
      · rw [← counter]
        exact ih (stillOpen.trans opened) (free.trans noFree) rest pageId later
    | allocatePage =>
      obtain ⟨counter, free, stillOpen, handedOut⟩ := allocatePage_counter opened noFree
      rcases mem_handedOut_cons.mp mem with ⟨-, allocated⟩ | later
      · exact (handedOut pageId allocated).ge
      · have above := ih stillOpen free rest pageId later
        change disk.allocatePage.2.nextPageId ≤ pageId at above
        rw [counter, Nat.mod_eq_of_lt (first noFree)] at above
        omega

end Saved

end DiskManager

namespace Database

open DiskManager

theorem load_counter {pageSize : Nat} {large : DatabaseHeader.size ≤ pageSize} {disk : DiskManager}
    {reopened : Database} (sameSize : disk.pageSize = pageSize)
    (loaded : loadExistingDatabase pageSize large disk.file = .ok reopened) :
    reopened.disk.isOpen = true ∧ reopened.disk.freePages = [] ∧
      reopened.disk.nextPageId = disk.savedCounter := by
  unfold loadExistingDatabase at loaded
  split_ifs at loaded with ragged short
  obtain ⟨image, held⟩ : ∃ image, disk.stored 0 = some image := by
    rw [stored, imageAt, dif_pos (by omega)]
    exact ⟨_, rfl⟩
  have small : readNat image.data 56 8 < 2 ^ 64 := readNat_lt 56 8
  dsimp only at loaded
  rw [readPage_zero sameSize held] at loaded
  dsimp only at loaded
  split_ifs at loaded with inside magic version size checksum
  cases loaded
  rw [savedCounter_eq held, DatabaseHeader.deserialize_serialize _ inside]
  exact ⟨rfl, rfl, UInt64.toNat_ofNat_of_lt' small⟩

/-- No page that was handed out before a crash is handed out after it, as long
as the counter in page 0 is ahead of what is handed out. -/
theorem pages_kept_after_crash (disk : DiskManager) (ready : disk.Ready)
    (large : DatabaseHeader.size ≤ disk.pageSize)
    (held : (disk.stored 0).isSome) (before after : List DiskCall)
    (sizes : ∀ page, .writePage page ∈ before → page.image.data.length = disk.pageSize)
    (within : Along DiskManager.call WithinSaved disk before) (reopened : Database)
    (loaded : loadExistingDatabase disk.pageSize large (disk.callAll before).file = .ok reopened)
    (belowEnd : Along DiskManager.call BelowEnd reopened.disk after) :
    ∀ pageId ∈ reopened.disk.handedOut after, pageId ∉ disk.handedOut before := by
  have same := ready.sameBytes_callAll before
  have sameSize : (disk.callAll before).pageSize = disk.pageSize :=
    same.pageSize_eq.trans (ready.writePages _).2
  obtain ⟨opened, noFree, counter⟩ := load_counter sameSize loaded
  intro pageId later earlier
  have above := handedOut_ge opened noFree belowEnd pageId later
  have below := (ready.handedOut_lt held sizes within).2 pageId earlier
  omega

theorem load_after_crash {pageSize : Nat}
    {large : DatabaseHeader.size ≤ pageSize} {disk : DiskManager}
    {header : DatabaseHeader} (ready : disk.Ready)
    (diskSize : disk.pageSize = pageSize)
    (whole : disk.file.length % disk.pageSize = 0)
    (held : disk.stored 0 = some (disk.headerPage header).image)
    (magic : header.magic = DatabaseHeader.magicBytes)
    (version : header.formatVersion = 1)
    (recorded : header.pageSize.toNat = pageSize) {calls : List DiskCall}
    (sizes : ∀ page, .writePage page ∈ calls → page.image.data.length = disk.pageSize)
    (elsewhere : ∀ page ∈ disk.writesOf calls, page.id ≠ 0) :
    loadExistingDatabase pageSize large (disk.callAll calls).file =
      .ok ⟨{ DiskManager.attach pageSize large (disk.callAll calls).file
          header.nextPageId.toNat with isOpen := true },
        { header with checksum := 0 }⟩ := by
  have same := ready.sameBytes_callAll calls
  have sameSize := (ready.writePages (disk.writesOf calls)).2
  have writes := sizes_writesOf ready sizes
  have kept := ready.stored_writePages writes held elsewhere
  rw [← headerPage_congr sameSize] at kept
  have wholeLast := ready.whole_writePages writes whole
  rw [diskSize] at sameSize wholeLast
  rw [same.file_eq]
  exact load_headerPage sameSize wholeLast kept magic version recorded

def headerFreed : DatabaseHeader :=
  { newHeader 76 (List.replicate 16 7) rfl with nextPageId := 2 }

def onePageFreed : DiskManager :=
  let disk : DiskManager :=
    { DiskManager.attach 76 le_rfl [] 2 with
      isOpen := true, freePages := [1] }
  (disk.writePage (disk.headerPage headerFreed)).2.2

theorem pageSize_onePageFreed : onePageFreed.pageSize = 76 :=
  (Ready.writePage ⟨rfl, rfl⟩ _).2

theorem pages_kept_after_crash_free_page :
    ∃ reopened, loadExistingDatabase onePageFreed.pageSize pageSize_onePageFreed.ge
        (onePageFreed.callAll [.allocatePage]).file = .ok reopened ∧
      1 ∈ onePageFreed.handedOut [.allocatePage] ∧
      ∀ pageId ∈ reopened.disk.handedOut [.allocatePage],
        pageId ∉ onePageFreed.handedOut [.allocatePage] := by
  have kept := pages_kept_after_crash onePageFreed
  have ready : onePageFreed.Ready := (Ready.writePage ⟨rfl, rfl⟩ _).1
  have size := pageSize_onePageFreed
  have held : onePageFreed.stored 0 = some (onePageFreed.headerPage headerFreed).image :=
      Ready.stored_headerPage_self ⟨rfl, rfl⟩ headerFreed
  have free : onePageFreed.freePages = [1] := (writePage_fields _ _).2.1
  have whole : onePageFreed.file.length % onePageFreed.pageSize = 0 := by
    unfold onePageFreed
    apply Ready.whole_headerPage
    · exact ⟨rfl, rfl⟩
    · rfl
  generalize largeEq : pageSize_onePageFreed.ge = large
  clear largeEq
  generalize onePageFreed = disk at kept ready size held free whole large ⊢
  have allocated := allocatePage_free ready.isOpen_eq free
  have saved := savedCounter_headerPage size.ge held
  have elsewhere : ∀ page ∈ disk.writesOf [.allocatePage], page.id ≠ 0 := by
    simp [writesOf, writes, free]
  obtain ⟨reopened, loaded, counter⟩ : ∃ reopened, loadExistingDatabase disk.pageSize large
      (disk.callAll [.allocatePage]).file = .ok reopened ∧ reopened.disk.nextPageId = 2 := ⟨_,
      load_after_crash ready rfl whole held rfl rfl size.symm (by simp) elsewhere, rfl⟩
  have within : Along DiskManager.call WithinSaved disk [.allocatePage] := by
    refine ⟨?_, trivial⟩
    rw [WithinSaved, free, saved]
    exact Nat.one_lt_two
  have belowEnd : Along DiskManager.call BelowEnd reopened.disk [.allocatePage] := by
    refine ⟨fun _ => ?_, trivial⟩
    rw [counter]
    decide
  refine ⟨reopened, loaded, ?_, ?_⟩
  · rw [mem_handedOut_cons, allocated]
    exact Or.inl ⟨rfl, rfl⟩
  · exact kept ready large (by rw [held]; rfl) [.allocatePage] [.allocatePage]
      (by simp) within reopened loaded belowEnd

theorem stored_onePage :
    onePage.disk.stored 0 = some (onePage.disk.headerPage
      (newHeader 76 (List.replicate 16 7) rfl)).image :=
  Ready.stored_headerPage_self ⟨rfl, rfl⟩ _

theorem counter_onePage : onePage.disk.nextPageId = 1 ∧ onePage.disk.freePages = [] := by
  obtain ⟨counter, free, -⟩ := writePage_fields
    { DiskManager.attach 76 le_rfl [] 1 with isOpen := true }
    (DiskManager.headerPage { DiskManager.attach 76 le_rfl [] 1 with isOpen := true }
      (newHeader 76 (List.replicate 16 7) rfl))
  exact ⟨counter, free⟩

/-- Page 1 is allocated and written, then the process stops. -/
theorem page_handed_out_after_crash :
    ∃ reopened, loadExistingDatabase 76 le_rfl (onePage.disk.callAll
        [.allocatePage, .writePage (onePage.disk.emptyPage 1)]).file = .ok reopened ∧
      1 ∈ onePage.disk.handedOut [.allocatePage, .writePage (onePage.disk.emptyPage 1)] ∧
      1 ∈ reopened.disk.handedOut [.allocatePage] := by
  have ready := formatted_onePage.ready
  have whole := formatted_onePage.whole
  have size := pageSize_onePage
  have held := stored_onePage
  obtain ⟨counter, noFree⟩ := counter_onePage
  generalize onePage.disk = disk at ready whole size held counter noFree ⊢
  have allocated := ready.allocatePage_ok noFree (by
      rw [ready.addressable_iff, counter, size]
      decide)
  have sizes : ∀ page, DiskCall.writePage page ∈ [DiskCall.allocatePage, .writePage
      (disk.emptyPage 1)] → page.image.data.length = disk.pageSize := by
    intro page member
    simp only [List.mem_cons, reduceCtorEq, DiskCall.writePage.injEq,
      List.not_mem_nil, or_false, false_or] at member
    rw [member]
    exact length_emptyPage _ _
  have elsewhere : ∀ page ∈ disk.writesOf
      [.allocatePage, .writePage (disk.emptyPage 1)], page.id ≠ 0 := by
    intro page member
    simp only [writesOf, writes, noFree, counter, if_true, List.mem_append,
      List.mem_singleton, List.not_mem_nil, or_false, or_self] at member
    rw [member]
    exact one_ne_zero
  obtain ⟨reopened, loaded, opened, noFreeAgain, counterAgain⟩ : ∃ reopened, loadExistingDatabase 76
      le_rfl (disk.callAll [.allocatePage, .writePage (disk.emptyPage 1)]).file = .ok reopened ∧
      reopened.disk.Ready ∧ reopened.disk.freePages = [] ∧ reopened.disk.nextPageId = 1 ∧
      reopened.disk.pageSize = 76 := ⟨_, load_after_crash ready size whole held rfl rfl rfl sizes
      elsewhere, ⟨rfl, rfl⟩, rfl, rfl, rfl⟩
  have again := opened.allocatePage_ok noFreeAgain (by
      rw [opened.addressable_iff, counterAgain.1, counterAgain.2]
      decide)
  refine ⟨reopened, loaded, ?_, ?_⟩
  · rw [mem_handedOut_cons, allocated, counter]
    exact Or.inl ⟨rfl, rfl⟩
  · rw [mem_handedOut_cons, again, counterAgain.1]
    exact Or.inl ⟨rfl, rfl⟩

end Database

end KlyroDB
