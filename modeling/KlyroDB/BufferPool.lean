import KlyroDB.ClockReplacer
import KlyroDB.DiskManager

/-!
# The buffer pool

`storage/buffer_pool.cpp` with its frames and handles.  `fetch_page` has two
sections: one under the page table mutex that chooses and pins a frame, and one
under the frame's mutex that writes the old page back and reads the new one.
Pin counts stand for handles that exist and do not wrap.
-/

namespace KlyroDB

structure BufferFrame where
  pageId : Nat := PageID.invalid
  isValid : Bool := false
  isDirty : Bool := false
  pinCount : Nat := 0
  page : Page

namespace BufferFrame

def empty : BufferFrame where
  page :=
    { id := PageID.invalid
      image :=
        { data := List.replicate 8192 0
          size_le := by
            rw [List.length_replicate]
            decide } }

def flushed (frame : BufferFrame) (written : Bool) : BufferFrame :=
  { frame with
    page :=
      { frame.page with image := frame.page.image.storedPage frame.page.id }
    isDirty := frame.isDirty && !written }

end BufferFrame

/-- The calls that the pool makes on the log and on the disk. -/
inductive PoolIo
  | flushUpTo (lsn : Nat)
  | writePage (page : Page)
  | readPage (pageId : Nat)

structure BufferPool where
  poolSize : Nat
  frames : Nat → BufferFrame
  replacer : ClockReplacer
  pageTable : AList fun _ : Nat => Nat
  freeList : List Nat
  disk : DiskManager
  hasWal : Bool
  trace : List PoolIo

inductive FetchPlan
  | hit (frame : Nat)
  | exhausted
  | miss (frame : Nat)
  deriving DecidableEq, Repr

namespace BufferPool

def create (poolSize : Nat) (disk : DiskManager) (hasWal : Bool) : BufferPool where
  poolSize := poolSize
  frames := fun _ => BufferFrame.empty
  replacer := { numFrames := poolSize }
  pageTable := ∅
  freeList := List.range poolSize
  disk := disk
  hasWal := hasWal
  trace := []

def updateFrame (pool : BufferPool) (frame : Nat)
    (change : BufferFrame → BufferFrame) : BufferPool :=
  { pool with
    frames := Function.update pool.frames frame (change (pool.frames frame)) }

/-- `frame->pin()` and `m_replacer->pin(frame_id)`. -/
def pinFrame (pool : BufferPool) (frame : Nat) : BufferPool :=
  let pool := pool.updateFrame frame fun old =>
    { old with pinCount := old.pinCount + 1 }
  { pool with replacer := pool.replacer.pin frame }

def unpinPage (pool : BufferPool) (frame : Nat) : BufferPool :=
  if frame < pool.poolSize ∧ (pool.frames frame).pinCount = 0 then
    { pool with replacer := pool.replacer.unpin frame }
  else pool

/-- `frame->unpin()` followed by `unpin_page`. -/
def unpinFrame (pool : BufferPool) (frame : Nat) : BufferPool :=
  (pool.updateFrame frame fun old =>
    { old with pinCount := old.pinCount - 1 }).unpinPage frame

/-- The chosen frame leaves the page table and enters it under the new page,
pinned. -/
def claimFrame (pool : BufferPool) (frame pageId : Nat) : BufferPool :=
  let pool :=
    if (pool.frames frame).isValid then
      { pool with
        pageTable := pool.pageTable.erase (pool.frames frame).pageId }
    else pool
  let pool := pool.pinFrame frame
  { pool with pageTable := pool.pageTable.insert pageId frame }

def planFetch (pool : BufferPool) (pageId : Nat) : FetchPlan × BufferPool :=
  match pool.pageTable.lookup pageId with
  | some frame =>
      let pool := pool.pinFrame frame
      (.hit frame, { pool with replacer := pool.replacer.recordAccess frame })
  | none =>
      match pool.freeList with
      | frame :: freeList =>
          (.miss frame,
            ({ pool with freeList := freeList } : BufferPool).claimFrame frame pageId)
      | [] =>
          match pool.replacer.victim with
          | (none, replacer) =>
              (.exhausted, { pool with replacer := replacer })
          | (some frame, replacer) =>
              (.miss frame,
                ({ pool with replacer := replacer } : BufferPool).claimFrame frame pageId)

def flushFrame (pool : BufferPool) (frame : Nat) : Option Status × BufferPool :=
  let page := (pool.frames frame).page
  let pool :=
    if pool.hasWal && LSN.isValid page.image.lsn then
      { pool with trace := pool.trace ++ [.flushUpTo page.image.lsn] }
    else pool
  match pool.disk.writePage page with
  | (.error status, stamped, disk) =>
      let pool := pool.updateFrame frame ({ · with page := stamped })
      (some status, { pool with disk := disk, trace := pool.trace ++ [.writePage stamped] })
  | (.ok (), stamped, disk) =>
      let pool := pool.updateFrame frame ({ · with page := stamped, isDirty := false })
      (none, { pool with disk := disk, trace := pool.trace ++ [.writePage stamped] })

def abandonFetch (pool : BufferPool) (frame pageId : Nat) : BufferPool :=
  let pool := pool.unpinFrame frame
  { pool with
    pageTable := pool.pageTable.erase pageId
    freeList := pool.freeList ++ [frame] }

def isDirtyFrame (pool : BufferPool) (frame : Nat) : Bool :=
  (pool.frames frame).isValid && (pool.frames frame).isDirty

/-- Reads a page into a frame whose old page needs no writing any more. -/
def readFrame (pool : BufferPool) (frame pageId : Nat) : Except Status Nat × BufferPool :=
  let result := pool.disk.readPage pageId
  let pool :=
    { pool with
      disk := result.2
      trace := pool.trace ++ [PoolIo.readPage pageId] }
  match result.1 with
  | .error status => (.error status, pool.abandonFetch frame pageId)
  | .ok page =>
      let pool := pool.updateFrame frame
        ({ · with
          page := page, pageId := pageId, isValid := true, isDirty := false })
      (.ok frame, { pool with replacer := pool.replacer.recordAccess frame })

def loadFrame (pool : BufferPool) (frame pageId : Nat) : Except Status Nat × BufferPool :=
  if pool.isDirtyFrame frame then
    match pool.flushFrame frame with
    | (some status, pool) => (.error status, pool.abandonFetch frame pageId)
    | (none, pool) => pool.readFrame frame pageId
  else pool.readFrame frame pageId

/-- The frame that the returned handle points to. -/
def fetchPage (pool : BufferPool) (pageId : Nat) : Except Status Nat × BufferPool :=
  match pool.planFetch pageId with
  | (.hit frame, pool) => (.ok frame, pool)
  | (.exhausted, pool) => (.error .internalError, pool)
  | (.miss frame, pool) => pool.loadFrame frame pageId

/-- Returns the new page's identifier with its frame. -/
def allocatePage (pool : BufferPool) : Except Status (Nat × Nat) × BufferPool :=
  match pool.disk.allocatePage with
  | (.error status, disk) => (.error status, { pool with disk := disk })
  | (.ok pageId, disk) =>
      match ({ pool with disk := disk } : BufferPool).fetchPage pageId with
      | (.error status, pool) => (.error status, pool)
      | (.ok frame, pool) => (.ok (pageId, frame), pool)

def flushPage (pool : BufferPool) (pageId : Nat) : Option Status × BufferPool :=
  match pool.pageTable.lookup pageId with
  | none => (none, pool)
  | some frame =>
      if pool.isDirtyFrame frame && (pool.frames frame).pageId = pageId then
        pool.flushFrame frame
      else (none, pool)

def flushEntries : List Nat → BufferPool → Option Status × BufferPool
  | [], pool => (none, pool)
  | pageId :: rest, pool =>
      match pool.pageTable.lookup pageId with
      | none => flushEntries rest pool
      | some frame =>
          if pool.isDirtyFrame frame then
            match pool.flushFrame frame with
            | (some status, pool) => (some status, pool)
            | (none, pool) => flushEntries rest pool
          else flushEntries rest pool

def flushAll (pool : BufferPool) (enumeration : Enumeration) : Option Status × BufferPool :=
  flushEntries (enumeration.order pool.pageTable.keys) pool

/-- A change of page bytes through `get_mut`. -/
def mutate (pool : BufferPool) (frame offset : Nat) (bytes : List UInt8) : BufferPool :=
  pool.updateFrame frame fun old =>
    { old with
      isDirty := true
      page := { old.page with image := old.page.image.poke offset bytes } }

/-- What writing the page of a frame changes, whether or not it succeeds. -/
structure Flushed (pool : BufferPool) (frame : Nat) (status : Option Status)
    (after : BufferPool) : Prop where
  frames_eq : after.frames = Function.update pool.frames frame
    ((pool.frames frame).flushed status.isNone)
  written : ∃ image, DiskManager.Written pool.disk (pool.frames frame).page.id image after.disk ∧
      (status = none → image = (pool.frames frame).page.image.storedPage
      (pool.frames frame).page.id)
  failed : ∀ failure, status = some failure → failure = .ioError ∧ pool.disk.faults ≠ []
  next_eq : after.disk.nextPageId = pool.disk.nextPageId
  poolSize_eq : after.poolSize = pool.poolSize
  replacer_eq : after.replacer = pool.replacer
  pageTable_eq : after.pageTable = pool.pageTable
  freeList_eq : after.freeList = pool.freeList

theorem flushFrame_flushed {pool : BufferPool} {frame : Nat} (aligned : pool.disk.Aligned)
    (addressable : pool.disk.Addressable (pool.frames frame).page.id)
    (fits : (pool.frames frame).page.image.data.length = pool.disk.pageSize)
    (exists_ : (pool.frames frame).page.id < pool.disk.nextPageId) :
    Flushed pool frame (pool.flushFrame frame).1 (pool.flushFrame frame).2 := by
  obtain ⟨outcome, image, disk, write, written, next, result⟩ :=
    DiskManager.writePage_addressable aligned addressable fits exists_
  have sameDisk : ∀ trace : List PoolIo, ({ pool with trace := trace } : BufferPool).disk.writePage
      (pool.frames frame).page = (outcome, _, disk) := fun _ => write
  rcases result with ⟨rfl, whole⟩ | ⟨rfl, faulty⟩
  · unfold flushFrame
    dsimp only
    split_ifs with logged
    · rw [sameDisk]
      refine ⟨?_, ⟨image, written, fun _ => whole⟩, ?_, next, rfl, rfl, rfl, rfl⟩
      · simp [updateFrame, BufferFrame.flushed]
      · intro failure never
        contradiction
    rw [write]
    refine ⟨?_, ⟨image, written, fun _ => whole⟩, ?_, next, rfl, rfl, rfl, rfl⟩
    · simp [updateFrame, BufferFrame.flushed]
    · intro failure never
      contradiction
  unfold flushFrame
  dsimp only
  split_ifs with logged
  · rw [sameDisk]
    refine ⟨?_, ⟨image, written, ?_⟩, ?_, next, rfl, rfl, rfl, rfl⟩
    · simp [updateFrame, BufferFrame.flushed]
    · intro never
      contradiction
    · intro failure here
      cases here
      exact ⟨rfl, faulty⟩
  rw [write]
  refine ⟨?_, ⟨image, written, ?_⟩, ?_, next, rfl, rfl, rfl, rfl⟩
  · simp [updateFrame, BufferFrame.flushed]
  · intro never
    contradiction
  · intro failure here
    cases here
    exact ⟨rfl, faulty⟩

/-- What giving up one pin of a frame changes; the clock forgets only frames
whose last pin is gone. -/
structure Unpinned (pool : BufferPool) (frame : Nat) (after : BufferPool) : Prop where
  frames_eq : after.frames = Function.update pool.frames frame
    { pool.frames frame with
      pinCount := (pool.frames frame).pinCount - 1 }
  poolSize_eq : after.poolSize = pool.poolSize
  pageTable_eq : after.pageTable = pool.pageTable
  freeList_eq : after.freeList = pool.freeList
  disk_eq : after.disk = pool.disk
  numFrames_eq : after.replacer.numFrames = pool.replacer.numFrames
  clockHand_eq : after.replacer.clockHand = pool.replacer.clockHand
  keepsPins : ∀ other, 0 < (after.frames other).pinCount → (after.replacer.frames other).isPinned =
    (pool.replacer.frames other).isPinned

theorem unpinFrame_unpinned (pool : BufferPool) (frame : Nat) :
    Unpinned pool frame (pool.unpinFrame frame) := by
  obtain ⟨numFrames, hand, others⟩ := pool.replacer.unpin_spec frame
  unfold unpinFrame unpinPage
  split_ifs with last
  · refine ⟨rfl, rfl, rfl, rfl, rfl, numFrames, hand, ?_⟩
    intro other positive
    apply others
    rintro rfl
    exact absurd last.2 (Nat.pos_iff_ne_zero.mp positive)
  · exact ⟨rfl, rfl, rfl, rfl, rfl, rfl, rfl, fun _ _ => rfl⟩

def withoutFrame (pool : BufferPool) (frame : Nat) :
    AList fun _ : Nat => Nat :=
  if (pool.frames frame).isValid then
    pool.pageTable.erase (pool.frames frame).pageId
  else pool.pageTable

section ClaimFrame

variable (pool : BufferPool) (frame pageId : Nat)

theorem claimFrame_eq : pool.claimFrame frame pageId =
    { pool.pinFrame frame with
      pageTable := (pool.withoutFrame frame).insert pageId frame } := by
  unfold claimFrame withoutFrame
  split_ifs with valid
  · rfl
  · rfl

theorem frames_claimFrame :
    (pool.claimFrame frame pageId).frames = Function.update pool.frames frame
        { pool.frames frame with pinCount := (pool.frames frame).pinCount + 1 } := by
  rw [claimFrame_eq]
  rfl

theorem disk_claimFrame : (pool.claimFrame frame pageId).disk = pool.disk := by
  rw [claimFrame_eq]
  rfl

theorem freeList_claimFrame : (pool.claimFrame frame pageId).freeList = pool.freeList := by
  rw [claimFrame_eq]
  rfl

end ClaimFrame

structure Loaded (pool : BufferPool) (frame pageId : Nat) (page : Page)
    (after : BufferPool) : Prop where
  frames_eq : after.frames = Function.update pool.frames frame
    { pool.frames frame with
      page := page
      pageId := pageId
      isValid := true
      isDirty := false }
  sameFile : DiskManager.SameFile pool.disk after.disk
  page_id : page.id = pageId
  addressable : pool.disk.Addressable pageId
  stored : ∃ image, pool.disk.stored pageId = some image ∧
    PageImage.SameUpToChecksum page.image image
  poolSize_eq : after.poolSize = pool.poolSize
  pageTable_eq : after.pageTable = pool.pageTable
  freeList_eq : after.freeList = pool.freeList
  samePins : ClockReplacer.SamePins after.replacer pool.replacer
  clockHand_eq : after.replacer.clockHand = pool.replacer.clockHand

structure Abandoned (pool : BufferPool) (frame pageId : Nat) (after : BufferPool) : Prop where
  frames_eq : after.frames = Function.update pool.frames frame
    { pool.frames frame with
      pinCount := (pool.frames frame).pinCount - 1 }
  sameFile : DiskManager.SameFile pool.disk after.disk
  poolSize_eq : after.poolSize = pool.poolSize
  pageTable_eq : after.pageTable = pool.pageTable.erase pageId
  freeList_eq : after.freeList = pool.freeList ++ [frame]
  numFrames_eq : after.replacer.numFrames = pool.replacer.numFrames
  clockHand_eq : after.replacer.clockHand = pool.replacer.clockHand
  keepsPins : ∀ other, 0 < (after.frames other).pinCount → (after.replacer.frames other).isPinned =
    (pool.replacer.frames other).isPinned

theorem abandonFetch_abandoned (pool : BufferPool) (frame pageId : Nat) :
    Abandoned pool frame pageId (pool.abandonFetch frame pageId) := by
  have unpinned := pool.unpinFrame_unpinned frame
  refine ⟨unpinned.frames_eq, ?_, unpinned.poolSize_eq, ?_, ?_,
    unpinned.numFrames_eq, unpinned.clockHand_eq, unpinned.keepsPins⟩
  · change DiskManager.SameFile pool.disk (pool.unpinFrame frame).disk
    rw [unpinned.disk_eq]
    exact DiskManager.SameFile.refl _
  · rw [← unpinned.pageTable_eq]
    rfl
  · rw [← unpinned.freeList_eq]
    rfl

theorem readFrame_ok {pool after : BufferPool} {frame pageId result : Nat}
    (read : pool.readFrame frame pageId = (.ok result, after)) :
    result = frame ∧ ∃ page, Loaded pool frame pageId page after := by
  have same := pool.disk.sameFile_readPage pageId
  unfold readFrame at read
  generalize answer : pool.disk.readPage pageId = answered at read same
  obtain ⟨status | page, disk⟩ := answered
  · dsimp only at read
    cases read
  obtain ⟨pageId_eq, addressable, image, stored, related⟩ := DiskManager.readPage_ok answer
  obtain ⟨outcome, rfl⟩ := Prod.mk.inj read
  cases outcome
  obtain ⟨samePins, hand⟩ := pool.replacer.recordAccess_spec frame
  exact ⟨rfl, page, rfl, same, pageId_eq, addressable,
    ⟨image, stored, related⟩, rfl, rfl, rfl, samePins, hand⟩

theorem readFrame_error {pool after : BufferPool} {frame pageId : Nat} {status : Status}
    (read : pool.readFrame frame pageId = (.error status, after)) :
    status ≠ .internalError ∧ Abandoned pool frame pageId after := by
  have same := pool.disk.sameFile_readPage pageId
  unfold readFrame at read
  generalize answer : pool.disk.readPage pageId = answered at read same
  obtain ⟨failure | page, disk⟩ := answered
  · dsimp only at read
    obtain ⟨outcome, rfl⟩ := Prod.mk.inj read
    cases outcome
    refine ⟨DiskManager.readPage_error answer, ?_⟩
    obtain ⟨frames, sameFile, size, table, free, numFrames, hand, pins⟩ := abandonFetch_abandoned ({
      pool with
          disk := disk
          trace := pool.trace ++ [PoolIo.readPage pageId] } : BufferPool)
        frame pageId
    have sameDisk : (({ pool with
        disk := disk
        trace := pool.trace ++ [PoolIo.readPage pageId] } :
          BufferPool).abandonFetch frame pageId).disk = disk := by
      exact (unpinFrame_unpinned _ frame).disk_eq
    exact ⟨frames, by rw [sameDisk]; exact same, size, table, free, numFrames, hand, pins⟩
  · dsimp only at read
    cases read

end BufferPool

end KlyroDB
