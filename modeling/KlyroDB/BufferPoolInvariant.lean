import KlyroDB.BufferPool
import Mathlib.Data.List.Perm.Basic
import Mathlib.Data.Option.Basic

/-!
# The invariant of the buffer pool

A run of the pool keeps the handles that are held, the fetches between their
two sections and the plain map that the calls should act on.  A failed fetch
may leave a free frame that holds the only current copy of a page.
-/

namespace KlyroDB

/-- A handle points to a frame.  The page it was returned for is kept to say
what the handle stands for. -/
structure PageHandle where
  frame : Nat
  pageId : Nat
  deriving DecidableEq, Repr

structure PoolRun where
  pool : BufferPool
  held : List PageHandle
  pending : List PageHandle
  map : Nat → Option PageImage

namespace PoolRun

section Frames

variable (run : PoolRun) (frame : Nat)

def Unclaimed : Prop := ∀ entry ∈ run.pending, entry.frame ≠ frame

structure Settled : Prop where
  bound : frame < run.pool.poolSize
  valid : (run.pool.frames frame).isValid = true
  notFree : frame ∉ run.pool.freeList
  unclaimed : run.Unclaimed frame

structure Dirty : Prop where
  bound : frame < run.pool.poolSize
  dirty : run.pool.isDirtyFrame frame = true

def Active : Prop := run.Dirty frame ∨ run.Settled frame

structure PlacedFrame (disk : DiskManager) (frame : BufferFrame) : Prop where
  page_id : frame.page.id = frame.pageId
  addressable : disk.Addressable frame.pageId
  exists_ : frame.pageId < disk.nextPageId
  length_eq : frame.page.image.data.length = disk.pageSize

def ShowsMap (map : Nat → Option PageImage) (frame : BufferFrame) : Prop :=
  ∃ image, map frame.pageId = some image ∧ PageImage.SameUpToChecksum frame.page.image image

end Frames

structure Invariant (run : PoolRun) : Prop where
  aligned : run.pool.disk.Aligned
  numFrames_eq : run.pool.replacer.numFrames = run.pool.poolSize
  onClock : run.pool.replacer.clockHand < run.pool.poolSize
  placed : ∀ frame, frame < run.pool.poolSize → (run.pool.frames frame).isValid = true → PlacedFrame
    run.pool.disk (run.pool.frames frame)
  table_cases : ∀ pageId frame, run.pool.pageTable.lookup pageId = some frame → ⟨frame, pageId⟩ ∈
    run.pending ∨ run.Settled frame ∧ (run.pool.frames frame).pageId = pageId
  settled_table : ∀ frame, run.Settled frame →
    run.pool.pageTable.lookup (run.pool.frames frame).pageId = some frame
  free_nodup : run.pool.freeList.Nodup
  free_lt : ∀ frame ∈ run.pool.freeList, frame < run.pool.poolSize
  free_unclaimed : ∀ frame ∈ run.pool.freeList, run.Unclaimed frame
  pending_nodup : (run.pending.map PageHandle.frame).Nodup
  pending_lt : ∀ entry ∈ run.pending, entry.frame < run.pool.poolSize
  pending_table : ∀ entry ∈ run.pending, run.pool.pageTable.lookup entry.pageId = some entry.frame
  pending_clear : ∀ entry ∈ run.pending, ∀ frame, run.Dirty frame →
    frame ≠ entry.frame → (run.pool.frames frame).pageId ≠ entry.pageId
  active_unique : ∀ first second, run.Active first → run.Active second →
    (run.pool.frames first).pageId = (run.pool.frames second).pageId → first = second
  shows : ∀ frame, run.Active frame → ShowsMap run.map (run.pool.frames frame)
  disk_shows : ∀ pageId, (∀ frame, run.Dirty frame → (run.pool.frames frame).pageId ≠ pageId) →
    Option.Rel PageImage.SameUpToChecksum (run.pool.disk.stored pageId) (run.map pageId)
  pinCount_eq : ∀ frame, (run.pool.frames frame).pinCount =
    (run.held.countP fun handle => handle.frame = frame) +
      run.pending.countP fun entry => entry.frame = frame
  pinned : ∀ frame, frame < run.pool.poolSize → 0 < (run.pool.frames frame).pinCount →
    (run.pool.replacer.frames frame).isPinned = true
  held_settled : ∀ handle ∈ run.held, run.Settled handle.frame ∧
    (run.pool.frames handle.frame).pageId = handle.pageId

theorem PlacedFrame.congr {disk after : DiskManager} {frame : BufferFrame}
    (placed : PlacedFrame disk frame)
    (sameSize : after.pageSize = disk.pageSize)
    (sameOpen : after.isOpen = disk.isOpen)
    (next : disk.nextPageId ≤ after.nextPageId) : PlacedFrame after frame where
  page_id := placed.page_id
  addressable := placed.addressable.congr sameSize sameOpen
  exists_ := lt_of_lt_of_le placed.exists_ next
  length_eq := placed.length_eq.trans sameSize.symm

theorem PlacedFrame.flushed {disk : DiskManager} {frame : BufferFrame}
    (placed : PlacedFrame disk frame) (written : Bool) :
    PlacedFrame disk (frame.flushed written) where
  page_id := placed.page_id
  addressable := placed.addressable
  exists_ := placed.exists_
  length_eq := (DiskManager.length_storedPage _ _).trans placed.length_eq

section

variable {run : PoolRun} {frame : Nat}

theorem settled_iff : run.Settled frame ↔ frame < run.pool.poolSize ∧
    (run.pool.frames frame).isValid = true ∧ frame ∉ run.pool.freeList ∧ run.Unclaimed frame :=
  ⟨fun ⟨bound, valid, notFree, unclaimed⟩ => ⟨bound, valid, notFree, unclaimed⟩,
    fun ⟨bound, valid, notFree, unclaimed⟩ => ⟨bound, valid, notFree, unclaimed⟩⟩

theorem Dirty.valid (dirty : run.Dirty frame) : (run.pool.frames frame).isValid = true := by
  have both := dirty.dirty
  rw [BufferPool.isDirtyFrame, Bool.and_eq_true] at both
  exact both.1

theorem Dirty.isDirty (dirty : run.Dirty frame) : (run.pool.frames frame).isDirty = true := by
  have both := dirty.dirty
  rw [BufferPool.isDirtyFrame, Bool.and_eq_true] at both
  exact both.2

theorem dirty_iff :
    run.Dirty frame ↔ frame < run.pool.poolSize ∧
      (run.pool.frames frame).isValid = true ∧ (run.pool.frames frame).isDirty = true := by
  constructor
  · intro dirty
    exact ⟨dirty.bound, dirty.valid, dirty.isDirty⟩
  · rintro ⟨bound, valid, dirty⟩
    exact ⟨bound, by rw [BufferPool.isDirtyFrame, valid, dirty]; rfl⟩

end

section Invariant

variable {run : PoolRun} (invariant : Invariant run)
include invariant

theorem Invariant.unpinned {frame : Nat} (free : (run.pool.frames frame).pinCount = 0) :
    (∀ handle ∈ run.held, handle.frame ≠ frame) ∧ run.Unclaimed frame := by
  have counts := invariant.pinCount_eq frame
  have heldNone : run.held.countP (fun handle => handle.frame = frame) = 0 := by omega
  have pendingNone : run.pending.countP (fun entry => entry.frame = frame) = 0 := by omega
  rw [List.countP_eq_zero] at heldNone pendingNone
  exact ⟨fun handle mem here => heldNone handle mem (decide_eq_true here),
    fun entry mem here => pendingNone entry mem (decide_eq_true here)⟩

theorem Invariant.pinCount_of_free {frame : Nat} (free : frame ∈ run.pool.freeList) :
    (run.pool.frames frame).pinCount = 0 := by
  rw [invariant.pinCount_eq, Nat.add_eq_zero_iff, List.countP_eq_zero, List.countP_eq_zero]
  constructor
  · intro handle mem here
    have settled := (invariant.held_settled handle mem).1
    rw [of_decide_eq_true here] at settled
    exact settled.notFree free
  · intro entry mem here
    exact invariant.free_unclaimed frame free entry mem (of_decide_eq_true here)

theorem Invariant.pending_notFree {entry : PageHandle}
    (mem : entry ∈ run.pending) : entry.frame ∉ run.pool.freeList :=
  fun free => invariant.free_unclaimed entry.frame free entry mem rfl

end Invariant

end PoolRun

end KlyroDB
