import KlyroDB.BufferPoolInvariant

/-!
# The transitions of the buffer pool keep the invariant

One lemma for each thing a section of a call can do.  Writes may fail and leave
a torn page on the disk.
-/

namespace KlyroDB

open Function (update_apply update_of_ne update_self)

namespace PoolRun

section Touching

variable {run : PoolRun} {after : BufferPool} {held : List PageHandle}
  {map : Nat → Option PageImage} {frame : Nat} {changed : BufferFrame}

structure Touched (run : PoolRun) (frame : Nat) (changed : BufferFrame)
    (after : BufferPool) : Prop where
  poolSize_eq : after.poolSize = run.pool.poolSize
  pageTable_eq : after.pageTable = run.pool.pageTable
  freeList_eq : after.freeList = run.pool.freeList
  frames_eq : after.frames = Function.update run.pool.frames frame changed
  sameValid : changed.isValid = (run.pool.frames frame).isValid
  samePage : changed.pageId = (run.pool.frames frame).pageId

theorem field_update {α : Type} (field : BufferFrame → α) {frames : Nat → BufferFrame}
    (same : field changed = field (frames frame)) (other : Nat) :
    field (Function.update frames frame changed other) = field (frames other) := by
  rw [update_apply]
  split_ifs with here
  · rw [here, same]
  · rfl

section

variable (touched : Touched run frame changed after) (other : Nat)

include touched other

theorem Touched.isValid_eq : (after.frames other).isValid = (run.pool.frames other).isValid := by
  rw [touched.frames_eq]
  exact field_update BufferFrame.isValid touched.sameValid other

theorem Touched.pageId_eq : (after.frames other).pageId = (run.pool.frames other).pageId := by
  rw [touched.frames_eq]
  exact field_update BufferFrame.pageId touched.samePage other

theorem Touched.settled_iff :
    (⟨after, held, run.pending, map⟩ : PoolRun).Settled other ↔ run.Settled other := by
  rw [PoolRun.settled_iff, PoolRun.settled_iff]
  rw [touched.poolSize_eq, touched.isValid_eq, touched.freeList_eq]
  rfl

end

/-- The clock and the pins are right for the handles `held`. -/
structure PinsRight (run : PoolRun) (after : BufferPool) (held : List PageHandle) : Prop where
  numFrames : after.replacer.numFrames = run.pool.replacer.numFrames
  onClock : after.replacer.clockHand < run.pool.poolSize
  pinCounts : ∀ other, (after.frames other).pinCount =
    (held.countP fun handle => handle.frame = other) +
      run.pending.countP fun entry => entry.frame = other
  pinned : ∀ other, other < run.pool.poolSize → 0 < (after.frames other).pinCount →
    (after.replacer.frames other).isPinned = true
  heldSettled : ∀ handle ∈ held, run.Settled handle.frame ∧
    (run.pool.frames handle.frame).pageId = handle.pageId

theorem PinsRight.of_same (invariant : Invariant run) (touched : Touched run frame changed after)
    (replacer : after.replacer = run.pool.replacer)
    (pins : changed.pinCount = (run.pool.frames frame).pinCount) :
    PinsRight run after run.held := by
  have same := field_update BufferFrame.pinCount pins
  rw [← touched.frames_eq] at same
  refine ⟨by rw [replacer], by rw [replacer]; exact invariant.onClock, ?_, ?_,
    invariant.held_settled⟩
  · intro other
    exact (same other).trans (invariant.pinCount_eq other)
  · intro other bound positive
    rw [same] at positive
    rw [replacer]
    exact invariant.pinned other bound positive

/-- A frame changes; it gets dirty only when it is settled. -/
theorem Invariant.touched (invariant : Invariant run) (touched : Touched run frame changed after)
    (aligned : after.disk.Aligned)
    (placed : ∀ other, other < run.pool.poolSize → (run.pool.frames other).isValid = true →
      PlacedFrame after.disk (after.frames other))
    (dirty : ∀ other, (⟨after, held, run.pending, map⟩ : PoolRun).Dirty other →
      run.Dirty other ∨ run.Settled other) (shows : ∀ other,
      (⟨after, held, run.pending, map⟩ : PoolRun).Active other →
      ShowsMap map (after.frames other)) (diskShows : ∀ pageId,
      (∀ other, (⟨after, held, run.pending, map⟩ : PoolRun).Dirty other →
        (run.pool.frames other).pageId ≠ pageId) →
      Option.Rel PageImage.SameUpToChecksum (after.disk.stored pageId) (map pageId))
    (pins : PinsRight run after held) : Invariant ⟨after, held, run.pending, map⟩ := by
  have valids := touched.isValid_eq
  have pages := touched.pageId_eq
  have settled := fun other =>
    @Touched.settled_iff run after held map frame changed touched other
  have active : ∀ other, (⟨after, held, run.pending, map⟩ : PoolRun).Active other → run.Active other
      := by
    intro other now
    rcases now with nowDirty | nowSettled
    · exact dirty other nowDirty
    · exact Or.inr ((settled other).mp nowSettled)
  obtain ⟨poolSize, frames, replacer, pageTable, freeList, disk, hasWal, trace⟩ := after
  obtain ⟨rfl, rfl, rfl, -, -, -⟩ := touched
  dsimp only at valids pages
  constructor
  case aligned => exact aligned
  case numFrames_eq => exact pins.numFrames.trans invariant.numFrames_eq
  case onClock => exact pins.onClock
  case placed =>
    intro other bound valid
    exact placed other bound ((valids other).symm.trans valid)
  case table_cases =>
    intro pageId found here
    simpa only [settled, pages] using invariant.table_cases pageId found here
  case settled_table =>
    intro other now
    have here := invariant.settled_table other ((settled other).mp now)
    rwa [← pages] at here
  case free_nodup => exact invariant.free_nodup
  case free_lt => exact invariant.free_lt
  case free_unclaimed => exact invariant.free_unclaimed
  case pending_nodup => exact invariant.pending_nodup
  case pending_lt => exact invariant.pending_lt
  case pending_table => exact invariant.pending_table
  case pending_clear =>
    intro entry mem other nowDirty ne
    apply (pages other).trans_ne
    rcases dirty other nowDirty with wasDirty | wasSettled
    · exact invariant.pending_clear entry mem other wasDirty ne
    · intro same
      have own := invariant.settled_table other wasSettled
      rw [same, invariant.pending_table entry mem] at own
      exact ne (Option.some.inj own).symm
  case active_unique =>
    intro first second firstNow secondNow same
    simp only [pages] at same
    exact invariant.active_unique first second (active first firstNow)
      (active second secondNow) same
  case shows => exact shows
  case disk_shows =>
    intro pageId clear
    simp only [pages] at clear
    exact diskShows pageId clear
  case pinCount_eq => exact pins.pinCounts
  case pinned => exact pins.pinned
  case held_settled =>
    intro handle mem
    simpa only [settled, pages] using pins.heldSettled handle mem

theorem Invariant.flushed (invariant : Invariant run)
    {status : Option Status} (wasDirty : run.Dirty frame)
    (flush : BufferPool.Flushed run.pool frame status after) :
    Invariant ⟨after, run.held, run.pending, run.map⟩ := by
  have placed := invariant.placed frame wasDirty.bound wasDirty.valid
  obtain ⟨image, write, whole⟩ := flush.written
  rw [placed.page_id] at write
  have touched : Touched run frame ((run.pool.frames frame).flushed status.isNone) after :=
      ⟨flush.poolSize_eq, flush.pageTable_eq, flush.freeList_eq, flush.frames_eq, rfl, rfl⟩
  have stillDirty : ∀ other, (⟨after, run.held, run.pending, run.map⟩ : PoolRun).Dirty other ↔
      run.Dirty other ∧ (other = frame → status ≠ none) := by
    intro other
    rw [dirty_iff, dirty_iff]
    rw [flush.poolSize_eq, flush.frames_eq]
    by_cases same : other = frame
    · subst same
      cases status with
      | none | some failure => simp [BufferFrame.flushed]
    · rw [update_of_ne same]
      simp [same]
  refine invariant.touched touched write.aligned ?_ ?_ ?_ ?_
    (PinsRight.of_same invariant touched flush.replacer_eq rfl)
  · intro other bound valid
    rw [flush.frames_eq, update_apply]
    split_ifs
    · exact (placed.flushed _).congr write.pageSize_eq write.isOpen_eq (le_of_eq flush.next_eq.symm)
    · exact (invariant.placed other bound valid).congr write.pageSize_eq
        write.isOpen_eq (le_of_eq flush.next_eq.symm)
  · intro other now
    exact Or.inl ((stillDirty other).mp now).1
  · intro other now
    have was : run.Active other := by
      rcases now with nowDirty | nowSettled
      · exact Or.inl ((stillDirty other).mp nowDirty).1
      · exact Or.inr ((touched.settled_iff other).mp nowSettled)
    obtain ⟨shown, inMap, same⟩ := invariant.shows other was
    rw [flush.frames_eq]
    by_cases here : other = frame
    · subst here
      rw [update_self]
      exact ⟨shown, inMap, same.storedPage _⟩
    · rw [update_of_ne here]
      exact ⟨shown, inMap, same⟩
  · intro pageId clear
    rw [write.stored_eq]
    by_cases own : pageId = (run.pool.frames frame).pageId
    · subst own
      have done : status = none := by
        by_contra failed
        exact clear frame ((stillDirty frame).mpr ⟨wasDirty, fun _ => failed⟩) rfl
      obtain ⟨shown, inMap, same⟩ := invariant.shows frame (Or.inl wasDirty)
      rw [update_self, whole done, inMap]
      exact Option.Rel.some (same.storedPage _)
    rw [update_of_ne own]
    apply invariant.disk_shows
    intro other dirty
    by_cases same : other = frame
    · subst same
      exact Ne.symm own
    · exact clear other ((stillDirty other).mpr ⟨dirty, fun here => absurd here same⟩)

structure SamePages (pool after : BufferPool) : Prop where
  poolSize_eq : after.poolSize = pool.poolSize
  isValid_eq : ∀ frame, (after.frames frame).isValid = (pool.frames frame).isValid
  isDirty_eq : ∀ frame, (after.frames frame).isDirty = (pool.frames frame).isDirty
  pageId_eq : ∀ frame, (after.frames frame).pageId = (pool.frames frame).pageId
  page_eq : ∀ frame, (after.frames frame).page = (pool.frames frame).page

theorem samePages_of_update {pool after : BufferPool} {count : Nat}
    (size : after.poolSize = pool.poolSize)
    (frames : after.frames = Function.update pool.frames frame
      { pool.frames frame with pinCount := count }) :
    SamePages pool after := by
  refine ⟨size, ?_, ?_, ?_, ?_⟩
  all_goals rw [frames]
  · exact field_update BufferFrame.isValid rfl
  · exact field_update BufferFrame.isDirty rfl
  · exact field_update BufferFrame.pageId rfl
  · exact field_update BufferFrame.page rfl

theorem SamePages.dirty_iff (same : SamePages run.pool after)
    {pending : List PageHandle} (other : Nat) :
    (⟨after, held, pending, map⟩ : PoolRun).Dirty other ↔ run.Dirty other := by
  rw [PoolRun.dirty_iff, PoolRun.dirty_iff]
  rw [same.poolSize_eq, same.isValid_eq, same.isDirty_eq]

theorem SamePages.showsMap_iff {pool : BufferPool} (same : SamePages pool after) (other : Nat) :
    ShowsMap map (after.frames other) ↔ ShowsMap map (pool.frames other) := by
  rw [ShowsMap, ShowsMap, same.pageId_eq, same.page_eq]

theorem SamePages.placedFrame {pool : BufferPool} (same : SamePages pool after)
    {disk : DiskManager} {other : Nat} (placed : PlacedFrame disk (pool.frames other)) :
    PlacedFrame disk (after.frames other) := by
  refine ⟨?_, ?_, ?_, ?_⟩
  · rw [same.page_eq, same.pageId_eq]
    exact placed.page_id
  · rw [same.pageId_eq]
    exact placed.addressable
  · rw [same.pageId_eq]
    exact placed.exists_
  · rw [same.page_eq]
    exact placed.length_eq

theorem Invariant.contents (inv : Invariant run) {now : PoolRun}
    (same : SamePages run.pool now.pool)
    (file : DiskManager.SameFile run.pool.disk now.pool.disk) (map : now.map = run.map)
    (settled : ∀ other, now.Settled other → run.Settled other) :
    (∀ other, other < now.pool.poolSize → (now.pool.frames other).isValid = true →
        PlacedFrame now.pool.disk (now.pool.frames other)) ∧
      (∀ first second, now.Active first → now.Active second →
        (now.pool.frames first).pageId = (now.pool.frames second).pageId → first = second) ∧
      (∀ other, now.Active other → ShowsMap now.map (now.pool.frames other)) ∧
      ∀ pageId, (∀ other, now.Dirty other → (now.pool.frames other).pageId ≠ pageId) →
        Option.Rel PageImage.SameUpToChecksum (now.pool.disk.stored pageId) (now.map pageId) := by
  have dirty (other : Nat) : now.Dirty other ↔ run.Dirty other := same.dirty_iff other
  have active (other : Nat) (active : now.Active other) : run.Active other :=
    active.imp (dirty other).mp (settled other)
  rw [map]
  refine ⟨?_, ?_, ?_, ?_⟩
  · intro other bound valid
    rw [same.poolSize_eq] at bound
    rw [same.isValid_eq] at valid
    exact same.placedFrame ((inv.placed other bound valid).congr file.pageSize_eq file.isOpen_eq
      (le_of_eq file.nextPageId_eq.symm))
  · intro first second firstNow secondNow equal
    rw [same.pageId_eq, same.pageId_eq] at equal
    exact inv.active_unique first second (active first firstNow) (active second secondNow) equal
  · intro other now
    exact (same.showsMap_iff other).mpr (inv.shows other (active other now))
  · intro pageId clear
    rw [file.stored_eq]
    apply inv.disk_shows
    intro other wasDirty
    rw [← same.pageId_eq]
    exact clear other ((dirty other).mpr wasDirty)

section

variable (invariant : Invariant run)

include invariant

theorem Invariant.repinned {count : Nat} (touched : Touched run frame
      { run.pool.frames frame with pinCount := count } after)
    (sameDisk : after.disk = run.pool.disk) (pins : PinsRight run after held) :
    Invariant ⟨after, held, run.pending, run.map⟩ := by
  have same := samePages_of_update touched.poolSize_eq touched.frames_eq
  obtain ⟨placed, -, shows, diskShows⟩ :=
    @Invariant.contents run invariant ⟨after, held, run.pending, run.map⟩ same
      (by rw [sameDisk]; exact DiskManager.SameFile.refl _) rfl
      fun other => (touched.settled_iff other).mp
  refine invariant.touched touched (by rw [sameDisk]; exact invariant.aligned) ?_ ?_ shows ?_ pins
  · intro other bound valid
    exact placed other (same.poolSize_eq ▸ bound) ((same.isValid_eq other).trans valid)
  · intro other now
    exact Or.inl ((same.dirty_iff other).mp now)
  · simpa only [same.pageId_eq] using diskShows

theorem Invariant.hit {pageId : Nat} (found : run.pool.pageTable.lookup pageId = some frame)
    (loaded : ⟨frame, pageId⟩ ∉ run.pending) :
    let pinned := run.pool.pinFrame frame
    Invariant
      ⟨{ pinned with replacer := pinned.replacer.recordAccess frame },
        ⟨frame, pageId⟩ :: run.held, run.pending, run.map⟩ := by
  intro pinned
  obtain ⟨settled, page⟩ := (invariant.table_cases pageId frame found).resolve_left loaded
  have pins := ClockReplacer.pinsAlso_pin run.pool.replacer frame
  obtain ⟨samePins, hand⟩ := pinned.replacer.recordAccess_spec frame
  have frames : pinned.frames = Function.update run.pool.frames frame { run.pool.frames frame with
        pinCount := (run.pool.frames frame).pinCount + 1 } := rfl
  refine invariant.repinned ⟨rfl, rfl, rfl, frames, rfl, rfl⟩ rfl
    ⟨samePins.1.trans pins.numFrames_eq, ?_, ?_, ?_, ?_⟩
  · change (pinned.replacer.recordAccess frame).clockHand < _
    rw [hand, ← invariant.numFrames_eq, ← pins.numFrames_eq]
    apply pins.onClock
    rw [invariant.numFrames_eq]
    exact invariant.onClock
  · intro other
    have count := invariant.pinCount_eq other
    rw [frames, List.countP_cons]
    by_cases same : other = frame
    · subst same
      rw [update_self]
      simp only [decide_true, if_true]
      omega
    · rw [update_of_ne same, count]
      simp [Ne.symm same]
  · intro other bound positive
    refine (samePins.2 other).trans ?_
    by_cases same : other = frame
    · subst same
      apply pins.pinned
      rw [invariant.numFrames_eq]
      exact bound
    · rw [frames, update_of_ne same] at positive
      exact (pins.others other same).trans (invariant.pinned other bound positive)
  · intro handle mem
    rcases List.mem_cons.mp mem with rfl | old
    · exact ⟨settled, page⟩
    · exact invariant.held_settled handle old

theorem Invariant.drop {index : Nat} {handle : PageHandle} (here : run.held[index]? = some handle) :
    Invariant ⟨run.pool.unpinFrame handle.frame, run.held.eraseIdx index,
      run.pending, run.map⟩ := by
  obtain ⟨inside, entry⟩ := List.getElem?_eq_some_iff.mp here
  have permuted := List.getElem_cons_eraseIdx_perm inside
  rw [entry] at permuted
  have dropped := run.pool.unpinFrame_unpinned handle.frame
  refine invariant.repinned ⟨dropped.poolSize_eq, dropped.pageTable_eq, dropped.freeList_eq,
    dropped.frames_eq, rfl, rfl⟩ dropped.disk_eq ⟨dropped.numFrames_eq,
    by rw [dropped.clockHand_eq]; exact invariant.onClock, ?_, ?_, ?_⟩
  · intro other
    have count := invariant.pinCount_eq other
    rw [← permuted.countP_eq, List.countP_cons] at count
    rw [dropped.frames_eq]
    by_cases same : other = handle.frame
    · subst same
      rw [update_self]
      simp only [decide_true, if_true] at count
      dsimp only
      omega
    · rw [update_of_ne same]
      simp only [decide_eq_true_eq, Ne.symm same, if_false] at count
      omega
  · intro other bound positive
    rw [dropped.keepsPins other positive]
    apply invariant.pinned other bound
    rw [dropped.frames_eq, update_apply] at positive
    split_ifs at positive with same
    · rw [same]
      dsimp only at positive
      omega
    · exact positive
  · intro other kept
    exact invariant.held_settled other (List.mem_of_mem_eraseIdx kept)

theorem Invariant.mutate {handle : PageHandle} (mem : handle ∈ run.held) (offset : Nat)
    (bytes : List UInt8) :
    Invariant ⟨run.pool.mutate handle.frame offset bytes, run.held, run.pending,
      Function.update run.map handle.pageId
        ((run.map handle.pageId).map (·.poke offset bytes))⟩ := by
  obtain ⟨settled, page⟩ := invariant.held_settled handle mem
  have placed := invariant.placed handle.frame settled.bound settled.valid
  have touched : Touched run handle.frame { run.pool.frames handle.frame with
        isDirty := true
        page := { (run.pool.frames handle.frame).page with
            image := (run.pool.frames handle.frame).page.image.poke offset bytes } }
      (run.pool.mutate handle.frame offset bytes) :=
    ⟨rfl, rfl, rfl, rfl, rfl, rfl⟩
  have wasDirty : ∀ other, (⟨run.pool.mutate handle.frame offset bytes, run.held, run.pending,
      Function.update run.map handle.pageId ((run.map handle.pageId).map (·.poke offset bytes))⟩ :
      PoolRun).Dirty other → run.Dirty other ∨ other = handle.frame := by
    intro other now
    by_cases same : other = handle.frame
    · exact Or.inr same
    left
    rw [dirty_iff] at now ⊢
    rw [touched.frames_eq, update_of_ne same] at now
    exact now
  refine invariant.touched touched invariant.aligned ?_ ?_ ?_ ?_
    (PinsRight.of_same invariant touched rfl rfl)
  · intro other bound valid
    rw [touched.frames_eq, update_apply]
    split_ifs
    · refine ⟨placed.page_id, placed.addressable, placed.exists_, ?_⟩
      change (ByteMemory.poke _ offset bytes).length = _
      rw [ByteMemory.length_poke]
      exact placed.length_eq
    · exact invariant.placed other bound valid
  · intro other now
    rcases wasDirty other now with dirty | rfl
    · exact Or.inl dirty
    · exact Or.inr settled
  · intro other now
    rw [touched.frames_eq]
    by_cases same : other = handle.frame
    · subst same
      obtain ⟨image, here, related⟩ := invariant.shows handle.frame (Or.inr settled)
      rw [update_self]
      refine ⟨image.poke offset bytes, ?_, related.poke offset bytes⟩
      rw [page, update_self, ← page, here]
      rfl
    have active : run.Active other := by
      rcases now with nowDirty | nowSettled
      · exact Or.inl ((wasDirty other nowDirty).resolve_right same)
      · exact Or.inr ((touched.settled_iff other).mp nowSettled)
    have otherPage : (run.pool.frames other).pageId ≠ handle.pageId := by
      rw [← page]
      intro equal
      exact same (invariant.active_unique other handle.frame active (Or.inr settled) equal)
    rw [update_of_ne same]
    obtain ⟨image, here, related⟩ := invariant.shows other active
    exact ⟨image, (update_of_ne otherPage _ _).trans here, related⟩
  · intro pageId clear
    have own : handle.pageId ≠ pageId := by
      rw [← page]
      apply clear
      rw [dirty_iff]
      rw [touched.frames_eq, update_self]
      exact ⟨settled.bound, settled.valid, rfl⟩
    rw [update_of_ne (Ne.symm own)]
    apply invariant.disk_shows
    intro other dirty
    by_cases same : other = handle.frame
    · subst same
      rw [page]
      exact own
    apply clear
    rw [dirty_iff] at dirty ⊢
    rw [touched.frames_eq, update_of_ne same]
    exact dirty

end

end Touching

end PoolRun

end KlyroDB
