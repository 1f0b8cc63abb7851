import KlyroDB.BufferPoolFetch

/-!
# The buffer pool refines a map from pages to contents

The calls of one client after another keep the invariant, whatever fails.  When
no call fails, the pool always shows the map.
-/

namespace KlyroDB

open Function (update_of_ne update_self)

inductive PoolEvent
  | fetchPage (pageId : Nat)
  | allocatePage
  | flushPage (pageId : Nat)
  | flushAll (enumeration : Enumeration)
  | mutate (handle offset : Nat) (bytes : List UInt8)
  | drop (handle : Nat)

namespace PoolRun

def start (poolSize : Nat) (disk : DiskManager) (hasWal : Bool) : PoolRun where
  pool := BufferPool.create poolSize disk hasWal
  held := []
  pending := []
  map := disk.stored

/-- The pages that exist after an allocation on the disk: a fresh page is
empty. -/
def allocatedMap (disk : DiskManager) (map : Nat → Option PageImage) : Nat → Option PageImage :=
  match disk.freePages with
  | _ :: _ => map
  | [] => Function.update map disk.nextPageId (some (disk.emptyPage disk.nextPageId).image)

/-- One call: the status it returns, where success is `none`, and the new
state. -/
def step (run : PoolRun) : PoolEvent → Option Status × PoolRun
  | .fetchPage pageId =>
      match run.pool.fetchPage pageId with
      | (.ok frame, pool) =>
          (none, { run with pool := pool, held := ⟨frame, pageId⟩ :: run.held })
      | (.error status, pool) => (some status, { run with pool := pool })
  | .allocatePage =>
      let map := allocatedMap run.pool.disk run.map
      match run.pool.allocatePage with
      | (.ok (pageId, frame), pool) => (none, ⟨pool, ⟨frame, pageId⟩ :: run.held, run.pending, map⟩)
      | (.error status, pool) => (some status, ⟨pool, run.held, run.pending, map⟩)
  | .flushPage pageId =>
      let result := run.pool.flushPage pageId
      (result.1, { run with pool := result.2 })
  | .flushAll enumeration =>
      let result := run.pool.flushAll enumeration
      (result.1, { run with pool := result.2 })
  | .mutate handle offset bytes =>
      match run.held[handle]? with
      | none => (none, run)
      | some held =>
          (none,
            { run with
              pool := run.pool.mutate held.frame offset bytes
              map := Function.update run.map held.pageId
                ((run.map held.pageId).map (·.poke offset bytes)) })
  | .drop handle =>
      match run.held[handle]? with
      | none => (none, run)
      | some held =>
          (none,
            { run with
              pool := run.pool.unpinFrame held.frame
              held := run.held.eraseIdx handle })

def run (start : PoolRun) (events : List PoolEvent) : PoolRun :=
  events.foldl (fun run event => (run.step event).2) start

/-- No call of the run fails, except for want of a frame. -/
def NoDiskError : PoolRun → List PoolEvent → Prop
  | _, [] => True
  | run, event :: events => ((run.step event).1 = none ∨ (run.step event).1 = some .internalError) ∧
      NoDiskError (run.step event).2 events

/-- Between calls no fetch is pending, and a frame that a failed fetch left on
the free list with a page in it is the only free one. -/
structure Sequential (run : PoolRun) : Prop where
  invariant : Invariant run
  pending_eq : run.pending = []
  stale : ∀ frame ∈ run.pool.freeList, (run.pool.frames frame).isValid = true → run.pool.freeList =
    [frame] ∧ run.pool.pageTable.lookup (run.pool.frames frame).pageId = none

/-- A frame with pins keeps its page. -/
def KeepsPinned (before after : BufferPool) : Prop :=
  ∀ frame, 0 < (before.frames frame).pinCount →
    (after.frames frame).isValid = (before.frames frame).isValid ∧
      (after.frames frame).pageId = (before.frames frame).pageId

theorem KeepsPinned.refl (pool : BufferPool) : KeepsPinned pool pool :=
  fun _ _ => ⟨rfl, rfl⟩

structure SamePlaces (pool after : BufferPool) : Prop where
  freeList_eq : after.freeList = pool.freeList
  pageTable_eq : after.pageTable = pool.pageTable
  isValid_eq : ∀ frame, (after.frames frame).isValid = (pool.frames frame).isValid
  pageId_eq : ∀ frame, (after.frames frame).pageId = (pool.frames frame).pageId

theorem SamePlaces.refl (pool : BufferPool) : SamePlaces pool pool :=
  ⟨rfl, rfl, fun _ => rfl, fun _ => rfl⟩

theorem SamePlaces.trans {first second third : BufferPool}
    (left : SamePlaces first second) (right : SamePlaces second third) :
    SamePlaces first third where
  freeList_eq := right.freeList_eq.trans left.freeList_eq
  pageTable_eq := right.pageTable_eq.trans left.pageTable_eq
  isValid_eq := fun frame =>
    (right.isValid_eq frame).trans (left.isValid_eq frame)
  pageId_eq := fun frame => (right.pageId_eq frame).trans (left.pageId_eq frame)

theorem SamePlaces.keepsPinned {pool after : BufferPool}
    (same : SamePlaces pool after) : KeepsPinned pool after :=
  fun frame _ => ⟨same.isValid_eq frame, same.pageId_eq frame⟩

theorem Touched.samePlaces {run : PoolRun} {frame : Nat}
    {changed : BufferFrame} {after : BufferPool} (touched : Touched run frame changed after) :
    SamePlaces run.pool after :=
  ⟨touched.freeList_eq, touched.pageTable_eq, touched.isValid_eq, touched.pageId_eq⟩

theorem Sequential.of_samePlaces {run after : PoolRun}
    (sequential : Sequential run) (inv : Invariant after)
    (pending : after.pending = run.pending)
    (same : SamePlaces run.pool after.pool) : Sequential after := by
  refine ⟨inv, pending.trans sequential.pending_eq, ?_⟩
  intro frame free valid
  rw [same.freeList_eq] at free ⊢
  rw [same.isValid_eq] at valid
  rw [same.pageTable_eq, same.pageId_eq]
  exact sequential.stale frame free valid

theorem Sequential.start {poolSize : Nat} (positive : 1 ≤ poolSize)
    {disk : DiskManager} (aligned : disk.Aligned) (hasWal : Bool) :
    Sequential (PoolRun.start poolSize disk hasWal) where
  pending_eq := rfl
  stale := by
    intro frame _ valid
    exact absurd valid Bool.false_ne_true
  invariant := by
    have invalid : ∀ frame,
        ((PoolRun.start poolSize disk hasWal).pool.frames frame).isValid ≠
          true :=
      fun _ => Bool.false_ne_true
    have inactive : ∀ frame, ¬ (PoolRun.start poolSize disk hasWal).Active frame := by
      rintro frame (dirty | settled)
      · exact invalid frame dirty.valid
      · exact invalid frame settled.valid
    constructor
    case aligned => exact aligned
    case numFrames_eq => rfl
    case onClock => exact positive
    case placed =>
      intro frame _ valid
      exact absurd valid (invalid frame)
    case table_cases =>
      intro pageId frame found
      simp [PoolRun.start, BufferPool.create] at found
    case settled_table =>
      intro frame settled
      exact absurd settled.valid (invalid frame)
    case free_nodup => exact List.nodup_range
    case free_lt =>
      intro frame free
      exact List.mem_range.mp free
    case free_unclaimed =>
      intro frame _ entry mem
      contradiction
    case pending_nodup => exact List.nodup_nil
    case pending_lt =>
      intro entry mem
      contradiction
    case pending_table =>
      intro entry mem
      contradiction
    case pending_clear =>
      intro entry mem
      contradiction
    case active_unique =>
      intro first second active
      exact absurd active (inactive first)
    case shows =>
      intro frame active
      exact absurd active (inactive frame)
    case disk_shows =>
      intro pageId _
      change Option.Rel _ (disk.stored pageId) (disk.stored pageId)
      cases disk.stored pageId with
      | none => exact Option.Rel.none
      | some image => exact Option.Rel.some (PageImage.SameUpToChecksum.refl image)
    case pinCount_eq =>
      intro frame
      rfl
    case pinned =>
      intro frame _ positive
      exact absurd positive (lt_irrefl 0)
    case held_settled =>
      intro handle mem
      contradiction

section Fetching

variable {run : PoolRun} {pageId : Nat}

structure FetchKeeps (pool after : BufferPool) : Prop where
  keepsPinned : KeepsPinned pool after
  faults_eq : pool.disk.faults = [] → after.disk.faults = []
  free : ∀ frame ∈ after.freeList, frame ∈ pool.freeList ∧
    (after.frames frame).isValid = (pool.frames frame).isValid

inductive FetchOutcome (run : PoolRun) (pageId : Nat) : Except Status Nat → BufferPool → Prop
  | ok {frame : Nat} {after : BufferPool} (sequential : Sequential ⟨after, ⟨frame, pageId⟩ ::
      run.held, run.pending, run.map⟩) (keeps : FetchKeeps run.pool after) : FetchOutcome run pageId
      (.ok frame) after
  | exhausted {after : BufferPool} (sequential : Sequential ⟨after, run.held, run.pending, run.map⟩)
      (keeps : FetchKeeps run.pool after) : FetchOutcome run pageId (.error .internalError) after
  | failed {after : BufferPool} {status : Status} (disk : status ≠ .internalError) (sequential :
      Sequential ⟨after, run.held, run.pending, run.map⟩) : FetchOutcome run pageId (.error status)
      after

section

variable (sequential : Sequential run)

include sequential

/-- A dirty frame is settled or is the only free one. -/
theorem Sequential.dirty_cases {frame : Nat} (dirty : run.Dirty frame) :
    run.Settled frame ∨ run.pool.freeList = [frame] := by
  by_cases free : frame ∈ run.pool.freeList
  · exact Or.inr (sequential.stale frame free dirty.valid).1
  · refine Or.inl ⟨dirty.bound, dirty.valid, free, ?_⟩
    rw [Unclaimed, sequential.pending_eq]
    intro entry mem
    contradiction

section

variable {frame : Nat} (source : run.pool.freeList.head? = some frame ∨ run.pool.freeList = [])

include source

theorem Sequential.invalid_of_choice {other : Nat} (free : other ∈ run.pool.freeList.erase frame) :
    other ≠ frame ∧ other ∈ run.pool.freeList ∧ (run.pool.frames other).isValid ≠ true := by
  obtain ⟨ne, before⟩ := sequential.invariant.free_nodup.mem_erase_iff.mp free
  refine ⟨ne, before, fun valid => ?_⟩
  have alone := (sequential.stale other before valid).1
  rw [alone] at source
  rcases source with head | none
  · exact ne (Option.some.inj head)
  · contradiction

variable {base after : BufferPool} (choice : Choice run frame pageId base)
  (keeps : LoadKeeps (base.claimFrame frame pageId) frame after)

include choice keeps

theorem Sequential.claimed_ok
    (inv : Invariant ((run.claimed base frame pageId).loaded after frame pageId))
    (free : after.freeList = (base.claimFrame frame pageId).freeList) :
    FetchOutcome run pageId (.ok frame) after := by
  have others : ∀ other, other ≠ frame → after.frames other = run.pool.frames other := by
    intro other ne
    rw [keeps.others other ne, BufferPool.frames_claimFrame, choice.frames_eq, update_of_ne ne]
  rw [BufferPool.freeList_claimFrame, choice.freeList_eq] at free
  have remaining : ∀ other ∈ after.freeList, other ≠ frame ∧ other ∈ run.pool.freeList ∧
      (run.pool.frames other).isValid ≠ true := by
    intro other mem
    rw [free] at mem
    exact sequential.invalid_of_choice source mem
  have pending : (run.claimed base frame pageId).pending.erase
      ⟨frame, pageId⟩ = run.pending := List.erase_cons_head ..
  rw [loaded, pending] at inv
  refine .ok ⟨inv, sequential.pending_eq, ?_⟩ ⟨?_, ?_, ?_⟩
  · intro other mem valid
    obtain ⟨ne, _, invalid⟩ := remaining other mem
    rw [others other ne] at valid
    exact absurd valid invalid
  · intro other positive
    have ne : other ≠ frame := by
      rintro rfl
      rw [choice.unpinned] at positive
      exact absurd positive (lt_irrefl 0)
    rw [others other ne]
    exact ⟨rfl, rfl⟩
  · intro faultless
    apply keeps.faults_eq
    rw [BufferPool.disk_claimFrame, choice.disk_eq]
    exact faultless
  · intro other mem
    obtain ⟨ne, before, _⟩ := remaining other mem
    rw [others other ne]
    exact ⟨before, rfl⟩

/-- The frame that a failed fetch gives up is the only free one with a page,
and its page has left the page table. -/
theorem Sequential.claimed_error {status : Status} (disk : status ≠ .internalError)
    (inv : Invariant ((run.claimed base frame pageId).abandoned after frame pageId))
    (sameValid : (after.frames frame).isValid =
      ((base.claimFrame frame pageId).frames frame).isValid)
    (samePage : (after.frames frame).pageId = ((base.claimFrame frame pageId).frames frame).pageId)
    (table : after.pageTable = (base.claimFrame frame pageId).pageTable.erase pageId)
    (free : after.freeList = (base.claimFrame frame pageId).freeList ++ [frame]) :
    FetchOutcome run pageId (.error status) after := by
  have same := choice.samePages
  rw [BufferPool.freeList_claimFrame, choice.freeList_eq] at free
  have pending : (run.claimed base frame pageId).pending.erase
      ⟨frame, pageId⟩ = run.pending := List.erase_cons_head ..
  rw [abandoned, pending] at inv
  refine .failed disk ⟨inv, sequential.pending_eq, ?_⟩
  intro other mem valid
  rw [free, List.mem_append, List.mem_singleton] at mem
  have here : other = frame := by
    rcases mem with old | own
    · obtain ⟨ne, _, invalid⟩ := sequential.invalid_of_choice source old
      rw [keeps.others other ne, same.isValid_eq] at valid
      exact absurd valid invalid
    · exact own
  subst here
  rw [sameValid, same.isValid_eq] at valid
  have alone : run.pool.freeList.erase other = [] := by
    rcases source with head | none
    · have mem : other ∈ run.pool.freeList := List.mem_of_head? head
      rw [(sequential.stale other mem valid).1, List.erase_cons_head]
    · rw [none]
      rfl
  rw [free, alone, table, samePage, same.pageId_eq]
  refine ⟨rfl, ?_⟩
  by_cases claimed : (run.pool.frames other).pageId = pageId
  · rw [claimed, AList.lookup_erase]
  rw [AList.lookup_erase_ne claimed]
  cases found : (base.claimFrame other pageId).pageTable.lookup (run.pool.frames other).pageId with
  | none => rfl
  | some holder =>
    obtain ⟨_, unequal⟩ := (choice.lookup_of_ne claimed).mp found
    exact absurd rfl (unequal valid)

end

theorem Sequential.fetchPage (pageId : Nat) :
    FetchOutcome run pageId (run.pool.fetchPage pageId).1 (run.pool.fetchPage pageId).2 := by
  have inv := sequential.invariant
  have plan := @Invariant.planFetch run pageId inv (fun frame free valid =>
    (sequential.stale frame free valid).2) (fun frame dirty _ => sequential.dirty_cases dirty)
  unfold BufferPool.fetchPage
  generalize run.pool.planFetch pageId = result at plan
  obtain ⟨decision, middle⟩ := result
  dsimp only at plan
  cases plan with
  | @hit frame found =>
    have loaded : ⟨frame, pageId⟩ ∉ run.pending := by
      rw [sequential.pending_eq]
      exact List.not_mem_nil
    have touched : Touched run frame { run.pool.frames frame with
          pinCount := (run.pool.frames frame).pinCount + 1 }
        { run.pool.pinFrame frame with
          replacer := (run.pool.pinFrame frame).replacer.recordAccess frame } :=
      ⟨rfl, rfl, rfl, rfl, rfl, rfl⟩
    refine .ok (sequential.of_samePlaces (inv.hit found loaded) rfl
      touched.samePlaces) ⟨touched.samePlaces.keepsPinned, id, ?_⟩
    intro other free
    exact ⟨free, touched.isValid_eq other⟩
  | exhausted swept =>
    exact .exhausted (sequential.of_samePlaces swept rfl ⟨rfl, rfl, fun _ => rfl, fun _ => rfl⟩)
      ⟨KeepsPinned.refl _, id, fun _ free => ⟨free, rfl⟩⟩
  | @miss frame base choice source =>
    have load := (inv.claimed choice).loadFrame List.mem_cons_self
    dsimp only
    change LoadOutcome _ frame pageId ((base.claimFrame frame pageId).loadFrame frame pageId).1
      ((base.claimFrame frame pageId).loadFrame frame pageId).2 at load
    generalize (base.claimFrame frame pageId).loadFrame frame pageId = result at load
    obtain ⟨answer, after⟩ := result
    cases load with
    | ok kept table free keeps => exact sequential.claimed_ok source choice keeps kept free
    | error disk kept valid page table free keeps =>
      exact sequential.claimed_error source choice keeps disk kept valid page table free

end

end Fetching

section Flushing

variable {run : PoolRun}

structure FlushKeeps (pool after : BufferPool) : Prop where
  places : SamePlaces pool after
  poolSize_eq : after.poolSize = pool.poolSize
  clean : ∀ frame, pool.isDirtyFrame frame = false → after.isDirtyFrame frame = false
  unlisted : ∀ frame, (∀ pageId, pool.pageTable.lookup pageId ≠ some frame) →
    after.frames frame = pool.frames frame
  unlisted_page : ∀ pageId, pool.pageTable.lookup pageId = none →
    after.disk.stored pageId = pool.disk.stored pageId
  faults_eq : pool.disk.faults = [] → after.disk.faults = []

theorem FlushKeeps.refl (pool : BufferPool) : FlushKeeps pool pool :=
  ⟨SamePlaces.refl pool, rfl, fun _ => id, fun _ _ => rfl, fun _ _ => rfl, id⟩

theorem FlushKeeps.trans {first second third : BufferPool}
    (left : FlushKeeps first second) (right : FlushKeeps second third) :
    FlushKeeps first third where
  places := left.places.trans right.places
  poolSize_eq := right.poolSize_eq.trans left.poolSize_eq
  clean := fun frame before => right.clean frame (left.clean frame before)
  unlisted := by
    intro frame absent
    have later : ∀ pageId, second.pageTable.lookup pageId ≠ some frame := by
      rw [left.places.pageTable_eq]
      exact absent
    exact (right.unlisted frame later).trans (left.unlisted frame absent)
  unlisted_page := by
    intro pageId absent
    have later : second.pageTable.lookup pageId = none := by
      rw [left.places.pageTable_eq]
      exact absent
    exact (right.unlisted_page pageId later).trans (left.unlisted_page pageId absent)
  faults_eq := fun faultless => right.faults_eq (left.faults_eq faultless)

theorem Sequential.table_settled (sequential : Sequential run) {pageId frame : Nat}
    (found : run.pool.pageTable.lookup pageId = some frame) :
    run.Settled frame ∧ (run.pool.frames frame).pageId = pageId := by
  rcases sequential.invariant.table_cases pageId frame found with
    pending | settled
  · rw [sequential.pending_eq] at pending
    contradiction
  · exact settled

theorem isDirtyFrame_flushed {pool after : BufferPool} {frame : Nat}
    (flush : BufferPool.Flushed pool frame none after) : after.isDirtyFrame frame = false := by
  rw [BufferPool.isDirtyFrame, flush.frames_eq, update_self]
  simp [BufferFrame.flushed]

theorem Sequential.flushKeeps (sequential : Sequential run)
    {pageId frame : Nat} {status : Option Status} {after : BufferPool}
    (found : run.pool.pageTable.lookup pageId = some frame)
    (flush : BufferPool.Flushed run.pool frame status after) : FlushKeeps run.pool after := by
  obtain ⟨settled, page⟩ := sequential.table_settled found
  have placed := sequential.invariant.placed frame settled.bound settled.valid
  obtain ⟨image, written, _⟩ := flush.written
  rw [placed.page_id, page] at written
  have touched : Touched run frame ((run.pool.frames frame).flushed status.isNone) after :=
      ⟨flush.poolSize_eq, flush.pageTable_eq, flush.freeList_eq, flush.frames_eq, rfl, rfl⟩
  refine ⟨touched.samePlaces, flush.poolSize_eq, ?_, ?_, ?_, written.faults_eq⟩
  · intro other before
    rw [BufferPool.isDirtyFrame] at before ⊢
    rw [touched.isValid_eq]
    by_cases same : other = frame
    · subst same
      rw [flush.frames_eq, update_self]
      rw [settled.valid, Bool.true_and] at before ⊢
      simp [BufferFrame.flushed, before]
    · rw [flush.frames_eq, update_of_ne same]
      exact before
  · intro other absent
    have ne : other ≠ frame := by
      rintro rfl
      exact absent pageId found
    rw [flush.frames_eq, update_of_ne ne]
  intro other absent
  have ne : other ≠ pageId := by
    rintro rfl
    rw [found] at absent
    contradiction
  rw [written.stored_eq, update_of_ne ne]

structure FlushLoop (run : PoolRun) (pages : List Nat)
    (status : Option Status) (after : BufferPool) : Prop where
  sequential : Sequential ⟨after, run.held, run.pending, run.map⟩
  keeps : FlushKeeps run.pool after
  written : status = none → ∀ pageId ∈ pages, ∀ frame, run.pool.pageTable.lookup pageId = some frame
    → after.isDirtyFrame frame = false
  failed : status ≠ none → run.pool.disk.faults ≠ []

theorem FlushLoop.cons {pages : List Nat} {status : Option Status}
    {middle after : BufferPool} {pageId : Nat} (keeps : FlushKeeps run.pool middle)
    (rest : FlushLoop ⟨middle, run.held, run.pending, run.map⟩ pages status after)
    (first : ∀ frame, run.pool.pageTable.lookup pageId = some frame →
      middle.isDirtyFrame frame = false) : FlushLoop run (pageId :: pages) status after := by
  refine ⟨rest.sequential, keeps.trans rest.keeps, ?_, ?_⟩
  · intro done other mem frame found
    rcases List.mem_cons.mp mem with rfl | later
    · exact rest.keeps.clean frame (first frame found)
    · refine rest.written done other later frame ?_
      rw [keeps.places.pageTable_eq]
      exact found
  · intro failed faultless
    exact rest.failed failed (keeps.faults_eq faultless)

theorem Sequential.flushEntries (pages : List Nat) :
    ∀ {run : PoolRun}, Sequential run →
      FlushLoop run pages (BufferPool.flushEntries pages run.pool).1
        (BufferPool.flushEntries pages run.pool).2 := by
  induction pages with
  | nil =>
    intro run sequential
    refine ⟨sequential, FlushKeeps.refl _, ?_, ?_⟩
    · intro _ pageId mem
      contradiction
    · intro never
      exact absurd rfl never
  | cons pageId pages ih =>
    intro run sequential
    rw [BufferPool.flushEntries]
    cases found : run.pool.pageTable.lookup pageId with
    | none =>
      refine FlushLoop.cons (FlushKeeps.refl _) (ih sequential) ?_
      intro frame here
      rw [found] at here
      contradiction
    | some frame =>
      dsimp only
      by_cases dirty : run.pool.isDirtyFrame frame = true
      · have settled := (sequential.table_settled found).1
        have before : run.Dirty frame := ⟨settled.bound, dirty⟩
        have flush := sequential.invariant.flushFrame before
        rw [if_pos dirty]
        generalize run.pool.flushFrame frame = result at flush
        obtain ⟨status, middle⟩ := result
        have keeps := sequential.flushKeeps found flush
        have kept : Sequential ⟨middle, run.held, run.pending, run.map⟩ := sequential.of_samePlaces
            (sequential.invariant.flushed before flush) rfl keeps.places
        cases status with
        | some failure =>
          refine ⟨kept, keeps, ?_, ?_⟩
          · intro never
            contradiction
          · intro _
            exact (flush.failed failure rfl).2
        | none =>
          refine FlushLoop.cons keeps (ih kept) ?_
          intro other here
          rw [found] at here
          cases here
          exact isDirtyFrame_flushed flush
      rw [if_neg dirty]
      refine FlushLoop.cons (FlushKeeps.refl _) (ih sequential) ?_
      intro other here
      rw [found] at here
      cases here
      simpa using dirty

theorem Sequential.flushAll (sequential : Sequential run) (enumeration : Enumeration) :
    FlushLoop run (enumeration.order run.pool.pageTable.keys)
      (run.pool.flushAll enumeration).1 (run.pool.flushAll enumeration).2 :=
  Sequential.flushEntries _ sequential

theorem Sequential.flushPage (sequential : Sequential run) (pageId : Nat) :
    FlushLoop run [pageId] (run.pool.flushPage pageId).1 (run.pool.flushPage pageId).2 := by
  have loop := Sequential.flushEntries [pageId] sequential
  have same : run.pool.flushPage pageId = BufferPool.flushEntries [pageId] run.pool := by
    rw [BufferPool.flushPage, BufferPool.flushEntries]
    cases found : run.pool.pageTable.lookup pageId with
    | none => rfl
    | some frame =>
      dsimp only
      rw [(sequential.table_settled found).2, decide_eq_true rfl, Bool.and_true]
      by_cases dirty : run.pool.isDirtyFrame frame = true
      · rw [if_pos dirty, if_pos dirty]
        generalize run.pool.flushFrame frame = result
        obtain ⟨_ | failure, after⟩ := result
        · rfl
        · rfl
      · rw [if_neg dirty, if_neg dirty]
        rfl
  rw [same]
  exact loop

/-- The disk has the page as the frame has it. -/
def OnDisk (pool : BufferPool) (frame : Nat) : Prop :=
  ∃ image, pool.disk.stored (pool.frames frame).pageId = some image ∧
    PageImage.SameUpToChecksum image (pool.frames frame).page.image

/-- After a loop without failure, a page is on the disk as the map has it
unless a free frame holds a newer copy. -/
theorem Sequential.stored_iff (sequential : Sequential run) {pages : List Nat} {after : BufferPool}
    (loop : FlushLoop run pages none after) {pageId : Nat}
    (listed : ∀ frame, run.pool.pageTable.lookup pageId = some frame → pageId ∈ pages) :
    Option.Rel PageImage.SameUpToChecksum (after.disk.stored pageId) (run.map pageId) ↔
      ∀ frame ∈ run.pool.freeList, run.pool.isDirtyFrame frame = true →
        (run.pool.frames frame).pageId = pageId → OnDisk run.pool frame := by
  have places := loop.keeps.places
  have stale : ∀ frame ∈ run.pool.freeList, run.pool.isDirtyFrame frame = true →
      (run.pool.frames frame).pageId = pageId → after.disk.stored pageId = run.pool.disk.stored
      pageId ∧ ShowsMap run.map (run.pool.frames frame) := by
    intro frame free dirty page
    have holds : run.Dirty frame := ⟨sequential.invariant.free_lt frame free, dirty⟩
    have absent := (sequential.stale frame free holds.valid).2
    rw [page] at absent
    exact ⟨loop.keeps.unlisted_page pageId absent, sequential.invariant.shows frame (Or.inl holds)⟩
  constructor
  · intro shown frame free dirty page
    obtain ⟨same, image, inMap, related⟩ := stale frame free dirty page
    rw [page] at inMap
    rw [same, inMap] at shown
    rw [OnDisk, page]
    cases stored : run.pool.disk.stored pageId with
    | none =>
      rw [stored] at shown
      cases shown
    | some onDisk =>
      rw [stored] at shown
      cases shown with
      | some agrees => exact ⟨onDisk, rfl, agrees.trans related.symm⟩
  intro onDisk
  by_cases holder : ∃ frame ∈ run.pool.freeList, run.pool.isDirtyFrame frame = true ∧
      (run.pool.frames frame).pageId = pageId
  · obtain ⟨frame, free, dirty, page⟩ := holder
    obtain ⟨same, image, inMap, related⟩ := stale frame free dirty page
    obtain ⟨stored, found, agrees⟩ := onDisk frame free dirty page
    rw [page] at inMap found
    rw [same, inMap, found]
    exact Option.Rel.some (agrees.trans related)
  refine loop.sequential.invariant.disk_shows pageId ?_
  intro frame dirty page
  rcases loop.sequential.dirty_cases dirty with settled | alone
  · have found := loop.sequential.invariant.settled_table frame settled
    rw [page, places.pageTable_eq] at found
    have clean := loop.written rfl pageId (listed frame found) frame found
    have still := dirty.dirty
    rw [clean] at still
    contradiction
  rw [places.freeList_eq] at alone
  have free : frame ∈ run.pool.freeList := by
    rw [alone]
    exact List.mem_singleton_self frame
  refine holder ⟨frame, free, ?_, ?_⟩
  · by_contra clean
    have later := loop.keeps.clean frame (by simpa using clean)
    have still := dirty.dirty
    rw [later] at still
    contradiction
  · rw [← places.pageId_eq]
    exact page

theorem mem_order_keys (enumeration : Enumeration) {pool : BufferPool} {pageId frame : Nat}
    (found : pool.pageTable.lookup pageId = some frame) :
    pageId ∈ enumeration.order pool.pageTable.keys := by
  rw [(enumeration.perm _).mem_iff, ← AList.mem_keys, ← AList.lookup_isSome, found]
  rfl

end Flushing

section Allocating

variable {run : PoolRun} {disk : DiskManager}

theorem Invariant.withDisk (inv : Invariant run)
    {map : Nat → Option PageImage} (aligned : disk.Aligned)
    (sameSize : disk.pageSize = run.pool.disk.pageSize)
    (sameOpen : disk.isOpen = run.pool.disk.isOpen)
    (next : run.pool.disk.nextPageId ≤ disk.nextPageId)
    (shows : ∀ frame, run.Active frame → ShowsMap map (run.pool.frames frame))
    (diskShows : ∀ pageId, (∀ frame, run.Dirty frame → (run.pool.frames frame).pageId ≠ pageId) →
      Option.Rel PageImage.SameUpToChecksum (disk.stored pageId) (map pageId)) :
    Invariant ⟨{ run.pool with disk := disk }, run.held, run.pending, map⟩ := by
  have unchanged : Touched run 0 (run.pool.frames 0) { run.pool with disk := disk } := ⟨rfl, rfl,
      rfl, (Function.update_eq_self 0 run.pool.frames).symm, rfl, rfl⟩
  refine inv.touched unchanged aligned ?_ ?_ ?_ ?_
    ⟨rfl, inv.onClock, inv.pinCount_eq, inv.pinned, inv.held_settled⟩
  · intro frame bound valid
    exact (inv.placed frame bound valid).congr sameSize sameOpen next
  · intro frame now
    exact Or.inl ⟨now.bound, now.dirty⟩
  · intro frame now
    refine shows frame (now.imp ?_ (unchanged.settled_iff frame).mp)
    exact fun dirty => ⟨dirty.bound, dirty.dirty⟩
  · intro pageId clear
    apply diskShows
    intro frame dirty
    exact clear frame ⟨dirty.bound, dirty.dirty⟩

theorem Invariant.freshPage (inv : Invariant run) {pageId : Nat}
    {image : PageImage} (fresh : pageId = run.pool.disk.nextPageId)
    (write : DiskManager.Written run.pool.disk pageId (image.storedPage pageId) disk)
    (next : disk.nextPageId = pageId + 1) :
    Invariant ⟨{ run.pool with disk := disk }, run.held, run.pending,
      Function.update run.map pageId (some image)⟩ := by
  refine inv.withDisk write.aligned write.pageSize_eq write.isOpen_eq (by omega) ?_ ?_
  · intro frame active
    have placed : PlacedFrame run.pool.disk (run.pool.frames frame) := by
      rcases active with dirty | settled
      · exact inv.placed frame dirty.bound dirty.valid
      · exact inv.placed frame settled.bound settled.valid
    have older : (run.pool.frames frame).pageId ≠ pageId := by
      have existing := placed.exists_
      omega
    obtain ⟨shown, inMap, related⟩ := inv.shows frame active
    exact ⟨shown, (update_of_ne older _ _).trans inMap, related⟩
  intro other clear
  rw [write.stored_eq]
  by_cases same : other = pageId
  · subst same
    rw [update_self, update_self]
    exact Option.Rel.some ((PageImage.SameUpToChecksum.refl image).storedPage other)
  · rw [update_of_ne same, update_of_ne same]
    exact inv.disk_shows other clear

theorem Invariant.allocated (inv : Invariant run)
    (faultless : run.pool.disk.faults = []) {pageId : Nat}
    (allocation : run.pool.disk.allocatePage = (.ok pageId, disk)) :
    Invariant ⟨{ run.pool with disk := disk }, run.held, run.pending,
        allocatedMap run.pool.disk run.map⟩ ∧
      disk.faults = [] := by
  rcases DiskManager.allocatePage_ok ⟨inv.aligned, faultless⟩
    allocation with ⟨freePages, reused, rfl⟩ | ⟨none, fresh, write, next⟩
  · rw [allocatedMap, reused]
    exact ⟨inv.withDisk inv.aligned rfl rfl le_rfl inv.shows inv.disk_shows, faultless⟩
  · rw [allocatedMap, none, ← fresh]
    exact ⟨inv.freshPage fresh write next, write.faults_eq faultless⟩

end Allocating

section Runs

variable {run : PoolRun}

structure Healthy (run : PoolRun) : Prop where
  sequential : Sequential run
  faults_eq : run.pool.disk.faults = []
  free_invalid : ∀ frame ∈ run.pool.freeList, (run.pool.frames frame).isValid ≠ true

theorem Healthy.fetched (healthy : Healthy run) {after : BufferPool} {held : List PageHandle}
    (sequential : Sequential ⟨after, held, run.pending, run.map⟩)
    (keeps : FetchKeeps run.pool after) : Healthy ⟨after, held, run.pending, run.map⟩ := by
  refine ⟨sequential, keeps.faults_eq healthy.faults_eq, ?_⟩
  intro frame free valid
  obtain ⟨before, same⟩ := keeps.free frame free
  exact healthy.free_invalid frame before (same.symm.trans valid)

theorem Healthy.of_samePlaces {after : PoolRun} (healthy : Healthy run)
    (inv : Invariant after) (pending : after.pending = run.pending)
    (same : SamePlaces run.pool after.pool)
    (faultless : after.pool.disk.faults = []) : Healthy after := by
  refine ⟨healthy.sequential.of_samePlaces inv pending same, faultless, ?_⟩
  intro frame free valid
  rw [same.freeList_eq] at free
  rw [same.isValid_eq] at valid
  exact healthy.free_invalid frame free valid

def FetchHealthy (run : PoolRun) (pageId : Nat) : Except Status Nat × BufferPool → Prop
  | (.ok frame, after) => Healthy ⟨after, ⟨frame, pageId⟩ :: run.held, run.pending, run.map⟩ ∧
      KeepsPinned run.pool after
  | (.error status, after) => status = .internalError → Healthy
      ⟨after, run.held, run.pending, run.map⟩ ∧ KeepsPinned run.pool after

theorem Healthy.fetchPage (healthy : Healthy run) (pageId : Nat) :
    FetchHealthy run pageId (run.pool.fetchPage pageId) := by
  have outcome := healthy.sequential.fetchPage pageId
  generalize run.pool.fetchPage pageId = result at outcome
  obtain ⟨answer, after⟩ := result
  cases outcome with
  | ok sequential keeps => exact ⟨healthy.fetched sequential keeps, keeps.keepsPinned⟩
  | exhausted sequential keeps =>
    exact fun _ => ⟨healthy.fetched sequential keeps, keeps.keepsPinned⟩
  | failed disk sequential =>
    exact fun exhausted => absurd exhausted disk

theorem Healthy.flushed (healthy : Healthy run) {pages : List Nat}
    {status : Option Status} {after : BufferPool} (loop : FlushLoop run pages status after) :
    status = none ∧ Healthy ⟨after, run.held, run.pending, run.map⟩ ∧
      KeepsPinned run.pool after := by
  refine ⟨?_, healthy.of_samePlaces loop.sequential.invariant rfl loop.keeps.places
    (loop.keeps.faults_eq healthy.faults_eq), loop.keeps.places.keepsPinned⟩
  by_contra failed
  exact loop.failed failed healthy.faults_eq

theorem Healthy.allocatePage (healthy : Healthy run) (fine : (run.step .allocatePage).1 = none ∨
      (run.step .allocatePage).1 = some .internalError) :
    Healthy (run.step .allocatePage).2 ∧ KeepsPinned run.pool (run.step .allocatePage).2.pool := by
  unfold step BufferPool.allocatePage at fine ⊢
  generalize allocation : run.pool.disk.allocatePage = answer at fine ⊢
  obtain ⟨status | pageId, disk⟩ := answer
  · dsimp only at fine
    have disks := DiskManager.allocatePage_error allocation
    rcases fine with never | exhausted
    · contradiction
    · cases exhausted
      contradiction
  obtain ⟨inv, faultless⟩ :=
    healthy.sequential.invariant.allocated healthy.faults_eq allocation
  have allocated := healthy.of_samePlaces inv rfl ⟨rfl, rfl, fun _ => rfl, fun _ => rfl⟩ faultless
  have fetched := allocated.fetchPage pageId
  dsimp only at fetched fine ⊢
  generalize ({ run.pool with disk := disk } : BufferPool).fetchPage pageId =
    result at fetched fine ⊢
  obtain ⟨status | frame, after⟩ := result
  · rcases fine with never | exhausted
    · contradiction
    · cases exhausted
      exact fetched rfl
  · exact fetched

structure KeepsPlaces (run after : PoolRun) : Prop where
  sequential : Sequential after
  places : SamePlaces run.pool after.pool
  disk_eq : after.pool.disk = run.pool.disk

theorem Sequential.mutate (sequential : Sequential run) (index offset : Nat) (bytes : List UInt8) :
    KeepsPlaces run (run.step (.mutate index offset bytes)).2 := by
  unfold step
  dsimp only
  cases here : run.held[index]? with
  | none => exact ⟨sequential, SamePlaces.refl _, rfl⟩
  | some handle =>
    have mutated := sequential.invariant.mutate (List.mem_of_getElem? here) offset bytes
    have touched : Touched run handle.frame _ (run.pool.mutate handle.frame offset bytes) :=
        ⟨rfl, rfl, rfl, rfl, rfl, rfl⟩
    exact ⟨sequential.of_samePlaces mutated rfl touched.samePlaces, touched.samePlaces, rfl⟩

theorem Sequential.drop (sequential : Sequential run) (index : Nat) :
    KeepsPlaces run (run.step (.drop index)).2 := by
  unfold step
  dsimp only
  cases here : run.held[index]? with
  | none => exact ⟨sequential, SamePlaces.refl _, rfl⟩
  | some handle =>
    have unpinned := run.pool.unpinFrame_unpinned handle.frame
    have touched : Touched run handle.frame _ (run.pool.unpinFrame handle.frame) :=
        ⟨unpinned.poolSize_eq, unpinned.pageTable_eq, unpinned.freeList_eq, unpinned.frames_eq, rfl,
        rfl⟩
    exact ⟨sequential.of_samePlaces (sequential.invariant.drop here) rfl
      touched.samePlaces, touched.samePlaces, unpinned.disk_eq⟩

theorem Healthy.keepsPlaces {after : PoolRun} (healthy : Healthy run)
    (kept : KeepsPlaces run after) : Healthy after ∧ KeepsPinned run.pool after.pool := by
  refine ⟨healthy.of_samePlaces kept.sequential.invariant ?_ kept.places ?_,
    kept.places.keepsPinned⟩
  · rw [kept.sequential.pending_eq, healthy.sequential.pending_eq]
  · rw [kept.disk_eq]
    exact healthy.faults_eq

/-- One call keeps the pool healthy unless the disk fails, and leaves every
pinned frame with its page. -/
theorem Healthy.step (healthy : Healthy run) (event : PoolEvent) (fine : (run.step event).1 = none ∨
      (run.step event).1 = some .internalError) :
    Healthy (run.step event).2 ∧ KeepsPinned run.pool (run.step event).2.pool := by
  cases event with
  | fetchPage pageId =>
    have fetched := healthy.fetchPage pageId
    unfold PoolRun.step at fine ⊢
    dsimp only at fine ⊢
    generalize run.pool.fetchPage pageId = result at fetched fine ⊢
    obtain ⟨status | frame, after⟩ := result
    · rcases fine with never | exhausted
      · contradiction
      · cases exhausted
        exact fetched rfl
    · exact fetched
  | allocatePage => exact healthy.allocatePage fine
  | flushPage pageId =>
    exact (healthy.flushed (healthy.sequential.flushPage pageId)).2
  | flushAll enumeration =>
    exact (healthy.flushed (healthy.sequential.flushAll enumeration)).2
  | mutate index offset bytes =>
    exact healthy.keepsPlaces (healthy.sequential.mutate index offset bytes)
  | drop index => exact healthy.keepsPlaces (healthy.sequential.drop index)

theorem Healthy.after_run (events : List PoolEvent) :
    ∀ {start : PoolRun}, Healthy start → NoDiskError start events →
      Healthy (PoolRun.run start events) := by
  induction events with
  | nil =>
    intro start healthy _
    exact healthy
  | cons event events ih =>
    intro start healthy fine
    exact ih (healthy.step event fine.1).1 fine.2

/-- What a frame in use shows of the map. -/
def Shows (pool : BufferPool) (map : Nat → Option PageImage) (frame pageId : Nat) : Prop :=
  (pool.frames frame).pageId = pageId ∧ (pool.frames frame).page.id = pageId ∧ ∃ image, map pageId =
    some image ∧ PageImage.SameUpToChecksum (pool.frames frame).page.image image

theorem Invariant.shows_held (inv : Invariant run) {handle : PageHandle}
    (mem : handle ∈ run.held) : Shows run.pool run.map handle.frame handle.pageId := by
  obtain ⟨settled, page⟩ := inv.held_settled handle mem
  have placed := inv.placed handle.frame settled.bound settled.valid
  have shows := inv.shows handle.frame (Or.inr settled)
  rw [ShowsMap, page] at shows
  exact ⟨page, placed.page_id.trans page, shows⟩

/-- `flush_all` succeeds and leaves the map on the disk. -/
theorem Healthy.flushAll (healthy : Healthy run) (enumeration : Enumeration) :
    ∃ after, run.pool.flushAll enumeration = (none, after) ∧
      ∀ pageId, Option.Rel PageImage.SameUpToChecksum
        (after.disk.stored pageId) (run.map pageId) := by
  have loop := healthy.sequential.flushAll enumeration
  have done := (healthy.flushed loop).1
  generalize run.pool.flushAll enumeration = result at loop done
  obtain ⟨status, after⟩ := result
  subst done
  refine ⟨after, rfl, fun pageId => ?_⟩
  refine (healthy.sequential.stored_iff loop fun frame found =>
    mem_order_keys enumeration found).mpr ?_
  intro frame free dirty
  rw [BufferPool.isDirtyFrame, Bool.and_eq_true] at dirty
  exact absurd dirty.1 (healthy.free_invalid frame free)

/-- After any calls without a disk error, over a file that ends after the last
page, every fetched or held frame shows its page as the map has it, the page
table is injective and agrees with the frames, no call takes the page out of a
pinned frame, and `flush_all` puts the map on the disk. -/
theorem run_refines_page_map (poolSize : Nat) (positive : 1 ≤ poolSize)
    (disk : DiskManager) (consistent : disk.Consistent) (hasWal : Bool)
    (events : List PoolEvent)
    (fine : NoDiskError (start poolSize disk hasWal) events) :
    let run := PoolRun.run (start poolSize disk hasWal) events
    (∀ pageId frame after, run.pool.fetchPage pageId = (.ok frame, after) →
      Shows after run.map frame pageId) ∧
    (∀ pageId frame after, run.pool.allocatePage = (.ok (pageId, frame), after) →
      Shows after (allocatedMap run.pool.disk run.map) frame pageId) ∧
    (∀ handle ∈ run.held, Shows run.pool run.map handle.frame handle.pageId) ∧
    (∀ event, (run.step event).1 = none ∨ (run.step event).1 = some .internalError →
      KeepsPinned run.pool (run.step event).2.pool) ∧
    (∀ first second frame, run.pool.pageTable.lookup first = some frame →
      run.pool.pageTable.lookup second = some frame → first = second) ∧
    (∀ pageId frame, run.pool.pageTable.lookup pageId = some frame →
      frame < run.pool.poolSize ∧ (run.pool.frames frame).isValid = true ∧
        (run.pool.frames frame).pageId = pageId) ∧
    ∀ enumeration, ∃ after, run.pool.flushAll enumeration = (none, after) ∧
      ∀ pageId, Option.Rel PageImage.SameUpToChecksum (after.disk.stored pageId)
        (run.map pageId) := by
  intro run
  have healthy : Healthy run := Healthy.after_run events ⟨Sequential.start positive
    consistent.aligned hasWal, consistent.faults_eq, fun _ _ => Bool.false_ne_true⟩ fine
  clear_value run
  have settled := @healthy.sequential.table_settled
  refine ⟨?_, ?_, fun handle => healthy.sequential.invariant.shows_held,
    fun event fine => (healthy.step event fine).2, ?_, ?_, healthy.flushAll⟩
  · intro pageId frame after result
    have fetched := healthy.fetchPage pageId
    rw [result] at fetched
    exact fetched.1.sequential.invariant.shows_held List.mem_cons_self
  · intro pageId frame after result
    have stepped := healthy.step .allocatePage
    unfold PoolRun.step at stepped
    rw [result] at stepped
    exact (stepped (Or.inl rfl)).1.sequential.invariant.shows_held List.mem_cons_self
  · intro first second frame firstHere secondHere
    rw [← (settled firstHere).2, ← (settled secondHere).2]
  · intro pageId frame found
    obtain ⟨holds, page⟩ := settled found
    exact ⟨holds.bound, holds.valid, page⟩

def zeroDisk : DiskManager :=
  ⟨36, le_rfl, List.replicate 36 0, 1, [], true, []⟩

theorem run_refines_page_map_refetch :
    zeroDisk.Consistent ∧
      NoDiskError (start 1 zeroDisk true) [.fetchPage 0, .mutate 0 3 [7], .drop 0, .fetchPage 0] ∧
      let run := PoolRun.run (start 1 zeroDisk true)
        [.fetchPage 0, .mutate 0 3 [7], .drop 0, .fetchPage 0]
      ∀ handle ∈ run.held, Shows run.pool run.map handle.frame handle.pageId := by
  have consistent : zeroDisk.Consistent := ⟨rfl, rfl⟩
  have fine : NoDiskError (start 1 zeroDisk true) [.fetchPage 0, .mutate 0 3 [7], .drop 0,
      .fetchPage 0] := ⟨Or.inl (by decide +kernel), Or.inl (by decide +kernel), Or.inl
      (by decide +kernel), Or.inl (by decide +kernel), trivial⟩
  exact ⟨consistent, fine, (run_refines_page_map 1 le_rfl zeroDisk consistent true _ fine).2.2.1⟩

/-- A file that ends behind page 1, which the counter would hand out next, as
after a crash. -/
def reopenedDisk : DiskManager :=
  ⟨40, by decide, List.replicate 72 0 ++ [208, 198, 8, 154, 7, 7, 7, 7], 1, [], true, []⟩

/-- `allocate_page` writes an empty page 1 and returns a handle to the frame
that still shows the old one; the map and, after `flush_all`, the disk have
the empty page. -/
theorem allocated_page_shows_old :
    NoDiskError (start 1 reopenedDisk true) [.fetchPage 1, .drop 0, .allocatePage] ∧
      let run := PoolRun.run (start 1 reopenedDisk true) [.fetchPage 1, .drop 0, .allocatePage]
      run.held.map (fun handle =>
          (handle.pageId, (run.pool.frames handle.frame).page.image.data.drop 36)) =
        [(1, [7, 7, 7, 7])] ∧
      (run.map 1).map (fun image => image.data.drop 36) = some [0, 0, 0, 0] ∧
      ((run.pool.flushAll .stored).2.disk.stored 1).map (fun image => image.data.drop 36) =
        some [0, 0, 0, 0] := by
  refine ⟨⟨Or.inl ?_, Or.inl ?_, Or.inl ?_, trivial⟩, ?_, ?_, ?_⟩ <;> decide +kernel
end Runs

end PoolRun

end KlyroDB
