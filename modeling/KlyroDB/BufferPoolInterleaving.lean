import KlyroDB.BufferPoolRefinement
import KlyroDB.GuardedRuns

/-!
# Fetches of several clients

The two sections of `fetch_page` as separate steps, interleaved with those of
other clients and with changes and drops of handles.
-/

namespace KlyroDB

inductive FetchEvent
  | plan (pageId : Nat)
  | load (entry : Nat)
  | mutate (handle offset : Nat) (bytes : List UInt8)
  | drop (handle : Nat)

inductive FetchAnswer
  | nothing
  | returned (handle : PageHandle)
  | failed (status : Status)
  deriving DecidableEq

namespace PoolRun

def fetchStep (run : PoolRun) : FetchEvent → FetchAnswer × PoolRun
  | .plan pageId =>
      match run.pool.planFetch pageId with
      | (.hit frame, pool) =>
          (.returned ⟨frame, pageId⟩,
            { run with pool := pool, held := ⟨frame, pageId⟩ :: run.held })
      | (.exhausted, pool) => (.failed .internalError, { run with pool := pool })
      | (.miss frame, pool) =>
          (.nothing,
            { run with
              pool := pool, pending := ⟨frame, pageId⟩ :: run.pending })
  | .load index =>
      match run.pending[index]? with
      | none => (.nothing, run)
      | some entry =>
          match run.pool.loadFrame entry.frame entry.pageId with
          | (.ok frame, pool) =>
              (.returned ⟨frame, entry.pageId⟩,
                { run with
                  pool := pool
                  held := ⟨frame, entry.pageId⟩ :: run.held
                  pending := run.pending.erase entry })
          | (.error status, pool) =>
              (.failed status, { run with pool := pool, pending := run.pending.erase entry })
  | .mutate handle offset bytes => (.nothing, (run.step (.mutate handle offset bytes)).2)
  | .drop handle => (.nothing, (run.step (.drop handle)).2)

/-- The disk does not fail in this step; there may be no frame left. -/
def NoFailure (run : PoolRun) (event : FetchEvent) : Prop :=
  ∀ status, (run.fetchStep event).1 = .failed status → status = .internalError

/-- A fetch begins only when no other one has claimed a frame for its page, or
has yet to write its page back. -/
def Apart (run : PoolRun) : FetchEvent → Prop
  | .plan pageId => ∀ entry ∈ run.pending, entry.pageId ≠ pageId ∧ (run.pool.isDirtyFrame
      entry.frame = true → (run.pool.frames entry.frame).pageId ≠ pageId)
  | _ => True

/-- No other frame has a newer copy of the page that is going to be read. -/
def ReadsCurrent (run : PoolRun) : FetchEvent → Prop
  | .load index => ∀ entry, run.pending[index]? = some entry → ∀ frame, frame < run.pool.poolSize →
      frame ≠ entry.frame → run.pool.isDirtyFrame frame = true → (run.pool.frames frame).pageId ≠
      entry.pageId
  | _ => True

/-- A returned handle shows its page when it is returned, and a page is read
only when the disk has its latest contents. -/
def FetchCorrect (run : PoolRun) (event : FetchEvent) : Prop :=
  (∀ handle, (run.fetchStep event).1 = .returned handle → Shows (run.fetchStep event).2.pool
      (run.fetchStep event).2.map handle.frame handle.pageId) ∧ ReadsCurrent run event

/-- No disk fault lies ahead, and no fetch has failed on the disk. -/
structure Undisturbed (run : PoolRun) : Prop where
  invariant : Invariant run
  faults_eq : run.pool.disk.faults = []
  free_invalid : ∀ frame ∈ run.pool.freeList, (run.pool.frames frame).isValid ≠ true

section Steps

variable {run : PoolRun}

theorem Undisturbed.of_samePlaces {after : PoolRun}
    (undisturbed : Undisturbed run) (inv : Invariant after)
    (same : SamePlaces run.pool after.pool)
    (disk : after.pool.disk = run.pool.disk) : Undisturbed after := by
  refine ⟨inv, by rw [disk]; exact undisturbed.faults_eq, ?_⟩
  intro frame free valid
  rw [same.freeList_eq] at free
  rw [same.isValid_eq] at valid
  exact undisturbed.free_invalid frame free valid

section

variable (undisturbed : Undisturbed run)

include undisturbed

/-- A dirty frame is settled unless a fetch has claimed it. -/
theorem Undisturbed.settled_of_dirty {pageId : Nat} (apart : run.Apart (.plan pageId)) {frame : Nat}
    (dirty : run.Dirty frame) (page : (run.pool.frames frame).pageId = pageId) :
    run.Settled frame := by
  refine ⟨dirty.bound, dirty.valid, ?_, ?_⟩
  · intro free
    exact undisturbed.free_invalid frame free dirty.valid
  · rintro entry mem rfl
    exact (apart entry mem).2 dirty.dirty page

theorem Undisturbed.plan {pageId : Nat} (apart : run.Apart (.plan pageId)) :
    Undisturbed (run.fetchStep (.plan pageId)).2 ∧
      ∀ handle, (run.fetchStep (.plan pageId)).1 = .returned handle →
        handle ∈ (run.fetchStep (.plan pageId)).2.held := by
  have inv := undisturbed.invariant
  have plan := @Invariant.planFetch run pageId inv (fun frame free valid =>
      absurd valid (undisturbed.free_invalid frame free))
    (fun frame dirty page =>
      Or.inl (undisturbed.settled_of_dirty apart dirty page))
  unfold fetchStep
  dsimp only
  generalize run.pool.planFetch pageId = result at plan
  obtain ⟨decision, middle⟩ := result
  dsimp only at plan
  cases plan with
  | @hit frame found =>
    have loaded : ⟨frame, pageId⟩ ∉ run.pending := fun mem =>
      (apart _ mem).1 rfl
    have touched : Touched run frame { run.pool.frames frame with
          pinCount := (run.pool.frames frame).pinCount + 1 }
        { run.pool.pinFrame frame with
          replacer := (run.pool.pinFrame frame).replacer.recordAccess frame } :=
      ⟨rfl, rfl, rfl, rfl, rfl, rfl⟩
    refine ⟨undisturbed.of_samePlaces (inv.hit found loaded) touched.samePlaces rfl, ?_⟩
    intro handle returned
    cases returned
    exact List.mem_cons_self
  | exhausted swept =>
    refine ⟨undisturbed.of_samePlaces swept ⟨rfl, rfl, fun _ => rfl, fun _ => rfl⟩ rfl, ?_⟩
    intro handle returned
    contradiction
  | @miss frame base choice source =>
    refine ⟨⟨inv.claimed choice, ?_, ?_⟩, ?_⟩
    · dsimp only
      rw [BufferPool.disk_claimFrame, choice.disk_eq]
      exact undisturbed.faults_eq
    · intro other free
      rw [BufferPool.freeList_claimFrame, choice.freeList_eq] at free
      rw [choice.samePages.isValid_eq]
      exact undisturbed.free_invalid other (List.mem_of_mem_erase free)
    · intro handle returned
      contradiction

theorem Undisturbed.load {index : Nat} (fine : run.NoFailure (.load index)) :
    Undisturbed (run.fetchStep (.load index)).2 ∧
      ∀ handle, (run.fetchStep (.load index)).1 = .returned handle →
        handle ∈ (run.fetchStep (.load index)).2.held := by
  unfold NoFailure at fine
  unfold fetchStep at fine ⊢
  dsimp only at fine ⊢
  cases here : run.pending[index]? with
  | none =>
    refine ⟨undisturbed, ?_⟩
    intro handle returned
    contradiction
  | some entry =>
    have mem : entry ∈ run.pending := List.mem_of_getElem? here
    have load := undisturbed.invariant.loadFrame mem
    rw [here] at fine
    dsimp only at fine ⊢
    generalize run.pool.loadFrame entry.frame entry.pageId = result at load fine
    obtain ⟨answer, after⟩ := result
    cases load with
    | ok kept table free keeps =>
      refine ⟨⟨kept, keeps.faults_eq undisturbed.faults_eq, ?_⟩, ?_⟩
      · intro other now
        rw [free] at now
        have ne : other ≠ entry.frame := by
          rintro rfl
          exact undisturbed.invariant.pending_notFree mem now
        rw [keeps.others other ne]
        exact undisturbed.free_invalid other now
      · intro handle returned
        cases returned
        exact List.mem_cons_self
    | error disk kept valid page table free keeps =>
      exact absurd (fine _ rfl) disk

theorem Undisturbed.readsCurrent (event : FetchEvent) : run.ReadsCurrent event := by
  cases event with
  | load index =>
    intro entry here frame bound ne dirty
    exact undisturbed.invariant.pending_clear entry
      (List.mem_of_getElem? here) frame ⟨bound, dirty⟩ ne
  | plan pageId | mutate handle offset bytes | drop handle => trivial

theorem Undisturbed.mutate (index offset : Nat) (bytes : List UInt8) :
    Undisturbed (run.step (.mutate index offset bytes)).2 := by
  unfold step
  dsimp only
  cases here : run.held[index]? with
  | none => exact undisturbed
  | some handle =>
    have touched : Touched run handle.frame _ (run.pool.mutate handle.frame offset bytes) :=
        ⟨rfl, rfl, rfl, rfl, rfl, rfl⟩
    exact undisturbed.of_samePlaces (undisturbed.invariant.mutate
      (List.mem_of_getElem? here) offset bytes) touched.samePlaces rfl

theorem Undisturbed.drop (index : Nat) : Undisturbed (run.step (.drop index)).2 := by
  unfold step
  dsimp only
  cases here : run.held[index]? with
  | none => exact undisturbed
  | some handle =>
    have unpinned := run.pool.unpinFrame_unpinned handle.frame
    have touched : Touched run handle.frame _ (run.pool.unpinFrame handle.frame) :=
        ⟨unpinned.poolSize_eq, unpinned.pageTable_eq, unpinned.freeList_eq, unpinned.frames_eq, rfl,
        rfl⟩
    exact undisturbed.of_samePlaces (undisturbed.invariant.drop here)
      touched.samePlaces unpinned.disk_eq

theorem Undisturbed.fetchStep (event : FetchEvent) (fine : run.NoFailure event)
    (apart : run.Apart event) : Undisturbed (run.fetchStep event).2 ∧ run.FetchCorrect event := by
  have kept : Undisturbed (run.fetchStep event).2 ∧ ∀ handle, (run.fetchStep event).1 = .returned
      handle → handle ∈ (run.fetchStep event).2.held := by
    cases event with
    | plan pageId => exact undisturbed.plan apart
    | load index => exact undisturbed.load fine
    | mutate index offset bytes =>
      refine ⟨undisturbed.mutate index offset bytes, ?_⟩
      intro handle returned
      contradiction
    | drop index =>
      refine ⟨undisturbed.drop index, ?_⟩
      intro handle returned
      contradiction
  refine ⟨kept.1, ?_, undisturbed.readsCurrent event⟩
  intro handle returned
  exact kept.1.invariant.shows_held (kept.2 handle returned)

end

end Steps

section Interleavings

open GuardedRuns

/-- In every interleaving whose fetches keep apart, over a file that ends after
the last page handed out, each handle shows its page
when it is returned, and no page is read while a newer copy is in a frame. -/
theorem interleaved_fetches_correct (poolSize : Nat) (positive : 1 ≤ poolSize) (disk : DiskManager)
    (consistent : disk.Consistent) (hasWal : Bool) (events : List FetchEvent)
    (guarded : Along (fun run event => (fetchStep run event).2)
      (fun run event => run.NoFailure event ∧ run.Apart event)
      (start poolSize disk hasWal) events) :
    Along (fun run event => (fetchStep run event).2) FetchCorrect
      (start poolSize disk hasWal) events := by
  have undisturbed : Undisturbed (start poolSize disk hasWal) := ⟨(Sequential.start positive
    consistent.aligned hasWal).invariant, consistent.faults_eq, fun _ _ => Bool.false_ne_true⟩
  refine Along.of_invariant ?_ ?_ undisturbed guarded
  · intro run event holds condition
    exact (holds.fetchStep event condition.1 condition.2).1
  · intro run event holds condition
    exact (holds.fetchStep event condition.1 condition.2).2

theorem interleaved_fetches_correct_refetch :
    zeroDisk.Consistent ∧
      Along (fun run event => (fetchStep run event).2)
        (fun run event => run.NoFailure event ∧ run.Apart event)
        (start 1 zeroDisk true) [.plan 0, .load 0, .plan 0] ∧
      Along (fun run event => (fetchStep run event).2) FetchCorrect
        (start 1 zeroDisk true) [.plan 0, .load 0, .plan 0] := by
  have consistent : zeroDisk.Consistent := ⟨rfl, rfl⟩
  have guarded : Along (fun run event => (fetchStep run event).2) (fun run event => run.NoFailure
      event ∧ run.Apart event) (start 1 zeroDisk true) [.plan 0, .load 0, .plan 0] := by
    refine ⟨⟨?_, ?_⟩, ⟨?_, trivial⟩, ⟨?_, ?_⟩, trivial⟩
    · intro status failed
      contradiction
    · intro entry member
      contradiction
    · intro status failed
      have returned : (fetchStep (fetchStep (start 1 zeroDisk true)
          (.plan 0)).2 (.load 0)).1 = .returned ⟨0, 0⟩ := by decide +kernel
      contradiction
    · intro status failed
      have returned : (fetchStep (fetchStep (fetchStep (start 1 zeroDisk true)
          (.plan 0)).2 (.load 0)).2 (.plan 0)).1 = .returned ⟨0, 0⟩ := by decide +kernel
      contradiction
    intro entry member
    have none : (fetchStep (fetchStep (start 1 zeroDisk true)
        (.plan 0)).2 (.load 0)).2.pending = [] := by decide +kernel
    contradiction
  exact ⟨consistent, guarded,
    interleaved_fetches_correct 1 le_rfl zeroDisk consistent true _ guarded⟩

def emptyDisk : DiskManager :=
  { zeroDisk with
    file := zeroDisk.file ++ ((zeroDisk.emptyPage 1).image.storedPage 1).data ++
      ((zeroDisk.emptyPage 2).image.storedPage 2).data
    nextPageId := 3 }

/-- The page of the first client is changed and dropped, and the pool is full.
Another fetch takes its frame, and the page is fetched again before it has been
written back. -/
def refetchBeforeWriteBack : List FetchEvent :=
  [.plan 0, .load 0, .mutate 0 3 [7], .drop 0, .plan 1, .load 0, .drop 0, .plan 2, .plan 0]

def afterRefetch : PoolRun :=
  GuardedRuns.run (fun run event => (fetchStep run event).2)
    (start 2 emptyDisk false) refetchBeforeWriteBack

theorem not_shows_of_byte {pool : BufferPool} {map : Nat → Option PageImage} {frame pageId : Nat}
    (read : (pool.frames frame).page.image.data[3]? = some 0)
    (changed : (map pageId).bind (fun image => image.data[3]?) = some 7) :
    ¬ Shows pool map frame pageId := by
  rintro ⟨_, _, image, inMap, same⟩
  have equal := same.2 3 (Or.inl (by decide))
  rw [inMap, Option.bind_some, ← equal, read] at changed
  contradiction

/-- The second client is about to read page 0 into frame 1, frame 0 still has
its changed copy, and the read returns the old byte.  One evaluation of the run
serves all parts. -/
theorem afterRefetch_load :
    afterRefetch.pending[0]? = some ⟨1, 0⟩ ∧ 0 < afterRefetch.pool.poolSize ∧
      afterRefetch.pool.isDirtyFrame 0 = true ∧ (afterRefetch.pool.frames 0).pageId = 0 ∧
      (afterRefetch.fetchStep (.load 0)).1 = .returned ⟨1, 0⟩ ∧
      ((afterRefetch.fetchStep (.load 0)).2.pool.frames 1).page.image.data[3]? = some 0 ∧
      ((afterRefetch.fetchStep (.load 0)).2.map 0).bind (fun image => image.data[3]?) = some 7 := by
  decide +kernel

/-- A hit returns a frame that has not been loaded, and a page is read from
the disk while its frame waits to be written back. -/
theorem interleaved_fetches_not_correct :
    ((fetchStep (start 1 emptyDisk false) (.plan 0)).2.fetchStep (.plan 0)).1 = .returned ⟨0, 0⟩ ∧
      ¬ (fetchStep (start 1 emptyDisk false) (.plan 0)).2.FetchCorrect (.plan 0) ∧
      (afterRefetch.fetchStep (.load 0)).1 = .returned ⟨1, 0⟩ ∧
      ¬ afterRefetch.FetchCorrect (.load 0) ∧ ¬ afterRefetch.ReadsCurrent (.load 0) := by
  obtain ⟨waits, bound, dirty, page, returned, read, changed⟩ := afterRefetch_load
  refine ⟨by decide +kernel, ?_, returned, ?_, ?_⟩
  · intro correct
    have shows := (correct.1 ⟨0, 0⟩ (by decide +kernel)).1
    revert shows
    decide +kernel
  · intro correct
    exact not_shows_of_byte read changed (correct.1 ⟨1, 0⟩ returned)
  · intro current
    exact current ⟨1, 0⟩ waits 0 bound (by decide) dirty page

end Interleavings

end PoolRun

end KlyroDB
