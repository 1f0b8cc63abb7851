import KlyroDB.BufferPool
import KlyroDB.GuardedRuns
import Mathlib.Data.List.Induction

/-!
# The log is flushed before pages are written

A pool with a log manager flushes the log up to the LSN in a page's header
before it writes the page, on all three paths that write pages.  The log is
known only by what `flush_up_to` promises.
-/

namespace KlyroDB

/-- Which log records are durable after some calls of the pool: those that
`flush_up_to` covered, at least, and what is durable stays so. -/
structure LogDurability where
  durable : List PoolIo → Nat → Prop
  flushed : ∀ calls target lsn, lsn ≤ target → durable (calls ++ [.flushUpTo target]) lsn
  kept : ∀ calls call lsn, durable calls lsn → durable (calls ++ [call]) lsn

theorem LogDurability.durable_of_mem (log : LogDurability) {calls : List PoolIo} {target : Nat}
    (mem : PoolIo.flushUpTo target ∈ calls) {lsn : Nat}
    (covered : lsn ≤ target) : log.durable calls lsn := by
  induction calls using List.reverseRecOn with
  | nil => contradiction
  | append_singleton calls call ih =>
    rcases List.mem_append.mp mem with earlier | last
    · exact log.kept calls call lsn (ih earlier)
    · rw [← List.mem_singleton.mp last]
      exact log.flushed calls target lsn covered

/-- The calls and sections of calls that change a pool.  `load` is the section
of `fetch_page` under the mutex of the frame. -/
inductive PoolSection
  | fetchPage (pageId : Nat)
  | plan (pageId : Nat)
  | load (frame pageId : Nat)
  | allocatePage
  | flushPage (pageId : Nat)
  | flushAll (enumeration : Enumeration)
  | mutate (frame offset : Nat) (bytes : List UInt8)
  | unpin (frame : Nat)

namespace BufferPool

def sectionStep (pool : BufferPool) : PoolSection → BufferPool
  | .fetchPage pageId => (pool.fetchPage pageId).2
  | .plan pageId => (pool.planFetch pageId).2
  | .load frame pageId => (pool.loadFrame frame pageId).2
  | .allocatePage => pool.allocatePage.2
  | .flushPage pageId => (pool.flushPage pageId).2
  | .flushAll enumeration => (pool.flushAll enumeration).2
  | .mutate frame offset bytes => pool.mutate frame offset bytes
  | .unpin frame => pool.unpinFrame frame

/-- Every page in the trace that carries a valid LSN was written after the log
had been flushed up to it. -/
structure WriteAhead (pool : BufferPool) : Prop where
  hasWal : pool.hasWal = true
  flushed : ∀ before page after, pool.trace = before ++ .writePage page :: after → LSN.isValid
    page.image.lsn = true → .flushUpTo page.image.lsn ∈ before

structure SameTrace (pool after : BufferPool) : Prop where
  hasWal_eq : after.hasWal = pool.hasWal
  trace_eq : after.trace = pool.trace

theorem writeAhead_create (poolSize : Nat) (disk : DiskManager) :
    WriteAhead (create poolSize disk true) where
  hasWal := rfl
  flushed := by
    intro before page after split
    have empty : before ++ PoolIo.writePage page :: after = [] := split.symm
    simp at empty

section Steps

variable {pool after : BufferPool}

theorem WriteAhead.of_same (ahead : WriteAhead pool)
    (same : SameTrace pool after) : WriteAhead after := by
  refine ⟨same.hasWal_eq.trans ahead.hasWal, ?_⟩
  rw [same.trace_eq]
  exact ahead.flushed

/-- A further call keeps the order if it writes no page, or one that the log
was flushed for. -/
theorem WriteAhead.push (ahead : WriteAhead pool) {call : PoolIo}
    (hasWal : after.hasWal = true) (trace : after.trace = pool.trace ++ [call])
    (ready : ∀ page, call = .writePage page → LSN.isValid page.image.lsn = true →
      .flushUpTo page.image.lsn ∈ pool.trace) : WriteAhead after := by
  refine ⟨hasWal, ?_⟩
  intro before page rest split valid
  rw [trace] at split
  cases rest using List.reverseRecOn with
  | nil =>
    obtain ⟨sameTrace, sameCall⟩ := List.append_inj' split rfl
    rw [← sameTrace]
    exact ready page (List.singleton_inj.mp sameCall) valid
  | append_singleton rest last =>
    rw [← List.cons_append, ← List.append_assoc] at split
    exact ahead.flushed before page rest (List.append_inj' split rfl).1 valid

theorem sameTrace_unpinFrame (pool : BufferPool) (frame : Nat) :
    SameTrace pool (pool.unpinFrame frame) := by
  unfold unpinFrame unpinPage
  split_ifs
  · exact ⟨rfl, rfl⟩
  · exact ⟨rfl, rfl⟩

theorem sameTrace_abandonFetch (pool : BufferPool) (frame pageId : Nat) :
    SameTrace pool (pool.abandonFetch frame pageId) :=
  ⟨(pool.sameTrace_unpinFrame frame).hasWal_eq, (pool.sameTrace_unpinFrame frame).trace_eq⟩

theorem sameTrace_claimFrame (pool : BufferPool) (frame pageId : Nat) :
    SameTrace pool (pool.claimFrame frame pageId) := by
  unfold claimFrame
  split_ifs
  · exact ⟨rfl, rfl⟩
  · exact ⟨rfl, rfl⟩

theorem sameTrace_planFetch (pool : BufferPool) (pageId : Nat) :
    SameTrace pool (pool.planFetch pageId).2 := by
  unfold planFetch
  cases pool.pageTable.lookup pageId with
  | some frame => exact ⟨rfl, rfl⟩
  | none =>
    cases pool.freeList with
    | cons frame freeList =>
      exact ⟨(sameTrace_claimFrame _ frame pageId).hasWal_eq,
        (sameTrace_claimFrame _ frame pageId).trace_eq⟩
    | nil =>
      generalize pool.replacer.victim = choice
      obtain ⟨_ | frame, replacer⟩ := choice
      · exact ⟨rfl, rfl⟩
      · exact ⟨(sameTrace_claimFrame _ frame pageId).hasWal_eq,
          (sameTrace_claimFrame _ frame pageId).trace_eq⟩

theorem lsn_writePage (disk : DiskManager) (page : Page) :
    (disk.writePage page).2.1.image.lsn = page.image.lsn := by
  have stamped : (page.image.storedPage page.id).lsn = page.image.lsn :=
    ((PageImage.SameUpToChecksum.refl page.image).storedPage page.id).lsn_eq
  unfold DiskManager.writePage
  split_ifs
  · rfl
  cases disk.calculateOffset page.id with
  | error status => rfl
  | ok offset =>
    generalize disk.nextFault = fault
    obtain ⟨_ | count, later⟩ := fault
    · exact stamped
    · exact stamped

section

variable (ahead : WriteAhead pool)

include ahead

/-- The calls of a flush: the log up to the LSN of the page, if there is one,
and then the page. -/
theorem WriteAhead.flushFrame (frame : Nat) : WriteAhead (pool.flushFrame frame).2 := by
  have logged : ∃ middle : BufferPool, (if pool.hasWal && LSN.isValid
      (pool.frames frame).page.image.lsn then { pool with
          trace := pool.trace ++ [.flushUpTo (pool.frames frame).page.image.lsn] }
      else pool) = middle ∧ WriteAhead middle ∧
      (LSN.isValid (pool.frames frame).page.image.lsn = true →
        .flushUpTo (pool.frames frame).page.image.lsn ∈ middle.trace) := by
    refine ⟨_, rfl, ?_⟩
    by_cases valid : LSN.isValid (pool.frames frame).page.image.lsn = true
    · rw [if_pos (by rw [ahead.hasWal, valid]; rfl)]
      refine ⟨ahead.push ahead.hasWal rfl ?_, fun _ => by simp⟩
      intro page impossible
      contradiction
    · rw [if_neg (by rw [ahead.hasWal, Bool.true_and]; exact valid)]
      exact ⟨ahead, fun contrary => absurd contrary valid⟩
  obtain ⟨middle, same, middleAhead, covered⟩ := logged
  have stamped := lsn_writePage middle.disk (pool.frames frame).page
  unfold BufferPool.flushFrame
  dsimp only
  rw [same]
  generalize middle.disk.writePage (pool.frames frame).page = result at stamped
  obtain ⟨_ | _, page, disk⟩ := result
  all_goals
    refine middleAhead.push middleAhead.hasWal rfl ?_
    intro written sameCall valid
    cases sameCall
    rw [stamped] at valid ⊢
    exact covered valid

theorem WriteAhead.readFrame (frame pageId : Nat) : WriteAhead (pool.readFrame frame pageId).2 := by
  unfold BufferPool.readFrame
  have read (disk : DiskManager) : WriteAhead { pool with
        disk := disk
        trace := pool.trace ++ [PoolIo.readPage pageId] } := by
    refine ahead.push ahead.hasWal rfl ?_
    intro page impossible
    contradiction
  generalize pool.disk.readPage pageId = result
  obtain ⟨status | page, disk⟩ := result
  · exact (read disk).of_same (sameTrace_abandonFetch _ frame pageId)
  · exact (read disk).of_same ⟨rfl, rfl⟩

theorem WriteAhead.loadFrame (frame pageId : Nat) : WriteAhead (pool.loadFrame frame pageId).2 := by
  unfold BufferPool.loadFrame
  split_ifs
  · have flushed := ahead.flushFrame frame
    generalize pool.flushFrame frame = result at flushed
    obtain ⟨_ | status, middle⟩ := result
    · exact flushed.readFrame frame pageId
    · exact flushed.of_same (sameTrace_abandonFetch _ frame pageId)
  · exact ahead.readFrame frame pageId

theorem WriteAhead.fetchPage (pageId : Nat) : WriteAhead (pool.fetchPage pageId).2 := by
  have planned := ahead.of_same (pool.sameTrace_planFetch pageId)
  unfold BufferPool.fetchPage
  generalize pool.planFetch pageId = plan at planned
  obtain ⟨frame | _ | frame, middle⟩ := plan
  · exact planned
  · exact planned
  · exact planned.loadFrame frame pageId

theorem WriteAhead.allocatePage : WriteAhead pool.allocatePage.2 := by
  unfold BufferPool.allocatePage
  generalize pool.disk.allocatePage = allocated
  obtain ⟨status | pageId, disk⟩ := allocated
  · exact ahead.of_same ⟨rfl, rfl⟩
  have ready : WriteAhead { pool with disk := disk } := ahead.of_same ⟨rfl, rfl⟩
  have fetched := ready.fetchPage pageId
  dsimp only
  generalize ({ pool with disk := disk } : BufferPool).fetchPage pageId = result at fetched
  obtain ⟨status | frame, middle⟩ := result
  · exact fetched
  · exact fetched

theorem WriteAhead.flushPage (pageId : Nat) : WriteAhead (pool.flushPage pageId).2 := by
  unfold BufferPool.flushPage
  cases pool.pageTable.lookup pageId with
  | none => exact ahead
  | some frame =>
    dsimp only
    split_ifs
    · exact ahead.flushFrame frame
    · exact ahead

theorem WriteAhead.flushEntries (pages : List Nat) : WriteAhead (flushEntries pages pool).2 := by
  induction pages generalizing pool with
  | nil => exact ahead
  | cons pageId rest ih =>
    rw [BufferPool.flushEntries]
    cases pool.pageTable.lookup pageId with
    | none => exact ih ahead
    | some frame =>
      dsimp only
      split_ifs
      · have flushed := ahead.flushFrame frame
        generalize pool.flushFrame frame = result at flushed
        obtain ⟨_ | status, middle⟩ := result
        · exact ih flushed
        · exact flushed
      · exact ih ahead

theorem WriteAhead.step (event : PoolSection) : WriteAhead (pool.sectionStep event) := by
  cases event with
  | fetchPage pageId => exact ahead.fetchPage pageId
  | plan pageId => exact ahead.of_same (pool.sameTrace_planFetch pageId)
  | load frame pageId => exact ahead.loadFrame frame pageId
  | allocatePage => exact ahead.allocatePage
  | flushPage pageId => exact ahead.flushPage pageId
  | flushAll enumeration => exact ahead.flushEntries _
  | mutate frame offset bytes => exact ahead.of_same ⟨rfl, rfl⟩
  | unpin frame => exact ahead.of_same (pool.sameTrace_unpinFrame frame)

theorem WriteAhead.run (events : List PoolSection) :
    WriteAhead (GuardedRuns.run sectionStep pool events) := by
  induction events generalizing pool with
  | nil => exact ahead
  | cons event events ih => exact ih (ahead.step event)

end

end Steps

/-- Whenever a page with a valid LSN is written, all log records up to that
LSN are durable. -/
theorem durable_before_write (log : LogDurability) (poolSize : Nat)
    (disk : DiskManager) (events : List PoolSection) (before after : List PoolIo) (page : Page)
    (written : (GuardedRuns.run sectionStep (create poolSize disk true)
      events).trace = before ++ .writePage page :: after)
    (valid : LSN.isValid page.image.lsn = true) (lsn : Nat)
    (covered : lsn ≤ page.image.lsn) : log.durable before lsn := by
  have ahead := (writeAhead_create poolSize disk).run events
  exact log.durable_of_mem (ahead.flushed before page after written valid) covered

/-- A log in which nothing but `flush_up_to` makes records durable. -/
def flushedOnly : LogDurability where
  durable := fun calls lsn => ∃ target, .flushUpTo target ∈ calls ∧ lsn ≤ target
  flushed := fun calls target lsn covered => ⟨target, by simp, covered⟩
  kept := by
    rintro calls call lsn ⟨target, member, covered⟩
    exact ⟨target, List.mem_append_left _ member, covered⟩

def zeroPages : DiskManager :=
  ⟨36, le_rfl, List.replicate 72 0, 2, [], true, []⟩

def writtenLsn : PoolIo → Option Nat
  | .writePage page => some page.image.lsn
  | _ => none

/-- A page gets the LSN 5 and is written when another one is fetched. -/
theorem durable_before_write_evicted :
    ∃ before page after, (GuardedRuns.run sectionStep (create 1 zeroPages true)
        [.fetchPage 0, .mutate 0 12 [5], .unpin 0, .fetchPage 1]).trace =
          before ++ .writePage page :: after ∧
      page.image.lsn = 5 ∧ flushedOnly.durable before 5 := by
  have calls : (GuardedRuns.run sectionStep (create 1 zeroPages true) [.fetchPage 0, .mutate 0 12
      [5], .unpin 0, .fetchPage 1]).trace.map writtenLsn = [none, none] ++ some 5 :: [none] := by
    decide +kernel
  obtain ⟨before, rest, split, _, written⟩ := List.map_eq_append_iff.mp calls
  obtain ⟨call, after, rfl, lsn, _⟩ := List.map_eq_cons_iff.mp written
  cases call with
  | flushUpTo target | readPage pageId => exact absurd lsn (by simp [writtenLsn])
  | writePage page =>
    have five : page.image.lsn = 5 := Option.some.inj lsn
    refine ⟨before, page, after, split, five, ?_⟩
    refine durable_before_write flushedOnly 1 zeroPages _ before after page split ?_ 5 five.ge
    rw [five]
    rfl

end BufferPool

end KlyroDB
